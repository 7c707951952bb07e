import Coreletd.Companion.AckRule
import Coreletd.Companion.Answers
import Coreletd.Companion.ChannelSlots
import Coreletd.Companion.CleanStream
import Coreletd.Companion.Collection
import Coreletd.Companion.Commands
import Coreletd.Companion.ContactRuns
import Coreletd.Companion.ContactSync
import Coreletd.Companion.Contacts
import Coreletd.Companion.Deframing
import Coreletd.Companion.Frames
import Coreletd.Companion.Pushes
import Coreletd.Companion.RoundTrip
import Coreletd.Companion.SendText
import Coreletd.Companion.Server
import Coreletd.Companion.Session
import Coreletd.Companion.SoleEndpoint
import Coreletd.Companion.StoredRoutes
import Coreletd.Companion.Takeover
import Coreletd.Companion.UnixSocket
import Coreletd.Crypto.Crypto
import Coreletd.Crypto.Identity
import Coreletd.Daemon.AcceptedAdverts
import Coreletd.Daemon.Announcements
import Coreletd.Daemon.AnswersInTurn
import Coreletd.Daemon.App
import Coreletd.Daemon.AppConfig
import Coreletd.Daemon.AppSteps
import Coreletd.Daemon.CleanRestart
import Coreletd.Daemon.CleanStores
import Coreletd.Daemon.Config
import Coreletd.Daemon.ConfigFile
import Coreletd.Daemon.EventLoop
import Coreletd.Daemon.FiledStores
import Coreletd.Daemon.LoadState
import Coreletd.Daemon.NodeKey
import Coreletd.Daemon.PrintedReals
import Coreletd.Daemon.ReadBack
import Coreletd.Daemon.SettingRows
import Coreletd.Daemon.Settings
import Coreletd.Daemon.SettingsChange
import Coreletd.Daemon.SettingsFile
import Coreletd.Daemon.SettingsInForce
import Coreletd.Daemon.SettingsRestart
import Coreletd.Daemon.SettingsRestored
import Coreletd.Daemon.StateStores
import Coreletd.Daemon.TimerRuns
import Coreletd.Daemon.Timers
import Coreletd.Daemon.WriteBack
import Coreletd.Library.Binary64
import Coreletd.Library.Calendar
import Coreletd.Library.Disk
import Coreletd.Library.Doubles
import Coreletd.Library.Incremental
import Coreletd.Library.Interleaving
import Coreletd.Library.Newest
import Coreletd.Library.Numerals
import Coreletd.Library.Runs
import Coreletd.Library.SerialClock
import Coreletd.Library.SeventeenDigits
import Coreletd.Library.SortedMap
import Coreletd.Library.Text
import Coreletd.Library.UpperBound
import Coreletd.Mesh.AckAgreement
import Coreletd.Mesh.AckReports
import Coreletd.Mesh.AdvertOrder
import Coreletd.Mesh.AirtimeBudget
import Coreletd.Mesh.Authentic
import Coreletd.Mesh.ChannelFile
import Coreletd.Mesh.ChannelReload
import Coreletd.Mesh.Channels
import Coreletd.Mesh.ContactFile
import Coreletd.Mesh.Contacts
import Coreletd.Mesh.Dedup
import Coreletd.Mesh.Delivery
import Coreletd.Mesh.Dispatcher
import Coreletd.Mesh.DispatcherSteps
import Coreletd.Mesh.Echo
import Coreletd.Mesh.ForcedSend
import Coreletd.Mesh.ForwardDelay
import Coreletd.Mesh.Inbox
import Coreletd.Mesh.InboxFile
import Coreletd.Mesh.LearnedRoute
import Coreletd.Mesh.MailRuns
import Coreletd.Mesh.Node
import Coreletd.Mesh.NodeActs
import Coreletd.Mesh.NodeStart
import Coreletd.Mesh.NodeSteps
import Coreletd.Mesh.PumpEntry
import Coreletd.Mesh.PumpExits
import Coreletd.Mesh.QueueWakes
import Coreletd.Mesh.Reception
import Coreletd.Mesh.Record
import Coreletd.Mesh.RelayPolicy
import Coreletd.Mesh.ReplyChains
import Coreletd.Mesh.RetryLadder
import Coreletd.Mesh.SelfAdvert
import Coreletd.Mesh.SendRecord
import Coreletd.Mesh.Sender
import Coreletd.Mesh.SenderSteps
import Coreletd.Mesh.SentWhenDue
import Coreletd.Mesh.StateWriter
import Coreletd.Mesh.StoreChanges
import Coreletd.Mesh.StoredMail
import Coreletd.Mesh.TextKinds
import Coreletd.Mesh.TransmitFreshness
import Coreletd.Mesh.TransmitOrder
import Coreletd.Mesh.TransmitResult
import Coreletd.Mesh.Transmittable
import Coreletd.Mesh.WholeLoads
import Coreletd.Mesh.WireLimits
import Coreletd.Proto.Envelopes
import Coreletd.Proto.Packet
import Coreletd.Proto.PacketCodec
import Coreletd.Proto.Padding
import Coreletd.Proto.Payloads
import Coreletd.Proto.ReturnedPaths
import Coreletd.Proto.TextReadings
import Coreletd.Radio.DriverRuns
import Coreletd.Radio.DriverStates
import Coreletd.Radio.DutyCycle
import Coreletd.Radio.ExactWait
import Coreletd.Radio.Params
import Coreletd.Radio.ParamsInForce
import Coreletd.Radio.Receptions
import Coreletd.Radio.Sx1262
import Coreletd.Radio.Sx1262Steps
import Coreletd.Radio.TransmitCharge
import Coreletd.Util.Bytes
import Coreletd.Util.Durability
import Coreletd.Util.Ini
import Coreletd.Util.IniLines
import Coreletd.Util.Persist
