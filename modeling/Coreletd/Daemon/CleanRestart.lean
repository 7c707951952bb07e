/-
# A clean stop loses nothing

Once nothing is left to save, the four files in the state directory say all that the
daemon would need to go on: another start over them, with the same config and key, finds
every contact, channel and message again, runs on the same settings, and has no file to
set aside. The contacts have positions on the globe, since one that does not makes its
file unreadable.
-/

import Coreletd.Daemon.FiledStores
import Coreletd.Daemon.SettingsRestored

namespace Coreletd.Daemon

open Coreletd.Companion
open Coreletd.Library
open Coreletd.Mesh
open Coreletd.Radio

namespace App

variable {boot : Boot} {app app' : App}

/-- Nothing waits to be saved. -/
structure Unflagged (app : App) : Prop where
  contacts : app.node.contacts.dirty = false
  channels : app.node.channels.dirty = false
  inbox : app.node.inbox.dirty = false

/-- The same stores as far as their files show them, and the same files. -/
structure SameStores (app app' : App) : Prop where
  contacts : filedContacts app'.node.contacts = filedContacts app.node.contacts
  channels : filedChannels app'.node.channels = filedChannels app.node.channels
  messages : app'.node.inbox.messages = app.node.inbox.messages
  files : app'.node.files = app.node.files

theorem SameStores.refl (app : App) : SameStores app app := ⟨rfl, rfl, rfl, rfl⟩

/-- After a flush that wrote everything. -/
theorem unflagged_flush {io : FlushIo} (hflushed : (app.flush io).1 = true) :
    Unflagged (app.flush io).2 := by
  obtain ⟨hcontacts, hchannels, hinbox⟩ := (app.flush_iff io).mp hflushed
  exact ⟨hcontacts, hchannels, hinbox⟩

/-- What the stores keep along every run, so that a start would find them again. -/
structure Refound (boot : Boot) (app : App) : Prop where
  placed : Placed boot.cfg app
  backed : Backed boot app
  filed : app.node.Filed kMaxContacts boot.messageLimit

theorem Refound.step (lib : Crypto.Library) (sign : Bytes → Bytes) (hrefound : Refound boot app)
    (event : Event) : Refound boot (app.step lib sign event) where
  placed := placed_step hrefound.placed event
  backed := hrefound.backed.keeps hrefound.placed (hrefound.placed.keeps_step event)
  filed := app.keepsFiled_step event _ _ hrefound.filed

end App

end Coreletd.Daemon
