/-
# The channel file

One record for each slot with a key: its index, the key in hex and the name on one
line. A loaded file says what is in every slot, so one without a record is empty,
the first included.
-/

import Coreletd.Mesh.Channels
import Coreletd.Mesh.Contacts

namespace Coreletd.Mesh

open Coreletd.Library

namespace ChannelStore

def headerLine : Bytes := Text.ascii "# coreletd channels v1"

def columnsLine : Bytes := Text.ascii "# index\tkey\tname"

def recordFields (index : Nat) (ch : Channel) : List Bytes :=
  [Text.decimal index, hex ch.secret, ContactStore.sanitise ch.name]

/-- The lines `save` streams, each ended by a line feed. -/
def fileLines (s : ChannelStore) : List Bytes :=
  headerLine :: columnsLine ::
    (s.channels.zipIdx.filter (·.1.valid)).map fun slot =>
      joinFields (recordFields slot.2 slot.1)

def fileContent (s : ChannelStore) : Bytes := s.fileLines.flatMap fun line => line ++ [lf]

/-- The dirty flag is cleared only once the replacement is installed. -/
def save (io : SaveIo) (s : ChannelStore) (fs : FileSystem) : Bool × ChannelStore × FileSystem :=
  match saveContent io fs s.path s.fileContent true with
  | (true, fs) => (true, { s with dirty := false }, fs)
  | (false, fs) => (false, s, fs)

/-- A file as far as it has been read. -/
structure Loading where
  sawHeader : Bool := false
  channels : List Channel := List.replicate kMaxChannels {}
  occupied : List Bool := List.replicate kMaxChannels false

/-- One record line against the slots loaded so far. -/
def loadRecord (loading : Loading) (line : Bytes) : Except String Loading :=
  match splitFields line 3 with
  | some [index, key, name] =>
      match parseUnsigned index (kMaxChannels - 1) with
      | none => .error "invalid slot"
      | some slot =>
          if loading.occupied.getD slot false then .error "duplicate slot"
          else
            match unhex key with
            | none => .error "channel key must be 16 bytes"
            | some secret =>
                if secret.length ≠ 16 then .error "channel key must be 16 bytes"
                else .ok
                  { loading with
                    channels := loading.channels.set slot { name, secret }
                    occupied := loading.occupied.set slot true }
  | _ => .error "malformed record"

/-- One turn of the loading loop. -/
def loadLine (loading : Loading) (line : Bytes) : Except String Loading :=
  if line = headerLine then .ok { loading with sawHeader := true }
  else if line = [] ∨ line.head? = some 35 then .ok loading
  else loadRecord loading line

/-- Read the store's file. `badAfter` is a read error behind that many lines. -/
def load (s : ChannelStore) (fs : FileSystem) (badAfter : Option Nat := none) :
    LoadResult × ChannelStore :=
  if s.path = [] then (.missing, s)
  else
    match fs s.path with
    | none => (.missing, s)
    | some content =>
        let all := Text.lines lf content
        let seen := match badAfter with
          | some n => all.take n
          | none => all
        match seen.foldlM loadLine {} with
        | .error _ => (.corrupt, s)
        | .ok loading =>
            if badAfter.isSome then (.corrupt, s)
            else if !loading.sawHeader then (.corrupt, s)
            else (.loaded, { s with channels := loading.channels, dirty := false })

end ChannelStore

end Coreletd.Mesh
