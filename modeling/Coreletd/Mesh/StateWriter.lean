/-
# When state is written

The stores keep what changed in memory, and the writer decides when it goes to
disk: a while after a change was announced, at every sweep, and on the way out.
A flush saves the stores that are dirty, one after the other; a save that fails
leaves its store for the next one.
-/

import Coreletd.Mesh.ChannelFile
import Coreletd.Mesh.Node

namespace Coreletd.Mesh

structure StateWriter where
  /-- A requested save waits for its timer. -/
  pending : Bool := false
  /-- The last flush wrote everything. -/
  healthy : Bool := true
  deriving DecidableEq

/-- How the three saves of a flush go. -/
structure FlushIo where
  contacts : SaveIo := {}
  channels : SaveIo := {}
  inbox : SaveIo := {}

namespace StateWriter

/-- A further request joins the one that waits. -/
def requestSave (w : StateWriter) : StateWriter := { w with pending := true }

/-- Save what is dirty, and report whether all of it got written. -/
def flush (io : FlushIo) (w : StateWriter) (n : Node) : Bool × StateWriter × Node :=
  let (contactsOk, contacts, files) :=
    if n.contacts.dirty then n.contacts.save io.contacts n.files else (true, n.contacts, n.files)
  let (channelsOk, channels, files) :=
    if n.channels.dirty then n.channels.save io.channels files else (true, n.channels, files)
  let (inboxOk, inbox, files) :=
    if n.inbox.dirty then n.inbox.save io.inbox files else (true, n.inbox, files)
  let ok := contactsOk && channelsOk && inboxOk
  (ok, { w with healthy := ok }, { n with contacts, channels, inbox, files })

/-- The timer of a requested save. -/
def onSaveTimer (io : FlushIo) (w : StateWriter) (n : Node) : StateWriter × Node :=
  if w.pending then ({ w with pending := false }.flush io n).2 else (w, n)

end StateWriter

end Coreletd.Mesh
