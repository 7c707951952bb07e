/-
# The companion's contact commands

What an app's frames do to the contact store. The optional tail of an
add-or-update frame is read one field at a time, exactly as far as the frame
goes.
-/

import Coreletd.Mesh.Contacts

namespace Coreletd.Companion

open Coreletd.Crypto Coreletd.Mesh

def kContactPathField : Nat := 64
def kContactNameField : Nat := 32
def kNoPath : UInt8 := 0xFF

/-- The error codes these commands answer with. -/
inductive CommandError
  | illegalArg
  | tableFull
  | notFound
  deriving DecidableEq, Repr

/-- The tail of an add-or-update frame: name, timestamp and position, each read
only when the frame still holds it. -/
def readTail (r : Reader) : Option Bytes × Option UInt32 × Option (Int32 × Int32) :=
  let (name, r) :=
    if r.has kContactNameField then
      let (name, r) := r.fixedStr kContactNameField
      (some name, r)
    else (none, r)
  let (advTimestamp, r) :=
    if r.has 4 then
      let (advTimestamp, r) := r.u32
      (some advTimestamp, r)
    else (none, r)
  let position :=
    if r.has 8 then
      let (latE6, r) := r.i32
      let (lonE6, _) := r.i32
      some (latE6, lonE6)
    else none
  (name, advTimestamp, position)

/-- Write what the tail held into the contact. -/
def addUpdateTail (tail : Option Bytes × Option UInt32 × Option (Int32 × Int32)) (c : Contact) :
    Contact :=
  { c with
    name := tail.1.getD c.name
    advTimestamp := tail.2.1.getD c.advTimestamp
    latE6 := (tail.2.2.map Prod.fst).getD c.latE6
    lonE6 := (tail.2.2.map Prod.snd).getD c.lonE6 }

/-- The fixed part of the frame, up to and including the path field. -/
structure AddUpdateHead where
  pubkey : Bytes
  type : UInt8
  flags : UInt8
  pathLen : UInt8
  pathBytes : Bytes

def readAddUpdateHead (args : Bytes) : AddUpdateHead × Reader :=
  let (pubkey, r) := (Reader.ofBytes args).take kPubKeySize
  let (type, r) := r.u8
  let (flags, r) := r.u8
  let (pathLen, r) := r.u8
  let (pathBytes, r) := r.take kContactPathField
  ({ pubkey, type, flags, pathLen, pathBytes }, r)

/-- `pubkey(32) type(1) flags(1) path_len(1) path(64) name(32) last_advert(4)
[lat(4) lon(4)]`, with the path in a fixed field. -/
def cmdAddUpdateContact (s : ContactStore) (args : Bytes) : Except CommandError ContactStore :=
  let (head, r) := readAddUpdateHead args
  if !r.ok then .error .illegalArg
  else if head.pathLen ≠ kNoPath ∧ kContactPathField < head.pathLen.toNat then
    .error .illegalArg
  else
    match s.upsert head.pubkey with
    | none => .error .tableFull
    | some s =>
        let s := s.modify head.pubkey fun c => { c with type := head.type, flags := head.flags }
        let s :=
          if head.pathLen = kNoPath then (s.clearPath head.pubkey).2
          else (s.setPath head.pubkey (head.pathBytes.take head.pathLen.toNat)).2
        .ok (s.modify head.pubkey (addUpdateTail (readTail r)))

/-- The position an add-or-update frame carries, if it goes that far. -/
def framePosition (args : Bytes) : Option (Int32 × Int32) :=
  (readTail (readAddUpdateHead args).2).2.2

def cmdRemoveContact (s : ContactStore) (args : Bytes) : Except CommandError ContactStore :=
  let (pubkey, r) := (Reader.ofBytes args).take kPubKeySize
  if !r.ok then .error .illegalArg
  else
    match s.remove pubkey with
    | none => .error .notFound
    | some s => .ok s

/-- Forget the route so the next message floods. -/
def cmdResetPath (s : ContactStore) (args : Bytes) : Except CommandError ContactStore :=
  let (pubkey, r) := (Reader.ofBytes args).take kPubKeySize
  if !r.ok then .error .illegalArg
  else if (s.find pubkey).isNone then .error .notFound
  else .ok (s.clearPath pubkey).2

end Coreletd.Companion
