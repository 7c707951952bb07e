/-
# The channel slots

A group channel is a name and a 16-byte key, in one of eight slots that the
companion protocol addresses by index. A slot without a key is empty.
-/

import Coreletd.Crypto.Crypto
import Coreletd.Library.Text

namespace Coreletd.Mesh

open Coreletd.Crypto
open Coreletd.Library

def kPublicChannelKeyHex : Bytes := Text.ascii "8b3387e9c5cdea6ac9e5edbaa115cd72"

structure Channel where
  name : Bytes := []
  secret : Bytes := []
  deriving DecidableEq

namespace Channel

def valid (ch : Channel) : Bool := ch.secret.length = 16

/-- What packets carry instead of the key. -/
def hash (lib : Crypto.Library) (ch : Channel) : UInt8 :=
  if !ch.valid then 0 else (lib.sha256 ch.secret).headD 0

def publicChannel : Channel :=
  { name := Text.ascii "Public", secret := (unhex kPublicChannelKeyHex).getD [] }

end Channel

def kMaxChannels : Nat := 8

structure ChannelStore where
  /-- Empty for an in-memory store. -/
  path : Bytes := []
  channels : List Channel := Channel.publicChannel :: List.replicate (kMaxChannels - 1) {}
  dirty : Bool := false
  deriving DecidableEq

namespace ChannelStore

def set (s : ChannelStore) (index : Nat) (ch : Channel) : ChannelStore :=
  if s.channels.length ≤ index then s
  else { s with channels := s.channels.set index ch, dirty := true }

/-- Every channel whose hash matches, with its slot. -/
def byHash (lib : Crypto.Library) (s : ChannelStore) (hash : UInt8) : List (Nat × Channel) :=
  (s.channels.zipIdx.filter fun slot => slot.1.valid && slot.1.hash lib = hash).map Prod.swap

end ChannelStore

end Coreletd.Mesh
