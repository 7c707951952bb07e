/-
# The settings a companion app changes

They are kept in a file of the state directory, which holds the keys that were
set and is read over the defaults at startup. A change is checked, written and
only then applied to the running node and its radio.
-/

import Coreletd.Daemon.AppConfig
import Coreletd.Mesh.Node
import Coreletd.Radio.Sx1262

namespace Coreletd.Daemon

open Coreletd.Crypto
open Coreletd.Library
open Coreletd.Mesh
open Coreletd.Radio

/-! ## The file -/

/-- A value as the file's syntax reads it back: what would be cut or trimmed goes
between quotes. -/
def quoted (v : Bytes) : Bytes :=
  let special (c : UInt8) : Bool :=
    c = Ini.hash || c = Ini.semicolon || c = Ini.quote || c = Ini.apostrophe
  let blank (c : Option UInt8) : Bool := c = some 32 || c = some 9
  if v ≠ [] && !v.any special && !blank v.head? && !blank v.getLast? then v
  else Ini.quote :: v ++ [Ini.quote]

def headerLines : List Bytes :=
  [utf8 "# coreletd settings v1",
    utf8 "#",
    utf8 "# What a companion app set: only the keys it changed, the rest left at",
    utf8 "# their defaults. Written by the daemon; edit it only while it is stopped."]

/-- The part of a key before its first dot, and the part behind it. -/
def splitKey (key : Bytes) : Bytes × Bytes :=
  (key.takeWhile (· ≠ Ini.dot),
    if Ini.dot ∈ key then (key.dropWhile (· ≠ Ini.dot)).drop 1 else key)

/-- The lines of the entries, behind a header wherever the section changes. -/
def entryLines : Bytes → List (Bytes × Bytes) → List Bytes
  | _, [] => []
  | inSection, (key, value) :: rest =>
      let (sec, name) := splitKey key
      (if sec ≠ inSection then [[], Ini.openBracket :: sec ++ [Ini.closeBracket]] else []) ++
        (name ++ utf8 " = " ++ quoted value) :: entryLines sec rest

/-- What `save` streams. -/
def settingsContent (stored : SortedMap Bytes Bytes) : Bytes :=
  (headerLines ++ entryLines [] stored.entries).flatMap fun line => line ++ [Ini.newline]

/-! ## The store -/

/-- What a change is applied to: the node, with what its advert says of it, and
the radio under its dispatcher. -/
structure Running where
  node : Node
  profile : NodeProfile
  radio : Sx1262

/-- What applying a change meets: the radio's answers to the dispatcher's pump,
and the replies of the radio's own hardware. -/
structure Applying where
  view : RadioView
  replies : List Reply := []

structure SettingsStore where
  cfg : Config
  path : Bytes
  /-- Each key set, and its value as `Config::get` spells it. -/
  stored : SortedMap Bytes Bytes := .empty
  running : Option Running := none

/-- A dotted config key and its new value. -/
abbrev Change : Type := Bytes × Bytes

inductive SettingsResult where
  | ok
  /-- A value the settings file would refuse too. -/
  | invalid
  /-- Checked, but not written, so not applied either. -/
  | ioError
  deriving DecidableEq

namespace SettingsStore

def make (cfg : Config) : SettingsStore := { cfg, path := cfg.settingsPath }

/-- The subsystems a change applies to, once they exist. -/
def attach (store : SettingsStore) (running : Running) : SettingsStore :=
  { store with running := some running }

/-- An entry of the file; an unknown key is ignored. -/
def loadEntry (store : SettingsStore) (entry : Bytes × Bytes) : Except Bytes SettingsStore :=
  if !Config.appKey entry.1 then .ok store
  else
    match store.cfg.set entry.1 entry.2 with
    | .error why => .error (store.path ++ utf8 ": " ++ why)
    | .ok cfg =>
        .ok { store with cfg, stored := store.stored.assign entry.1 (cfg.get entry.1) }

/-- Apply the file over the defaults; there need not be one. -/
def load (fs : FileSystem) (store : SettingsStore) : Except Bytes SettingsStore :=
  if fs store.path = none then .ok store
  else
    match Ini.load fs store.path with
    | .error why => .error why
    | .ok ini =>
        match ini.entries.entries.foldlM loadEntry store with
        | .error why => .error why
        | .ok store =>
            match store.cfg.validate with
            | .error why => .error (store.path ++ utf8 ": " ++ why)
            | .ok () => .ok store

/-- The first half of `set`: the config and the map with the changes made, or
nothing when one of them is refused. -/
def accept (store : SettingsStore) (changes : List Change) :
    Option (Config × SortedMap Bytes Bytes) :=
  match changes.foldlM (fun cfg change => cfg.set change.1 change.2) store.cfg with
  | .error _ => none
  | .ok next =>
      match next.validate with
      | .error _ => none
      | .ok () =>
          some (next, changes.foldl
            (fun stored change => stored.assign change.1 (next.get change.1)) store.stored)

/-- Hand the settings to the node, and the radio's to it by way of the
dispatcher. -/
def apply (met : Applying) (store : SettingsStore) : SettingsStore :=
  let cfg := store.cfg
  { store with
    running := store.running.map fun running =>
      { node :=
          { running.node with
            cfg := { running.node.cfg with relay := cfg.node.relay }
            air := running.node.air.reconfigure ReliableSender.onTxResult met.view
              cfg.radio.dutyCyclePct }
        profile :=
          { running.profile with
            name := cfg.profile.name, latE6 := cfg.profile.latE6, lonE6 := cfg.profile.lonE6 }
        radio :=
          if cfg.radio = running.radio.params then running.radio
          else running.radio.step (.reconfigure cfg.radio, met.replies) } }

/-- A change from the app: checked, written, then applied. -/
def set (io : SaveIo) (met : Applying) (fs : FileSystem) (store : SettingsStore)
    (changes : List Change) : SettingsResult × SettingsStore × FileSystem :=
  match store.accept changes with
  | none => (.invalid, store, fs)
  | some (next, stored) =>
      match saveContent io fs store.path (settingsContent stored) false with
      | (false, fs) => (.ioError, store, fs)
      | (true, fs) => (.ok, apply met { store with cfg := next, stored }, fs)

end SettingsStore

end Coreletd.Daemon
