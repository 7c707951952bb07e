/-
# The companion's socket

A daemon that listens on a Unix socket first takes a lock on a file beside it. A socket
at the path was then left behind by a daemon that is gone, and is removed; anything else
there is not touched. On the way out a daemon removes its own socket, if it is still the
one that it made, and only then lets go of the lock.

The calls of the start are made one at a time, since any number of daemons may be
starting or stopping at the same path, and any of them may be killed in between.
-/

import Coreletd.Library.Interleaving
import Coreletd.Util.Ini

namespace Coreletd.Companion

open Coreletd.Library

/-! ## What the calls see -/

abbrev Mode := UInt32

/-- A file, by its device and its number there. -/
structure FileId where
  dev : UInt64 := 0
  ino : UInt64 := 0
  deriving DecidableEq

/-- What a path leads to. -/
inductive Entry where
  | socket (id : FileId) (mode : Mode)
  | other (id : FileId)
  deriving DecidableEq

def Entry.id : Entry → FileId
  | socket id _ => id
  | other id => id

/-- What is at the path of the lock. -/
inductive Sidecar where
  | regular
  /-- It can be opened, as a pipe can. -/
  | irregular
  /-- A link or a directory. -/
  | refused
  deriving DecidableEq

/-- The file system around the socket's path, and what the daemons hold. -/
structure Host where
  path : Option Entry := none
  sidecar : Option Sidecar := none
  /-- Whose lock is on the sidecar. -/
  holder : Option Nat := none
  /-- The file that a daemon's listening socket is bound to. -/
  bound : Nat → Option FileId := fun _ => none
  listening : Nat → Bool := fun _ => false
  umask : Nat → Mode := fun _ => 0o022

/-- The system calls of `start_unix`, `shutdown` and what is between them. -/
inductive Call where
  | openLock
  | fstatLock
  | fchownLock
  | fchmodLock (mode : Mode)
  | flock
  | closeLock
  | lstat
  | unlink
  | socket
  | umask (mask : Mode)
  | bind
  | chown
  | chmod (mode : Mode)
  | listen
  | setNonblocking
  | closeListen
  /-- `EventLoop::run`, up to the request to stop. -/
  | run
  deriving DecidableEq

inductive Stat where
  | found (entry : Entry)
  | absent
  | failed (why : Bytes)
  deriving DecidableEq

/-- A call that fails says why. -/
abbrev Call.Reply : Call → Type
  | .fstatLock => Except Bytes Bool
  | .lstat => Stat
  | .umask _ => Mode
  | .closeLock | .closeListen | .run => Unit
  | _ => Except Bytes Unit

/-- Whether a call fails for a reason of its own, and the number of a file it makes. -/
structure Outcome where
  fails : Bool := false
  why : Bytes := []
  id : FileId := {}

namespace Host

/-- Succeeds with a new state, unless the call fails. -/
def attempt (host : Host) (outcome : Outcome) (possible : Bool) (result : Host) :
    Except Bytes Unit × Host :=
  if outcome.fails ∨ possible = false then (.error outcome.why, host) else (.ok (), result)

def chmod (host : Host) (mode : Mode) : Host :=
  match host.path with
  | some (.socket id _) => { host with path := some (.socket id mode) }
  | _ => host

/-- The lock goes, if it is there. -/
def unlock (host : Host) (pid : Nat) : Host :=
  if host.holder = some pid then { host with holder := none } else host

/-- The listening socket goes; the path stays. -/
def closeListen (host : Host) (pid : Nat) : Host :=
  { host with
    bound := Function.update host.bound pid none
    listening := Function.update host.listening pid false }

def answer (pid : Nat) : (request : Call) → Outcome → Host → request.Reply × Host
  | .openLock, outcome, host =>
      host.attempt outcome (host.sidecar ≠ some .refused)
        { host with sidecar := some (host.sidecar.getD .regular) }
  | .fstatLock, outcome, host =>
      (if outcome.fails then .error outcome.why else .ok (host.sidecar = some .regular), host)
  | .fchownLock, outcome, host => host.attempt outcome true host
  | .fchmodLock _, outcome, host => host.attempt outcome true host
  | .flock, outcome, host =>
      host.attempt outcome (host.holder = none) { host with holder := some pid }
  | .closeLock, _, host => ((), host.unlock pid)
  | .lstat, outcome, host =>
      (if outcome.fails then .failed outcome.why
        else match host.path with
          | none => .absent
          | some entry => .found entry, host)
  | .unlink, outcome, host => host.attempt outcome host.path.isSome { host with path := none }
  | .socket, outcome, host => host.attempt outcome true host
  | .umask mask, _, host => (host.umask pid, { host with umask := Function.update host.umask pid mask })
  | .bind, outcome, host =>
      host.attempt outcome host.path.isNone { host with
        path := some (.socket outcome.id (0o777 &&& ~~~host.umask pid))
        bound := Function.update host.bound pid (some outcome.id) }
  | .chown, outcome, host => host.attempt outcome host.path.isSome host
  | .chmod mode, outcome, host => host.attempt outcome host.path.isSome (host.chmod mode)
  | .listen, outcome, host =>
      host.attempt outcome true { host with listening := Function.update host.listening pid true }
  | .setNonblocking, outcome, host => host.attempt outcome true host
  | .closeListen, _, host => ((), host.closeListen pid)
  | .run, _, host => ((), host)

/-- What the system takes back from a daemon that is gone. -/
def quit (pid : Nat) (host : Host) : Host := (host.closeListen pid).unlock pid

/-- While no daemon has the lock, others may do as they like at the path. -/
def outside (entry : Option Entry) (host : Host) : Host :=
  if host.holder = none then { host with path := entry } else host

end Host

def kernel : Kernel Nat Host Call Call.Reply Outcome (Option Entry) where
  answer := Host.answer
  quit := Host.quit
  outside := Host.outside

/-! ## The server's start and its end -/

namespace UnixSocket

abbrev Prog (Result : Type) := Program Call Call.Reply Result

/-- A system call. -/
def sys (request : Call) : Prog request.Reply := Program.perform request

/-- 0660. -/
def kUnixSocketMode : Mode := 0o660

/-- What fits a socket's address, with its terminator. -/
def kSunPathSize : Nat := 108

/-- A failed start lets go of the lock. -/
def giveUp {α : Type} (error : Bytes) : Prog (Except Bytes α) := do
  sys .closeLock
  return .error error

/-- The lock on the sidecar, which stays there between the daemons. -/
def takeLock (socketPath : Bytes) : Prog (Except Bytes Unit) := do
  let lockPath := socketPath ++ utf8 ".lock"
  match ← sys .openLock with
  | .error why => return .error (utf8 "open " ++ lockPath ++ utf8 ": " ++ why)
  | .ok () =>
  match ← sys .fstatLock with
  | .error _ | .ok false =>
      giveUp (utf8 "companion socket lock is not a regular file: " ++ lockPath)
  | .ok true =>
  match ← sys .fchownLock with
  | .error why => giveUp (utf8 "chown " ++ lockPath ++ utf8 ": " ++ why)
  | .ok () =>
  match ← sys (.fchmodLock kUnixSocketMode) with
  | .error why => giveUp (utf8 "chmod " ++ lockPath ++ utf8 ": " ++ why)
  | .ok () =>
  match ← sys .flock with
  | .error _ => giveUp (utf8 "companion socket is already in use: " ++ socketPath)
  | .ok () => return .ok ()

/-- Under the lock, a socket at the path is a stale one. -/
def clearPath (socketPath : Bytes) : Prog (Except Bytes Unit) := do
  match ← sys .lstat with
  | .absent => return .ok ()
  | .failed why => giveUp (utf8 "inspect " ++ socketPath ++ utf8 ": " ++ why)
  | .found (.other _) => giveUp (utf8 "refusing to replace non-socket path " ++ socketPath)
  | .found (.socket _ _) =>
  match ← sys .unlink with
  | .error why => giveUp (utf8 "remove stale socket " ++ socketPath ++ utf8 ": " ++ why)
  | .ok () => return .ok ()

/-- The socket is bound under a mask that keeps others out from the first moment. -/
def bindSocket (socketPath : Bytes) : Prog (Except Bytes Unit) := do
  match ← sys .socket with
  | .error why => giveUp (utf8 "socket: " ++ why)
  | .ok () =>
  let oldUmask ← sys (.umask 0o117)
  let bindResult ← sys .bind
  let _ ← sys (.umask oldUmask)
  match bindResult with
  | .error why =>
      sys .closeListen
      giveUp (utf8 "bind " ++ socketPath ++ utf8 ": " ++ why)
  | .ok () => return .ok ()

/-- `cleanup_unix_path`, of a server that bound the path. -/
def cleanupUnixPath (mine : FileId) : Prog Unit := do
  match ← sys .lstat with
  | .found (.socket id _) =>
      if id = mine then
        let _ ← sys .unlink
        return ()
      else return ()
  | _ => return ()

/-- A start that fails behind `bind`. -/
def abandon (mine : FileId) (error : Bytes) : Prog (Except Bytes FileId) := do
  sys .closeListen
  cleanupUnixPath mine
  giveUp error

/-- What is left to do once the path is bound. It is not known which file that is until
it has been looked at. -/
def openSocket (socketPath : Bytes) : Prog (Except Bytes FileId) := do
  match ← sys .lstat with
  | .absent =>
      abandon {} (utf8 "inspect bound socket " ++ socketPath ++
        utf8 ": No such file or directory")
  | .failed why => abandon {} (utf8 "inspect bound socket " ++ socketPath ++ utf8 ": " ++ why)
  | .found entry =>
  let mine := entry.id
  match ← sys .chown with
  | .error why => abandon mine (utf8 "chown " ++ socketPath ++ utf8 ": " ++ why)
  | .ok () =>
  match ← sys (.chmod kUnixSocketMode) with
  | .error why => abandon mine (utf8 "chmod " ++ socketPath ++ utf8 ": " ++ why)
  | .ok () =>
  match ← sys .listen with
  | .error why => abandon mine (utf8 "listen: " ++ why)
  | .ok () =>
  match ← sys .setNonblocking with
  | .error why => abandon mine (utf8 "fcntl: " ++ why)
  | .ok () => return .ok mine

/-- `start_unix`: the file of the socket it listens on, or the error. -/
def startUnix (socketPath : Bytes) : Prog (Except Bytes FileId) :=
  if socketPath = [] then return .error (utf8 "companion socket path is empty")
  else if kSunPathSize ≤ socketPath.length then
    return .error (utf8 "companion socket path is too long: " ++ socketPath)
  else do
    match ← takeLock socketPath with
    | .error error => return .error error
    | .ok () =>
    match ← clearPath socketPath with
    | .error error => return .error error
    | .ok () =>
    match ← bindSocket socketPath with
    | .error error => return .error error
    | .ok () => openSocket socketPath

def shutdown (mine : FileId) : Prog Unit := do
  sys .closeListen
  cleanupUnixPath mine
  sys .closeLock

/-- A daemon, as far as its socket goes: it gives up over a server that does not start,
and shuts it down after its loop. -/
def daemon (socketPath : Bytes) : Prog (Except Bytes Unit) := do
  match ← startUnix socketPath with
  | .error error => return .error error
  | .ok mine =>
  sys .run
  shutdown mine
  return .ok ()

end UnixSocket

end Coreletd.Companion
