/-
# The socket after a crash

Wherever a daemon was killed, the next one gets the path: a lock does not outlive its
daemon, and a socket that was left at the path is removed under the lock. And a daemon
that is stopped leaves nothing behind but the file of the lock.
-/

import Coreletd.Companion.SoleEndpoint

namespace Coreletd.Companion.UnixSocket

open Coreletd.Library

variable {α : Type} {pid : Nat} {id : FileId} {outcome : Outcome} {host host' : Host}
  {socketPath : Bytes}

/-- No daemon has the lock, its file can be used, and what is at the path was left there
by one. -/
structure Free (host : Host) : Prop where
  holder : host.holder = none
  sidecar : host.sidecar = none ∨ host.sidecar = some .regular
  path : ∀ other, host.path ≠ some (.other other)

/-! ## Calls that do not fail -/

/-- One call, and what follows its reply. -/
theorem alone_sys {request : Call} {reply : request.Reply} {rest : request.Reply → Prog α}
    (hanswer : Host.answer pid request outcome host = (reply, host')) :
    (sys request >>= rest).alone kernel pid outcome host =
      (rest reply).alone kernel pid outcome host' := by
  show (rest (Host.answer pid request outcome host).1).alone kernel pid outcome
    (Host.answer pid request outcome host).2 = _
  rw [hanswer]

theorem attempt_ok {possible : Bool} {result : Host} (hpossible : possible = true) :
    host.attempt { id } possible result = (.ok (), result) := by
  rw [Host.attempt, if_neg]
  simp [hpossible]

theorem answer_lstat {entry : Entry} (hpath : host.path = some entry) :
    Host.answer pid .lstat { id } host = (.found entry, host) := by
  rw [Host.answer, hpath]
  rfl

theorem answer_lstat_absent (hpath : host.path = none) :
    Host.answer pid .lstat { id } host = (.absent, host) := by
  rw [Host.answer, hpath]
  rfl

theorem answer_unlink {entry : Entry} (hpath : host.path = some entry) :
    Host.answer pid .unlink { id } host = (.ok (), { host with path := none }) :=
  attempt_ok (by rw [hpath]; rfl)

theorem answer_chown {entry : Entry} (hpath : host.path = some entry) :
    Host.answer pid .chown { id } host = (.ok (), host) :=
  attempt_ok (by rw [hpath]; rfl)

theorem answer_chmod {mode : Mode} (hpath : host.path = some (.socket id mode)) :
    Host.answer pid (.chmod mode) { id } host = (.ok (), host) := by
  have hsame : host.chmod mode = host := by
    rw [Host.chmod, hpath]
    dsimp only
    rw [← hpath]
  show host.attempt { id } host.path.isSome (host.chmod mode) = _
  rw [hsame]
  exact attempt_ok (by rw [hpath]; rfl)

/-- A call that has nothing to do with the path. -/
theorem answer_plain (pid : Nat) (id : FileId) (host : Host) :
    Host.answer pid .fchownLock { id } host = (.ok (), host) ∧
      Host.answer pid (.fchmodLock kUnixSocketMode) { id } host = (.ok (), host) ∧
      Host.answer pid .socket { id } host = (.ok (), host) ∧
      Host.answer pid .setNonblocking { id } host = (.ok (), host) :=
  ⟨attempt_ok rfl, attempt_ok rfl, attempt_ok rfl, attempt_ok rfl⟩

/-! ## A start, and a stop -/

theorem alone_takeLock (hfree : Free host) :
    (takeLock socketPath).alone kernel pid { id } host =
      (.ok (), { host with sidecar := some .regular, holder := some pid }) := by
  have hopened : Host.answer pid .openLock { id } host =
      (.ok (), { host with sidecar := some .regular }) := by
    have hsidecar : host.sidecar.getD .regular = .regular ∧
        decide (host.sidecar ≠ some .refused) = true := by
      rcases hfree.sidecar with hnone | hregular
      · rw [hnone]
        exact ⟨rfl, rfl⟩
      · rw [hregular]
        exact ⟨rfl, rfl⟩
    rw [Host.answer, hsidecar.1]
    exact attempt_ok hsidecar.2
  have hregular : Host.answer pid .fstatLock { id } { host with sidecar := some .regular } =
      (.ok true, { host with sidecar := some .regular }) := rfl
  have hlocked : Host.answer pid .flock { id } { host with sidecar := some .regular } =
      (.ok (), { host with sidecar := some .regular, holder := some pid }) :=
    attempt_ok (decide_eq_true hfree.holder)
  obtain ⟨howned, hmoded, -⟩ := answer_plain pid id { host with sidecar := some .regular }
  rw [takeLock]
  refine (alone_sys hopened).trans ((alone_sys hregular).trans ?_)
  exact (alone_sys howned).trans ((alone_sys hmoded).trans (alone_sys hlocked))

theorem alone_clearPath (hpath : ∀ other, host.path ≠ some (.other other)) :
    (clearPath socketPath).alone kernel pid { id } host = (.ok (), { host with path := none }) := by
  rw [clearPath]
  cases hentry : host.path with
  | none =>
      refine (alone_sys (answer_lstat_absent hentry)).trans ?_
      rw [← hentry]
      rfl
  | some entry =>
      cases entry with
      | other other => exact absurd hentry (hpath other)
      | socket stale mode =>
          exact (alone_sys (answer_lstat hentry)).trans (alone_sys (answer_unlink hentry))

/-- The socket is bound, and the mask as it was. -/
def bindTo (host : Host) (pid : Nat) (id : FileId) : Host :=
  { host with
    path := some (.socket id kUnixSocketMode)
    bound := Function.update host.bound pid (some id) }

theorem alone_bindSocket (hpath : host.path = none) :
    (bindSocket socketPath).alone kernel pid { id } host = (.ok (), bindTo host pid id) := by
  obtain ⟨-, -, hmade, -⟩ := answer_plain pid id host
  have hmasked : Host.answer pid (.umask 0o117) { id } host =
      (host.umask pid, { host with umask := Function.update host.umask pid 0o117 }) := rfl
  have hbound : Host.answer pid .bind { id }
      { host with umask := Function.update host.umask pid 0o117 } =
      (.ok (), { bindTo host pid id with umask := Function.update host.umask pid 0o117 }) := by
    refine (attempt_ok (by rw [hpath]; rfl)).trans ?_
    rw [bindTo]
    dsimp only
    rw [Function.update_self, show 0o777 &&& ~~~(0o117 : Mode) = kUnixSocketMode by decide]
  have hrestored : Host.answer pid (.umask (host.umask pid)) { id }
      { bindTo host pid id with umask := Function.update host.umask pid 0o117 } =
      (0o117, bindTo host pid id) := by
    dsimp only [Host.answer, bindTo]
    rw [Function.update_self, Function.update_idem, Function.update_eq_self]
  rw [bindSocket]
  refine (alone_sys hmade).trans ((alone_sys hmasked).trans ?_)
  exact (alone_sys hbound).trans (alone_sys hrestored)

theorem alone_openSocket (hpath : host.path = some (.socket id kUnixSocketMode)) :
    (openSocket socketPath).alone kernel pid { id } host =
      (.ok id, { host with listening := Function.update host.listening pid true }) := by
  have hlistens : Host.answer pid .listen { id } host =
      (.ok (), { host with listening := Function.update host.listening pid true }) :=
    attempt_ok rfl
  obtain ⟨-, -, -, hset⟩ :=
    answer_plain pid id { host with listening := Function.update host.listening pid true }
  rw [openSocket]
  refine (alone_sys (answer_lstat hpath)).trans ((alone_sys (answer_chown hpath)).trans ?_)
  exact (alone_sys (answer_chmod hpath)).trans ((alone_sys hlistens).trans (alone_sys hset))

/-- With the path to itself, a start of the server succeeds. -/
theorem alone_startUnix (pid : Nat) (id : FileId)
    (hlength : socketPath ≠ [] ∧ socketPath.length < kSunPathSize)
    (hfree : Free host) :
    ∃ host', (startUnix socketPath).alone kernel pid { id } host = (.ok id, host') ∧
      host'.path = some (.socket id kUnixSocketMode) ∧ host'.holder = some pid ∧
      host'.sidecar = some .regular := by
  let locked : Host := { host with sidecar := some .regular, holder := some pid }
  have hcleared : (clearPath socketPath).alone kernel pid { id } locked =
      (.ok (), { locked with path := none }) := alone_clearPath hfree.path
  have hbound : (bindSocket socketPath).alone kernel pid { id } { locked with path := none } =
      (.ok (), bindTo { locked with path := none } pid id) := alone_bindSocket rfl
  rw [startUnix, if_neg hlength.1, if_neg (Nat.not_le.mpr hlength.2)]
  rw [Program.alone_bind, alone_takeLock hfree]
  dsimp only
  rw [Program.alone_bind, hcleared]
  dsimp only
  rw [Program.alone_bind, hbound]
  exact ⟨_, alone_openSocket rfl, rfl, rfl, rfl⟩

/-- A daemon removes the socket it made, and then lets go of the lock. -/
theorem alone_shutdown (hpath : host.path = some (.socket id kUnixSocketMode))
    (hholder : host.holder = some pid) :
    ((shutdown id).alone kernel pid { id } host).2 =
      { host.closeListen pid with path := none, holder := none } := by
  have hclosed : Host.answer pid .closeListen { id } host = ((), host.closeListen pid) := rfl
  have hunlocked (host : Host) : Host.answer pid .closeLock { id } host = ((), host.unlock pid) :=
    rfl
  have hcleaned : (cleanupUnixPath id).alone kernel pid { id } (host.closeListen pid) =
      ((), { host.closeListen pid with path := none }) := by
    have hseen : Host.answer pid .lstat { id } (host.closeListen pid) =
        (.found (.socket id kUnixSocketMode), host.closeListen pid) := answer_lstat hpath
    have hremoved : Host.answer pid .unlink { id } (host.closeListen pid) =
        (.ok (), { host.closeListen pid with path := none }) := answer_unlink hpath
    rw [cleanupUnixPath]
    refine (alone_sys hseen).trans ?_
    dsimp only
    rw [if_pos rfl]
    exact alone_sys hremoved
  have hshut : (shutdown id).alone kernel pid { id } host =
      ((), ({ host.closeListen pid with path := none } : Host).unlock pid) := by
    rw [shutdown]
    refine (alone_sys hclosed).trans ?_
    rw [Program.alone_bind, hcleaned]
    exact congrArg (fun answered => ((), answered.2)) (hunlocked _)
  rw [hshut, Host.unlock]
  exact if_pos hholder

/-! ## The daemon -/

/-- **A crash locks nobody out.** Wherever the daemons before it were killed, while no
daemon has the lock and nothing but a socket is at the path, a daemon that is started
then and whose calls do not fail comes to serve. Once it is told to stop it goes, and
neither its socket nor its lock is left. -/
theorem takeover (hlength : socketPath ≠ [] ∧ socketPath.length < kSunPathSize) {m : Daemons}
    (hfree : Free m.shared) (hpid : m.running pid = none) (id : FileId) :
    ∃ calls,
      let turns : List DaemonTurn := .start pid :: List.replicate calls (.turn pid { id })
      let served := run (Machine.step kernel (daemon socketPath)) m turns
      Serving served pid ∧ served.shared.path = some (.socket id kUnixSocketMode) ∧
      ∃ more,
        let turns : List DaemonTurn := List.replicate more (.turn pid { id })
        let gone := run (Machine.step kernel (daemon socketPath)) served turns
        gone.running pid = none ∧ gone.shared.path = none ∧ Free gone.shared := by
  -- Up to the loop.
  let started : Daemons := m.step kernel (daemon socketPath) (.start pid : DaemonTurn)
  have hstarted : started = { m with
      running := Function.update m.running pid (some (daemon socketPath)) } := by
    show m.step kernel (daemon socketPath) (.start pid : DaemonTurn) = _
    rw [Machine.step, hpid]
  have hbegun : started.running pid = some (daemon socketPath) := by
    rw [hstarted]
    exact Function.update_self _ _ _
  have hvacant : Free started.shared := by
    rw [hstarted]
    exact hfree
  obtain ⟨host, hopened, hpath, hholder, hsidecar⟩ := alone_startUnix pid id hlength hvacant
  obtain ⟨calls, hrunning, hshared⟩ := Program.exists_turns kernel (daemon socketPath) { id }
    (startUnix socketPath) _ started hbegun
  rw [hopened] at hrunning hshared
  refine ⟨calls, ⟨_, hrunning⟩, (congrArg Host.path hshared).trans hpath, ?_⟩
  -- And from there to the end.
  generalize hserved : run (Machine.step kernel (daemon socketPath)) m
    (.start pid :: List.replicate calls (.turn pid { id })) = served
  have hserves : served.running pid =
      some ((sys .run >>= fun _ => shutdown id) >>= fun _ => pure (.ok ())) := by
    rw [← hserved]
    exact hrunning
  have hsame : served.shared = host := by
    rw [← hserved]
    exact hshared
  obtain ⟨more, hrunning', hshared'⟩ := Program.exists_turns kernel (daemon socketPath) { id }
    (sys .run >>= fun _ => shutdown id) _ served hserves
  have hshut : (sys .run >>= fun _ => shutdown id).alone kernel pid { id } host =
      (shutdown id).alone kernel pid { id } host := rfl
  rw [hsame, hshut, alone_shutdown hpath hholder] at hshared'
  generalize hstopped : run (Machine.step kernel (daemon socketPath)) served
    (List.replicate more (.turn pid { id })) = stopped at hrunning' hshared'
  have hexit : run (Machine.step kernel (daemon socketPath)) stopped
      [(.turn pid { id } : DaemonTurn)] = stopped.quit kernel pid := by
    show stopped.step kernel (daemon socketPath) (.turn pid { id } : DaemonTurn) = _
    rw [Machine.step, hrunning']
    rfl
  refine ⟨more + 1, ?_⟩
  dsimp only
  rw [List.replicate_succ', run_append, hstopped, hexit]
  refine ⟨Function.update_self _ _ _, ?_⟩
  have hleft : (stopped.quit kernel pid).shared = (stopped.shared.closeListen pid).unlock pid := rfl
  rw [hleft, hshared', Host.unlock, if_neg (by simp [Host.closeListen])]
  exact ⟨rfl, rfl, .inr hsidecar, fun other hother => by cases hother⟩

/-- A daemon is killed right behind its `bind`, and the next one finds what it left. -/
theorem takeover_sample :
    let path := utf8 "/run/coreletd/companion.sock"
    let crashed : List DaemonTurn :=
      .start 7 :: List.replicate 10 (.turn 7 { id := ⟨1, 40⟩ }) ++ [.kill 7]
    let left := run (Machine.step kernel (daemon path)) ⟨{}, fun _ => none⟩ crashed
    left.shared.path = some (.socket ⟨1, 40⟩ kUnixSocketMode) ∧
      ∃ calls,
        let turns : List DaemonTurn := .start 8 :: List.replicate calls (.turn 8 { id := ⟨1, 41⟩ })
        Serving (run (Machine.step kernel (daemon path)) left turns) 8 := by
  intro path crashed left
  have hleft : left.shared.path = some (.socket ⟨1, 40⟩ kUnixSocketMode) ∧
      left.shared.holder = none ∧ left.shared.sidecar = some .regular := by decide +kernel
  obtain ⟨hpath, hholder, hsidecar⟩ := hleft
  have hfree : Free left.shared :=
    ⟨hholder, .inr hsidecar, fun other hother => by rw [hpath] at hother; cases hother⟩
  have hnew : left.running 8 = none := Option.isNone_iff_eq_none.mp (by decide +kernel)
  have hlength : path ≠ [] ∧ path.length < kSunPathSize := by decide +kernel
  obtain ⟨calls, hserving, -⟩ := takeover hlength hfree hnew ⟨1, 41⟩
  exact ⟨hpath, calls, hserving⟩

end Coreletd.Companion.UnixSocket
