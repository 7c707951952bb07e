/-
# One daemon at the socket

However many daemons are started at one path, and however their calls interleave, fail
or are cut short, the one that listens has the path: it leads to the socket of that
daemon, with the mode that keeps others out, and no other daemon gets past the lock.
What is at the path and is not a socket stays there.
-/

import Coreletd.Companion.UnixSocket

namespace Coreletd.Companion.UnixSocket

open Coreletd.Library

/-! ## The rules -/

/-- What one daemon's call may do while others go on. -/
structure Within (pid : Nat) (s s' : Host) : Prop where
  bound : ∀ other, other ≠ pid → s'.bound other = s.bound other
  listening : ∀ other, other ≠ pid → s'.listening other = s.listening other
  umask : ∀ other, other ≠ pid → s'.umask other = s.umask other
  holder : ∀ other, other ≠ pid → (s'.holder = some other ↔ s.holder = some other)
  /-- Without the lock it leaves the path alone. -/
  path : s.holder ≠ some pid → s'.path = s.path
  /-- And even with the lock what is not a socket. -/
  kept : ∀ id, s.path = some (.other id) → s'.path = s.path

/-- A daemon that has nothing. -/
structure Idle (pid : Nat) (s : Host) : Prop where
  holder : s.holder ≠ some pid
  bound : s.bound pid = none
  listening : s.listening pid = false

/-- A daemon that holds the lock. -/
structure Holds (pid : Nat) (bound : Option FileId → Prop) (listening : Bool)
    (more : Option Entry → Mode → Prop) (s : Host) : Prop where
  holder : s.holder = some pid
  bound : bound (s.bound pid)
  listening : s.listening pid = listening
  more : more s.path (s.umask pid)

/-- What is bound is bound under the lock, and at the path. -/
structure Settled (s : Host) : Prop where
  bound : ∀ pid id, s.bound pid = some id →
    s.holder = some pid ∧ s.path = some (.socket id kUnixSocketMode)
  listening : ∀ pid, s.listening pid = true → s.bound pid ≠ none

/-- What a call asks for. -/
def Needs (pid : Nat) : Call → Host → Prop
  | .unlink, s =>
      Holds pid (· = none) false (fun path _ => ∃ id mode, path = some (.socket id mode)) s
  | .bind, s => Holds pid (· = none) false (fun path mask => path = none ∧ mask = 0o117) s
  | .chmod mode, s => mode = kUnixSocketMode ∧ s.bound pid ≠ none
  | .run, s => s.listening pid = true
  | _, _ => True

variable {pid other : Nat} {s s' : Host} {bound bound' : Option FileId → Prop} {listening : Bool}
  {more more' : Option Entry → Mode → Prop}

theorem Within.refl (pid : Nat) (s : Host) : Within pid s s :=
  ⟨fun _ _ => rfl, fun _ _ => rfl, fun _ _ => rfl, fun _ _ => Iff.rfl, fun _ => rfl, fun _ _ => rfl⟩

/-- A call that leaves the path. -/
theorem Within.of_path (hbound : ∀ other, other ≠ pid → s'.bound other = s.bound other)
    (hlistening : ∀ other, other ≠ pid → s'.listening other = s.listening other)
    (humask : ∀ other, other ≠ pid → s'.umask other = s.umask other)
    (hholder : ∀ other, other ≠ pid → (s'.holder = some other ↔ s.holder = some other))
    (hpath : s'.path = s.path) : Within pid s s' :=
  ⟨hbound, hlistening, humask, hholder, fun _ => hpath, fun _ _ => hpath⟩

/-! ## What a daemon lets go of -/

theorem unlock_eq (s : Host) (pid : Nat) : (s.unlock pid).path = s.path ∧
    (s.unlock pid).bound = s.bound ∧ (s.unlock pid).listening = s.listening ∧
    (s.unlock pid).umask = s.umask := by
  rw [Host.unlock]
  split <;> exact ⟨rfl, rfl, rfl, rfl⟩

theorem holder_unlock_self (s : Host) (pid : Nat) : (s.unlock pid).holder ≠ some pid := by
  rw [Host.unlock]
  split
  · simp
  next hfree => exact hfree

theorem holder_unlock (s : Host) (hother : other ≠ pid) :
    (s.unlock pid).holder = some other ↔ s.holder = some other := by
  rw [Host.unlock]
  split
  next hheld =>
    rw [hheld]
    simp [hother.symm]
  · rfl

theorem within_unlock (s : Host) (pid : Nat) : Within pid s (s.unlock pid) := by
  obtain ⟨hpath, hbound, hlistening, humask⟩ := unlock_eq s pid
  exact .of_path (fun _ _ => by rw [hbound]) (fun _ _ => by rw [hlistening])
    (fun _ _ => by rw [humask]) (fun _ hother => holder_unlock s hother) hpath

/-- Nobody lets go of the lock over a socket that is still bound. -/
theorem settled_unlock (hsettled : Settled s) (hbound : s.bound pid = none) :
    Settled (s.unlock pid) := by
  obtain ⟨hpath, hsame, hlistening, -⟩ := unlock_eq s pid
  refine ⟨fun other id hother => ?_, fun other hother => ?_⟩
  · rw [hsame] at hother
    have hne : other ≠ pid := by
      rintro rfl
      rw [hbound] at hother
      cases hother
    obtain ⟨hholder, hplace⟩ := hsettled.bound other id hother
    exact ⟨(holder_unlock s hne).mpr hholder, hpath.trans hplace⟩
  · rw [hlistening] at hother
    rw [hsame]
    exact hsettled.listening other hother

theorem within_closeListen (s : Host) (pid : Nat) : Within pid s (s.closeListen pid) :=
  .of_path (fun _ hother => Function.update_of_ne hother _ _)
    (fun _ hother => Function.update_of_ne hother _ _) (fun _ _ => rfl) (fun _ _ => Iff.rfl) rfl

theorem settled_closeListen (hsettled : Settled s) (pid : Nat) : Settled (s.closeListen pid) := by
  refine ⟨fun other id hother => ?_, fun other hother => ?_⟩
  · rcases eq_or_ne other pid with rfl | hne
    · simp [Host.closeListen] at hother
    · rw [(within_closeListen s pid).bound other hne] at hother
      exact hsettled.bound other id hother
  · rcases eq_or_ne other pid with rfl | hne
    · simp [Host.closeListen] at hother
    · rw [(within_closeListen s pid).listening other hne] at hother
      rw [(within_closeListen s pid).bound other hne]
      exact hsettled.listening other hother

theorem idle_quit (s : Host) (pid : Nat) : Idle pid (s.quit pid) := by
  obtain ⟨-, hbound, hlistening, -⟩ := unlock_eq (s.closeListen pid) pid
  refine ⟨holder_unlock_self _ pid, ?_, ?_⟩
  · rw [Host.quit, hbound]
    exact Function.update_self pid _ _
  · rw [Host.quit, hlistening]
    exact Function.update_self pid _ _

theorem within_quit (s : Host) (pid : Nat) : Within pid s (s.quit pid) := by
  have hclosed := within_closeListen s pid
  have hfreed := within_unlock (s.closeListen pid) pid
  obtain ⟨hpath, -⟩ := unlock_eq (s.closeListen pid) pid
  exact .of_path
    (fun other hother => (hfreed.bound other hother).trans (hclosed.bound other hother))
    (fun other hother => (hfreed.listening other hother).trans (hclosed.listening other hother))
    (fun other hother => (hfreed.umask other hother).trans (hclosed.umask other hother))
    (fun other hother => (hfreed.holder other hother).trans (hclosed.holder other hother)) hpath

theorem outside_eq (entry : Option Entry) (s : Host) : (s.outside entry).bound = s.bound ∧
    (s.outside entry).listening = s.listening ∧ (s.outside entry).holder = s.holder ∧
    (s.holder ≠ none → s.outside entry = s) := by
  rw [Host.outside]
  split
  next hfree => exact ⟨rfl, rfl, rfl, fun hheld => absurd hfree hheld⟩
  · exact ⟨rfl, rfl, rfl, fun _ => rfl⟩

/-- The rules of the lock: what holds between any two calls, and what each of them may
count on. -/
def rules : Rules kernel where
  inv := Settled
  guarantee := Within
  idle := Idle
  needs := Needs
  inv_quit pid s hsettled :=
    settled_unlock (settled_closeListen hsettled pid) (Function.update_self pid _ _)
  inv_outside entry s hsettled := by
    obtain ⟨hbound, hlistening, hholder, hsame⟩ := outside_eq entry s
    refine ⟨fun pid id hpid => ?_, fun pid hpid => ?_⟩
    · have hbefore := hsettled.bound pid id (congrFun hbound pid ▸ hpid)
      have hheld : s.holder ≠ none := by rw [hbefore.1]; simp
      rw [show kernel.outside entry s = s from hsame hheld]
      exact hbefore
    · show (s.outside entry).bound pid ≠ none
      rw [hbound]
      exact hsettled.listening pid (congrFun hlistening pid ▸ hpid)
  quit_guarantee pid s _ := within_quit s pid
  quit_idle pid s _ := idle_quit s pid
  idle_guarantee pid other s s' hother hwithin hidle :=
    ⟨fun hholder => hidle.holder ((hwithin.holder pid hother.symm).mp hholder),
      (hwithin.bound pid hother.symm).trans hidle.bound,
      (hwithin.listening pid hother.symm).trans hidle.listening⟩
  idle_outside pid entry s hidle := by
    obtain ⟨hbound, hlistening, hholder, -⟩ := outside_eq entry s
    refine ⟨?_, ?_, ?_⟩
    · show (s.outside entry).holder ≠ some pid
      rw [hholder]
      exact hidle.holder
    · show (s.outside entry).bound pid = none
      rw [hbound]
      exact hidle.bound
    · show (s.outside entry).listening pid = false
      rw [hlistening]
      exact hidle.listening

/-- While a daemon holds the lock, nobody else changes what it relies on. -/
theorem stable_holds : rules.Stable pid (Holds pid bound listening more) where
  others other s s' hother hwithin hholds := by
    have hfree : s.holder ≠ some other := by
      rw [hholds.holder]
      simpa using hother.symm
    refine ⟨(hwithin.holder pid hother.symm).mpr hholds.holder, ?_, ?_, ?_⟩
    · rw [hwithin.bound pid hother.symm]
      exact hholds.bound
    · rw [hwithin.listening pid hother.symm]
      exact hholds.listening
    · rw [hwithin.path hfree, hwithin.umask pid hother.symm]
      exact hholds.more
  outside entry s hholds := by
    have hheld : s.holder ≠ none := by rw [hholds.holder]; simp
    rw [show kernel.outside entry s = s from (outside_eq entry s).2.2.2 hheld]
    exact hholds

theorem stable_idle : rules.Stable pid (Idle pid) := Rules.stable_idle rules pid

/-! ## One call -/

/-- What an answer is shown to leave behind. -/
def Leaves {Reply : Type} (pid : Nat) (s : Host) (mid : Reply → Host → Prop)
    (answered : Reply × Host) : Prop :=
  Settled answered.2 ∧ Within pid s answered.2 ∧ mid answered.1 answered.2

/-- A call that may fail, and then changes nothing. -/
def Tried (failed ok : Host → Prop) : Except Bytes Unit → Host → Prop
  | .error _ => failed
  | .ok () => ok

variable {P R : Host → Prop} {outcome : Outcome} {result : Host}

theorem leaves_attempt {possible : Bool} (hsettled : Settled s) (hP : P s)
    (hok : possible = true → Settled result ∧ Within pid s result ∧ R result) :
    Leaves pid s (Tried P R) (s.attempt outcome possible result) := by
  rw [Host.attempt]
  split
  · exact ⟨hsettled, .refl pid s, hP⟩
  next hgo =>
    rw [not_or, Bool.not_eq_false] at hgo
    exact hok hgo.2

/-- A call that only reports, or changes what no rule is about. -/
theorem allows_report {request : Call} {mid : request.Reply → Host → Prop}
    (hneeds : ∀ s, Settled s → P s → Needs pid request s)
    (hmid : ∀ (s : Host) outcome, P s → mid (Host.answer pid request outcome s).1 s)
    (hsame : ∀ (s : Host) outcome, (Host.answer pid request outcome s).2 = s) :
    rules.Allows pid P request mid := by
  intro s outcome hsettled hP
  have hunchanged : (kernel.answer pid request outcome s).2 = s := hsame s outcome
  dsimp only
  rw [hunchanged]
  exact ⟨hneeds s hsettled hP, hsettled, .refl pid s, hmid s outcome hP⟩

theorem attempt_same (s : Host) (outcome : Outcome) (possible : Bool) :
    (s.attempt outcome possible s).2 = s := by
  rw [Host.attempt]
  split <;> rfl

/-- A call that changes nothing at all. -/
theorem allows_check {request : Call} (hneeds : ∀ s, Settled s → P s → Needs pid request s)
    (hsame : ∀ (s : Host) outcome, (Host.answer pid request outcome s).2 = s) :
    rules.Allows pid P request fun _ => P :=
  allows_report hneeds (fun _ _ hP => hP) hsame

theorem allows_openLock : rules.Allows pid (Idle pid) .openLock fun _ => Idle pid := by
  intro s outcome hsettled hidle
  have hopened : ∀ sidecar, Settled { s with sidecar } ∧ Within pid s { s with sidecar } ∧
      Idle pid { s with sidecar } := fun sidecar =>
    ⟨⟨hsettled.bound, hsettled.listening⟩,
      .of_path (fun _ _ => rfl) (fun _ _ => rfl) (fun _ _ => rfl) (fun _ _ => Iff.rfl) rfl,
      ⟨hidle.holder, hidle.bound, hidle.listening⟩⟩
  have hleaves : Leaves pid s (Tried (Idle pid) (Idle pid)) (s.attempt outcome
      (s.sidecar ≠ some .refused) { s with sidecar := some (s.sidecar.getD .regular) }) :=
    leaves_attempt hsettled hidle fun _ => hopened _
  obtain ⟨hafter, hwithin, htried⟩ := hleaves
  refine ⟨trivial, hafter, hwithin, ?_⟩
  revert htried
  cases (s.attempt outcome _ _).1 <;> exact id

/-- Only one daemon gets the lock. -/
theorem allows_flock : rules.Allows pid (Idle pid) .flock
    (Tried (Idle pid) (Holds pid (· = none) false fun _ _ => True)) := by
  intro s outcome hsettled hidle
  refine ⟨trivial, leaves_attempt hsettled hidle fun hpossible => ?_⟩
  have hfree : s.holder = none := of_decide_eq_true hpossible
  have hnobody : ∀ other id, s.bound other ≠ some id := by
    intro other id hother
    have hholder := (hsettled.bound other id hother).1
    rw [hfree] at hholder
    cases hholder
  refine ⟨⟨fun other id hother => absurd hother (hnobody other id), hsettled.listening⟩, ?_,
    ⟨rfl, hidle.bound, hidle.listening, trivial⟩⟩
  refine .of_path (fun _ _ => rfl) (fun _ _ => rfl) (fun _ _ => rfl) (fun other hother => ?_) rfl
  rw [hfree]
  simp [hother.symm]

/-- What a stale socket, and nothing else, is removed by. -/
theorem allows_unlink :
    rules.Allows pid
      (Holds pid (· = none) false fun path _ => ∃ id mode, path = some (.socket id mode)) .unlink
      (Tried (Holds pid (· = none) false fun _ _ => True)
        (Holds pid (· = none) false fun path _ => path = none)) := by
  intro s outcome hsettled hholds
  have hmore : Holds pid (· = none) false (fun _ _ => True) s :=
    ⟨hholds.holder, hholds.bound, hholds.listening, trivial⟩
  refine ⟨hholds, leaves_attempt hsettled hmore fun _ => ?_⟩
  refine ⟨⟨fun other id hother => ?_, hsettled.listening⟩, ?_,
    ⟨hholds.holder, hholds.bound, hholds.listening, rfl⟩⟩
  · have hholder := (hsettled.bound other id hother).1
    rw [hholds.holder] at hholder
    obtain rfl := Option.some.inj hholder
    rw [show s.bound pid = none from hholds.bound] at hother
    cases hother
  · obtain ⟨id, mode, hsocket⟩ := hholds.more
    refine ⟨fun _ _ => rfl, fun _ _ => rfl, fun _ _ => rfl, fun _ _ => Iff.rfl,
      fun hfree => absurd hholds.holder hfree, fun other hother => ?_⟩
    rw [hsocket] at hother
    cases hother

theorem allows_umask (mask : Mode) {more : Option Entry → Prop} :
    rules.Allows pid (Holds pid bound listening fun path _ => more path) (.umask mask)
      fun _ => Holds pid bound listening fun path umask => more path ∧ umask = mask := by
  intro s outcome hsettled hholds
  refine ⟨trivial, ⟨hsettled.bound, hsettled.listening⟩, ?_,
    ⟨hholds.holder, hholds.bound, hholds.listening, hholds.more, Function.update_self _ _ _⟩⟩
  exact .of_path (fun _ _ => rfl) (fun _ _ => rfl)
    (fun _ hother => Function.update_of_ne hother _ _) (fun _ _ => Iff.rfl) rfl

/-- The socket is there with the mode it is to have. -/
theorem allows_bind :
    rules.Allows pid (Holds pid (· = none) false fun path mask => path = none ∧ mask = 0o117) .bind
      (Tried (Holds pid (· = none) false fun _ _ => True)
        (Holds pid (· ≠ none) false fun _ _ => True)) := by
  intro s outcome hsettled hholds
  have hmore : Holds pid (· = none) false (fun _ _ => True) s :=
    ⟨hholds.holder, hholds.bound, hholds.listening, trivial⟩
  refine ⟨hholds, leaves_attempt hsettled hmore fun _ => ?_⟩
  obtain ⟨hempty, hmask⟩ := hholds.more
  refine ⟨⟨fun other id hother => ?_, fun other hother => ?_⟩, ?_,
    ⟨hholds.holder, ?_, hholds.listening, trivial⟩⟩
  · have hself : other = pid := by
      by_contra hne
      dsimp only at hother
      rw [Function.update_of_ne hne] at hother
      have hholder := (hsettled.bound other id hother).1
      rw [hholds.holder] at hholder
      exact hne (Option.some.inj hholder).symm
    subst hself
    dsimp only at hother ⊢
    rw [Function.update_self] at hother
    obtain rfl := Option.some.inj hother
    refine ⟨hholds.holder, ?_⟩
    rw [hmask, show 0o777 &&& ~~~(0o117 : Mode) = kUnixSocketMode by decide]
  · dsimp only at hother ⊢
    have hne : other ≠ pid := by
      rintro rfl
      rw [hholds.listening] at hother
      cases hother
    rw [Function.update_of_ne hne]
    exact hsettled.listening other hother
  · refine ⟨fun _ hother => Function.update_of_ne hother _ _, fun _ _ => rfl, fun _ _ => rfl,
      fun _ _ => Iff.rfl, fun hfree => absurd hholds.holder hfree, fun id hother => ?_⟩
    rw [hempty] at hother
    cases hother
  · dsimp only
    rw [Function.update_self]
    simp

/-- The mode is the one the socket has. -/
theorem allows_chmod :
    rules.Allows pid (Holds pid (· ≠ none) listening more) (.chmod kUnixSocketMode)
      fun _ => Holds pid (· ≠ none) listening more := by
  intro s outcome hsettled hholds
  obtain ⟨id, hid⟩ := Option.ne_none_iff_exists'.mp hholds.bound
  have hpath := (hsettled.bound pid id hid).2
  have hsame : s.chmod kUnixSocketMode = s := by
    rw [Host.chmod, hpath]
    dsimp only
    rw [← hpath]
  have hunchanged : (kernel.answer pid (.chmod kUnixSocketMode) outcome s).2 = s := by
    show (s.attempt outcome s.path.isSome (s.chmod kUnixSocketMode)).2 = s
    rw [hsame]
    exact attempt_same s outcome _
  dsimp only
  rw [hunchanged]
  exact ⟨⟨rfl, hholds.bound⟩, hsettled, .refl pid s, hholds⟩

theorem allows_listen :
    rules.Allows pid (Holds pid (· ≠ none) false fun _ _ => True) .listen
      (Tried (Holds pid (· ≠ none) false fun _ _ => True)
        (Holds pid (· ≠ none) true fun _ _ => True)) := by
  intro s outcome hsettled hholds
  refine ⟨trivial, leaves_attempt hsettled hholds fun _ => ?_⟩
  refine ⟨⟨hsettled.bound, fun other hother => ?_⟩, ?_,
    ⟨hholds.holder, hholds.bound, Function.update_self _ _ _, trivial⟩⟩
  · rcases eq_or_ne other pid with rfl | hne
    · exact hholds.bound
    · dsimp only at hother
      rw [Function.update_of_ne hne] at hother
      exact hsettled.listening other hother
  · exact .of_path (fun _ _ => rfl) (fun _ hother => Function.update_of_ne hother _ _)
      (fun _ _ => rfl) (fun _ _ => Iff.rfl) rfl

theorem allows_closeListen :
    rules.Allows pid (Holds pid bound listening more) .closeListen
      fun _ => Holds pid (· = none) false fun _ _ => True := by
  intro s outcome hsettled hholds
  exact ⟨trivial, settled_closeListen hsettled pid, within_closeListen s pid,
    ⟨hholds.holder, Function.update_self _ _ _, Function.update_self _ _ _, trivial⟩⟩

theorem allows_closeLock
    (hfree : ∀ s, P s → s.bound pid = none ∧ s.listening pid = false) :
    rules.Allows pid P .closeLock fun _ => Idle pid := by
  intro s outcome hsettled hP
  obtain ⟨hbound, hlistening⟩ := hfree s hP
  obtain ⟨-, hsame, hquiet, -⟩ := unlock_eq s pid
  refine ⟨trivial, settled_unlock hsettled hbound, within_unlock s pid,
    ⟨holder_unlock_self s pid, ?_, ?_⟩⟩
  · show (s.unlock pid).bound pid = none
    rw [hsame, hbound]
  · show (s.unlock pid).listening pid = false
    rw [hquiet, hlistening]

/-! ## The start, call by call -/

/-- The lock is taken, or nothing is. -/
def Ends {α : Type} (pid : Nat) (good : Host → Prop) : Except Bytes α → Host → Prop
  | .error _ => Idle pid
  | .ok _ => good

variable {α : Type} {good : Host → Prop}

theorem stable_ends (hgood : rules.Stable pid good) (result : Except Bytes α) :
    rules.Stable pid (Ends pid good result) := by
  cases result with
  | error => exact stable_idle
  | ok => exact hgood

theorem stable_tried (hP : rules.Stable pid P) (hR : rules.Stable pid R)
    (reply : Except Bytes Unit) : rules.Stable pid (Tried P R reply) := by
  cases reply with
  | error => exact hP
  | ok => exact hR

/-- One call, with assertions on both sides. -/
theorem outline_sys {request : Call} {mid : request.Reply → Host → Prop}
    (hstable : rules.Stable pid P) (hallows : rules.Allows pid P request mid)
    (hmid : ∀ reply, rules.Stable pid (mid reply)) : rules.Outline pid P (sys request) mid :=
  .perform hstable hallows hmid

theorem outline_giveUp {error : Bytes} (hstable : rules.Stable pid P)
    (hfree : ∀ s, P s → s.bound pid = none ∧ s.listening pid = false) :
    rules.Outline pid P (giveUp (α := α) error) (Ends pid good) :=
  (outline_sys hstable (allows_closeLock hfree) fun _ => stable_idle).andThen fun _ =>
    .done stable_idle fun _ hidle => hidle

theorem outline_giveUp_idle {error : Bytes} :
    rules.Outline pid (Idle pid) (giveUp (α := α) error) (Ends pid good) :=
  outline_giveUp stable_idle fun _ hidle => ⟨hidle.bound, hidle.listening⟩

theorem outline_giveUp_holds {error : Bytes} :
    rules.Outline pid (Holds pid (· = none) false more) (giveUp (α := α) error) (Ends pid good) :=
  outline_giveUp stable_holds fun _ hholds => ⟨hholds.bound, hholds.listening⟩

theorem outline_takeLock (socketPath : Bytes) :
    rules.Outline pid (Idle pid) (takeLock socketPath)
      (Ends pid (Holds pid (· = none) false fun _ _ => True)) := by
  rw [takeLock]
  refine (outline_sys stable_idle allows_openLock fun _ => stable_idle).andThen fun opened => ?_
  rcases opened with why | ⟨⟩
  · exact .done stable_idle fun _ hidle => hidle
  have hcheck : ∀ request, (∀ (s : Host) outcome, (Host.answer pid request outcome s).2 = s) →
      (∀ s, Needs pid request s) →
      rules.Outline pid (Idle pid) (sys request) fun _ => Idle pid := fun request hsame hneeds =>
    outline_sys stable_idle (allows_check (fun s _ _ => hneeds s) hsame) fun _ => stable_idle
  refine (hcheck .fstatLock (fun _ _ => rfl) fun _ => trivial).andThen fun regular => ?_
  rcases regular with why | ⟨_ | _⟩
  · exact outline_giveUp_idle
  · exact outline_giveUp_idle
  refine (hcheck .fchownLock (fun s o => attempt_same s o _) fun _ => trivial).andThen
    fun owned => ?_
  rcases owned with why | ⟨⟩
  · exact outline_giveUp_idle
  refine (hcheck (.fchmodLock _) (fun s o => attempt_same s o _) fun _ => trivial).andThen
    fun moded => ?_
  rcases moded with why | ⟨⟩
  · exact outline_giveUp_idle
  refine (outline_sys stable_idle allows_flock (stable_tried stable_idle stable_holds)).andThen
    fun locked => ?_
  rcases locked with why | ⟨⟩
  · exact outline_giveUp_idle
  · exact .done stable_holds fun _ hholds => hholds

/-- What a look at the path shows is there while the lock is held. -/
def Seen (reply : Stat) (path : Option Entry) : Prop :=
  match reply with
  | .found entry => path = some entry
  | .absent => path = none
  | .failed _ => True

theorem outline_lstat :
    rules.Outline pid (Holds pid bound listening more) (sys .lstat)
      fun reply => Holds pid bound listening fun path mask => Seen reply path ∧ more path mask := by
  refine outline_sys stable_holds (allows_report (fun _ _ _ => trivial) (fun s outcome hholds => ?_)
    fun _ _ => rfl) fun _ => stable_holds
  refine ⟨hholds.holder, hholds.bound, hholds.listening, ?_, hholds.more⟩
  rw [Host.answer]
  dsimp only
  split
  · trivial
  · split
    next hnone => exact hnone
    next hsome => exact hsome

theorem outline_unlink {id : FileId} {mode : Mode} :
    rules.Outline pid (Holds pid (· = none) false fun path _ => Seen (.found (.socket id mode)) path ∧ True)
      (sys .unlink)
      (Tried (Holds pid (· = none) false fun _ _ => True)
        (Holds pid (· = none) false fun path _ => path = none)) :=
  (outline_sys stable_holds allows_unlink (stable_tried stable_holds stable_holds)).weaken
    stable_holds fun _ hholds => ⟨hholds.holder, hholds.bound, hholds.listening,
      id, mode, hholds.more.1⟩

theorem outline_clearPath (socketPath : Bytes) :
    rules.Outline pid (Holds pid (· = none) false fun _ _ => True) (clearPath socketPath)
      (Ends pid (Holds pid (· = none) false fun path _ => path = none)) := by
  rw [clearPath]
  refine outline_lstat.andThen fun reply => ?_
  rcases reply with (⟨id, mode⟩ | id) | - | why
  · refine outline_unlink.andThen fun removed => ?_
    rcases removed with why | ⟨⟩
    · exact outline_giveUp_holds
    · exact .done stable_holds fun _ hholds => hholds
  · exact outline_giveUp_holds
  · exact .done stable_holds fun _ hholds =>
      ⟨hholds.holder, hholds.bound, hholds.listening, hholds.more.1⟩
  · exact outline_giveUp_holds

theorem outline_closeListen :
    rules.Outline pid (Holds pid bound listening more) (sys .closeListen)
      fun _ => Holds pid (· = none) false fun _ _ => True :=
  outline_sys stable_holds allows_closeListen fun _ => stable_holds

theorem outline_bindSocket (socketPath : Bytes) :
    rules.Outline pid (Holds pid (· = none) false fun path _ => path = none)
      (bindSocket socketPath) (Ends pid (Holds pid (· ≠ none) false fun _ _ => True)) := by
  rw [bindSocket]
  have hmade : rules.Outline pid (Holds pid (· = none) false fun path _ => path = none)
      (sys .socket) fun _ => Holds pid (· = none) false fun path _ => path = none :=
    outline_sys stable_holds (allows_check (fun _ _ _ => trivial) fun s o => attempt_same s o _)
      fun _ => stable_holds
  refine hmade.andThen fun made => ?_
  rcases made with why | ⟨⟩
  · exact outline_giveUp_holds
  refine (outline_sys stable_holds (allows_umask 0o117) fun _ => stable_holds).andThen
    fun oldUmask => ?_
  refine (outline_sys stable_holds allows_bind (stable_tried stable_holds stable_holds)).andThen
    fun bindResult => ?_
  rcases bindResult with why | ⟨⟩
  · have hrestored : rules.Outline pid (Holds pid (· = none) false fun _ _ => True)
        (sys (.umask oldUmask)) fun _ =>
          Holds pid (· = none) false fun path umask => True ∧ umask = oldUmask :=
      outline_sys stable_holds (allows_umask oldUmask) fun _ => stable_holds
    exact hrestored.andThen fun _ => outline_closeListen.andThen fun _ => outline_giveUp_holds
  · have hrestored : rules.Outline pid (Holds pid (· ≠ none) false fun _ _ => True)
        (sys (.umask oldUmask)) fun _ =>
          Holds pid (· ≠ none) false fun path umask => True ∧ umask = oldUmask :=
      outline_sys stable_holds (allows_umask oldUmask) fun _ => stable_holds
    exact hrestored.andThen fun _ => .done stable_holds fun _ hholds =>
      ⟨hholds.holder, hholds.bound, hholds.listening, trivial⟩

theorem outline_cleanupUnixPath (mine : FileId) :
    rules.Outline pid (Holds pid (· = none) false fun _ _ => True) (cleanupUnixPath mine)
      fun _ => Holds pid (· = none) false fun _ _ => True := by
  rw [cleanupUnixPath]
  refine outline_lstat.andThen fun reply => ?_
  have hleft : rules.Outline pid
      (Holds pid (· = none) false fun path _ => Seen reply path ∧ True) (pure ())
      fun _ => Holds pid (· = none) false fun _ _ => True :=
    .done stable_holds fun _ hholds =>
      ⟨hholds.holder, hholds.bound, hholds.listening, trivial⟩
  rcases reply with (⟨id, mode⟩ | id) | - | why
  · dsimp only
    split
    · refine outline_unlink.andThen fun removed => ?_
      rcases removed with why | ⟨⟩
      · exact .done stable_holds fun _ hholds => hholds
      · exact .done stable_holds fun _ hholds =>
          ⟨hholds.holder, hholds.bound, hholds.listening, trivial⟩
    · exact hleft
  · exact hleft
  · exact hleft
  · exact hleft

theorem outline_abandon (mine : FileId) (error : Bytes) :
    rules.Outline pid (Holds pid bound listening more) (abandon mine error) (Ends pid good) := by
  rw [abandon]
  exact outline_closeListen.andThen fun _ =>
    (outline_cleanupUnixPath mine).andThen fun _ => outline_giveUp_holds

theorem outline_openSocket (socketPath : Bytes) :
    rules.Outline pid (Holds pid (· ≠ none) false fun _ _ => True) (openSocket socketPath)
      (Ends pid (Holds pid (· ≠ none) true fun _ _ => True)) := by
  rw [openSocket]
  refine outline_lstat.andThen fun reply => ?_
  rcases reply with entry | - | why
  · have hbound : rules.Outline pid
        (Holds pid (· ≠ none) false fun path _ => Seen (.found entry) path ∧ True) (sys .chown)
        fun _ => Holds pid (· ≠ none) false fun path _ => Seen (.found entry) path ∧ True :=
      outline_sys stable_holds (allows_check (fun _ _ _ => trivial) fun s o => attempt_same s o _)
        fun _ => stable_holds
    refine hbound.andThen fun owned => ?_
    rcases owned with why | ⟨⟩
    · exact outline_abandon _ _
    refine (outline_sys stable_holds allows_chmod fun _ => stable_holds).andThen fun moded => ?_
    rcases moded with why | ⟨⟩
    · exact outline_abandon _ _
    have hlisten : rules.Outline pid
        (Holds pid (· ≠ none) false fun path _ => Seen (.found entry) path ∧ True) (sys .listen)
        (Tried (Holds pid (· ≠ none) false fun _ _ => True)
          (Holds pid (· ≠ none) true fun _ _ => True)) :=
      (outline_sys stable_holds allows_listen (stable_tried stable_holds stable_holds)).weaken
        stable_holds fun _ hholds => ⟨hholds.holder, hholds.bound, hholds.listening, trivial⟩
    refine hlisten.andThen fun heard => ?_
    rcases heard with why | ⟨⟩
    · exact outline_abandon _ _
    have hnonblocking : rules.Outline pid (Holds pid (· ≠ none) true fun _ _ => True)
        (sys .setNonblocking) fun _ => Holds pid (· ≠ none) true fun _ _ => True :=
      outline_sys stable_holds (allows_check (fun _ _ _ => trivial) fun s o => attempt_same s o _)
        fun _ => stable_holds
    refine hnonblocking.andThen fun set => ?_
    rcases set with why | ⟨⟩
    · exact outline_abandon _ _
    · exact .done stable_holds fun _ hholds => hholds
  · exact outline_abandon _ _
  · exact outline_abandon _ _

theorem outline_startUnix (socketPath : Bytes) :
    rules.Outline pid (Idle pid) (startUnix socketPath)
      (Ends pid (Holds pid (· ≠ none) true fun _ _ => True)) := by
  have hfailed : ∀ error : Bytes, rules.Outline pid (Idle pid) (pure (.error error))
      (Ends (α := FileId) pid (Holds pid (· ≠ none) true fun _ _ => True)) := fun error =>
    .done stable_idle fun _ hidle => hidle
  rw [startUnix]
  split
  · exact hfailed _
  split
  · exact hfailed _
  refine (outline_takeLock socketPath).andThen fun locked => ?_
  rcases locked with error | ⟨⟩
  · exact hfailed error
  refine (outline_clearPath socketPath).andThen fun cleared => ?_
  rcases cleared with error | ⟨⟩
  · exact hfailed error
  refine (outline_bindSocket socketPath).andThen fun bound => ?_
  rcases bound with error | ⟨⟩
  · exact hfailed error
  · exact outline_openSocket socketPath

theorem outline_shutdown (mine : FileId) :
    rules.Outline pid (Holds pid (· ≠ none) true fun _ _ => True) (shutdown mine)
      fun _ => Idle pid := by
  rw [shutdown]
  refine outline_closeListen.andThen fun _ => (outline_cleanupUnixPath mine).andThen fun _ => ?_
  exact outline_sys stable_holds
    (allows_closeLock fun _ hholds => ⟨hholds.bound, hholds.listening⟩) fun _ => stable_idle

theorem outline_daemon (socketPath : Bytes) (pid : Nat) :
    rules.Outline pid (Idle pid) (daemon socketPath) fun _ => Idle pid := by
  rw [daemon]
  refine (outline_startUnix socketPath).andThen fun started => ?_
  rcases started with error | mine
  · exact .done stable_idle fun _ hidle => hidle
  have hserves : rules.Allows pid (Holds pid (· ≠ none) true fun _ _ => True) .run
      fun _ => Holds pid (· ≠ none) true fun _ _ => True :=
    allows_check (fun _ _ hholds => hholds.listening) fun _ _ => rfl
  refine (outline_sys stable_holds hserves fun _ => stable_holds).andThen fun _ => ?_
  exact (outline_shutdown mine).andThen fun _ => .done stable_idle fun _ hidle => hidle

/-! ## Any number of daemons -/

abbrev Daemons := Machine Nat Host Call Call.Reply (Except Bytes Unit)

abbrev DaemonTurn := Turn Nat Outcome (Option Entry)

/-- Started, and not yet told to stop. -/
def Serving (m : Daemons) (pid : Nat) : Prop := ∃ next, m.running pid = some (.call .run next)

/-- The path of one daemon, whatever the others do. -/
structure Sole (socketPath : Bytes) (m : Daemons) : Prop where
  /-- Who connects to the path comes to the daemon that serves. -/
  reached : ∀ pid, Serving m pid → ∃ id, m.shared.bound pid = some id ∧
    m.shared.listening pid = true ∧ m.shared.path = some (.socket id kUnixSocketMode)
  sole : ∀ pid other, Serving m pid → Serving m other → pid = other
  /-- No socket is open to others at any moment. -/
  closed : ∀ pid id, m.shared.bound pid = some id →
    m.shared.path = some (.socket id kUnixSocketMode)
  undisturbed : ∀ pid (turn : DaemonTurn), Serving m pid → turn.pid ≠ some pid →
    Serving (m.step kernel (daemon socketPath) turn) pid ∧
      (m.step kernel (daemon socketPath) turn).shared.path = m.shared.path
  /-- What is not a socket stays. -/
  untouched : ∀ pid (turn : DaemonTurn) id, turn.pid = some pid →
    m.shared.path = some (.other id) →
    (m.step kernel (daemon socketPath) turn).shared.path = m.shared.path
  /-- A daemon that is gone has left the lock. -/
  released : ∀ pid, m.running pid = none → m.shared.holder ≠ some pid

variable {m : Daemons}

theorem serving_listening (hproved : Rules.Proved rules (fun pid _ => Idle pid) m)
    (hserving : Serving m pid) : m.shared.listening pid = true := by
  obtain ⟨next, hrunning⟩ := hserving
  exact (hproved.needs hrunning {}).1

theorem serving_holder (hproved : Rules.Proved rules (fun pid _ => Idle pid) m)
    (hserving : Serving m pid) :
    ∃ id, m.shared.bound pid = some id ∧ m.shared.holder = some pid ∧
      m.shared.path = some (.socket id kUnixSocketMode) := by
  have hsettled : Settled m.shared := hproved.inv
  obtain ⟨id, hid⟩ := Option.ne_none_iff_exists'.mp
    (hsettled.listening pid (serving_listening hproved hserving))
  exact ⟨id, hid, hsettled.bound pid id hid⟩

/-- **One daemon at the socket.** Any number of daemons are started at one path, their
calls interleave in any way, fail in any way, and any of them are killed at any moment;
others change the path as long as no daemon has the lock. At every moment the daemon
that serves is the only one, the path leads to its socket, which no other daemon can
change, and which has never been open to others. No daemon takes away what is not a
socket, and no lock outlives its daemon. -/
theorem sole_endpoint (socketPath : Bytes) {host : Host} (hvacant : ∀ pid, Idle pid host)
    (turns : List DaemonTurn) :
    Sole socketPath (run (Machine.step kernel (daemon socketPath)) ⟨host, fun _ => none⟩ turns) := by
  have hsettled : Settled host := by
    refine ⟨fun pid id hbound => ?_, fun pid hlistening => ?_⟩
    · rw [(hvacant pid).bound] at hbound
      cases hbound
    · rw [(hvacant pid).listening] at hlistening
      cases hlistening
  have hproved : Rules.Proved rules (fun pid _ => Idle pid)
      (run (Machine.step kernel (daemon socketPath)) ⟨host, fun _ => none⟩ turns) :=
    (Rules.proved_of_idle hsettled hvacant).run (outline_daemon socketPath) turns
  generalize run (Machine.step kernel (daemon socketPath)) ⟨host, fun _ => none⟩ turns = m
    at hproved
  refine ⟨fun pid hserving => ?_, fun pid other hserving hother => ?_,
    fun pid id hbound => (hproved.inv.bound pid id hbound).2, fun pid turn hserving hturn => ?_,
    fun pid turn id hturn hpath => ?_, fun pid hnone => (hproved.idle pid hnone).holder⟩
  · obtain ⟨id, hid, -, hpath⟩ := serving_holder hproved hserving
    exact ⟨id, hid, serving_listening hproved hserving, hpath⟩
  · obtain ⟨-, -, hholder, -⟩ := serving_holder hproved hserving
    obtain ⟨-, -, hholder', -⟩ := serving_holder hproved hother
    rw [hholder] at hholder'
    exact Option.some.inj hholder'
  · obtain ⟨-, -, hholder, -⟩ := serving_holder hproved hserving
    obtain ⟨next, hrunning⟩ := hserving
    refine ⟨⟨next, (m.running_step kernel _ hturn).trans hrunning⟩, ?_⟩
    cases hwho : turn.pid with
    | none =>
        cases turn with
        | outside entry =>
            have hheld : m.shared.holder ≠ none := by rw [hholder]; simp
            exact congrArg Host.path ((outside_eq entry m.shared).2.2.2 hheld)
        | start | turn | kill => cases hwho
    | some other =>
        rcases hproved.within hwho with hsame | hwithin
        · rw [hsame]
        · refine hwithin.path ?_
          rw [hholder]
          intro hequal
          exact hturn (hwho.trans hequal.symm)
  · rcases hproved.within hturn with hsame | hwithin
    · rw [hsame]
    · exact hwithin.kept id hpath

/-- Two daemons start together behind one that was killed over its socket: one removes
what was left there and serves, the other gives up. -/
def sampleTurns : List DaemonTurn :=
  .start 7 :: List.replicate 10 (.turn 7 { id := ⟨1, 40⟩ }) ++
    [.kill 7, .start 8, .start 9] ++
    (List.replicate 16 [.turn 8 { id := ⟨1, 41⟩ }, .turn 9 { id := ⟨1, 42⟩ }]).flatten

theorem sole_endpoint_sample :
    let path := utf8 "/run/coreletd/companion.sock"
    let m := run (Machine.step kernel (daemon path)) ⟨{}, fun _ => none⟩ sampleTurns
    m.shared.listening 8 = true ∧ m.shared.path = some (.socket ⟨1, 41⟩ kUnixSocketMode) ∧
      (m.running 9).isNone = true ∧ Sole path m := by
  intro path m
  have hreached : m.shared.listening 8 = true ∧
      m.shared.path = some (.socket ⟨1, 41⟩ kUnixSocketMode) ∧ (m.running 9).isNone = true := by
    decide +kernel
  obtain ⟨hlistening, hpath, hgone⟩ := hreached
  have hvacant : ∀ pid, Idle pid {} := fun pid => ⟨by simp, rfl, rfl⟩
  exact ⟨hlistening, hpath, hgone, sole_endpoint path hvacant sampleTurns⟩

end Coreletd.Companion.UnixSocket
