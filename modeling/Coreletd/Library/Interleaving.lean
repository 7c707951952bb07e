/-
# Processes over a shared state

A process is a program of calls: each call is one atomic step on a state that all the
processes share, and the reply decides how the program goes on. Processes start, are
scheduled in any order and may be killed between any two calls.

Such a program is proved with an outline. Every point between two calls has an assertion
about the shared state that what the other processes may do leaves alone, and every call
is shown to keep the invariant, to stay within what the process may do and to lead to
the next assertion. In every run, then, the invariant holds, and whatever call a process
is about to make, the state meets what the rules ask for before that call.
-/

import Coreletd.Library.Runs

namespace Coreletd.Library

universe u

/-! ## Programs -/

/-- Either the end, with a result, or a call and what follows its reply. -/
inductive Program (Call : Type u) (Reply : Call → Type u) (Result : Type u) : Type u where
  | done (result : Result)
  | call (request : Call) (next : Reply request → Program Call Reply Result)

namespace Program

variable {Call : Type u} {Reply : Call → Type u} {Result Result' : Type u}

/-- One program, and then the one that its result asks for. -/
def andThen : Program Call Reply Result → (Result → Program Call Reply Result') →
    Program Call Reply Result'
  | .done result, rest => rest result
  | .call request next, rest => .call request fun reply => (next reply).andThen rest

instance : Monad (Program Call Reply) where
  pure := .done
  bind := andThen

/-- A single call. -/
def perform (request : Call) : Program Call Reply (Reply request) := .call request .done

@[simp] theorem pure_eq (result : Result) :
    (pure result : Program Call Reply Result) = .done result := rfl

@[simp] theorem done_bind (result : Result) (rest : Result → Program Call Reply Result') :
    .done result >>= rest = rest result := rfl

@[simp] theorem call_bind (request : Call) (next : Reply request → Program Call Reply Result)
    (rest : Result → Program Call Reply Result') :
    .call request next >>= rest = .call request fun reply => next reply >>= rest := rfl

end Program

/-! ## Machines -/

/-- What calls do to the shared state. Every call has an outcome beside its reply, for
what the caller cannot know. -/
structure Kernel (Pid Shared Call : Type u) (Reply : Call → Type u) (Outcome Change : Type u) where
  answer : Pid → (request : Call) → Outcome → Shared → Reply request × Shared
  /-- What becomes of what a process had, however it ends. -/
  quit : Pid → Shared → Shared
  /-- What happens without any of the processes. -/
  outside : Change → Shared → Shared

structure Machine (Pid Shared Call : Type u) (Reply : Call → Type u) (Result : Type u) where
  shared : Shared
  running : Pid → Option (Program Call Reply Result)

/-- What can happen to the processes. -/
inductive Turn (Pid Outcome Change : Type u) where
  | start (pid : Pid)
  /-- The next call of a process, or its end. -/
  | turn (pid : Pid) (outcome : Outcome)
  | kill (pid : Pid)
  | outside (change : Change)

/-- Whose turn it is. -/
def Turn.pid {Pid Outcome Change : Type u} : Turn Pid Outcome Change → Option Pid
  | .start pid | .turn pid _ | .kill pid => some pid
  | .outside _ => none

section

variable {Pid Shared Call : Type u} {Reply : Call → Type u} {Outcome Change Result : Type u}
  (kernel : Kernel Pid Shared Call Reply Outcome Change) (main : Program Call Reply Result)

namespace Machine

variable [DecidableEq Pid]

/-- The process is gone. -/
def quit (m : Machine Pid Shared Call Reply Result) (pid : Pid) :
    Machine Pid Shared Call Reply Result where
  shared := kernel.quit pid m.shared
  running := Function.update m.running pid none

/-- One step of one process, all of which run the same program. -/
def step (m : Machine Pid Shared Call Reply Result) :
    Turn Pid Outcome Change → Machine Pid Shared Call Reply Result
  | .start pid =>
      match m.running pid with
      | some _ => m
      | none => { m with running := Function.update m.running pid (some main) }
  | .turn pid outcome =>
      match m.running pid with
      | none => m
      | some (.done _) => m.quit kernel pid
      | some (.call request next) =>
          { shared := (kernel.answer pid request outcome m.shared).2
            running := Function.update m.running pid
              (some (next (kernel.answer pid request outcome m.shared).1)) }
  | .kill pid => m.quit kernel pid
  | .outside change => { m with shared := kernel.outside change m.shared }

/-- A turn is a matter of one process. -/
theorem running_step (m : Machine Pid Shared Call Reply Result) {turn : Turn Pid Outcome Change}
    {other : Pid} (hother : turn.pid ≠ some other) :
    (m.step kernel main turn).running other = m.running other := by
  have hupdate : ∀ (pid : Pid) (program : Option (Program Call Reply Result)), pid ≠ other →
      Function.update m.running pid program other = m.running other := fun pid program hne =>
    Function.update_of_ne hne.symm _ _
  cases turn with
  | start pid =>
      have hne : pid ≠ other := fun heq => hother (congrArg some heq)
      rw [step]
      split
      · rfl
      · exact hupdate pid _ hne
  | turn pid outcome =>
      have hne : pid ≠ other := fun heq => hother (congrArg some heq)
      rw [step]
      split
      · rfl
      · exact hupdate pid _ hne
      · exact hupdate pid _ hne
  | kill pid => exact hupdate pid _ fun heq => hother (congrArg some heq)
  | outside change => rfl

end Machine

/-! ## A program by itself -/

namespace Program

/-- The calls one after the other, all with this outcome. -/
def alone (pid : Pid) (outcome : Outcome) : Program Call Reply Result → Shared → Result × Shared
  | .done result, s => (result, s)
  | .call request next, s =>
      (next (kernel.answer pid request outcome s).1).alone pid outcome
        (kernel.answer pid request outcome s).2

@[simp] theorem alone_done (pid : Pid) (outcome : Outcome) (result : Result) (s : Shared) :
    (Program.done result : Program Call Reply Result).alone kernel pid outcome s = (result, s) := rfl

@[simp] theorem alone_call (pid : Pid) (outcome : Outcome) (request : Call)
    (next : Reply request → Program Call Reply Result) (s : Shared) :
    (Program.call request next).alone kernel pid outcome s =
      (next (kernel.answer pid request outcome s).1).alone kernel pid outcome
        (kernel.answer pid request outcome s).2 := rfl

@[simp] theorem alone_bind {Result' : Type u} (pid : Pid) (outcome : Outcome)
    (program : Program Call Reply Result) (rest : Result → Program Call Reply Result')
    (s : Shared) :
    (program >>= rest).alone kernel pid outcome s =
      (rest (program.alone kernel pid outcome s).1).alone kernel pid outcome
        (program.alone kernel pid outcome s).2 := by
  induction program generalizing s with
  | done result => rfl
  | call request next ih => exact ih _ _

variable [DecidableEq Pid]

/-- A process that has the machine to itself gets through the first of two programs. -/
theorem exists_turns {First : Type u} {pid : Pid} (outcome : Outcome)
    (first : Program Call Reply First) (rest : First → Program Call Reply Result)
    (m : Machine Pid Shared Call Reply Result) (hrunning : m.running pid = some (first >>= rest)) :
    ∃ calls,
      let turns : List (Turn Pid Outcome Change) := List.replicate calls (.turn pid outcome)
      let after := run (Machine.step kernel main) m turns
      after.running pid = some (rest (first.alone kernel pid outcome m.shared).1) ∧
        after.shared = (first.alone kernel pid outcome m.shared).2 := by
  induction first generalizing m with
  | done result => exact ⟨0, hrunning, rfl⟩
  | call request next ih =>
      have hstep : m.step kernel main (.turn pid outcome) =
          { shared := (kernel.answer pid request outcome m.shared).2
            running := Function.update m.running pid
              (some (next (kernel.answer pid request outcome m.shared).1 >>= rest)) } := by
        rw [Machine.step, hrunning]
        rfl
      obtain ⟨calls, hafter⟩ := ih (kernel.answer pid request outcome m.shared).1
        (m.step kernel main (.turn pid outcome)) (by rw [hstep]; exact Function.update_self _ _ _)
      have hrun : run (Machine.step kernel main) m
          (List.replicate (calls + 1) (.turn pid outcome : Turn Pid Outcome Change)) =
          run (Machine.step kernel main) (m.step kernel main (.turn pid outcome))
            (List.replicate calls (.turn pid outcome)) := rfl
      rw [hstep] at hafter hrun
      refine ⟨calls + 1, ?_⟩
      dsimp only
      rw [hrun]
      exact hafter

end Program

/-! ## Rules -/

/-- What the processes of a kernel are held to. -/
structure Rules (kernel : Kernel Pid Shared Call Reply Outcome Change) where
  inv : Shared → Prop
  /-- What a process may do to the state. -/
  guarantee : Pid → Shared → Shared → Prop
  /-- What holds of a process that does not run. -/
  idle : Pid → Shared → Prop
  /-- What a call asks for. -/
  needs : Pid → Call → Shared → Prop
  inv_quit : ∀ pid s, inv s → inv (kernel.quit pid s)
  inv_outside : ∀ change s, inv s → inv (kernel.outside change s)
  quit_guarantee : ∀ pid s, inv s → guarantee pid s (kernel.quit pid s)
  quit_idle : ∀ pid s, inv s → idle pid (kernel.quit pid s)
  idle_guarantee : ∀ pid other s s', other ≠ pid → guarantee other s s' → idle pid s → idle pid s'
  idle_outside : ∀ pid change s, idle pid s → idle pid (kernel.outside change s)

namespace Rules

variable {kernel} {main}
variable (rules : Rules kernel) {pid : Pid} {P P' : Shared → Prop}
  {Q Q' : Result → Shared → Prop}

/-- What nothing but the process itself makes false. -/
structure Stable (pid : Pid) (P : Shared → Prop) : Prop where
  others : ∀ other s s', other ≠ pid → rules.guarantee other s s' → P s → P s'
  outside : ∀ change s, P s → P (kernel.outside change s)

theorem stable_idle (pid : Pid) : rules.Stable pid (rules.idle pid) where
  others := fun other s s' hother hguarantee hidle =>
    rules.idle_guarantee pid other s s' hother hguarantee hidle
  outside := rules.idle_outside pid

/-- A call in a state with `P` is one the rules allow, and leads to `mid`. -/
def Allows (pid : Pid) (P : Shared → Prop) (request : Call)
    (mid : Reply request → Shared → Prop) : Prop :=
  ∀ s outcome, rules.inv s → P s →
    let answered := kernel.answer pid request outcome s
    rules.needs pid request s ∧ rules.inv answered.2 ∧ rules.guarantee pid s answered.2 ∧
      mid answered.1 answered.2

/-- A program with an assertion before each of its calls. -/
inductive Outline (pid : Pid) {Result : Type u} : (Shared → Prop) → Program Call Reply Result →
    (Result → Shared → Prop) → Prop where
  | done {P : Shared → Prop} {Q : Result → Shared → Prop} {result : Result}
      (hstable : rules.Stable pid P) (hpost : ∀ s, P s → Q result s) : Outline pid P (.done result) Q
  | call {P : Shared → Prop} {Q : Result → Shared → Prop} {request : Call}
      {next : Reply request → Program Call Reply Result} (mid : Reply request → Shared → Prop)
      (hstable : rules.Stable pid P) (hallows : rules.Allows pid P request mid)
      (hnext : ∀ reply, Outline pid (mid reply) (next reply) Q) :
      Outline pid P (.call request next) Q

variable {rules}

theorem Outline.stable {program : Program Call Reply Result} {Q : Result → Shared → Prop}
    (houtline : rules.Outline pid P program Q) : rules.Stable pid P := by
  cases houtline with
  | done hstable => exact hstable
  | call _ hstable => exact hstable

theorem Outline.weaken {program : Program Call Reply Result}
    (houtline : rules.Outline pid P program Q) (hstable : rules.Stable pid P')
    (hpre : ∀ s, P' s → P s) : rules.Outline pid P' program Q := by
  cases houtline with
  | done _ hpost => exact .done hstable fun s hP => hpost s (hpre s hP)
  | call mid _ hallows hnext =>
      exact .call mid hstable (fun s outcome hinv hP => hallows s outcome hinv (hpre s hP)) hnext

theorem Outline.post {program : Program Call Reply Result}
    (houtline : rules.Outline pid P program Q) (hpost : ∀ result s, Q result s → Q' result s) :
    rules.Outline pid P program Q' := by
  induction houtline with
  | done hstable hdone => exact .done hstable fun s hP => hpost _ s (hdone s hP)
  | call mid hstable hallows _ ih => exact .call mid hstable hallows fun reply => ih reply hpost

/-- Programs are proved one after the other. -/
theorem Outline.andThen {Result' : Type u} {program : Program Call Reply Result}
    {rest : Result → Program Call Reply Result'} {R : Result' → Shared → Prop}
    (houtline : rules.Outline pid P program Q)
    (hrest : ∀ result, rules.Outline pid (Q result) (rest result) R) :
    rules.Outline pid P (program >>= rest) R := by
  induction houtline with
  | done hstable hpost => exact (hrest _).weaken hstable hpost
  | call mid hstable hallows _ ih => exact .call mid hstable hallows fun reply => ih reply hrest

theorem Outline.perform {request : Call} {mid : Reply request → Shared → Prop}
    (hstable : rules.Stable pid P) (hallows : rules.Allows pid P request mid)
    (hmid : ∀ reply, rules.Stable pid (mid reply)) :
    rules.Outline pid P (Program.perform request) mid :=
  .call mid hstable hallows fun reply => .done (hmid reply) fun _ hreply => hreply

/-! ## Runs -/

/-- Every process is at a point of its outline. -/
structure Proved (rules : Rules kernel) (Q : Pid → Result → Shared → Prop)
    (m : Machine Pid Shared Call Reply Result) : Prop where
  inv : rules.inv m.shared
  idle : ∀ pid, m.running pid = none → rules.idle pid m.shared
  outlined : ∀ pid program, m.running pid = some program →
    ∃ P : Shared → Prop, P m.shared ∧ rules.Outline pid P program (Q pid)

variable {Q : Pid → Result → Shared → Prop} {m : Machine Pid Shared Call Reply Result}

/-- Before any process runs. -/
theorem proved_of_idle {shared : Shared} (hinv : rules.inv shared)
    (hidle : ∀ pid, rules.idle pid shared) :
    Proved rules Q ⟨shared, fun _ => none⟩ :=
  ⟨hinv, fun pid _ => hidle pid, fun pid program hsome => by cases hsome⟩

/-- What the next call of a process asks for is so, and it does what it may. -/
theorem Proved.needs (hproved : Proved rules Q m) {request : Call}
    {next : Reply request → Program Call Reply Result}
    (hrunning : m.running pid = some (.call request next)) (outcome : Outcome) :
    rules.needs pid request m.shared ∧
      rules.guarantee pid m.shared (kernel.answer pid request outcome m.shared).2 := by
  obtain ⟨P, hP, houtline⟩ := hproved.outlined pid _ hrunning
  cases houtline with
  | call mid _ hallows =>
      obtain ⟨hneeds, -, hguarantee, -⟩ := hallows m.shared outcome hproved.inv hP
      exact ⟨hneeds, hguarantee⟩

variable [DecidableEq Pid]

/-- A step that a process may take leaves the others where they are. -/
theorem Proved.moved (hproved : Proved rules Q m) {pid : Pid} {shared : Shared}
    {program : Option (Program Call Reply Result)} (hinv : rules.inv shared)
    (hguarantee : rules.guarantee pid m.shared shared)
    (hidle : program = none → rules.idle pid shared)
    (houtlined : ∀ rest, program = some rest →
      ∃ P : Shared → Prop, P shared ∧ rules.Outline pid P rest (Q pid)) :
    Proved rules Q ⟨shared, Function.update m.running pid program⟩ := by
  refine ⟨hinv, fun other hother => ?_, fun other rest hother => ?_⟩
  · dsimp only at hother
    rcases eq_or_ne other pid with rfl | hne
    · rw [Function.update_self] at hother
      exact hidle hother
    · rw [Function.update_of_ne hne] at hother
      exact (rules.stable_idle other).others pid _ _ hne.symm hguarantee (hproved.idle other hother)
  · dsimp only at hother
    rcases eq_or_ne other pid with rfl | hne
    · rw [Function.update_self] at hother
      exact houtlined rest hother
    · rw [Function.update_of_ne hne] at hother
      obtain ⟨P, hP, houtline⟩ := hproved.outlined other rest hother
      exact ⟨P, houtline.stable.others pid _ _ hne.symm hguarantee hP, houtline⟩

theorem Proved.quit (hproved : Proved rules Q m) (pid : Pid) :
    Proved rules Q (m.quit kernel pid) :=
  hproved.moved (rules.inv_quit pid _ hproved.inv) (rules.quit_guarantee pid _ hproved.inv)
    (fun _ => rules.quit_idle pid _ hproved.inv) fun rest hrest => by cases hrest

theorem Proved.step (hmain : ∀ pid, rules.Outline pid (rules.idle pid) main (Q pid))
    (hproved : Proved rules Q m) (turn : Turn Pid Outcome Change) :
    Proved rules Q (m.step kernel main turn) := by
  cases turn with
  | start pid =>
      rw [Machine.step]
      split
      · exact hproved
      next hnone =>
        refine ⟨hproved.inv, fun other hother => ?_, fun other rest hother => ?_⟩
        · dsimp only at hother
          rcases eq_or_ne other pid with rfl | hne
          · rw [Function.update_self] at hother
            cases hother
          · rw [Function.update_of_ne hne] at hother
            exact hproved.idle other hother
        · dsimp only at hother
          rcases eq_or_ne other pid with rfl | hne
          · rw [Function.update_self] at hother
            obtain rfl := Option.some.inj hother
            exact ⟨rules.idle other, hproved.idle other hnone, hmain other⟩
          · rw [Function.update_of_ne hne] at hother
            exact hproved.outlined other rest hother
  | turn pid outcome =>
      rw [Machine.step]
      split
      · exact hproved
      · exact hproved.quit pid
      next request next hrunning =>
        obtain ⟨P, hP, houtline⟩ := hproved.outlined pid _ hrunning
        cases houtline with
        | call mid _ hallows hnext =>
            obtain ⟨-, hinv, hguarantee, hmid⟩ := hallows m.shared outcome hproved.inv hP
            refine hproved.moved hinv hguarantee (fun hnone => by cases hnone) fun rest hrest => ?_
            obtain rfl := Option.some.inj hrest
            exact ⟨_, hmid, hnext _⟩
  | kill pid => exact hproved.quit pid
  | outside change =>
      refine ⟨rules.inv_outside change _ hproved.inv, fun pid hnone => ?_, fun pid program hsome => ?_⟩
      · exact rules.idle_outside pid change _ (hproved.idle pid hnone)
      · obtain ⟨P, hP, houtline⟩ := hproved.outlined pid program hsome
        exact ⟨P, houtline.stable.outside change _ hP, houtline⟩

/-- A turn of a process does what the process may do. -/
theorem Proved.within (hproved : Proved rules Q m) {turn : Turn Pid Outcome Change}
    (hturn : turn.pid = some pid) :
    (m.step kernel main turn).shared = m.shared ∨
      rules.guarantee pid m.shared (m.step kernel main turn).shared := by
  cases turn with
  | start other =>
      left
      rw [Machine.step]
      split <;> rfl
  | turn other outcome =>
      obtain rfl := Option.some.inj hturn
      rw [Machine.step]
      split
      · exact .inl rfl
      · exact .inr (rules.quit_guarantee other _ hproved.inv)
      next hrunning => exact .inr (hproved.needs hrunning outcome).2
  | kill other =>
      obtain rfl := Option.some.inj hturn
      exact .inr (rules.quit_guarantee other _ hproved.inv)
  | outside change => cases hturn

/-- Whatever the order of the calls, and whoever is killed. -/
theorem Proved.run (hmain : ∀ pid, rules.Outline pid (rules.idle pid) main (Q pid))
    (hproved : Proved rules Q m) (turns : List (Turn Pid Outcome Change)) :
    Proved rules Q (Library.run (Machine.step kernel main) m turns) :=
  run_invariant (fun _ turn hbefore => hbefore.step hmain turn) hproved turns

end Rules

end

end Coreletd.Library
