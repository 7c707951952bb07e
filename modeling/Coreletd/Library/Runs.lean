/-
# Runs of a deterministic machine

A run is a list of events folded through a step function. Two rules carry every
result about whole runs: an invariant kept by each step holds after the run, and
the same when the steps are only known to keep it under a side condition that
the run meets at each of its states. A loop that may break off has a rule too.
-/

import Mathlib.Data.List.Basic

namespace Coreletd.Library

universe u v w

variable {σ : Type u} {α : Type v}

/-- Fold the events of a run through the machine, first event first. -/
def run (step : σ → α → σ) (start : σ) (events : List α) : σ :=
  events.foldl step start

@[simp]
theorem run_nil (step : σ → α → σ) (start : σ) : run step start [] = start := rfl

@[simp]
theorem run_cons (step : σ → α → σ) (start : σ) (event : α) (events : List α) :
    run step start (event :: events) = run step (step start event) events := rfl

theorem run_append (step : σ → α → σ) (start : σ) (first second : List α) :
    run step start (first ++ second) = run step (run step start first) second :=
  List.foldl_append

/-- What the steps of a run put out, in order. -/
def collect {β : Type w} (step : σ → α → σ) (output : σ → α → List β) : σ → List α → List β
  | _, [] => []
  | state, event :: events =>
      output state event ++ collect step output (step state event) events

/-- The side condition `ok` holds of every state and event the run passes
through. -/
def Along (step : σ → α → σ) (ok : σ → α → Prop) : σ → List α → Prop
  | _, [] => True
  | state, event :: events => ok state event ∧ Along step ok (step state event) events

@[simp]
theorem along_nil (step : σ → α → σ) (ok : σ → α → Prop) (start : σ) :
    Along step ok start [] := trivial

@[simp]
theorem along_cons (step : σ → α → σ) (ok : σ → α → Prop) (start : σ) (event : α)
    (events : List α) :
    Along step ok start (event :: events) ↔
      ok start event ∧ Along step ok (step start event) events := Iff.rfl

theorem along_append (step : σ → α → σ) (ok : σ → α → Prop) (start : σ)
    (first second : List α) :
    Along step ok start (first ++ second) ↔
      Along step ok start first ∧ Along step ok (run step start first) second := by
  induction first generalizing start with
  | nil => simp
  | cons event first ih => simp [ih, and_assoc]

/-- Side conditions that agree at every step agree along every run. -/
theorem along_congr {step : σ → α → σ} {ok ok' : σ → α → Prop}
    (hok : ∀ state event, ok state event ↔ ok' state event) (start : σ) (events : List α) :
    Along step ok start events ↔ Along step ok' start events := by
  induction events generalizing start with
  | nil => exact Iff.rfl
  | cons event events ih => exact and_congr (hok start event) (ih (step start event))

/-- A condition that holds of the events whatever the state holds along the run. -/
theorem along_of_forall {step : σ → α → σ} {ok : σ → α → Prop} {events : List α}
    (hok : ∀ event ∈ events, ∀ state, ok state event) (start : σ) :
    Along step ok start events := by
  induction events generalizing start with
  | nil => trivial
  | cons event events ih =>
      refine ⟨hok event List.mem_cons_self start, ?_⟩
      exact ih (fun other hother => hok other (List.mem_cons_of_mem _ hother)) (step start event)

/-- A run cut short meets the condition as far as it goes. -/
theorem Along.take {step : σ → α → σ} {ok : σ → α → Prop} {start : σ} {events : List α}
    (hrun : Along step ok start events) (count : Nat) :
    Along step ok start (events.take count) := by
  rw [← List.take_append_drop count events, along_append] at hrun
  exact hrun.1

instance Along.decidable (step : σ → α → σ) (ok : σ → α → Prop)
    [∀ state event, Decidable (ok state event)] :
    ∀ (start : σ) (events : List α), Decidable (Along step ok start events)
  | _, [] => .isTrue trivial
  | start, event :: events =>
      have : Decidable (Along step ok (step start event) events) :=
        Along.decidable step ok (step start event) events
      inferInstanceAs (Decidable (_ ∧ _))

/-- An invariant that each step keeps under the side condition holds after every
run that meets the condition throughout. -/
theorem Along.invariant {step : σ → α → σ} {ok : σ → α → Prop} {inv : σ → Prop}
    (hstep : ∀ state event, inv state → ok state event → inv (step state event))
    {start : σ} {events : List α} (hinit : inv start)
    (hrun : Along step ok start events) : inv (run step start events) := by
  induction events generalizing start with
  | nil => exact hinit
  | cons event events ih => exact ih (hstep start event hinit hrun.1) hrun.2

/-- An invariant that every step keeps holds after every run. -/
theorem run_invariant {step : σ → α → σ} {inv : σ → Prop}
    (hstep : ∀ state event, inv state → inv (step state event))
    {start : σ} (hinit : inv start) (events : List α) : inv (run step start events) := by
  induction events generalizing start with
  | nil => exact hinit
  | cons event events ih => exact ih (hstep start event hinit)

/-- A fold that comes to an end has taken its first step. -/
theorem foldlM_cons_eq_ok {ε : Type u} {step : σ → α → Except ε σ} {element : α}
    {elements : List α} {start result : σ} :
    (element :: elements).foldlM step start = .ok result ↔
      ∃ next, step start element = .ok next ∧ elements.foldlM step next = .ok result := by
  rw [List.foldlM_cons]
  cases step start element with
  | error why => simp [bind, Except.bind]
  | ok next => simp [bind, Except.bind]

/-- Steps that agree on the elements come to the same end. -/
theorem foldlM_congr {ε : Type u} {step step' : σ → α → Except ε σ} {elements : List α}
    (hstep : ∀ element ∈ elements, ∀ state, step state element = step' state element)
    (start : σ) : elements.foldlM step start = elements.foldlM step' start := by
  induction elements generalizing start with
  | nil => rfl
  | cons element elements ih =>
      have hrest := ih fun other hother => hstep other (List.mem_cons_of_mem _ hother)
      rw [List.foldlM_cons, List.foldlM_cons, hstep element List.mem_cons_self, funext hrest]

/-- What each step on one of the elements keeps holds of the result, if there is one. -/
theorem foldlM_invariant {ε : Type u} {step : σ → α → Except ε σ} (inv : σ → Prop)
    {elements : List α} {start result : σ}
    (hstep : ∀ element ∈ elements, ∀ state next, inv state → step state element = .ok next →
      inv next)
    (hinit : inv start) (hfold : elements.foldlM step start = .ok result) : inv result := by
  induction elements generalizing start with
  | nil =>
      obtain rfl := Except.ok.inj hfold
      exact hinit
  | cons element elements ih =>
      obtain ⟨next, hnext, hrest⟩ := foldlM_cons_eq_ok.mp hfold
      refine ih (fun other hother => hstep other (List.mem_cons_of_mem _ hother)) ?_ hrest
      exact hstep element List.mem_cons_self start next hinit hnext

/-- And with the elements read so far in the invariant. -/
theorem foldlM_readSoFar {ε : Type u} {step : σ → α → Except ε σ} (inv : List α → σ → Prop)
    {seen elements : List α} {start result : σ}
    (hstep : ∀ seen element state next, inv seen state → step state element = .ok next →
      inv (seen ++ [element]) next)
    (hinit : inv seen start) (hfold : elements.foldlM step start = .ok result) :
    inv (seen ++ elements) result := by
  induction elements generalizing seen start with
  | nil =>
      obtain rfl := Except.ok.inj hfold
      rwa [List.append_nil]
  | cons element elements ih =>
      obtain ⟨next, hnext, hrest⟩ := foldlM_cons_eq_ok.mp hfold
      rw [List.append_cons]
      exact ih (hstep seen element start next hinit hnext) hrest

end Coreletd.Library
