import Mathlib.Logic.Basic

/-!
# Runs of a transition system

What holds at the start and is kept by every disciplined action holds in every state that
disciplined runs reach.
-/

namespace Transition

open Option

variable {σ α : Type*}

inductive Reachable (step : σ → α → Option σ) (allowed : σ → α → Prop)
    (start : σ) : σ → Prop
  | start : Reachable step allowed start start
  | step {state next : σ} {action : α} (before : Reachable step allowed start state)
      (allows : allowed state action) (stepped : step state action = some next) :
      Reachable step allowed start next

section

variable {step : σ → α → Option σ} {allowed : σ → α → Prop} {start : σ} {state : σ}

theorem Reachable.invariant {invariant : σ → Prop} (initially : invariant start)
    (kept : ∀ state act next, invariant state → allowed state act →
      step state act = some next → invariant next)
    (reachable : Reachable step allowed start state) : invariant state := by
  induction reachable with
  | start => exact initially
  | step old allows stepped ih => exact kept _ _ _ ih allows stepped

theorem Reachable.take {next : σ} (old : Reachable step allowed start state) (act : α)
    (allows : allowed state act) (stepped : step state act = some next) :
    Reachable step allowed start next :=
  old.step allows stepped

theorem Reachable.trans {mid : σ} (first : Reachable step allowed start mid)
    (second : Reachable step allowed mid state) : Reachable step allowed start state := by
  induction second with
  | start => exact first
  | step _ allows stepped ih => exact ih.step allows stepped

theorem Reachable.mono {looser : σ → α → Prop}
    (implies : ∀ state act, allowed state act → looser state act)
    (reachable : Reachable step allowed start state) : Reachable step looser start state := by
  induction reachable with
  | start => exact .start
  | step _ allows stepped ih => exact ih.step (implies _ _ allows) stepped

theorem Reachable.simulated {τ β : Type*} {abstract : τ → β → Option τ}
    {permitted : τ → β → Prop} (view : σ → τ) (follows : ∀ state act next, allowed state act →
      step state act = some next → view next = view state ∨
        ∃ visible, permitted (view state) visible ∧
          abstract (view state) visible = some (view next))
    (reachable : Reachable step allowed start state) :
    Reachable abstract permitted (view start) (view state) := by
  induction reachable with
  | start => exact .start
  | step _ allows stepped ih =>
    rcases follows _ _ _ allows stepped with eq | ⟨_, permits, moved⟩
    · rw [eq]
      exact ih
    · exact ih.step permits moved

end

def run (step : σ → α → Option σ) (allowed : σ → α → Bool) :
    List α → σ → Option σ
  | [], state => some state
  | action :: rest, state =>
    if allowed state action then
      (step state action).bind (run step allowed rest)
    else none

variable {step : σ → α → Option σ} {actions : List α} {start finish : σ} {allowed : σ → α → Prop}
  {state : σ}

theorem reachable_of_run {allowed : σ → α → Bool}
    (ran : run step allowed actions start = some state) :
    Reachable step (fun state act => allowed state act = true) start
      state := by
  induction actions generalizing start with
  | nil =>
    cases ran
    exact .start
  | cons act rest ih =>
    rw [run] at ran
    split at ran
    · rename_i allows
      obtain ⟨next, stepped, later⟩ := bind_eq_some_iff.mp ran
      have first : Reachable step (fun state act => allowed state act = true) start next :=
        .step .start allows stepped
      exact first.trans (ih later)
    · cases ran

def Throughout (step : σ → α → Option σ) (holds : σ → Prop) :
    List α → σ → Prop
  | [], state => holds state
  | action :: rest, state =>
    holds state ∧ ∀ next, step state action = some next → Throughout step holds rest next

def Follows (step : σ → α → Option σ) (allowed : σ → α → Prop) :
    List α → σ → Prop
  | [], _ => True
  | action :: rest, state =>
    ∀ next, step state action = some next → allowed state action ∧ Follows step allowed rest next

theorem follows_of_run [∀ state act, Decidable (allowed state act)]
    (ran : run step (fun state act => decide (allowed state act))
      actions start = some state) : Follows step allowed actions start := by
  induction actions generalizing start with
  | nil => trivial
  | cons act rest ih =>
    rw [run] at ran
    split at ran
    · rename_i allows
      obtain ⟨next, stepped, later⟩ := bind_eq_some_iff.mp ran
      intro other steppedAgain
      rw [stepped] at steppedAgain
      cases steppedAgain
      exact ⟨of_decide_eq_true allows, ih later⟩
    · cases ran

theorem throughout_iff_follows (invariant holds : σ → Prop)
    (kept : ∀ state act next, invariant state → step state act = some next → invariant next)
    (exact : ∀ state act next, invariant state → holds state → step state act = some next →
      (holds next ↔ allowed state act))
    (actions : List α) (initially : invariant start) (holdsFirst : holds start) :
    Throughout step holds actions start ↔
      Follows step allowed actions start := by
  induction actions generalizing start with
  | nil => exact ⟨fun _ => trivial, fun _ => holdsFirst⟩
  | cons act rest ih =>
    constructor
    · rintro ⟨_, later⟩ next stepped
      have holdsNext : holds next := by
        have := later next stepped
        cases rest with
        | nil => exact this
        | cons _ _ => exact this.1
      exact ⟨(exact _ _ _ initially holdsFirst stepped).mp holdsNext,
        (ih (kept _ _ _ initially stepped) holdsNext).mp (later next stepped)⟩
    · intro follows
      refine ⟨holdsFirst, ?_⟩
      intro next stepped
      obtain ⟨allows, later⟩ := follows next stepped
      have holdsNext := (exact _ _ _ initially holdsFirst stepped).mpr allows
      exact (ih (kept _ _ _ initially stepped) holdsNext).mpr later

def last (step : σ → α → Option σ) (actions : List α) (start : σ) : Option σ :=
  run step (fun _ _ => true) actions start

theorem last_cons {act : α} (ends : last step (act :: actions) start = some finish) :
    ∃ next, step start act = some next ∧ last step actions next = some finish :=
  bind_eq_some_iff.mp ends

theorem Throughout.at_last {holds : σ → Prop} (throughout : Throughout step holds actions start)
    (ends : last step actions start = some finish) : holds finish := by
  induction actions generalizing start with
  | nil =>
    cases ends
    exact throughout
  | cons act rest ih =>
    obtain ⟨next, stepped, later⟩ := last_cons ends
    exact ih (throughout.2 next stepped) later

theorem invariant_last (invariant : σ → Prop)
    (kept : ∀ state act next, invariant state → step state act = some next → invariant next)
    (initially : invariant start) (ends : last step actions start = some finish) : invariant finish :=
  (reachable_of_run ends).invariant initially
    fun state act next holds _ stepped => kept state act next holds stepped

end Transition
