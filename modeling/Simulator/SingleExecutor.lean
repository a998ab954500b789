import Simulator.Executors
import Simulator.RuntimeActivity
import Simulator.TransitionRuns

/-!
# One executor at a time

`begin` and `Step` refuse only a running simulation; a paused one may be in a step.
-/

namespace Simulator

open Transition LoopPoint

variable {W : Type} {E : Executor W}

/-- Who can execute a step: the loop of a session, or a caller of `Step`. -/
inductive Stepper
  | loop (session : Nat)
  | caller (k : Nat)
deriving DecidableEq

/-- The calls of `Start`, `Run`, `RunN`, `RunUntil`, `Step`, `Pause`, `Resume`
and `Stop`, and the moves of the loops and watchers they create -/
def Action.isLifecycle : Action E → Bool
  | .start _ | .pause | .resume | .stop | .loop _ _ | .watch _ => true
  | .callStep _ | .enterStep _ | .advanceStep _ _ _ | .leaveStep _ => true
  | _ => false

namespace Sim

/-- `exec.step` is in progress. -/
def inProgress (sim : Sim E) : Stepper → Bool
  | .loop i => (sim.loops i).point.isStepping
  | .caller k => (sim.calls k).isStepping

/-- At most one session is open, and at most one `exec.step` is in progress.
-/
structure SingleExecutor (sim : Sim E) : Prop where
  oneLoop : sim.OneOpen
  oneStep : ∀ a b, sim.inProgress a = true → sim.inProgress b = true → a = b

def NoLoopActive (sim : Sim E) : Prop :=
  ∀ i, (sim.loops i).point.isActive = false

/-- No call of `Step` is between its check and the end of the step. -/
def NoCallInStep (sim : Sim E) : Prop :=
  ∀ k, (sim.calls k).inStep = false

/-- Callers wait for what is in flight: a run begins after the sessions
before it are closed, no run begins or resumes during a call of `Step`, and
`Step` is called while nothing else steps. -/
def WaitsForExecutor (sim : Sim E) : Action E → Prop
  | .start _ => sim.AllClosed ∧ sim.NoCallInStep
  | .resume => sim.NoCallInStep
  | .callStep _ => sim.NoLoopActive ∧ sim.NoCallInStep
  | _ => True

/-- The invariant: a call of `Step` in flight keeps the loops out. -/
structure Exclusive (sim : Sim E) : Prop where
  oneLoop : sim.OneOpen
  oneCall : ∀ k l, (sim.calls k).inStep = true → (sim.calls l).inStep = true → k = l
  halts : ∀ k, (sim.calls k).inStep = true → sim.control.state ≠ .running
  excludes : ∀ k, (sim.calls k).inStep = true → sim.NoLoopActive

theorem exclusive_new (w : W) : (new w : Sim E).Exclusive where
  oneLoop := oneOpen_new w
  oneCall := by
    intro k l inStep
    cases inStep
  halts := by
    intro k inStep
    cases inStep
  excludes := by
    intro k inStep
    cases inStep

namespace Exclusive

variable {sim next : Sim E} {action : Action E}

section

variable (exclusive : sim.Exclusive) (waits : sim.WaitsForExecutor action)
  (moved : sim.Moves action next)
include exclusive waits moved

theorem step_oneCall :
    ∀ k l, (next.calls k).inStep = true → (next.calls l).inStep = true → k = l := by
  intro k l inStepK inStepL
  rcases moved.inStep_cases inStepK with oldK | ⟨calledK, -⟩
  · rcases moved.inStep_cases inStepL with oldL | ⟨rfl, -⟩
    · exact exclusive.oneCall k l oldK oldL
    · rw [waits.2 k] at oldK
      cases oldK
  · rcases moved.inStep_cases inStepL with oldL | ⟨calledL, -⟩
    · subst calledK
      rw [waits.2 l] at oldL
      cases oldL
    · rw [calledK] at calledL
      cases calledL
      rfl

theorem quiet_before {k : Nat} (inStep : (next.calls k).inStep = true) :
    sim.control.state ≠ .running ∧ sim.NoLoopActive := by
  rcases moved.inStep_cases inStep with old | ⟨rfl, idle⟩
  · exact ⟨exclusive.halts k old, exclusive.excludes k old⟩
  · exact ⟨idle, waits.1⟩

theorem step_halts : ∀ k, (next.calls k).inStep = true → next.control.state ≠ .running := by
  intro k inStep running
  have quiet := exclusive.quiet_before waits moved inStep
  rcases moved.running_cases running with was | ⟨limit, rfl⟩ | rfl
  · exact quiet.1 was
  · rcases moved.inStep_cases inStep with old | ⟨called, -⟩
    · rw [waits.2 k] at old
      cases old
    · cases called
  · rcases moved.inStep_cases inStep with old | ⟨called, -⟩
    · rw [waits k] at old
      cases old
    · cases called

theorem step_excludes : ∀ k, (next.calls k).inStep = true → next.NoLoopActive := by
  intro k inStep i
  have quiet := exclusive.quiet_before waits moved inStep
  by_contra active
  rcases moved.isActive_cases (by simpa using active) with was | running
  · rw [quiet.2 i] at was
    cases was
  · exact quiet.1 running

theorem step :
    next.Exclusive where
  oneLoop := by
    apply moved.oneOpen exclusive.oneLoop
    rintro limit rfl
    exact waits.1
  oneCall := exclusive.step_oneCall waits moved
  halts := exclusive.step_halts waits moved
  excludes := exclusive.step_excludes waits moved

end

theorem singleExecutor (exclusive : sim.Exclusive) : sim.SingleExecutor where
  oneLoop := exclusive.oneLoop
  oneStep := by
    have apart : ∀ i k, sim.inProgress (.loop i) = true →
        sim.inProgress (.caller k) = true → False := by
      intro i k loopSteps callSteps
      have idle := exclusive.excludes k (Call.inStep_of_isStepping callSteps) i
      rw [isActive_of_isStepping loopSteps] at idle
      cases idle
    intro a b stepsA stepsB
    cases a with
    | loop i =>
      cases b with
      | loop j =>
        rw [exclusive.oneLoop i j (isOpen_of_isStepping stepsA) (isOpen_of_isStepping stepsB)]
      | caller l => exact (apart i l stepsA stepsB).elim
    | caller k =>
      cases b with
      | loop j => exact (apart j k stepsB stepsA).elim
      | caller l =>
        rw [exclusive.oneCall k l (Call.inStep_of_isStepping stepsA)
          (Call.inStep_of_isStepping stepsB)]

end Exclusive

theorem singleExecutor_of_reachable {w : W} {sim : Sim E}
    (reachable : Reachable step WaitsForExecutor (new w) sim) : sim.SingleExecutor := by
  apply Exclusive.singleExecutor
  apply reachable.invariant (exclusive_new w)
  intro state action next exclusive waits stepped
  exact exclusive.step waits (moves_of_step stepped)

theorem singleExecutor_of_reachable_spawner :
    ∃ sim : Sim spawner, Reachable step WaitsForExecutor spawnerNew sim ∧
      sim.inProgress (.loop 0) = true ∧ sim.SingleExecutor := by
  obtain ⟨sim, reachable, stepping⟩ : ∃ sim : Sim spawner,
      Reachable step WaitsForExecutor spawnerNew sim ∧ sim.inProgress (.loop 0) = true := by
    have new : Reachable step WaitsForExecutor spawnerNew spawnerNew := .start
    have started := new.take (.start (.atSteps 1)) ⟨fun _ => rfl, fun _ => rfl⟩ rfl
    have reg := started.take (.loop 0 .register) trivial rfl
    have checked := reg.take (.loop 0 .look) trivial rfl
    have stepping := checked.take (.loop 0 (.ask .no)) trivial rfl
    exact ⟨_, stepping, rfl⟩
  exact ⟨sim, reachable, stepping, singleExecutor_of_reachable reachable⟩

/-- `Start`, `Pause` during the first step, `Start`: both loops step. -/
def overlappingStarts : List (Action spawner) :=
  [.start .unlimited, .loop 0 .register, .loop 0 .look, .loop 0 (.ask .no),
    .pause, .start .unlimited, .loop 1 .register, .loop 1 .look, .loop 1 (.ask .no)]

theorem two_loops_step :
    ∃ sim : Sim spawner, Reachable step (fun _ action => action.isLifecycle = true) spawnerNew sim ∧
      (sim.loops 0).point.isOpen = true ∧ (sim.loops 1).point.isOpen = true ∧
      sim.inProgress (.loop 0) = true ∧ sim.inProgress (.loop 1) = true ∧ ¬ sim.SingleExecutor := by
  obtain ⟨sim, ran, first, second⟩ : ∃ sim : Sim spawner,
      run step (fun _ action => action.isLifecycle) overlappingStarts spawnerNew = some sim ∧
      sim.inProgress (.loop 0) = true ∧ sim.inProgress (.loop 1) = true := ⟨_, rfl, rfl, rfl⟩
  refine ⟨sim, reachable_of_run ran, isOpen_of_isStepping first,
    isOpen_of_isStepping second, first, second, ?_⟩
  intro single
  cases single.oneStep _ _ first second

end Sim

end Simulator
