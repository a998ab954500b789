import Simulator.SingleExecutor

/-!
# Snapshots and restores between steps

`Snapshot` and `Restore` look at the lifecycle state and then use the world without the
mutex.
-/

namespace Simulator

open Transition LoopPoint

variable {W : Type} {E : Executor W}

namespace Sim

/-- No call of `Snapshot` or `Restore` is in flight. -/
def NoTouch (sim : Sim E) : Prop :=
  ∀ k, (sim.calls k).touches = false

def NoRestore (sim : Sim E) : Prop :=
  ∀ k, (sim.calls k).isRestoring = false

/-- No `exec.step` is in progress on the world. -/
def AtBoundary (sim : Sim E) : Prop :=
  ∀ stepper, sim.inProgress stepper = false

structure Untorn (sim : Sim E) : Prop where
  between : ∀ k, (sim.calls k).touches = true → sim.AtBoundary
  whole : ∀ k seen, sim.calls k = .snapshotting seen → sim.NoRestore ∧ ∀ w ∈ seen, w = sim.world

/-- `Snapshot` and `Restore` are called when no step is in flight, no run or
step begins and no run resumes before they return, and a restore overlaps
with no other call of the two. -/
def KeepsApart (sim : Sim E) : Action E → Prop
  | .callSnapshot _ => sim.NoLoopActive ∧ sim.NoCallInStep ∧ sim.NoRestore
  | .callRestore _ _ => sim.NoLoopActive ∧ sim.NoCallInStep ∧ sim.NoTouch
  | .start _ | .resume | .callStep _ => sim.NoTouch
  | _ => True

structure Guarded (sim : Sim E) : Prop where
  halts : ∀ k, (sim.calls k).touches = true → sim.control.state ≠ .running
  noLoop : ∀ k, (sim.calls k).touches = true → sim.NoLoopActive
  noStep : ∀ k, (sim.calls k).touches = true → sim.NoCallInStep
  alone : ∀ k l, (sim.calls k).isRestoring = true → (sim.calls l).touches = true → k = l
  current : ∀ k seen, sim.calls k = .snapshotting seen → ∀ w ∈ seen, w = sim.world

theorem guarded_new (w : W) : (new w : Sim E).Guarded where
  halts := by
    intro k touches
    cases touches
  noLoop := by
    intro k touches
    cases touches
  noStep := by
    intro k touches
    cases touches
  alone := by
    intro k l restoring
    cases restoring
  current := by
    intro k seen snapshotting
    cases snapshotting

namespace Guarded

variable {sim next : Sim E} {action : Action E} {k : Nat}

theorem quiet_before (guarded : sim.Guarded) (apart : sim.KeepsApart action)
    (moved : sim.Moves action next) (touches : (next.calls k).touches = true) :
    sim.control.state ≠ .running ∧ sim.NoLoopActive ∧ sim.NoCallInStep := by
  rcases moved.touches_cases touches with old | ⟨idle, rfl | ⟨writes, rfl⟩⟩
  · exact ⟨guarded.halts k old, guarded.noLoop k old, guarded.noStep k old⟩
  · exact ⟨idle, apart.1, apart.2.1⟩
  · exact ⟨idle, apart.1, apart.2.1⟩

theorem not_touches (moved : sim.Moves action next) (noTouch : sim.NoTouch)
    (notSnapshot : ∀ k, action ≠ .callSnapshot k)
    (notRestore : ∀ k writes, action ≠ .callRestore k writes)
    (touches : (next.calls k).touches = true) : False := by
  rcases moved.touches_cases touches with old | ⟨-, called | ⟨writes, called⟩⟩
  · rw [noTouch k] at old
    cases old
  · exact notSnapshot k called
  · exact notRestore k writes called

section

variable (guarded : sim.Guarded) (apart : sim.KeepsApart action) (moved : sim.Moves action next)
include guarded apart moved

theorem step_halts : ∀ k, (next.calls k).touches = true → next.control.state ≠ .running := by
  intro k touches running
  rcases moved.running_cases running with was | ⟨limit, rfl⟩ | rfl
  · exact (guarded.quiet_before apart moved touches).1 was
  · exact not_touches moved apart (by simp) (by simp) touches
  · exact not_touches moved apart (by simp) (by simp) touches

theorem step_noLoop : ∀ k, (next.calls k).touches = true → next.NoLoopActive := by
  intro k touches i
  have quiet := guarded.quiet_before apart moved touches
  by_contra active
  rcases moved.isActive_cases (by simpa using active) with was | running
  · rw [quiet.2.1 i] at was
    cases was
  · exact quiet.1 running

theorem step_noStep : ∀ k, (next.calls k).touches = true → next.NoCallInStep := by
  intro k touches l
  by_contra inStep
  rcases moved.inStep_cases (by simpa using inStep) with was | ⟨rfl, -⟩
  · rw [(guarded.quiet_before apart moved touches).2.2 l] at was
    cases was
  · exact not_touches moved apart (by simp) (by simp) touches

theorem step_alone :
    ∀ k l, (next.calls k).isRestoring = true → (next.calls l).touches = true → k = l := by
  intro k l restoring touches
  rcases moved.isRestoring_cases restoring with oldK | ⟨writes, calledK⟩
  · rcases moved.touches_cases touches with oldL | ⟨-, rfl | ⟨writes, rfl⟩⟩
    · exact guarded.alone k l oldK oldL
    · rw [apart.2.2 k] at oldK
      cases oldK
    · have touchesK := Call.touches_of_isRestoring oldK
      rw [apart.2.2 k] at touchesK
      cases touchesK
  · subst calledK
    rcases moved.touches_cases touches with oldL | ⟨-, called | ⟨writes, called⟩⟩
    · rw [apart.2.2 l] at oldL
      cases oldL
    · cases called
    · cases called
      rfl

end

section

variable (guarded : sim.Guarded)
include guarded

theorem world_eq (moved : sim.Moves action next)
    {seen : List W} (snapshotting : sim.calls k = .snapshotting seen) : next.world = sim.world := by
  have touches : (sim.calls k).touches = true := by
    rw [snapshotting]
    rfl
  rcases moved.world_cases with eq | ⟨i, steps⟩ | ⟨l, steps⟩ | ⟨l, restores⟩
  · exact eq
  · have idle := guarded.noLoop k touches i
    rw [isActive_of_isStepping steps] at idle
    cases idle
  · have idle := guarded.noStep k touches l
    rw [Call.inStep_of_isStepping steps] at idle
    cases idle
  · rw [guarded.alone l k restores touches, snapshotting] at restores
    cases restores

theorem step_current (moved : sim.Moves action next) :
    ∀ k seen, next.calls k = .snapshotting seen → ∀ w ∈ seen, w = next.world := by
  intro k seen snapshotting w mem
  rcases moved.seen_cases snapshotting with old | rfl | ⟨before, old, rfl⟩
  · rw [guarded.world_eq moved old]
    exact guarded.current k seen old w mem
  · cases mem
  · rw [guarded.world_eq moved old]
    rcases List.mem_cons.mp mem with now | prior
    · exact now
    · exact guarded.current k before old w prior

theorem step (apart : sim.KeepsApart action) (moved : sim.Moves action next) : next.Guarded where
  halts := guarded.step_halts apart moved
  noLoop := guarded.step_noLoop apart moved
  noStep := guarded.step_noStep apart moved
  alone := guarded.step_alone apart moved
  current := guarded.step_current moved

theorem untorn : sim.Untorn where
  between := by
    intro k touches stepper
    by_contra steps
    have steps : sim.inProgress stepper = true := by simpa using steps
    cases stepper with
    | loop i =>
      have idle := guarded.noLoop k touches i
      rw [isActive_of_isStepping steps] at idle
      cases idle
    | caller l =>
      have idle := guarded.noStep k touches l
      rw [Call.inStep_of_isStepping steps] at idle
      cases idle
  whole := by
    intro k seen snapshotting
    refine ⟨fun l => ?_, guarded.current k seen snapshotting⟩
    by_contra restores
    have restores : (sim.calls l).isRestoring = true := by simpa using restores
    have eq := guarded.alone l k restores (by rw [snapshotting]; rfl)
    rw [eq, snapshotting] at restores
    cases restores

end

end Guarded

theorem untorn_of_reachable {w : W} {sim : Sim E}
    (reachable : Reachable step KeepsApart (new w) sim) : sim.Untorn := by
  apply Guarded.untorn
  apply reachable.invariant (guarded_new w)
  intro state action next guarded apart stepped
  exact guarded.step apart (moves_of_step stepped)

theorem untorn_of_reachable_spawner :
    ∃ sim : Sim spawner, Reachable step KeepsApart spawnerNew sim ∧
      sim.calls 0 = .snapshotting [sim.world] ∧ sim.Untorn := by
  obtain ⟨sim, reachable, snapshotting⟩ : ∃ sim : Sim spawner,
      Reachable step KeepsApart spawnerNew sim ∧ sim.calls 0 = .snapshotting [sim.world] := by
    have new : Reachable step KeepsApart spawnerNew spawnerNew := .start
    have started := new.take (.start .unlimited) (fun _ => rfl) rfl
    have reg := started.take (.loop 0 .register) trivial rfl
    have paused := reg.take .pause trivial rfl
    have parked := paused.take (.loop 0 .look) trivial rfl
    have entered := parked.take (.callSnapshot 0) ⟨fun i => by
      cases i <;> rfl, fun _ => rfl, fun _ => rfl⟩ rfl
    have seen := entered.take (.readWorld 0) trivial rfl
    exact ⟨_, seen, rfl⟩
  exact ⟨sim, reachable, snapshotting, untorn_of_reachable reachable⟩

/-- `Start`, `Pause` during the first step, `Snapshot`: the snapshot reads the
world before and after the step creates an entity. -/
def snapshotDuringStep : List (Action spawner) :=
  [.start .unlimited, .loop 0 .register, .loop 0 .look, .loop 0 (.ask .no),
    .pause, .callSnapshot 0, .readWorld 0, .loop 0 (.advance ()), .readWorld 0]

theorem snapshot_torn :
    ∃ (sim : Sim spawner) (later earlier : World flagTypes × Unit),
      Reachable step (fun _ _ => True) spawnerNew sim ∧
      sim.calls 0 = .snapshotting [later, earlier] ∧ sim.inProgress (.loop 0) = true ∧
      later.1.entities.ids ≠ earlier.1.entities.ids ∧ ¬ sim.Untorn := by
  obtain ⟨sim, later, earlier, ran, seen, steps, differ⟩ :
      ∃ (sim : Sim spawner) (later earlier : World flagTypes × Unit),
        run step (fun _ _ => true) snapshotDuringStep spawnerNew = some sim ∧
        sim.calls 0 = .snapshotting [later, earlier] ∧ sim.inProgress (.loop 0) = true ∧
        later.1.entities.ids ≠ earlier.1.entities.ids := ⟨_, _, _, rfl, rfl, rfl, by decide⟩
  have reachable : Reachable step (fun _ _ => True) spawnerNew sim :=
    (reachable_of_run ran).mono fun _ _ _ => trivial
  refine ⟨sim, later, earlier, reachable, seen, steps, differ, ?_⟩
  intro untorn
  have idle := untorn.between 0 (by rw [seen]; rfl) (.loop 0)
  rw [steps] at idle
  cases idle

end Sim

end Simulator
