import Simulator.BoundedRuns
import Simulator.LoneRuns

/-!
# Stepping by hand

Calls of `Step` and a session with a limit both make whole steps, `Steps`.
-/

namespace Simulator

open List Function

variable {W : Type} {E : Executor W}

namespace Executor

inductive Steps (E : Executor W) (start : W) : List W → W → Prop
  | start : Steps E start [] start
  | step {begun : List W} {w w' : W} {more : Bool} (before : Steps E start begun w)
      (stepped : E.Runs w (E.start w) w' (.returned more)) : Steps E start (begun ++ [w]) w'

/-- None of the first `n` steps from there fails. -/
def Unfailing (E : Executor W) (start : W) (n : Nat) : Prop :=
  ∀ begun w w' outcome, E.Steps start begun w → begun.length < n →
    E.Runs w (E.start w) w' outcome → ∃ more, outcome = .returned more

variable {start : W} {begun : List W} {n : UInt64} {w : W}

theorem Rounds.steps {steps : UInt64} (rounds : E.Rounds (.atSteps n) start begun w steps) :
    E.Steps start begun w ∧ steps.toNat = begun.length ∧ begun.length ≤ n.toNat := by
  induction rounds with
  | start => exact ⟨.start, rfl, Nat.zero_le _⟩
  | round old goesOn step ih =>
    obtain ⟨made, count, bound⟩ := ih
    have below := Limit.atSteps_no goesOn
    refine ⟨made.step step, ?_, ?_⟩
    · rw [toNat_steps_succ (n := n) (by omega), count, length_append, length_singleton]
    · rw [length_append, length_singleton]
      omega

theorem InRound.steps {origin : W} {steps : UInt64}
    (inRound : E.InRound (.atSteps n) start begun steps origin) :
    ∃ prior, begun = prior ++ [origin] ∧ E.Steps start prior origin ∧
      steps.toNat = prior.length ∧ prior.length < n.toNat := by
  cases inRound with
  | enter old goesOn =>
    obtain ⟨made, count, _⟩ := old.steps
    have below := Limit.atSteps_no goesOn
    exact ⟨_, rfl, made, count, by omega⟩

theorem Unfailing.not_broken {steps : UInt64} (unfailing : E.Unfailing start n.toNat)
    (broken : E.Broken (.atSteps n) start begun w steps) : False := by
  cases broken with
  | limit rounds answer => exact Limit.atSteps_panics answer
  | error inRound step | panic inRound step =>
    obtain ⟨prior, _, made, _, below⟩ := inRound.steps
    obtain ⟨more, no⟩ := unfailing _ _ _ _ made below step
    cases no

end Executor

/-- What a caller of `Step` has done at each point of a call. -/
def Call.InCalls (E : Executor W) (start : W) (steps : UInt64) (w : W)
    (begun : List W) : Call E → Prop
  | .idle | .stepChecked =>
    E.Steps start begun w ∧ steps = UInt64.ofNat begun.length
  | .stepping frame =>
    ∃ earlier origin, begun = earlier ++ [origin] ∧
      E.Steps start earlier origin ∧ steps = UInt64.ofNat earlier.length ∧
      ∀ w' outcome, E.Runs w frame w' outcome → E.Runs origin (E.start origin) w' outcome
  | .stepped outcome =>
    ∃ earlier origin, begun = earlier ++ [origin] ∧
      E.Steps start earlier origin ∧ steps = UInt64.ofNat earlier.length ∧
      E.Runs origin (E.start origin) w outcome
  | .snapshotting _ | .restoring _ => False

namespace Sim

/-- The moves of calls of `Step` by caller `k`, with a live context. -/
def OfCaller (k : Nat) : Action E → Prop
  | .callStep j => j = k
  | .enterStep j => j = k
  | .advanceStep j cancelled _ => j = k ∧ cancelled = false
  | .leaveStep j => j = k
  | _ => False

variable {start : W} {begun : List W} {sim : Sim E} {frame : E.Frame} {w : W} {n : Nat}
  {choice : E.Choice} {outcome : StepOutcome}

theorem inCalls_step {k : Nat} {next : Sim E} {act : Action E} (unfailing : E.Unfailing start n)
    (inCalls : (sim.calls k).InCalls E start sim.control.steps sim.world begun)
    (bound : begun.length ≤ n) (permitted : OfCaller k act) (step : sim.step act = some next) :
    (next.calls k).InCalls E start next.control.steps next.world (begun ++ sim.begins act) := by
  have moved := moves_of_step step
  cases moved with
  | callStep free idle =>
    cases permitted
    rw [free] at inCalls
    simp only [setCall, update_self, begins, append_nil]
    exact inCalls
  | enterStep here =>
    cases permitted
    rw [here] at inCalls
    simp only [setCall, update_self, begins]
    exact ⟨begun, sim.world, rfl, inCalls.1, inCalls.2, fun _ _ runs => runs⟩
  | advanceStep here went =>
    obtain ⟨rfl, rfl⟩ := permitted
    rw [here] at inCalls
    obtain ⟨prior, origin, split, made, count, rest⟩ := inCalls
    simp only [setCall, update_self, begins, append_nil]
    exact ⟨prior, origin, split, made, count, fun _ _ runs => rest _ _ (.advance went runs)⟩
  | finishStep here went =>
    obtain ⟨rfl, rfl⟩ := permitted
    rw [here] at inCalls
    obtain ⟨prior, origin, split, made, count, rest⟩ := inCalls
    simp only [setCall, update_self, begins, append_nil]
    exact ⟨prior, origin, split, made, count, rest _ _ (.finish went)⟩
  | failStep here | panicStep here =>
    cases permitted
    rw [here] at inCalls
    obtain ⟨prior, origin, rfl, made, _, ran⟩ := inCalls
    rw [length_append, length_singleton] at bound
    obtain ⟨more, no⟩ := unfailing _ _ _ _ made bound ran
    cases no
  | countStep here =>
    cases permitted
    rw [here] at inCalls
    obtain ⟨prior, origin, rfl, made, count, ran⟩ := inCalls
    simp only [setCall, update_self, begins, append_nil]
    refine ⟨made.step ran, ?_⟩
    rw [count, length_append, length_singleton, UInt64.ofNat_add]
    rfl
  | _ => exact permitted.elim

theorem Recorded.inCalls (unfailing : E.Unfailing start n)
    (run : Recorded (OfCaller 0) (new start) begun sim) (bound : begun.length ≤ n) :
    (sim.calls 0).InCalls E start sim.control.steps sim.world begun := by
  induction run with
  | start => exact ⟨.start, rfl⟩
  | move old permitted step ih =>
    rw [length_append] at bound
    exact inCalls_step unfailing (ih (by omega)) (by omega) permitted step

/-- Calls of `Step` on a new simulation may lead there. -/
def Called (E : Executor W) (start : W) (begun : List W) (call : Call E) (w : W) : Prop :=
  ∃ sim : Sim E, Recorded (OfCaller 0) (new start) begun sim ∧ sim.calls 0 = call ∧
    sim.world = w ∧ sim.control.state = .idle

theorem Called.finish {w' : W} (runs : E.Runs w frame w' outcome)
    (called : Called E start begun (.stepping frame) w) :
    Called E start begun (.stepped outcome) w' := by
  induction runs with
  | @finish _ _ _ _ choice went =>
    obtain ⟨sim, run, here, rfl, idle⟩ := called
    have later := run.take (.advanceStep 0 false choice) ⟨rfl, rfl⟩
      (Moves.finishStep here went).step
    simp only [begins, append_nil] at later
    exact ⟨_, later, by simp [setCall], rfl, idle⟩
  | @advance _ _ _ _ _ _ choice went rest ih =>
    obtain ⟨sim, run, here, rfl, idle⟩ := called
    have later := run.take (.advanceStep 0 false choice) ⟨rfl, rfl⟩
      (Moves.advanceStep here went).step
    simp only [begins, append_nil] at later
    exact ih ⟨_, later, by simp [setCall], rfl, idle⟩

theorem exists_calls (made : E.Steps start begun w) : Called E start begun .idle w := by
  induction made with
  | start => exact ⟨_, .start, rfl, rfl, rfl⟩
  | step old stepped ih =>
    obtain ⟨sim, run, free, rfl, idle⟩ := ih
    have notRunning : sim.control.state ≠ .running := by simp [idle]
    have run := (run.take (.callStep 0) rfl (Moves.callStep free notRunning).step).take
      (.enterStep 0) rfl (Moves.enterStep (by simp [setCall])).step
    simp only [begins, append_nil] at run
    obtain ⟨ended, run, here, rfl, idle⟩ := Called.finish stepped
      ⟨_, run, by simp [setCall], rfl, idle⟩
    have run := run.take (.leaveStep 0) rfl (Moves.countStep here).step
    simp only [begins, append_nil] at run
    exact ⟨_, run, by simp [setCall], rfl, idle⟩

/-- Moves of session 0 may lead there. -/
def Driven (first : Sim E) (begun : List W) (loop : Loop E) (c : Control) (w : W) : Prop :=
  ∃ sim, Recorded (OfSession 0) first begun sim ∧ sim.loops 0 = loop ∧ sim.control = c ∧
    sim.world = w

namespace Driven

variable {first : Sim E} {loop loop' : Loop E} {c c' : Control} {w' : W} {act : LoopAction E}
  {woken : Bool}

section

variable (driven : Driven first begun loop c w) (moved : LoopMoves 0 c w loop act c' w' loop' woken)
include driven moved

theorem move :
    Driven first (begun ++ act.begins w) loop' c' w' := by
  obtain ⟨sim, run, rfl, rfl, rfl⟩ := driven
  exact ⟨_, run.loop act (Moves.loop moved).step, by simp, rfl, rfl⟩

theorem quiet (silent : act.begins w = []) :
    Driven first begun loop' c' w' := by
  have later := driven.move moved
  rw [silent, append_nil] at later
  exact later

end

theorem finish (runs : E.Runs w frame w' outcome) (live : loop.cancelled = false)
    (driven : Driven first begun { loop with point := .stepping frame } c w) :
    ∃ log, Driven first begun { loop with point := .stepped outcome, log := log } c w' := by
  induction runs with
  | finish went => exact ⟨_, driven.quiet (.finish rfl (live ▸ went)) rfl⟩
  | advance went rest ih => exact ih (driven.quiet (.advance rfl (live ▸ went)) rfl)

/-- A run that has reached its limit, or has nothing left to do, returns. -/
theorem close (driven : Driven first begun loop c w)
    (isOver : loop.point = .limitReached ∨ loop.point = .drained) :
    ∃ sim, Recorded (OfSession 0) first begun sim ∧
      (sim.loops 0).point = .closed none ∧ sim.world = w ∧ sim.control.steps = c.steps := by
  obtain ⟨sim, run, here, control, world⟩ := driven.quiet (.complete isOver) rfl
    |>.quiet (.finalize rfl) rfl |>.quiet (.release rfl) rfl |>.quiet (.close rfl) rfl
  exact ⟨sim, run, by rw [here], world, by rw [control]⟩

end Driven

section

variable {limit : Limit W} {first : Sim E} {steps : UInt64}

/-- Rounds that can be made one after another can be made by a session. -/
theorem exists_rounds (started : (new start).step (.start limit) = some first)
    (rounds : E.Rounds limit start begun w steps) :
    ∃ loop c, Driven first begun loop c w ∧ loop.point = .head ∧ loop.limit = limit ∧
      loop.cancelled = false ∧ c.state = .running ∧ c.steps = steps := by
  induction rounds with
  | start =>
    have driven : Driven first [] (first.loops 0) first.control first.world :=
      ⟨_, .start, rfl, rfl, rfl⟩
    cases moves_of_step started
    exact ⟨_, _, driven.quiet (.register rfl) rfl, rfl, rfl, rfl, rfl, rfl⟩
  | round old goesOn step ih =>
    obtain ⟨loop, c, driven, here, rfl, live, running, rfl⟩ := ih
    have entered := (driven.quiet (.check here running) rfl).move (.enter rfl goesOn)
    obtain ⟨log, ended⟩ := Driven.finish step live entered
    exact ⟨_, _, ended.quiet (.count rfl) rfl, rfl, rfl, live, running, rfl⟩

/-- Rounds that can come to their end so can be made by a session that
returns. -/
theorem exists_ended (started : (new start).step (.start limit) = some first)
    (ended : E.Ended limit start begun w steps) :
    ∃ sim, Recorded (OfSession 0) first begun sim ∧
      (sim.loops 0).point = .closed none ∧ sim.world = w ∧ sim.control.steps = steps := by
  cases ended with
  | reached rounds answer =>
    obtain ⟨loop, c, driven, here, rfl, live, running, rfl⟩ := exists_rounds started rounds
    have reached := (driven.quiet (.check here running) rfl).quiet (.reach rfl answer) rfl
    exact reached.close (.inl rfl)
  | drained inRound step =>
    cases inRound with
    | enter old goesOn =>
      obtain ⟨loop, c, driven, here, rfl, live, running, rfl⟩ := exists_rounds started old
      have entered := (driven.quiet (.check here running) rfl).move (.enter rfl goesOn)
      obtain ⟨log, ended⟩ := Driven.finish step live entered
      exact (ended.quiet (.drain rfl) rfl).close (.inr rfl)

end

end Sim

end Simulator
