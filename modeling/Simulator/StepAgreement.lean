import Simulator.EventClock
import Simulator.SteppedRuns

/-!
# Stepping by hand and running for a number of steps

`n` calls of `Step` and one call of `RunN(n)` leave the same world.
-/

namespace Simulator

open Interleaving Sim List EventQueue Executor

variable {W : Type} {E : Executor W}

namespace Sim

/-- `n` calls of `Step` on a new simulation, one after another, with the worlds
in which they began. -/
def Stepped (start : W) (n : Nat) (begun : List W) (sim : Sim E) : Prop :=
  Recorded (OfCaller 0) (new start) begun sim ∧ begun.length = n ∧ sim.calls 0 = .idle

/-- `RunN(n)` on a new simulation, until it returns. -/
def RanN (start : W) (n : UInt64) (sim : Sim E) : Prop :=
  ∃ first begun runErr, (new start).step (.start (.atSteps n)) = some first ∧
    Recorded (OfSession 0) first begun sim ∧ (sim.loops 0).point = .closed runErr

end Sim

namespace Executor

def Functional (E : Executor W) : Prop :=
  ∀ {w v v' : W} {outcome outcome' : StepOutcome},
    E.Runs w (E.start w) v outcome → E.Runs w (E.start w) v' outcome' → v = v' ∧ outcome = outcome'

def Restful (E : Executor W) : Prop :=
  ∀ {w w' : W}, E.Runs w (E.start w) w' (.returned false) → w' = w

def Total (E : Executor W) : Prop :=
  ∀ w, ∃ w' outcome, E.Runs w (E.start w) w' outcome

theorem functional_of_subsingleton [Subsingleton E.Choice] : E.Functional := by
  intro w v v' out outcome' runs
  generalize E.start w = frame at runs
  induction runs with
  | @finish w v frame out choice went =>
    intro other
    cases other with
    | @finish _ _ _ _ choice' advanced' =>
      rw [Subsingleton.elim choice' choice, went] at advanced'
      cases advanced'
      exact ⟨rfl, rfl⟩
    | @advance _ _ _ _ _ _ choice' advanced' rest =>
      rw [Subsingleton.elim choice' choice, went] at advanced'
      cases advanced'
  | @advance w u v frame next out choice went rest ih =>
    intro other
    cases other with
    | @finish _ _ _ _ choice' advanced' =>
      rw [Subsingleton.elim choice' choice, went] at advanced'
      cases advanced'
    | @advance _ _ _ _ _ _ choice' advanced' rest' =>
      rw [Subsingleton.elim choice' choice, went] at advanced'
      cases advanced'
      exact ih rest'

section

variable {start w w' : W} {begun begun' : List W}

theorem Steps.unique (functional : E.Functional)
    (made : E.Steps start begun w) (made' : E.Steps start begun' w')
    (eq : begun.length = begun'.length) : begun = begun' ∧ w = w' := by
  induction made generalizing begun' w' with
  | start =>
    cases made' with
    | start => exact ⟨rfl, rfl⟩
    | step old stepped => simp at eq
  | step old stepped ih =>
    cases made' with
    | start => simp at eq
    | step before' stepped' =>
      obtain ⟨rfl, rfl⟩ := ih before' (by simpa using eq)
      exact ⟨rfl, (functional stepped stepped').1⟩

theorem Steps.eq_singleton (made : E.Steps start begun w)
    (length : begun.length = 1) : begun = [start] := by
  cases made with
  | start => cases length
  | step old stepped =>
    cases old with
    | start => rfl
    | step _ _ => simp at length

theorem Steps.rest (functional : E.Functional) (made : E.Steps start begun w)
    (rests : E.Runs w (E.start w) w (.returned false)) (made' : E.Steps start begun' w')
    (longer : begun.length ≤ begun'.length) :
    w' = w ∧ (begun.length < begun'.length → w ∈ begun') := by
  induction made' with
  | start =>
    cases made with
    | start => exact ⟨rfl, fun more => absurd more (Nat.lt_irrefl _)⟩
    | step old stepped => simp at longer
  | @step begun' v v' more old stepped ih =>
    rw [length_append, length_singleton] at longer
    by_cases eq : begun.length = begun'.length + 1
    · have both := made.unique functional (old.step stepped) (by simpa using eq)
      refine ⟨both.2.symm, fun more => ?_⟩
      rw [length_append, length_singleton] at more
      omega
    · obtain ⟨rfl, _⟩ := ih (by omega)
      exact ⟨(functional stepped rests).1, fun _ => by simp⟩

theorem Rounds.busy (functional : E.Functional) {limit : Limit W}
    {steps : UInt64} (rounds : E.Rounds limit start begun w steps) :
    ∀ origin ∈ begun, ∀ v, ¬ E.Runs origin (E.start origin) v (.returned false) := by
  induction rounds with
  | start => nofun
  | round old goesOn step ih =>
    intro origin mem v idle
    rcases mem_append.mp mem with prior | last
    · exact ih origin prior v idle
    · rw [mem_singleton.mp last] at idle
      cases (functional step idle).2

end

end Executor

namespace Sim

variable {start : W} {n : UInt64} {begun : List W} {sim : Sim E}

theorem Stepped.steps (unfailing : E.Unfailing start n.toNat)
    (step : sim.Stepped start n.toNat begun) :
    E.Steps start begun sim.world ∧ sim.control.steps = n := by
  obtain ⟨run, length, idle⟩ := step
  have inCalls := run.inCalls unfailing length.le
  rw [idle] at inCalls
  refine ⟨inCalls.1, ?_⟩
  rw [inCalls.2, length, UInt64.ofNat_toNat]

theorem RanN.ended (unfailing : E.Unfailing start n.toNat) (ran : sim.RanN start n) :
    ∃ begun, E.Ended (.atSteps n) start begun sim.world
      sim.control.steps := by
  obtain ⟨first, begun, runErr, started, run, closed⟩ := ran
  rcases closed_cases started run closed with ⟨_, other, _, waiting⟩ | ⟨_, ended⟩ | ⟨_, broken⟩
  · cases waiting
  · exact ⟨begun, ended⟩
  · exact (unfailing.not_broken broken).elim

theorem agree_iff (functional : E.Functional) (restful : E.Restful)
    (unfailing : E.Unfailing start n.toNat)
    {ran : Sim E} (step : sim.Stepped start n.toNat begun) (runs : ran.RanN start n) :
    sim.world = ran.world ∧ (sim.control.steps = ran.control.steps ↔
        ∀ w ∈ begun, ∀ w', ¬ E.Runs w (E.start w) w' (.returned false)) := by
  obtain ⟨made, count⟩ := step.steps unfailing
  obtain ⟨begun', ended⟩ := runs.ended unfailing
  have length := step.2.1
  cases ended with
  | reached rounds answer =>
    obtain ⟨made', count', bound⟩ := rounds.steps
    have enough := Limit.atSteps_yes answer
    obtain ⟨rfl, sameWorld⟩ := made.unique functional made' (by omega)
    refine ⟨sameWorld, fun _ => rounds.busy functional, fun _ => ?_⟩
    apply UInt64.toNat_inj.mp
    rw [count, count', length]
  | drained inRound drains =>
    obtain ⟨prior, _, made', count', below⟩ := inRound.steps
    have eq := restful drains
    rw [eq] at drains
    obtain ⟨stays, mem⟩ := made'.rest functional drains made (by omega)
    refine ⟨stays.trans eq.symm, fun counts => ?_, fun busy => ?_⟩
    · rw [count] at counts
      rw [← counts] at count'
      omega
    · exact absurd drains (busy _ (mem (by omega)) _)

section

variable (total : E.Total) (unfailing : E.Unfailing start n.toNat)
include total unfailing

theorem exists_steps {k : Nat} (bound : k ≤ n.toNat) :
    ∃ begun w, E.Steps start begun w ∧ begun.length = k := by
  induction k with
  | zero => exact ⟨[], start, .start, rfl⟩
  | succ k ih =>
    obtain ⟨begun, w, made, length⟩ := ih (by omega)
    obtain ⟨w', out, step⟩ := total w
    obtain ⟨more, rfl⟩ := unfailing _ _ _ _ made (by omega) step
    exact ⟨begun ++ [w], w', made.step step, by simp [length]⟩

theorem exists_stepped_n :
    ∃ begun, ∃ sim : Sim E, sim.Stepped start n.toNat begun := by
  obtain ⟨begun, w, made, length⟩ := exists_steps total unfailing le_rfl
  obtain ⟨sim, run, idle, _⟩ := exists_calls made
  exact ⟨begun, sim, run, length, idle⟩

theorem exists_rounds_or_ended {k : Nat} (bound : k ≤ n.toNat) :
    (∃ begun w steps, E.Rounds (.atSteps n) start begun w steps ∧ begun.length = k) ∨
    ∃ begun w steps, E.Ended (.atSteps n) start begun w steps := by
  induction k with
  | zero => exact .inl ⟨[], start, 0, .start, rfl⟩
  | succ k ih =>
    rcases ih (by omega) with ⟨begun, w, steps, rounds, length⟩ | ended
    · obtain ⟨made, count, _⟩ := rounds.steps
      obtain ⟨w', out, step⟩ := total w
      obtain ⟨more, rfl⟩ := unfailing _ _ _ _ made (by omega) step
      have goesOn : (Limit.atSteps n).may w steps .no = true := Limit.may_no_atSteps (by omega)
      cases more with
      | true =>
        exact .inl ⟨_, w', _, rounds.round goesOn step, by simp [length]⟩
      | false =>
        exact .inr ⟨_, w', _, .drained (.enter rounds goesOn) step⟩
    · exact .inr ended

end

theorem exists_ranN_of_ended {w : W} {steps : UInt64}
    (ended : E.Ended (.atSteps n) start begun w steps) :
    ∃ ran : Sim E, ran.RanN start n ∧ ran.world = w ∧ ran.control.steps = steps := by
  have started : (new start : Sim E).step (.start (.atSteps n)) = some _ := rfl
  obtain ⟨sim, run, closed, world, count⟩ := exists_ended started ended
  exact ⟨sim, ⟨_, begun, none, started, run, closed⟩, world, count⟩

theorem exists_ranN (total : E.Total) (unfailing : E.Unfailing start n.toNat) :
    ∃ sim : Sim E, sim.RanN start n := by
  have ended : ∃ begun w steps, E.Ended (.atSteps n) start begun w steps := by
    rcases exists_rounds_or_ended total unfailing le_rfl with
      ⟨begun, w, steps, made, length⟩ | ended
    · have reached := made.steps.2.1
      exact ⟨begun, w, steps, .reached made (Limit.may_yes_atSteps (by omega))⟩
    · exact ended
  obtain ⟨begun, w, steps, ended⟩ := ended
  obtain ⟨sim, ran, _⟩ := exists_ranN_of_ended ended
  exact ⟨sim, ran⟩

section

variable (lasting : ∀ {w w'}, ¬ E.Runs w (E.start w) w' (.returned false))

include lasting

theorem Stepped.exists_ranN {begun : List W} {sim : Sim E} (unfailing : E.Unfailing start n.toNat)
    (stepped : sim.Stepped start n.toNat begun) :
    ∃ ran : Sim E, ran.RanN start n ∧ ran.world = sim.world ∧
      ran.control.steps = sim.control.steps := by
  obtain ⟨made, count⟩ := stepped.steps unfailing
  have length := stepped.2.1
  have rounds : ∀ {begun w}, E.Steps start begun w → begun.length ≤ n.toNat → ∃ steps,
        E.Rounds (.atSteps n) start begun w steps := by
    intro begun w made bound
    induction made with
    | start => exact ⟨0, .start⟩
    | @step begun w w' more old stepped ih =>
      rw [length_append, length_singleton] at bound
      obtain ⟨steps, rounds⟩ := ih (by omega)
      have count := rounds.steps.2.1
      have goesOn : (Limit.atSteps n).may w steps .no = true := Limit.may_no_atSteps (by omega)
      cases more with
      | true => exact ⟨_, rounds.round goesOn stepped⟩
      | false => exact (lasting stepped).elim
  obtain ⟨steps, rounds⟩ := rounds made length.le
  have count' := rounds.steps.2.1
  obtain ⟨ran, runs, world, steps'⟩ := exists_ranN_of_ended
    (.reached rounds (Limit.may_yes_atSteps (by omega)))
  refine ⟨ran, runs, world, ?_⟩
  apply UInt64.toNat_inj.mp
  rw [steps', count, count', length]

theorem RanN.exists_stepped {ran : Sim E}
    (unfailing : E.Unfailing start n.toNat) (runs : ran.RanN start n) :
    ∃ begun, ∃ sim : Sim E, sim.Stepped start n.toNat begun ∧
      sim.world = ran.world ∧ sim.control.steps = ran.control.steps := by
  obtain ⟨begun, ended⟩ := runs.ended unfailing
  cases ended with
  | reached rounds answer =>
    obtain ⟨made, count, bound⟩ := rounds.steps
    have enough := Limit.atSteps_yes answer
    obtain ⟨sim, run, idle, world, _⟩ := exists_calls made
    have step : sim.Stepped start n.toNat begun := ⟨run, by omega, idle⟩
    refine ⟨begun, sim, step, world, ?_⟩
    apply UInt64.toNat_inj.mp
    rw [(step.steps unfailing).2]
    omega
  | drained inRound drains => exact (lasting drains).elim

end

end Sim

def Sim.ticks (sim : Sim E) : UInt64 :=
  sim.control.steps

section

variable {G : GoTypes} {M : Type}

theorem tickExecutor_functional (body : Process (World G × M) (Option StepFault)) :
    (tickExecutor body).Functional :=
  haveI : Subsingleton (tickExecutor body).Choice := inferInstanceAs (Subsingleton Unit)
  functional_of_subsingleton

theorem eventExecutor_functional (format : Float64 → String)
    (handleEvent : Event G → Process (World G × M) (Option StepFault)) :
    (eventExecutor format handleEvent).Functional :=
  haveI : Subsingleton (eventExecutor format handleEvent).Choice :=
    inferInstanceAs (Subsingleton Unit)
  functional_of_subsingleton

theorem tickExecutor_lasting {body : Process (World G × M) (Option StepFault)}
    {s s' : World G × M} {frame : Process (World G × M) (Option StepFault)} :
    ¬ (tickExecutor body).Runs s frame s' (.returned false) := by
  intro runs
  induction frame generalizing s with
  | halt res =>
    obtain ⟨_, ended | ⟨_, _, moved, _⟩⟩ := runs_iff.mp runs
    · rcases res with _ | ⟨msg | msg⟩ <;> cases ended
    · cases res <;> cases moved
  | act effect rest ih =>
    obtain ⟨_, ended | ⟨_, _, moved, later⟩⟩ := runs_iff.mp runs
    · cases ended
    · cases moved
      exact ih s later

theorem tickExecutor_total (body : Process (World G × M) (Option StepFault)) :
    (tickExecutor body).Total := by
  have ends : ∀ (frame : Process (World G × M) (Option StepFault)) s,
      ∃ s' out, (tickExecutor body).Runs s frame s' out := by
    intro frame
    induction frame with
    | halt res =>
      intro s
      cases res with
      | none | some fault => exact ⟨_, _, runs_iff.mpr ⟨(), .inl rfl⟩⟩
    | act effect rest ih =>
      intro s
      obtain ⟨s', out, later⟩ := ih s (effect s)
      exact ⟨s', out, runs_iff.mpr ⟨(), .inr ⟨_, _, rfl, later⟩⟩⟩
  exact fun s => ends body s

theorem systemTickExecutor_lasting {s : Scheduler G} {w w' : World G × (Nat → EntitySet)}
    {frame : (systemTickExecutor s).Frame} :
    ¬ (systemTickExecutor s).Runs w frame w' (.returned false) := by
  intro runs
  generalize outcomeEq : StepOutcome.returned false = out at runs
  induction runs with
  | finish went =>
    subst outcomeEq
    simp only [systemTickExecutor] at went
    split at went
    · cases went
    · split at went <;> cases went
  | advance went rest ih => exact ih outcomeEq

theorem eventExecutor_idle_iff {format : Float64 → String}
    {handleEvent : Event G → Process (World G × M) (Option StepFault)} {s : World G × M} :
    (∀ s', ¬ (eventExecutor format handleEvent).Runs s
      ((eventExecutor format handleEvent).start s) s' (.returned false)) ↔ s.1.events.len ≠ 0 := by
  constructor
  · intro busy noEvent
    have empty : s.1.events.pop.1 = none := by
      rw [← peek_eq_pop, peek, eq_nil_of_length_eq_zero noEvent]
      rfl
    obtain ⟨s', out, step⟩ := exists_runs format handleEvent s
    rw [(runs_of_empty empty step).2] at step
    exact busy s' step
  · intro nonempty s' drains
    apply nonempty
    rw [len, heap_of_pop_none (empty_of_drained drains)]
    rfl

theorem step_agrees_with_runN_iff :
    (∀ (body : Process (World G × M) (Option StepFault)) start (n : UInt64),
      (tickExecutor body).Unfailing start n.toNat → (∃ begun, ∃ sim : Sim (tickExecutor body),
        sim.Stepped start n.toNat begun) ∧ (∃ ran : Sim (tickExecutor body), ran.RanN start n) ∧
      ∀ begun (sim ran : Sim (tickExecutor body)),
        sim.Stepped start n.toNat begun → ran.RanN start n →
        sim.world = ran.world ∧ sim.ticks = ran.ticks) ∧ (∀ format
        (handleEvent : Event G → Process (World G × M) (Option StepFault)) start (n : UInt64),
      (eventExecutor format handleEvent).Unfailing start n.toNat →
      (∃ begun, ∃ sim : Sim (eventExecutor format handleEvent), sim.Stepped start n.toNat begun) ∧
      (∃ ran : Sim (eventExecutor format handleEvent), ran.RanN start n) ∧
      ∀ begun (sim ran : Sim (eventExecutor format handleEvent)),
        sim.Stepped start n.toNat begun → ran.RanN start n → sim.world = ran.world ∧
          (sim.ticks = ran.ticks ↔ ∀ s ∈ begun, s.1.events.len ≠ 0)) ∧
    ∀ (s : Scheduler G) start (n : UInt64), (systemTickExecutor s).Unfailing start n.toNat →
      (∀ begun (sim : Sim (systemTickExecutor s)), sim.Stepped start n.toNat begun →
        ∃ ran : Sim (systemTickExecutor s), ran.RanN start n ∧
          ran.world = sim.world ∧ ran.ticks = sim.ticks) ∧
      ∀ ran : Sim (systemTickExecutor s), ran.RanN start n →
        ∃ begun, ∃ sim : Sim (systemTickExecutor s), sim.Stepped start n.toNat begun ∧
          sim.world = ran.world ∧ sim.ticks = ran.ticks := by
  refine ⟨?_, ?_, ?_⟩
  · intro body start n unfailing
    refine ⟨exists_stepped_n (tickExecutor_total body) unfailing,
      exists_ranN (tickExecutor_total body) unfailing, ?_⟩
    intro begun sim ran step runs
    have agree := agree_iff (tickExecutor_functional body)
      (fun drains => (tickExecutor_lasting drains).elim) unfailing step runs
    exact ⟨agree.1, agree.2.mpr fun _ _ _ => tickExecutor_lasting⟩
  · intro format handleEvent start n unfailing
    refine ⟨exists_stepped_n (exists_runs format handleEvent) unfailing,
      exists_ranN (exists_runs format handleEvent) unfailing, ?_⟩
    intro begun sim ran step runs
    have agree := agree_iff (eventExecutor_functional format handleEvent)
      (fun drains => (runs_of_empty (empty_of_drained drains) drains).1) unfailing step runs
    refine ⟨agree.1, agree.2.trans ?_⟩
    exact forall₂_congr fun _ _ => eventExecutor_idle_iff
  · intro s start n unfailing
    constructor
    · intro begun sim step
      exact step.exists_ranN systemTickExecutor_lasting unfailing
    · intro ran runs
      exact runs.exists_stepped systemTickExecutor_lasting unfailing

end

theorem Executor.Steady.unfailing {sound : E.Frame → Prop}
    (steady : E.Steady sound) (start : W) (n : Nat) : E.Unfailing start n := by
  have ret : ∀ {w frame w' out}, E.Runs w frame w' out → sound frame → out = .returned true := by
    intro w frame w' out runs
    induction runs with
    | finish went => exact fun holds => steady.finish holds went
    | advance went rest ih =>
      exact fun holds => ih (steady.advance holds went)
  intro begun w w' out _ _ step
  exact ⟨true, ret step (steady.start w)⟩

theorem Executor.unfailing_one (functional : E.Functional) {start w : W} {more : Bool}
    (stepped : E.Runs start (E.start start) w (.returned more)) : E.Unfailing start 1 := by
  intro begun v v' out made short runs
  cases made with
  | start => exact ⟨more, (functional runs stepped).2⟩
  | step old _ => simp at short

theorem step_agrees_with_runN_once :
    spawner.Unfailing spawnerNew.world 2 ∧
    (eventExecutor (fun _ => "") ignoreEvent).Unfailing oneEvent 1 ∧
    (∃ begun, ∃ sim ran : Sim spawner,
      sim.Stepped spawnerNew.world 2 begun ∧ ran.RanN spawnerNew.world 2 ∧
      sim.world = ran.world ∧ sim.ticks = ran.ticks) ∧
    ∃ begun, ∃ sim ran : Sim (eventExecutor (fun _ => "") ignoreEvent),
      sim.Stepped oneEvent 1 begun ∧ ran.RanN oneEvent 1 ∧
      sim.world = ran.world ∧ sim.ticks = ran.ticks := by
  have steady : spawner.Steady fun frame => frame.Returns none := tickExecutor_steady fun _ => rfl
  have handles : (eventExecutor (fun _ => "") ignoreEvent).Runs oneEvent none
      _ (.returned true) :=
    runs_iff.mpr ⟨(), .inr ⟨_, _, rfl, runs_iff.mpr ⟨(), .inl rfl⟩⟩⟩
  have noTickFails := steady.unfailing spawnerNew.world 2
  have noEventFails := unfailing_one (eventExecutor_functional (fun _ => "") ignoreEvent) handles
  refine ⟨noTickFails, noEventFails, ?_, ?_⟩
  · obtain ⟨⟨begun, sim, step⟩, ⟨ran, runs⟩, agree⟩ :=
      step_agrees_with_runN_iff.1 spawnStep spawnerNew.world 2 noTickFails
    exact ⟨begun, sim, ran, step, runs, agree begun sim ran step runs⟩
  · obtain ⟨⟨begun, sim, step⟩, ⟨ran, runs⟩, agree⟩ :=
      step_agrees_with_runN_iff.2.1 (fun _ => "") ignoreEvent oneEvent 1 noEventFails
    obtain ⟨world, ticks⟩ := agree begun sim ran step runs
    refine ⟨begun, sim, ran, step, runs, world, ticks.mpr ?_⟩
    have single := Executor.Steps.eq_singleton (Stepped.steps noEventFails step).1 step.2.1
    rw [single]
    intro s mem
    rw [mem_singleton.mp mem]
    decide

def noEvents : World flagTypes × Unit :=
  (World.new (World.sampleMetadata "none"), ())

def noEventsNew : Sim (eventExecutor (fun _ => "") ignoreEvent) :=
  .new noEvents

def noEventsStarted : Sim (eventExecutor (fun _ => "") ignoreEvent) :=
  (noEventsNew.step (.start (.atSteps 1))).getD noEventsNew

theorem step_counts_empty_queue : (eventExecutor (fun _ => "") ignoreEvent).Unfailing noEvents 1 ∧
    ∃ begun, ∃ sim ran : Sim (eventExecutor (fun _ => "") ignoreEvent),
      sim.Stepped noEvents 1 begun ∧ ran.RanN noEvents 1 ∧
      sim.world = ran.world ∧ sim.ticks = 1 ∧ ran.ticks = 0 := by
  have drains : (eventExecutor (fun _ => "") ignoreEvent).Runs noEvents none
      _ (.returned false) :=
    runs_iff.mpr ⟨(), .inl rfl⟩
  have steps := (Recorded.start : Recorded (OfCaller 0) noEventsNew [] _)
    |>.take (.callStep 0) rfl rfl |>.take (.enterStep 0) rfl rfl
    |>.take (.advanceStep 0 false ()) ⟨rfl, rfl⟩ rfl
    |>.take (.leaveStep 0) rfl rfl
  have run := (Recorded.start : Recorded (OfSession 0) noEventsStarted [] _)
    |>.loop .register rfl |>.loop .look rfl |>.loop (.ask .no) rfl
    |>.loop (.advance ()) rfl |>.loop .handle rfl |>.loop .settle rfl
    |>.loop .finalize rfl |>.loop .release rfl |>.loop .close rfl
  exact ⟨unfailing_one (eventExecutor_functional _ _) drains,
    _, _, _, ⟨steps, rfl, rfl⟩, ⟨noEventsStarted, _, none, rfl, run, rfl⟩, rfl, rfl, rfl⟩

end Simulator
