import Simulator.RuntimeActivity
import Simulator.TransitionRuns
import Simulator.UndisturbedTicks

/-!
# Stopping between ticks

A stopped run leaves a world of whole ticks, unless a shard goroutine gives up in one.
-/

namespace Simulator

open Transition Interleaving Function UInt64 SchedulerMove LoopPoint

variable {W : Type} {E : Executor W}

namespace Executor

inductive Runs (E : Executor W) : W → E.Frame → W → StepOutcome → Prop
  | finish {w w' : W} {frame : E.Frame} {outcome : StepOutcome} {choice : E.Choice}
      (advanced : E.advance false w frame choice = some (w', .inr outcome)) :
      Runs E w frame w' outcome
  | advance {w v w' : W} {frame next : E.Frame} {outcome : StepOutcome} {choice : E.Choice}
      (advanced : E.advance false w frame choice = some (v, .inl next))
      (rest : Runs E v next w' outcome) : Runs E w frame w' outcome

inductive Ticks (E : Executor W) (start : W) : Nat → W → Prop
  | zero : Ticks E start 0 start
  | succ {k : Nat} {w w' : W} (before : Ticks E start k w)
      (stepped : E.Runs w (E.start w) w' (.returned true)) : Ticks E start (k + 1) w'

/-- Apart from the choices that give up, the executor does not look at its
context and does not fail.  `sound` holds of the frames that occur. -/
structure Atomic (E : Executor W) (sound : E.Frame → Prop)
    (givesUp : E.Choice → Bool) : Prop where
  start : ∀ w, sound (E.start w)
  blind : ∀ cancelled w frame {choice}, givesUp choice = false →
    E.advance cancelled w frame choice = E.advance false w frame choice
  advance : ∀ {w w' frame next choice}, sound frame → givesUp choice = false →
    E.advance false w frame choice = some (w', .inl next) → sound next
  finish : ∀ {w w' frame outcome choice}, sound frame → givesUp choice = false →
    E.advance false w frame choice = some (w', .inr outcome) → outcome = .returned true

end Executor

section

variable {G : GoTypes} {s : Scheduler G} {w w' : World G × (Nat → EntitySet)}

theorem systemTickExecutor_advance {cancelled : Bool} {frame : RunState G}
    {move : SchedulerMove} {res : RunState G ⊕ StepOutcome}
    (went : (systemTickExecutor s).advance cancelled w frame move = some (w', res)) :
    ∃ next, s.step cancelled { frame with world := w.1, cache := w.2 } move = some next ∧
      (next.result = none ∧ w' = (next.world, next.cache) ∧ res = .inl next ∨
        next.result = some (.ok ()) ∧ w' = (next.world.tick, next.cache) ∧
          res = .inr (.returned true) ∨ ∃ error, next.result = some (.error error) ∧
          res = .inr (.error error.message)) := by
  obtain ⟨world, cache⟩ := w
  simp only [systemTickExecutor] at went
  split at went
  · cases went
  · rename_i next step
    refine ⟨next, step, ?_⟩
    split at went
    · rename_i running
      cases went
      exact .inl ⟨running, rfl, rfl⟩
    · rename_i ret
      cases went
      exact .inr (.inl ⟨ret, rfl, rfl⟩)
    · rename_i error failed
      cases went
      exact .inr (.inr ⟨error, failed, rfl⟩)

theorem systemTickExecutor_atomic {acts : (World G → World G) → Prop} (allows : s.Allows acts) :
    (systemTickExecutor s).Atomic (Scheduler.Clean acts) givesUp where
  start := fun (w, cache) => Scheduler.Clean.begin w cache
  blind := by
    rintro cancelled ⟨w, cache⟩ frame move stays
    simp only [systemTickExecutor]
    rw [Scheduler.step_eq_of_not_givesUp stays]
  advance := by
    intro w w' frame next move clean stays went
    obtain ⟨after, step, cases⟩ := systemTickExecutor_advance went
    have later := (clean.at_world w.1 w.2).step allows ⟨move, step⟩
    rcases cases with ⟨-, -, eq⟩ | ⟨-, -, other⟩ | ⟨error, failed, -⟩
    · cases eq
      exact later.1
    · cases other
    · exact (later.1.result error failed).elim
  finish := by
    intro w w' frame out move clean stays went
    obtain ⟨after, step, cases⟩ := systemTickExecutor_advance went
    have later := (clean.at_world w.1 w.2).step allows ⟨move, step⟩
    rcases cases with ⟨-, -, other⟩ | ⟨-, -, eq⟩ | ⟨error, failed, -⟩
    · cases other
    · cases eq
      rfl
    · exact (later.1.result error failed).elim

def KeepsClock (effect : World G → World G) : Prop :=
  ∀ w, (effect w).clock = w.clock

theorem clock_of_step (allows : s.Allows KeepsClock) {st next : RunState G}
    (clean : Scheduler.Clean KeepsClock st)
    (step : s.Step false st next) : next.world.clock = st.world.clock := by
  rcases (clean.step allows step).2 with eq | ⟨effect, keeps, eq⟩
  · rw [eq]
  · rw [eq, keeps]

theorem clock_of_runs (allows : s.Allows KeepsClock)
    {frame : (systemTickExecutor s).Frame} {out : StepOutcome}
    (clean : Scheduler.Clean KeepsClock frame)
    (runs : (systemTickExecutor s).Runs w frame w' out) : w'.1.clock = w.1.clock.advance := by
  induction runs with
  | @finish w w' frame out move went =>
    obtain ⟨after, step, cases⟩ := systemTickExecutor_advance went
    have old := clean.at_world w.1 w.2
    have clock := clock_of_step allows old ⟨move, step⟩
    rcases cases with ⟨-, -, other⟩ | ⟨-, rfl, -⟩ | ⟨error, failed, -⟩
    · cases other
    · exact congrArg Clock.advance clock
    · exact ((old.step allows ⟨move, step⟩).1.result error failed).elim
  | @advance w v w' frame next out move went rest ih =>
    obtain ⟨after, step, cases⟩ := systemTickExecutor_advance went
    have old := clean.at_world w.1 w.2
    have clock := clock_of_step allows old ⟨move, step⟩
    have later := (old.step allows ⟨move, step⟩).1
    rcases cases with ⟨-, rfl, eq⟩ | ⟨-, -, other⟩ | ⟨error, failed, -⟩
    · cases eq
      rw [ih later]
      exact congrArg Clock.advance clock
    · cases other
    · exact (later.result error failed).elim

theorem tick_of_ticks (allows : s.Allows KeepsClock) {start : World G × (Nat → EntitySet)} {k : Nat}
    (ticks : (systemTickExecutor s).Ticks start k w) :
    w.1.clock.tick = start.1.clock.tick + ofNat k := by
  induction ticks with
  | zero => simp
  | @succ k w w' old step ih =>
    have clock := clock_of_runs allows (Scheduler.Clean.begin w.1 w.2) step
    rw [clock, Clock.advance, ih, ofNat_add, add_assoc]
    rfl

end

namespace LoopPoint

variable {Frame : Type} {point : LoopPoint Frame}

@[simp]
theorem wake_eq_stepping {frame : Frame} :
    point.wake = .stepping frame ↔ point = .stepping frame := by
  cases point <;> simp [wake]

theorem isStepping_iff : point.isStepping = true ↔ ∃ frame, point = .stepping frame := by
  cases point <;> simp [isStepping]

end LoopPoint

theorem LoopMoves.stepping_cases {i : Nat} {c c' : Control} {w w' : W}
    {loop loop' : Loop E} {action : LoopAction E} {woken : Bool}
    (moved : LoopMoves i c w loop action c' w' loop' woken) :
    loop.point.isStepping = false ∧ w' = w ∧ (loop'.point.isStepping = false ∨
          loop'.point = .stepping (E.start w)) ∨ ∃ frame choice res, action = .advance choice ∧
        loop.point = .stepping frame ∧ E.advance loop.cancelled w frame choice = some (w', res) ∧
        ((∃ next, res = .inl next ∧ loop'.point = .stepping next) ∨
          ∃ out, res = .inr out ∧ loop'.point = .stepped out) := by
  cases moved with
  | enter here answer => exact .inl ⟨by rw [here]; rfl, rfl, .inr rfl⟩
  | advance here went =>
    exact .inr ⟨_, _, _, rfl, here, went, .inl ⟨_, rfl, rfl⟩⟩
  | finish here went =>
    exact .inr ⟨_, _, _, rfl, here, went, .inr ⟨_, rfl, rfl⟩⟩
  | complete here =>
    rcases here with here | here
    · exact .inl ⟨by rw [here]; rfl, rfl, .inl rfl⟩
    · exact .inl ⟨by rw [here]; rfl, rfl, .inl rfl⟩
  | _ => exact .inl ⟨by simp [*, isStepping], rfl, .inl rfl⟩

namespace Sim

def FinishesSteps (givesUp : E.Choice → Bool) (sim : Sim E) :
    Action E → Prop
  | .start _ => sim.AllClosed
  | .pause | .resume | .stop | .cancelContext _ | .watch _ => True
  | .loop _ (.advance choice) => givesUp choice = false
  | .loop _ _ => True
  | _ => False

structure Whole (sound : E.Frame → Prop) (start : W) (sim : Sim E) :
    Prop where
  oneLoop : sim.OneOpen
  ticked : ∃ k base, E.Ticks start k base ∧ (∀ i frame, (sim.loops i).point = .stepping frame →
      sound frame ∧ ∀ w, E.Runs sim.world frame w (.returned true) →
        E.Runs base (E.start base) w (.returned true)) ∧
    ((∀ i, (sim.loops i).point.isStepping = false) → sim.world = base)

theorem whole_new (sound : E.Frame → Prop) (w : W) : (new w : Sim E).Whole sound w where
  oneLoop := oneOpen_new w
  ticked := ⟨0, w, .zero, nofun, fun _ => rfl⟩

namespace Whole

variable {sound : E.Frame → Prop} {givesUp : E.Choice → Bool} {start : W} {sim next : Sim E}
  {action : Action E}

theorem of_same (whole : sim.Whole sound start) (oneLoop : next.OneOpen)
    (world : next.world = sim.world) (stepping : ∀ i frame, (next.loops i).point = .stepping frame ↔
      (sim.loops i).point = .stepping frame) : next.Whole sound start where
  oneLoop := oneLoop
  ticked := by
    obtain ⟨k, base, ticks, lt, ge⟩ := whole.ticked
    refine ⟨k, base, ticks, fun i frame here => ?_, fun none => ?_⟩
    · rw [world]
      exact lt i frame ((stepping i frame).mp here)
    · rw [world]
      apply ge
      intro i
      by_contra steps
      obtain ⟨frame, here⟩ := isStepping_iff.mp (by simpa using steps)
      have later := (stepping i frame).mpr here
      have idle := none i
      rw [later] at idle
      cases idle

theorem idle (whole : sim.Whole sound start) {i : Nat} (opened : (sim.loops i).point.isOpen = true)
    (between : (sim.loops i).point.isStepping = false) (j : Nat) :
    (sim.loops j).point.isStepping = false := by
  by_contra steps
  have steps : (sim.loops j).point.isStepping = true := by simpa using steps
  have own := whole.oneLoop j i (isOpen_of_isStepping steps) opened
  rw [own, between] at steps
  cases steps

theorem step_loop (atomic : E.Atomic sound givesUp)
    (whole : sim.Whole sound start) {i : Nat} {act : LoopAction E}
    (finishes : sim.FinishesSteps givesUp (.loop i act))
    {control : Control} {world : W} {loop : Loop E} {woken : Bool}
    (moved : LoopMoves i sim.control sim.world (sim.loops i) act control world loop woken) :
    ∃ k base, E.Ticks start k base ∧ (∀ frame, loop.point = .stepping frame →
        sound frame ∧ ∀ w, E.Runs world frame w (.returned true) →
          E.Runs base (E.start base) w (.returned true)) ∧
      (loop.point.isStepping = false → world = base) := by
  obtain ⟨k, base, ticks, lt, ge⟩ := whole.ticked
  rcases moved.stepping_cases with ⟨between, rfl, after⟩ |
    ⟨frame, choice, result, rfl, here, went, after⟩
  · have eq := ge (whole.idle moved.isOpen between)
    refine ⟨k, base, ticks, fun frame here => ?_, fun _ => eq⟩
    rcases after with stays | enters
    · rw [here] at stays
      cases stays
    · rw [here] at enters
      cases enters
      exact ⟨atomic.start _, fun w runs => eq ▸ runs⟩
  · have stays : givesUp choice = false := finishes
    rw [atomic.blind _ _ _ stays] at went
    obtain ⟨clean, completes⟩ := lt i frame here
    rcases after with ⟨next, rfl, later⟩ | ⟨out, rfl, later⟩
    · rw [later]
      refine ⟨k, base, ticks, fun frame' eq => ?_, nofun⟩
      cases eq
      exact ⟨atomic.advance clean stays went, fun w runs => completes w (.advance went runs)⟩
    · obtain rfl := atomic.finish clean stays went
      rw [later]
      exact ⟨k + 1, world, ticks.succ (completes world (.finish went)), nofun, fun _ => rfl⟩

theorem step (atomic : E.Atomic sound givesUp) (whole : sim.Whole sound start)
    (finishes : sim.FinishesSteps givesUp action)
    (moved : sim.Moves action next) : next.Whole sound start := by
  have oneLoop : next.OneOpen := by
    apply moved.oneOpen whole.oneLoop
    rintro limit rfl
    exact finishes
  cases moved with
  | start idle =>
    refine whole.of_same oneLoop rfl fun j frame => ?_
    by_cases own : j = sim.sessions
    · subst own
      have closed := finishes sim.sessions
      simp only [update_self, begun]
      refine ⟨nofun, fun here => ?_⟩
      rw [here] at closed
      cases closed
    · simp only [update_of_ne own]
  | pause running => exact whole.of_same oneLoop rfl fun _ _ => .rfl
  | resume paused =>
    exact whole.of_same oneLoop rfl fun j frame => by simp [Loop.wake]
  | stop going =>
    exact whole.of_same oneLoop rfl fun j frame => by
      simp [stopLoop, Loop.wake, Loop.halt]
  | @cancelContext i isOpen =>
    refine whole.of_same oneLoop rfl fun j frame => ?_
    by_cases own : j = i
    · subst own
      simp [Loop.halt]
    · simp only [update_of_ne own]
  | @loop i _ _ _ _ _ moved =>
    refine ⟨oneLoop, ?_⟩
    obtain ⟨k, base, ticks, lt, ge⟩ := whole.step_loop atomic finishes moved
    refine ⟨k, base, ticks, fun j frame here => ?_, fun none => ?_⟩
    · by_cases own : j = i
      · subst own
        simp only [update_self] at here
        exact lt frame here
      · simp only [update_of_ne own] at here
        have opened : (sim.loops j).point.isOpen = true := by
          rw [← isOpen_wakeAll, here]
          rfl
        exact (own (whole.oneLoop j i opened moved.isOpen)).elim
    · have own := none i
      simp only [update_self] at own
      exact ge own
  | @watch i waiting done =>
    refine whole.of_same oneLoop rfl fun j frame => ?_
    have eq : (sim.wakeAll sim.control.state.isGoing j).point =
        .stepping frame ↔ (sim.loops j).point = .stepping frame := by
      unfold wakeAll
      split
      · simp [Loop.wake]
      · exact .rfl
    by_cases own : j = i
    · subst own
      simpa using eq
    · simpa [update_of_ne own] using eq
  | _ => exact finishes.elim

end Whole

theorem whole_of_reachable {sound : E.Frame → Prop}
    {givesUp : E.Choice → Bool} (atomic : E.Atomic sound givesUp) {w : W} {sim : Sim E}
    (reachable : Reachable step (FinishesSteps givesUp) (new w) sim) : sim.Whole sound w := by
  apply reachable.invariant (whole_new sound w)
  intro state action next whole finishes stepped
  exact whole.step atomic finishes (moves_of_step stepped)

section

variable {G : GoTypes} {s : Scheduler G}

theorem stop_tick_atomic (faultless : ∀ sys ∈ s.systems, ∀ shard, (sys.run shard).Returns none)
    {w : World G × (Nat → EntitySet)} {sim next : Sim (systemTickExecutor s)}
    (reachable : Reachable step (FinishesSteps SchedulerMove.givesUp) (new w)
      sim) {i : Nat} (closes : sim.step (.loop i .close) = some next) :
    ∃ k, (systemTickExecutor s).Ticks w k next.world ∧ (s.Allows KeepsClock →
        next.world.1.clock.tick = w.1.clock.tick + UInt64.ofNat k) := by
  have allows : s.Allows fun _ => True := fun sys mem shard =>
    Process.along_of_returns (faultless sys mem shard)
  have whole := whole_of_reachable (systemTickExecutor_atomic allows) reachable
  obtain ⟨k, base, ticks, -, ge⟩ := whole.ticked
  have kept : next.world = sim.world ∧ (sim.loops i).point.isOpen = true ∧
      (sim.loops i).point.isStepping = false := by
    cases moves_of_step closes with
    | loop moved =>
      have opened := moved.isOpen
      cases moved with
      | close here => exact ⟨rfl, opened, by rw [here]; rfl⟩
  obtain ⟨eq, opened, between⟩ := kept
  have boundary := ge (whole.idle opened between)
  rw [eq, boundary]
  exact ⟨k, ticks, fun keeps => tick_of_ticks keeps ticks⟩

end

end Sim

def spawnSystem : System flagTypes where
  reads := [0]
  writes := []
  serial := false
  run := fun _ =>
    .act (fun w => { w with
        entities := w.entities.create.elim w.entities Prod.snd })
      fun _ => .halt none

def spawners : Scheduler flagTypes :=
  ⟨2, [spawnSystem]⟩

theorem spawners_keepsClock : spawners.Allows KeepsClock := by
  intro sys mem shard
  obtain rfl := List.mem_singleton.mp mem
  exact ⟨fun _ => rfl, fun _ => rfl⟩

namespace Sim

/-- `New` for the model with that system -/
def spawnersNew : Sim (systemTickExecutor spawners) :=
  new (World.flaggedWorld, newCache)

def spawnersStarted : Sim (systemTickExecutor spawners) :=
  (spawnersNew.step (.start .unlimited)).getD spawnersNew

/-- `Stop` after the first shard has run; the second shard runs as well. -/
def stopBeforeEnd : List (Action (systemTickExecutor spawners)) :=
  [.loop 0 .register, .loop 0 .look, .loop 0 (.ask .no), .loop 0 (.advance (SchedulerMove.start 0)),
    .loop 0 (.advance (SchedulerMove.acquire 0 0)),
    .loop 0 (.advance (SchedulerMove.act 0 0)), .stop,
    .loop 0 (.advance (SchedulerMove.release 0 0)), .loop 0 (.advance (SchedulerMove.acquire 0 1)),
    .loop 0 (.advance (SchedulerMove.act 0 1)), .loop 0 (.advance (SchedulerMove.release 0 1)),
    .loop 0 (.advance (SchedulerMove.join 0)), .loop 0 (.advance SchedulerMove.advance),
    .loop 0 (.advance SchedulerMove.advance), .loop 0 .handle, .loop 0 .look,
    .loop 0 .finalize, .loop 0 .release]

/-- `Stop`, and moves of a loop that do not give up. -/
def keepsOn : Action (systemTickExecutor spawners) → Bool
  | .stop => true
  | .loop _ (.advance move) => !SchedulerMove.givesUp move
  | .loop _ _ => true
  | _ => false

theorem finishesSteps_of_keepsOn (sim : Sim (systemTickExecutor spawners))
    (action : Action (systemTickExecutor spawners)) (keeps : keepsOn action = true) :
    sim.FinishesSteps givesUp action := by
  cases action with
  | stop => trivial
  | loop i act =>
    cases act with
    | advance move => exact (Bool.not_eq_true' _).mp keeps
    | _ => trivial
  | _ => cases keeps

theorem stop_tick_atomic_spawners :
    ∃ (sim next : Sim (systemTickExecutor spawners)) (k : Nat),
      sim.step (.loop 0 .close) = some next ∧
      next.control.state = .stopped ∧ next.world.1.entities.ids.length = 4 ∧
      (systemTickExecutor spawners).Ticks spawnersNew.world k next.world ∧
      next.world.1.clock.tick = UInt64.ofNat k := by
  have started : Reachable step (FinishesSteps givesUp)
      spawnersNew spawnersStarted :=
    Reachable.take .start (.start .unlimited) (fun _ => rfl) rfl
  obtain ⟨sim, next, ran, closes, stopped, made⟩ : ∃ sim next : Sim (systemTickExecutor spawners),
        run step (fun _ => keepsOn) stopBeforeEnd spawnersStarted = some sim ∧
        sim.step (.loop 0 .close) = some next ∧ next.control.state = .stopped ∧
        next.world.1.entities.ids.length = 4 := ⟨_, _, rfl, rfl, rfl, rfl⟩
  have reachable := started.trans ((reachable_of_run ran).mono finishesSteps_of_keepsOn)
  have faultless : ∀ sys ∈ spawners.systems, ∀ shard, (sys.run shard).Returns none := by
    intro sys mem shard
    obtain rfl := List.mem_singleton.mp mem
    exact fun _ => rfl
  obtain ⟨k, ticks, clock⟩ := stop_tick_atomic faultless reachable closes
  refine ⟨sim, next, k, closes, stopped, made, ticks, ?_⟩
  calc
    next.world.1.clock.tick = 0 + ofNat k := clock spawners_keepsClock
    _ = ofNat k := zero_add _

/-- `Stop` after the first shard has run; the second shard gives up. -/
def stopInTick : List (Action (systemTickExecutor spawners)) :=
  [.start .unlimited, .loop 0 .register, .loop 0 .look, .loop 0 (.ask .no),
    .loop 0 (.advance (SchedulerMove.start 0)), .loop 0 (.advance (SchedulerMove.acquire 0 0)),
    .loop 0 (.advance (SchedulerMove.act 0 0)),
    .loop 0 (.advance (SchedulerMove.release 0 0)), .stop,
    .loop 0 (.advance (SchedulerMove.cancel 0 1)), .loop 0 (.advance (SchedulerMove.join 0)),
    .loop 0 (.advance SchedulerMove.advance), .loop 0 .handle,
    .loop 0 .settle, .loop 0 .finalize, .loop 0 .release, .loop 0 .close]

theorem stop_splits_tick :
    ∃ sim : Sim (systemTickExecutor spawners),
      run step (fun _ _ => true) stopInTick spawnersNew = some sim ∧
      (sim.loops 0).point = .closed none ∧ sim.control.state = .stopped ∧
      sim.world.1.clock.tick = 0 ∧ sim.world.1.entities.ids.length = 3 ∧
      ∀ k < 2 ^ 64, ¬ (systemTickExecutor spawners).Ticks spawnersNew.world k
        sim.world := by
  obtain ⟨sim, ran, closed, stopped, clock, made⟩ : ∃ sim : Sim (systemTickExecutor spawners),
        run step (fun _ _ => true) stopInTick spawnersNew = some sim ∧
        (sim.loops 0).point = .closed none ∧ sim.control.state = .stopped ∧
        sim.world.1.clock.tick = 0 ∧ sim.world.1.entities.ids.length = 3 :=
    ⟨_, rfl, rfl, rfl, rfl, rfl⟩
  refine ⟨sim, ran, closed, stopped, clock, made, fun k small ticks => ?_⟩
  have counted := tick_of_ticks spawners_keepsClock ticks
  have zero : spawnersNew.world.1.clock.tick = 0 := rfl
  rw [clock, zero, zero_add] at counted
  have none : k = 0 := by
    have v := congrArg toNat counted
    rw [toNat_ofNat_of_lt' small] at v
    exact v.symm
  subst none
  have start : spawnersNew.world.1.entities.ids.length = 2 := rfl
  generalize final : sim.world = world at ticks made
  cases ticks
  rw [start] at made
  cases made

end Sim

end Simulator
