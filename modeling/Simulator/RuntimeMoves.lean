import Simulator.SimulationRuntime

/-!
# Moves of the runtime

`LoopMoves` lists what a run loop can do, and `Moves` what a simulation can do.
-/

namespace Simulator

open Function

variable {W : Type} {E : Executor W}

inductive LoopMoves (i : Nat) (c : Control) (w : W) (loop : Loop E) :
    LoopAction E → Control → W → Loop E → Bool → Prop
  | register (here : loop.point = .begun) :
      LoopMoves i c w loop .register { c with cancel := some i } w
        { loop with point := .head, watcher := .waiting } false
  | park (here : loop.point = .head) (paused : c.state = .paused) :
      LoopMoves i c w loop .look c w { loop with point := .parked } false
  | check (here : loop.point = .head) (running : c.state = .running) :
      LoopMoves i c w loop .look c w { loop with point := .checked } false
  | leave (here : loop.point = .head) (notPaused : c.state ≠ .paused)
      (notRunning : c.state ≠ .running) :
      LoopMoves i c w loop .look c w { loop with point := .exiting none } false
  | reach (here : loop.point = .checked) (answer : loop.limit.may w c.steps .yes = true) :
      LoopMoves i c w loop (.ask .yes) c w
        { loop with point := .limitReached } false
  | enter (here : loop.point = .checked) (answer : loop.limit.may w c.steps .no = true) :
      LoopMoves i c w loop (.ask .no) c w
        { loop with point := .stepping (E.start w) } false
  | limitPanic {detail : String} (here : loop.point = .checked)
      (answer : loop.limit.may w c.steps (.panics detail) = true) :
      LoopMoves i c w loop (.ask (.panics detail)) c w
        { loop with point := .exiting (some (panicText detail)) } false
  | advance {frame next : E.Frame} {choice : E.Choice} {w' : W}
      (here : loop.point = .stepping frame) (advanced : E.advance loop.cancelled w frame choice =
        some (w', .inl next)) : LoopMoves i c w loop (.advance choice) c w'
        { loop with point := .stepping next } false
  | finish {frame : E.Frame} {outcome : StepOutcome} {choice : E.Choice}
      {w' : W} (here : loop.point = .stepping frame)
      (advanced : E.advance loop.cancelled w frame choice = some (w', .inr outcome)) :
      LoopMoves i c w loop (.advance choice) c w'
        { loop with
          point := .stepped outcome
          log := { loop.log with
            executed := if outcome = .returned true then
              loop.log.executed + 1 else loop.log.executed } } false
  | interrupt {detail : String} (here : loop.point = .stepped (.error detail))
      (done : loop.cancelled = true) :
      LoopMoves i c w loop .handle c w { loop with point := .interrupted } false
  | fail {detail : String} (here : loop.point = .stepped (.error detail))
      (notDone : loop.cancelled = false) : LoopMoves i c w loop .handle c w
        { loop with
          point := .failing detail
          log := { loop.log with stepFailed := true } } false
  | panic {detail : String} (here : loop.point = .stepped (.panicked detail)) :
      LoopMoves i c w loop .handle c w
        { loop with
          point := .exiting (some (panicText detail))
          log := { loop.log with stepFailed := true } } false
  | drain (here : loop.point = .stepped (.returned false)) :
      LoopMoves i c w loop .handle c w { loop with point := .drained } false
  | count (here : loop.point = .stepped (.returned true)) :
      LoopMoves i c w loop .handle { c with steps := c.steps + 1 } w
        { loop with point := .head } false
  | complete (here : loop.point = .limitReached ∨ loop.point = .drained) :
      LoopMoves i c w loop .settle { c with state := c.state.complete } w
        { loop with
          point := .exiting none
          log := { loop.log with ranOut := true } } false
  | halt (here : loop.point = .interrupted) :
      LoopMoves i c w loop .settle { c with state := c.state.halt } w
        { loop with point := .exiting none } c.state.isGoing
  | record {detail : String} (here : loop.point = .failing detail) : LoopMoves i c w loop .settle
        { c with state := .failed, err := some detail } w
        { loop with point := .exiting (some detail) } true
  | finalizeError {detail : String} (here : loop.point = .exiting (some detail)) :
      LoopMoves i c w loop .finalize
        { c with state := .failed, err := some detail, cancel := none } w
        { loop with point := .finalized (some detail) } true
  | finalize (here : loop.point = .exiting none) : LoopMoves i c w loop .finalize
        { c with state := c.state.complete, cancel := none } w
        { loop with point := .finalized none } false
  | release {runErr : Option String} (here : loop.point = .finalized runErr) :
      LoopMoves i c w loop .release c w
        { loop with point := .released runErr, cancelled := true } false
  | close {runErr : Option String} (here : loop.point = .released runErr) :
      LoopMoves i c w loop .close c w
        { loop with point := .closed runErr } false

variable {c c' : Control} {w w' : W} {loop loop' : Loop E} {woken : Bool} {action : LoopAction E}

theorem loopMoves_of_step {i : Nat} (step : loop.step i c w action = some (c', w', loop', woken)) :
    LoopMoves i c w loop action c' w' loop' woken := by
  revert step
  -- one case for each branch of `Loop.step` that makes the move
  fun_cases Loop.step i c w loop action <;> rintro ⟨⟩
  · exact .register ‹_›
  · exact .park ‹_› ‹_›
  · exact .check ‹_› ‹_›
  · exact .leave ‹_› ‹_› ‹_›
  · exact .reach ‹_› ‹_›
  · exact .enter ‹_› ‹_›
  · exact .limitPanic ‹_› ‹_›
  · exact .advance ‹_› ‹_›
  · exact .finish ‹_› ‹_›
  · exact .interrupt ‹_› ‹_›
  · exact .fail ‹_› (Bool.eq_false_iff.mpr ‹_›)
  · exact .panic ‹_›
  · exact .drain ‹_›
  · exact .count ‹_›
  · exact .complete (.inl ‹_›)
  · exact .complete (.inr ‹_›)
  · exact .halt ‹_›
  · exact .record ‹_›
  · exact .finalizeError ‹_›
  · exact .finalize ‹_›
  · exact .release ‹_›
  · exact .close ‹_›

theorem LoopMoves.step {i : Nat} (moved : LoopMoves i c w loop action c' w' loop' woken) :
    loop.step i c w action = some (c', w', loop', woken) := by
  cases moved with
  | complete here => rcases here with here | here <;> simp only [Loop.step, here]
  | _ => simp [Loop.step, *]

namespace Sim

inductive Moves (sim : Sim E) : Action E → Sim E → Prop
  | start {limit : Limit W} (notRunning : sim.control.state ≠ .running) :
      Moves sim (.start limit) { sim with
        control := { sim.control with
          state := .running, err := none, steps := 0 }
        done := some sim.sessions
        sessions := sim.sessions + 1
        loops := Function.update sim.loops sim.sessions (begun limit) }
  | pause (running : sim.control.state = .running) : Moves sim .pause { sim with
        control := { sim.control with state := .paused } }
  | resume (paused : sim.control.state = .paused) : Moves sim .resume { sim with
        control := { sim.control with state := .running }
        loops := fun i => (sim.loops i).wake }
  | stop (going : sim.control.state.isGoing = true) : Moves sim .stop { sim with
        control := { sim.control with state := .stopped }
        loops := fun i => stopLoop sim.control.cancel i (sim.loops i) }
  | cancelContext {i : Nat} (isOpen : (sim.loops i).point.isOpen = true) :
      Moves sim (.cancelContext i) { sim with
        loops := Function.update sim.loops i { (sim.loops i).halt with cancelled := true } }
  | loop {i : Nat} {action : LoopAction E} {control : Control} {world : W}
      {loop : Loop E} {woken : Bool}
      (moved : LoopMoves i sim.control sim.world (sim.loops i) action control world loop woken) :
      Moves sim (.loop i action) { sim with
        control := control
        world := world
        loops := Function.update (sim.wakeAll woken) i loop }
  | watch {i : Nat} (waiting : (sim.loops i).watcher = .waiting)
      (done : (sim.loops i).cancelled = true) : Moves sim (.watch i) { sim with
        control := { sim.control with state := sim.control.state.halt }
        loops := Function.update (sim.wakeAll sim.control.state.isGoing) i
          { sim.wakeAll sim.control.state.isGoing i with
            watcher := .returned } }
  | callStep {k : Nat} (free : sim.calls k = .idle) (notRunning : sim.control.state ≠ .running) :
      Moves sim (.callStep k) (sim.setCall k .stepChecked)
  | enterStep {k : Nat} (here : sim.calls k = .stepChecked) :
      Moves sim (.enterStep k) (sim.setCall k (.stepping (E.start sim.world)))
  | advanceStep {k : Nat} {cancelled : Bool} {choice : E.Choice}
      {frame next : E.Frame} {w : W} (here : sim.calls k = .stepping frame)
      (advanced : E.advance cancelled sim.world frame choice = some (w, .inl next)) :
      Moves sim (.advanceStep k cancelled choice) { sim.setCall k (.stepping next) with world := w }
  | finishStep {k : Nat} {cancelled : Bool} {choice : E.Choice}
      {frame : E.Frame} {outcome : StepOutcome} {w : W} (here : sim.calls k = .stepping frame)
      (advanced : E.advance cancelled sim.world frame choice = some (w, .inr outcome)) :
      Moves sim (.advanceStep k cancelled choice)
        { sim.setCall k (.stepped outcome) with world := w }
  | failStep {k : Nat} {detail : String} (here : sim.calls k = .stepped (.error detail)) :
      Moves sim (.leaveStep k) { sim.setCall k .idle with
        control := { sim.control with state := .failed, err := some detail } }
  | countStep {k : Nat} {more : Bool} (here : sim.calls k = .stepped (.returned more)) :
      Moves sim (.leaveStep k) { sim.setCall k .idle with
        control := { sim.control with steps := sim.control.steps + 1 } }
  | panicStep {k : Nat} {detail : String} (here : sim.calls k = .stepped (.panicked detail)) :
      Moves sim (.leaveStep k) (sim.setCall k .idle)
  | callSnapshot {k : Nat} (free : sim.calls k = .idle)
      (notRunning : sim.control.state ≠ .running) :
      Moves sim (.callSnapshot k) (sim.setCall k (.snapshotting []))
  | readWorld {k : Nat} {seen : List W} (here : sim.calls k = .snapshotting seen) :
      Moves sim (.readWorld k) (sim.setCall k (.snapshotting (sim.world :: seen)))
  | leaveSnapshot {k : Nat} {seen : List W} (here : sim.calls k = .snapshotting seen) :
      Moves sim (.leaveSnapshot k) (sim.setCall k .idle)
  | callRestore {k : Nat} {writes : List (W → W)} (free : sim.calls k = .idle)
      (notRunning : sim.control.state ≠ .running) :
      Moves sim (.callRestore k writes) (sim.setCall k (.restoring writes))
  | writeWorld {k : Nat} {write : W → W} {rest : List (W → W)}
      (here : sim.calls k = .restoring (write :: rest)) : Moves sim (.writeWorld k)
        { sim.setCall k (.restoring rest) with world := write sim.world }
  | leaveRestore {k : Nat} {writes : List (W → W)} (here : sim.calls k = .restoring writes) :
      Moves sim (.leaveRestore k) (sim.setCall k .idle)

variable {sim next : Sim E}

theorem enter_eq_some {k : Nat} {call : Call E} (entered : sim.enter k call = some next) :
    sim.calls k = .idle ∧ sim.control.state ≠ .running ∧ next = sim.setCall k call := by
  unfold enter at entered
  split at entered
  · rename_i free checked
    cases entered
    refine ⟨free, ?_, rfl⟩
    intro running
    simp [check, running] at checked
  · cases entered

variable {action : Action E}

theorem moves_of_step (stepped : sim.step action = some next) : sim.Moves action next := by
  revert stepped
  fun_cases step sim action <;> try rintro ⟨⟩
  -- the moves with a function of their own, then those that `step` spells out
  · fun_cases begin <;> rintro ⟨⟩
    exact .start ‹_›
  · fun_cases pause <;> rintro ⟨⟩
    exact .pause ‹_›
  · fun_cases resume <;> rintro ⟨⟩
    exact .resume ‹_›
  · fun_cases stop <;> rintro ⟨⟩
    exact .stop ‹_›
  · fun_cases cancelContext <;> rintro ⟨⟩
    exact .cancelContext ‹_›
  · intro stepped
    obtain ⟨_, moved, rfl⟩ := Option.map_eq_some_iff.mp stepped
    exact .loop (loopMoves_of_step moved)
  · fun_cases watch <;> rintro ⟨⟩
    rename_i fires _
    exact .watch fires.1 fires.2
  · intro stepped
    obtain ⟨free, idle, rfl⟩ := enter_eq_some stepped
    exact .callStep free idle
  · exact .enterStep ‹_›
  · fun_cases advanceStep <;> rintro ⟨⟩
    · exact .advanceStep ‹_› ‹_›
    · exact .finishStep ‹_› ‹_›
  · fun_cases leaveStep <;> rintro ⟨⟩
    · exact .failStep ‹_›
    · exact .countStep ‹_›
    · exact .panicStep ‹_›
  · intro stepped
    obtain ⟨free, idle, rfl⟩ := enter_eq_some stepped
    exact .callSnapshot free idle
  · exact .readWorld ‹_›
  · exact .leaveSnapshot ‹_›
  · intro stepped
    obtain ⟨free, idle, rfl⟩ := enter_eq_some stepped
    exact .callRestore free idle
  · exact .writeWorld ‹_›
  · exact .leaveRestore ‹_›

theorem Moves.step (moved : sim.Moves action next) : sim.step action = some next := by
  cases moved with
  | loop moved => simp only [Sim.step, loopStep, moved.step, Option.map_some]
  | _ =>
    simp [Sim.step, begin, Sim.pause, Sim.resume, Sim.stop, Sim.cancelContext, Sim.watch, enter,
      check, Sim.advanceStep, leaveStep, Except.toOption, *]

theorem Moves.loop_cases (moved : sim.Moves action next) (j : Nat) :
    (∃ own woken, action = .loop j own ∧ LoopMoves j sim.control sim.world
        (sim.loops j) own next.control next.world (next.loops j) woken) ∨
      (∃ limit, action = .start limit ∧ j = sim.sessions ∧ next.loops j = begun limit) ∨
      (next.loops j).point = (sim.loops j).point ∨
      (next.loops j).point = (sim.loops j).point.wake := by
  have woken : ∀ flag, (sim.wakeAll flag j).point = (sim.loops j).point ∨
      (sim.wakeAll flag j).point = (sim.loops j).point.wake := by
    intro flag
    cases flag with
    | false => exact .inl rfl
    | true => exact .inr rfl
  cases moved with
  | @start limit idle =>
    by_cases own : j = sim.sessions
    · subst own
      exact .inr (.inl ⟨limit, rfl, rfl, update_self ..⟩)
    · exact .inr (.inr (.inl (by simp [own])))
  | resume paused | stop going => exact .inr (.inr (.inr rfl))
  | @cancelContext i isOpen =>
    by_cases own : j = i
    · subst own
      exact .inr (.inr (.inl (by simp [Loop.halt])))
    · exact .inr (.inr (.inl (by simp [own])))
  | @loop i action control world loop flag moved =>
    by_cases own : j = i
    · subst own
      refine .inl ⟨action, flag, rfl, ?_⟩
      simp only [update_self]
      exact moved
    · simp only [update_of_ne own]
      exact .inr (.inr (woken flag))
  | @watch i waiting done =>
    by_cases own : j = i
    · subst own
      simp only [update_self]
      exact .inr (.inr (woken _))
    · simp only [update_of_ne own]
      exact .inr (.inr (woken _))
  | _ => exact .inr (.inr (.inl rfl))

end Sim

end Simulator
