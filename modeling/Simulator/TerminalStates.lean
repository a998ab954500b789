import Simulator.Executors
import Simulator.RuntimeActivity
import Simulator.TransitionRuns

/-!
# The state a run ends in

The loop, the finalizer and the watcher each decide the state on a reading of their own.
-/

namespace Simulator

open Transition Function LoopPoint

variable {W : Type} {E : Executor W}

/-- How far a session is in deciding the state it ends in: `ended` is a loop
that left without an error, `failing` one that left with an error, and
`failed` the latter after its finalizer. -/
inductive Phase
  | outside
  | looping
  | ended
  | failing
  | failed

namespace LoopPoint

variable {Frame : Type}

def phase : LoopPoint Frame → Phase
  | .absent | .closed _ => .outside
  | .exiting none | .finalized none | .released none => .ended
  | .failing _ | .exiting (some _) => .failing
  | .finalized (some _) | .released (some _) => .failed
  | _ => .looping

@[simp]
theorem phase_wake (point : LoopPoint Frame) : point.wake.phase = point.phase := by
  cases point <;> rfl

@[simp]
theorem isReleased_wake (point : LoopPoint Frame) : point.wake.isReleased = point.isReleased := by
  cases point <;> rfl

theorem eq_of_wake_eq {point target : LoopPoint Frame}
    (woken : point.wake = target) (notHead : target ≠ .head) : point = target := by
  cases point with
  | parked => exact (notHead woken.symm).elim
  | _ => exact woken

theorem phase_of_isReleased {point : LoopPoint Frame}
    (opened : point.isOpen = true) (released : point.isReleased = true) :
    point.phase = .ended ∨ point.phase = .failed := by
  cases point with
  | released runErr =>
    cases runErr with
    | none => exact .inl rfl
    | some msg => exact .inr rfl
  | closed runErr => cases opened
  | _ => cases released

end LoopPoint

def Phase.Truthful (state : State) (log : SessionLog) : Phase → Prop
  | .outside => True
  | .looping => (state.isGoing = true ∨ state = .stopped ∧ log.halted = true) ∧ log.ranOut = false
  | .ended => state = .completed ∨ state = .stopped ∧ log.halted = true
  | .failing => log.stepFailed = true ∧ log.ranOut = false
  | .failed => state = .failed ∧ log.stepFailed = true ∧ log.ranOut = false

namespace Phase.Truthful

variable {state state' : State} {log : SessionLog} {phase : Phase}

theorem not_going_ended (truthful : Phase.ended.Truthful state log) : state.isGoing = false := by
  rcases truthful with rfl | ⟨rfl, -⟩ <;> rfl

section

variable (truthful : phase.Truthful state log)
include truthful

theorem of_going (going : state.isGoing = true) (going' : state'.isGoing = true) :
    phase.Truthful state' log := by
  cases phase with
  | outside => trivial
  | looping => exact ⟨.inl going', truthful.2⟩
  | ended =>
    rw [truthful.not_going_ended] at going
    cases going
  | failing => exact truthful
  | failed =>
    rw [truthful.1] at going
    cases going

theorem stopped
    (going : state.isGoing = true) (halted : log.halted = true) : phase.Truthful .stopped log := by
  cases phase with
  | outside => trivial
  | looping => exact ⟨.inr ⟨rfl, halted⟩, truthful.2⟩
  | ended => exact .inr ⟨rfl, halted⟩
  | failing => exact truthful
  | failed =>
    rw [truthful.1] at going
    cases going

theorem halt :
    phase.Truthful state { log with halted := true } := by
  cases phase with
  | outside => trivial
  | looping => exact ⟨truthful.1.imp_right fun ended => ⟨ended.1, rfl⟩, truthful.2⟩
  | ended => exact truthful.imp_right fun ended => ⟨ended.1, rfl⟩
  | failing | failed => exact truthful

end

end Phase.Truthful

structure Loop.Honest (state : State) (loop : Loop E) : Prop where
  truthful : loop.point.phase.Truthful state loop.log
  cancelled : loop.cancelled = true → loop.log.halted = true ∨ loop.point.isReleased = true
  interrupted : loop.point = .interrupted → loop.cancelled = true

namespace Loop.Honest

variable {state : State} {loop : Loop E}

theorem wake (honest : loop.Honest state) : loop.wake.Honest state where
  truthful := by simpa [Loop.wake] using honest.truthful
  cancelled := by simpa [Loop.wake] using honest.cancelled
  interrupted := by
    intro here
    exact honest.interrupted (eq_of_wake_eq here (by simp))

theorem halted_of_going (honest : loop.Honest state)
    (opened : loop.point.isOpen = true) (done : loop.cancelled = true)
    (going : state.isGoing = true) : loop.log.halted = true := by
  rcases honest.cancelled done with halted | released
  · exact halted
  · have truthful := honest.truthful
    rcases phase_of_isReleased opened released with done | failed
    · rw [done] at truthful
      rw [truthful.not_going_ended] at going
      cases going
    · rw [failed] at truthful
      rw [truthful.1] at going
      cases going

end Loop.Honest

namespace LoopMoves

variable {i : Nat} {c c' : Control} {w w' : W} {loop loop' : Loop E} {action : LoopAction E}
  {woken : Bool}

theorem looping (honest : loop.Honest c.state) {point : LoopPoint E.Frame}
    (here : loop.point = point) (phase : point.phase = .looping) :
    Phase.looping.Truthful c.state loop.log := by
  have truthful := honest.truthful
  rwa [here, phase] at truthful

section

variable (honest : loop.Honest c.state) (moved : LoopMoves i c w loop action c' w' loop' woken)
include honest moved

theorem truthful_step (unpaused : action = .settle →
      loop.point = .limitReached ∨ loop.point = .drained → c.state ≠ .paused)
    (answers : ∀ msg, action ≠ .ask (.panics msg)) :
    loop'.point.phase.Truthful c'.state loop'.log := by
  have truthful := honest.truthful
  cases moved with
  | leave here notPaused idle =>
    rcases (looping honest here rfl).1 with going | stopped
    · cases state : c.state with
      | running => exact (idle state).elim
      | paused => exact (notPaused state).elim
      | _ =>
        rw [state] at going
        cases going
    · exact .inr stopped
  | limitPanic here answer => exact (answers _ rfl).elim
  | fail here notDone | panic here => exact ⟨rfl, (looping honest here rfl).2⟩
  | complete here =>
    have notPaused := unpaused rfl here
    have old : Phase.looping.Truthful c.state loop.log := by
      rcases here with here | here
      · exact looping honest here rfl
      · exact looping honest here rfl
    rcases old.1 with going | ⟨stopped, halted⟩
    · cases state : c.state with
      | running => exact .inl rfl
      | paused => exact (notPaused state).elim
      | _ =>
        rw [state] at going
        cases going
    · exact .inr ⟨by rw [stopped]; rfl, halted⟩
  | halt here =>
    have opened : loop.point.isOpen = true := by
      rw [here]
      rfl
    rcases (looping honest here rfl).1 with going | ⟨stopped, halted⟩
    · refine .inr ⟨by simp [State.halt, going], ?_⟩
      exact honest.halted_of_going opened (honest.interrupted here) going
    · exact .inr ⟨by rw [stopped]; rfl, halted⟩
  | finalizeError here =>
    rw [here] at truthful
    exact ⟨rfl, truthful⟩
  | finalize here =>
    rw [here] at truthful
    rcases truthful with done | ⟨stopped, halted⟩
    · exact .inl (by rw [done]; rfl)
    · exact .inr ⟨by rw [stopped]; rfl, halted⟩
  | @release runErr here =>
    rw [here] at truthful
    cases runErr with
    | none | some msg => exact truthful
  | close here => trivial
  | record here | register here | park here | check here | reach here | enter here | advance here
  | finish here | interrupt here | drain here | count here =>
    rw [here] at truthful
    exact truthful

theorem cancelled_step (done : loop'.cancelled = true) :
    loop'.log.halted = true ∨ loop'.point.isReleased = true := by
  cases moved with
  | release here | close here => exact .inr rfl
  | complete here =>
    have old := honest.cancelled done
    rcases here with here | here
    · simpa [here, LoopPoint.isReleased] using old
    · simpa [here, LoopPoint.isReleased] using old
  | _ =>
    have old := honest.cancelled done
    simp_all [LoopPoint.isReleased]

end

theorem interrupted_step (moved : LoopMoves i c w loop action c' w' loop' woken)
    (here : loop'.point = .interrupted) : loop'.cancelled = true := by
  cases moved with
  | interrupt old done => exact done
  | _ => cases here

theorem honest_step (honest : loop.Honest c.state)
    (moved : LoopMoves i c w loop action c' w' loop' woken) (unpaused : action = .settle →
      loop.point = .limitReached ∨ loop.point = .drained → c.state ≠ .paused)
    (answers : ∀ msg, action ≠ .ask (.panics msg)) :
    loop'.Honest c'.state where
  truthful := truthful_step honest moved unpaused answers
  cancelled := cancelled_step honest moved
  interrupted := moved.interrupted_step

end LoopMoves

namespace Sim

/-- Sessions begin one after another, and the interleavings are those of
`Pause`, `Resume`, `Stop` and cancellation with the loops and watchers.  In
addition no limit function panics, no loop leaves at its limit or for want of
events while the simulation is paused, and no watcher of a closed session
finds the simulation running or paused. -/
def EndsCleanly (sim : Sim E) : Action E → Prop
  | .start _ => sim.AllClosed
  | .pause | .resume | .stop | .cancelContext _ => True
  | .loop _ (.ask (.panics _)) => False
  | .loop i .settle =>
    (sim.loops i).point = .limitReached ∨ (sim.loops i).point = .drained →
      sim.control.state ≠ .paused
  | .loop _ _ => True
  | .watch i => (sim.loops i).point.isOpen = true ∨ sim.control.state.isGoing = false
  | _ => False

structure HonestSession (sim : Sim E) : Prop where
  oneLoop : sim.OneOpen
  honest : ∀ i, (sim.loops i).point.isOpen = true → (sim.loops i).Honest sim.control.state

theorem honestSession_new (w : W) : (new w : Sim E).HonestSession where
  oneLoop := oneOpen_new w
  honest := by
    intro i opened
    cases opened

namespace HonestSession

variable {sim next : Sim E} {action : Action E}

theorem step_start {limit : Limit W} (cleanly : sim.EndsCleanly (.start limit))
    (moved : sim.Moves (.start limit) next) :
    ∀ j, (next.loops j).point.isOpen = true → (next.loops j).Honest next.control.state := by
  intro j opened
  rcases moved.isOpen_cases opened with old | ⟨-, rfl⟩
  · rw [cleanly j] at old
    cases old
  · cases moved with
    | start idle =>
      simp only [update_self]
      exact ⟨⟨.inl rfl, rfl⟩, nofun, nofun⟩

variable {loop : Loop E} {state : State}

theorem honest_stopLoop
    (honest : loop.Honest state) (going : state.isGoing = true) (cancel : Option Nat) (i : Nat) :
    (stopLoop cancel i loop).Honest .stopped where
  truthful := honest.wake.truthful.halt.stopped going rfl
  cancelled := fun _ => .inl rfl
  interrupted := by
    intro here
    have done : loop.cancelled = true := honest.wake.interrupted here
    simp [stopLoop, Loop.halt, Loop.wake, done]

theorem honest_halt (honest : loop.Honest state) :
    ({ loop.halt with cancelled := true } : Loop E).Honest state where
  truthful := honest.truthful.halt
  cancelled := fun _ => .inl rfl
  interrupted := fun _ => rfl

theorem honest_watch (honest : loop.Honest state) (opened : loop.point.isOpen = true)
    (done : loop.cancelled = true) (going : state.isGoing = true) :
    ({ loop.wake with watcher := .returned } : Loop E).Honest .stopped where
  truthful := honest.wake.truthful.stopped going (honest.halted_of_going opened done going)
  cancelled := honest.wake.cancelled
  interrupted := honest.wake.interrupted

theorem step_loop (session : sim.HonestSession) {i : Nat}
    {act : LoopAction E} (cleanly : sim.EndsCleanly (.loop i act))
    {control : Control} {world : W} {woken : Bool}
    (moved : LoopMoves i sim.control sim.world (sim.loops i) act control
      world loop woken) : loop.Honest control.state := by
  apply LoopMoves.honest_step (session.honest i moved.isOpen) moved
  · rintro rfl
    exact cleanly
  · rintro msg rfl
    exact cleanly

theorem step (session : sim.HonestSession)
    (cleanly : sim.EndsCleanly action) (moved : sim.Moves action next) :
    next.HonestSession where
  oneLoop := by
    apply moved.oneOpen session.oneLoop
    rintro limit rfl
    exact cleanly
  honest := by
    intro j opened
    have before := moved.isOpen_cases opened
    cases moved with
    | start idle => exact step_start cleanly (.start idle) j opened
    | pause running =>
      have honest := session.honest j opened
      rw [running] at honest
      exact ⟨honest.truthful.of_going rfl rfl, honest.cancelled, honest.interrupted⟩
    | resume paused =>
      rcases before with old | ⟨⟨limit, other⟩, -⟩
      · have honest := (session.honest j old).wake
        rw [paused] at honest
        exact ⟨honest.truthful.of_going rfl rfl, honest.cancelled, honest.interrupted⟩
      · cases other
    | stop going =>
      rcases before with old | ⟨⟨limit, other⟩, -⟩
      · exact honest_stopLoop (session.honest j old) going _ _
      · cases other
    | @cancelContext i isOpen =>
      by_cases own : j = i
      · subst own
        simp only [update_self]
        exact honest_halt (session.honest j isOpen)
      · simp only [update_of_ne own] at opened ⊢
        exact session.honest j opened
    | @loop i _ _ _ _ _ moved =>
      by_cases own : j = i
      · subst own
        simp only [update_self]
        exact session.step_loop cleanly moved
      · simp only [update_of_ne own, isOpen_wakeAll] at opened
        exact (own (session.oneLoop j i opened moved.isOpen)).elim
    | @watch i waiting done =>
      rcases before with old | ⟨⟨limit, other⟩, -⟩
      · have honest := session.honest j old
        cases going : sim.control.state.isGoing with
        | false =>
          -- the watcher finds nothing to stop
          have kept : sim.control.state.halt = sim.control.state := by
            simp [State.halt, going]
          simp only [kept, wakeAll, Bool.false_eq_true, if_false]
          by_cases own : j = i
          · subst own
            simp only [update_self]
            exact ⟨honest.truthful, honest.cancelled, honest.interrupted⟩
          · simp only [update_of_ne own]
            exact honest
        | true =>
          have isOpen : (sim.loops i).point.isOpen = true := cleanly.resolve_right (by simp [going])
          have stopped : sim.control.state.halt = .stopped := by
            simp [State.halt, going]
          obtain rfl := session.oneLoop j i old isOpen
          simp only [stopped, wakeAll, if_true, update_self]
          exact honest_watch honest isOpen done going
      · cases other
    | _ => exact cleanly.elim

end HonestSession

theorem truthful_at_close {w : W} {sim next : Sim E}
    (reachable : Reachable step EndsCleanly (new w) sim) {i : Nat}
    (closes : sim.step (.loop i .close) = some next) :
    (next.control.state = .completed ∨ next.control.state = .stopped ∨
      next.control.state = .failed) ∧
    (next.control.state = .failed → (next.loops i).log.stepFailed = true) ∧
    ((next.loops i).log.ranOut = true → (next.loops i).log.halted = false →
      next.control.state = .completed) := by
  have session : sim.HonestSession := by
    apply reachable.invariant (honestSession_new w)
    intro state action next session cleanly stepped
    exact session.step cleanly (moves_of_step stepped)
  cases moves_of_step closes with
  | loop moved =>
    have truthful := (session.honest i moved.isOpen).truthful
    cases moved with
    | @close runErr here =>
      simp only [update_self]
      rw [here] at truthful
      cases runErr with
      | none =>
        rcases truthful with done | ⟨stopped, halted⟩
        · simp [done]
        · simp [stopped, halted]
      | some msg =>
        obtain ⟨failed, stepFailed, notOut⟩ := truthful
        simp [failed, stepFailed, notOut]

theorem truthful_at_close_spawner :
    ∃ sim next : Sim spawner, Reachable step EndsCleanly spawnerNew sim ∧
      sim.step (.loop 0 .close) = some next ∧ next.control.state = .completed := by
  obtain ⟨sim, next, reachable, closes, ranOut, halted⟩ : ∃ sim next : Sim spawner,
        Reachable step EndsCleanly spawnerNew sim ∧ sim.step (.loop 0 .close) = some next ∧
        (next.loops 0).log.ranOut = true ∧ (next.loops 0).log.halted = false := by
    have new : Reachable step EndsCleanly spawnerNew spawnerNew := .start
    have started := new.take (.start (.atSteps 0)) (fun _ => rfl) rfl
    have reg := started.take (.loop 0 .register) trivial rfl
    have checked := reg.take (.loop 0 .look) trivial rfl
    have reached := checked.take (.loop 0 (.ask .yes)) trivial rfl
    have settled := reached.take (.loop 0 .settle) (fun _ => nofun) rfl
    have finalized := settled.take (.loop 0 .finalize) trivial rfl
    have released := finalized.take (.loop 0 .release) trivial rfl
    exact ⟨_, _, released, rfl, rfl, rfl⟩
  exact ⟨sim, next, reachable, closes, (truthful_at_close reachable closes).2.2 ranOut halted⟩

/-- `RunN(0)`, and a `Pause` between the state check and the limit. -/
def pauseAtLimit : List (Action spawner) :=
  [.start (.atSteps 0), .loop 0 .register, .loop 0 .look, .pause,
    .loop 0 (.ask .yes), .loop 0 .settle, .loop 0 .finalize, .loop 0 .release, .loop 0 .close]

theorem paused_at_close :
    ∃ sim : Sim spawner, run step (fun _ _ => true) pauseAtLimit spawnerNew = some sim ∧
      (sim.loops 0).point = .closed none ∧
      (sim.loops 0).log.ranOut = true ∧ (sim.loops 0).log.halted = false ∧
      sim.control.state = .paused :=
  ⟨_, rfl, rfl, rfl, rfl, rfl⟩

end Sim

end Simulator
