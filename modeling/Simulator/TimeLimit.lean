import Simulator.EventClock
import Simulator.LoneRuns

/-!
# The time limit in event mode

In event mode the limit looks at the first event of the queue before every step.
-/

namespace Simulator

open Interleaving Sim List EventQueue Float64

variable {G : GoTypes} {M : Type}

/-- `time >= maxTime` -/
def Float64.atLeast (time maxTime : Float64) : Bool :=
  maxTime.less time || maxTime.equal time

variable {maxTime : Float64} {time : Float64} {w : World G} {W : Type} {E : Executor W}
  {limit : Limit W} {start : W} {begun : List W} {steps : UInt64}

theorem Float64.less_of_not_atLeast
    (timeNumber : time.isNaN = false) (maxNumber : maxTime.isNaN = false)
    (below : time.atLeast maxTime = false) : time.less maxTime = true := by
  simp only [atLeast, less, equal, timeNumber,
    maxNumber, Bool.not_false, Bool.true_and, Bool.or_eq_false_iff,
    decide_eq_false_iff_not, beq_eq_false_iff_ne, decide_eq_true_eq] at below ⊢
  omega

theorem Float64.atLeast_of_not_less {first : Float64} (timeNumber : time.isNaN = false)
    (reached : first.atLeast maxTime = true)
    (notBefore : time.less first = false) : time.atLeast maxTime = true := by
  simp only [atLeast, less, equal, timeNumber,
    Bool.not_false, Bool.true_and, Bool.or_eq_true, Bool.and_eq_true,
    Bool.not_eq_true', decide_eq_true_eq, beq_iff_eq,
    Bool.and_eq_false_imp, decide_eq_false_iff_not] at reached notBefore ⊢
  have maxNumber : maxTime.isNaN = false := by
    rcases reached with ⟨⟨n, _⟩, _⟩ | ⟨⟨n, _⟩, _⟩ <;> exact n
  have firstNumber : first.isNaN = false := by
    rcases reached with ⟨⟨_, n⟩, _⟩ | ⟨⟨_, n⟩, _⟩ <;> exact n
  have inOrder := notBefore firstNumber
  simp only [maxNumber, true_and]
  rcases reached with ⟨_, above⟩ | ⟨_, eq⟩ <;> omega

theorem not_less_of_eventLess {e first : Event G} (notBefore : eventLess e first = false) :
    e.time.less first.time = false := by
  unfold eventLess at notBefore
  cases eq : e.time.equal first.time with
  | true =>
    simp only [equal, Bool.and_eq_true, beq_iff_eq] at eq
    simp [less, eq.2]
  | false => simpa [eq] using notBefore

theorem atLeast_of_timeReached
    (timed : ∀ e ∈ w.events.heap, Timed e) (reached : timeReached maxTime w = true) :
    ∀ e ∈ w.events.heap, e.time.atLeast maxTime = true := by
  intro e mem
  cases popped : w.events.pop with
  | mk top queue =>
    have peeked := w.events.peek_eq_pop
    rw [popped] at peeked
    cases top with
    | none =>
      rw [(pop_of_empty popped).1] at mem
      cases mem
    | some first =>
      simp only [timeReached, peeked] at reached
      have notBefore := pop_first popped timed e mem
      exact atLeast_of_not_less (timed e mem) reached (not_less_of_eventLess notBefore)

theorem less_of_not_timeReached
    {ev : Event G} (n : maxTime.isNaN = false) (timed : ∀ e ∈ w.events.heap, Timed e)
    (notReached : timeReached maxTime w = false)
    (handled : handled? w = some ev) : ev.time.less maxTime = true := by
  have popped : w.events.pop.1 = some ev := by
    unfold handled? at handled
    split at handled
    · cases handled
    · exact handled
  have peeked : w.events.peek = some ev := w.events.peek_eq_pop.trans popped
  simp only [timeReached, peeked] at notReached
  apply less_of_not_atLeast _ n notReached
  exact timed ev (mem_of_mem_head? peeked)

theorem Executor.Rounds.went_on {w : W} (rounds : E.Rounds limit start begun w steps) :
    ∀ origin ∈ begun, ∃ steps, limit.may origin steps .no = true := by
  induction rounds with
  | start => nofun
  | round old goesOn step ih =>
    intro origin mem
    rcases mem_append.mp mem with prior | last
    · exact ih origin prior
    · rw [mem_singleton.mp last]
      exact ⟨_, goesOn⟩

theorem Executor.Ended.went_on {w : W} (ended : E.Ended limit start begun w steps) :
    ∀ origin ∈ begun, ∃ steps, limit.may origin steps .no = true := by
  cases ended with
  | reached rounds answer => exact rounds.went_on
  | drained inRound step =>
    cases inRound with
    | enter old goesOn =>
      intro origin mem
      rcases mem_append.mp mem with prior | last
      · exact old.went_on origin prior
      · rw [mem_singleton.mp last]
        exact ⟨_, goesOn⟩

section

variable {cfg : RunConfig}

theorem defaultLimit_event (mode : cfg.mode = .event)
    (pos : zero.less cfg.maxTime = true) : (defaultLimit cfg : Limit (World G × M)) =
      .onWorld fun (w, _) => timeReached cfg.maxTime w := by
  simp only [defaultLimit, mode, pos, if_true]

variable {W : Type} {test : W → Bool} {w : W} {steps : UInt64}

theorem Limit.onWorld_no (answer : (onWorld test).may w steps .no = true) : test w = false := by
  cases res : test w with
  | false => rfl
  | true => simp [onWorld, res] at answer

theorem Limit.onWorld_yes (answer : (onWorld test).may w steps .yes = true) : test w = true := by
  cases res : test w with
  | true => rfl
  | false => simp [onWorld, res] at answer

theorem max_time_exact {format : Float64 → String}
    {handleEvent : Event G → Process (World G × M) (Option StepFault)} (mode : cfg.mode = .event)
    (positive : Float64.zero.less cfg.maxTime = true)
    {sim first later : Sim (eventExecutor format handleEvent)}
    {begun : List (World G × M)} {runErr : Option String}
    (started : sim.step (.start (defaultLimit cfg)) = some first)
    (run : Recorded (OfSession sim.sessions) first begun later)
    (closed : (later.loops sim.sessions).point = .closed runErr)
    (completed : later.control.state = .completed)
    (timed : ∀ s ∈ later.world :: begun, ∀ e ∈ s.1.events.heap, Timed e) :
    (∀ s ∈ begun, ∀ ev, handled? s.1 = some ev → ev.time.less cfg.maxTime = true) ∧
    ∀ e ∈ later.world.1.events.heap, e.time.atLeast cfg.maxTime = true := by
  have n : cfg.maxTime.isNaN = false := by
    simp only [less, Bool.and_eq_true, Bool.not_eq_true'] at positive
    exact positive.1.2
  have ended := ended_of_completed started run closed completed
  rw [defaultLimit_event mode positive] at ended
  constructor
  · intro s mem ev handled
    obtain ⟨steps, answer⟩ := ended.went_on s mem
    have notReached := Limit.onWorld_no answer
    exact less_of_not_timeReached n (timed s (mem_cons_of_mem _ mem)) notReached handled
  · cases ended with
    | reached rounds answer =>
      have reached := Limit.onWorld_yes answer
      exact atLeast_of_timeReached (timed _ mem_cons_self) reached
    | drained inRound step =>
      have empty := empty_of_drained step
      intro e mem
      rw [(runs_of_empty empty step).1, heap_of_pop_none empty] at mem
      cases mem

end

/-- A model that answers an event with another one, at the next time after
`MaxTime`. -/
def answerLate (_ : Event flagTypes) : Process (World flagTypes × Unit) (Option StepFault) :=
  .act (fun (w, model) => ({ w with
      events := w.events.pushAll [{ EventQueue.plainEvent 0 0 with time := ⟨2⟩ }] }, model))
    fun _ => .halt none

def untilOne : RunConfig :=
  ⟨.event, 0, ⟨1⟩⟩

def lateNew : Sim (eventExecutor (fun _ => "") answerLate) :=
  .new oneEvent

def lateStarted : Sim (eventExecutor (fun _ => "") answerLate) :=
  (lateNew.step (.start (defaultLimit untilOne))).getD lateNew

theorem max_time_exact_late :
    ∃ (begun : List (World flagTypes × Unit))
        (later : Sim (eventExecutor (fun _ => "") answerLate)),
      Float64.zero.less untilOne.maxTime = true ∧
      lateNew.step (.start (defaultLimit untilOne)) = some lateStarted ∧
      Recorded (OfSession 0) lateStarted begun later ∧ (later.loops 0).point = .closed none ∧
      later.control.state = .completed ∧ begun.length = 1 ∧ later.world.1.events.heap.length = 1 ∧
      (∀ s ∈ begun, ∀ ev, handled? s.1 = some ev → ev.time.less untilOne.maxTime = true) ∧
      ∀ e ∈ later.world.1.events.heap, e.time.atLeast untilOne.maxTime = true := by
  have run := (Recorded.start : Recorded (OfSession 0) lateStarted [] _)
    |>.loop .register rfl |>.loop .look rfl |>.loop (.ask .no) rfl
    |>.loop (.advance ()) rfl |>.loop (.advance ()) rfl
    |>.loop (.advance ()) rfl |>.loop .handle rfl |>.loop .look rfl
    |>.loop (.ask .yes) rfl |>.loop .settle rfl |>.loop .finalize rfl
    |>.loop .release rfl |>.loop .close rfl
  have started : lateNew.step (.start (defaultLimit untilOne)) =
      some lateStarted := rfl
  refine ⟨_, _, rfl, started, run, rfl, rfl, rfl, rfl, ?_⟩
  exact max_time_exact rfl rfl started run rfl rfl (by decide)

end Simulator
