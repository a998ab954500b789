import Simulator.QueueHistories
import Simulator.TickAtomicity

/-!
# The clock in event mode

For a model that leaves the clock alone, times do not decrease and the clock shows the
last one.
-/

namespace Simulator

open Interleaving List EventQueue Executor Float64

theorem Executor.runs_iff {W : Type} {E : Executor W} {w w' : W}
    {frame : E.Frame} {outcome : StepOutcome} :
    E.Runs w frame w' outcome ↔ ∃ choice, E.advance false w frame choice = some (w', .inr outcome) ∨
        ∃ v next, E.advance false w frame choice = some (v, .inl next) ∧
          E.Runs v next w' outcome := by
  constructor
  · intro runs
    cases runs with
    | finish went => exact ⟨_, .inl went⟩
    | advance went rest => exact ⟨_, .inr ⟨_, _, went, rest⟩⟩
  · rintro ⟨choice, went | ⟨v, next, went, rest⟩⟩
    · exact .finish went
    · exact .advance went rest

variable {G : GoTypes} {M : Type}

def EventQueue.pushAll (events : List (Event G)) (q : EventQueue G) : EventQueue G :=
  events.foldl (fun q e => (q.push e).2) q

def Schedules (allowed : Float64 → Event G → Prop) (effect : World G × M → World G × M) : Prop :=
  ∀ s, (effect s).1.clock = s.1.clock ∧ ∃ events, (∀ e ∈ events, allowed s.1.clock.time e) ∧
      (effect s).1.events = s.1.events.pushAll events

/-- A `HandleEvent` all of whose actions do that. -/
def OnlySchedules (allowed : Float64 → Event G → Prop)
    (handleEvent : Event G → Process (World G × M) (Option StepFault)) : Prop :=
  ∀ ev, (handleEvent ev).Along (Schedules allowed) fun _ => True

def NotBefore (time : Float64) (e : Event G) : Prop :=
  e.time.less time = false

def World.accept (w : World G) (ev : Event G) (queue : EventQueue G) : World G :=
  { w with
    events := queue
    clock := w.clock.advanceTime ev.time }

def refuses (w : World G) : Bool :=
  match w.events.pop with
  | (none, _) => false
  | (some ev, _) => ev.time.less w.clock.time

def handled? (w : World G) : Option (Event G) :=
  if refuses w then none else w.events.pop.1

section

variable (format : Float64 → String)
  (handleEvent : Event G → Process (World G × M) (Option StepFault))

inductive EventHistory (start : World G × M) :
    List (Event G) → List StepOutcome → World G × M → Prop
  | start : EventHistory start [] [] start
  | step {handled : List (Event G)} {outcomes : List StepOutcome}
      {s s' : World G × M} {outcome : StepOutcome} (before : EventHistory start handled outcomes s)
      (stepped : (eventExecutor format handleEvent).Runs s
        ((eventExecutor format handleEvent).start s) s' outcome) :
      EventHistory start (handled ++ (handled? s.1).toList) (outcomes ++ [outcome]) s'

variable {format handleEvent} {s s' : World G × M} {outcome : StepOutcome}
  {process : Process (World G × M) (Option StepFault)}

theorem keeps_of_runs {acts : (World G × M → World G × M) → Prop}
    {ends : Option StepFault → Prop} (invariant : World G × M → Prop)
    (kept : ∀ effect s, acts effect → invariant s → invariant (effect s))
    (along : process.Along acts ends)
    (runs : (eventExecutor format handleEvent).Runs s (some process) s'
      outcome) (holds : invariant s) : invariant s' := by
  induction process generalizing s with
  | halt res =>
    obtain ⟨_, ended | ⟨_, _, moved, _⟩⟩ := runs_iff.mp runs
    · cases res with
      | none | some fault =>
        cases ended
        exact holds
    · cases res with
      | none | some fault => cases moved
  | act effect rest ih =>
    obtain ⟨_, ended | ⟨_, _, moved, later⟩⟩ := runs_iff.mp runs
    · cases ended
    · cases moved
      exact ih s (along.2 s) later (kept effect s along.1 holds)

theorem exists_runs_handler (process : Process (World G × M) (Option StepFault)) (s : World G × M) :
    ∃ s' outcome, (eventExecutor format handleEvent).Runs s (some process)
      s' outcome := by
  induction process generalizing s with
  | halt res =>
    cases res with
    | none | some fault => exact ⟨_, _, runs_iff.mpr ⟨(), .inl rfl⟩⟩
  | act effect rest ih =>
    obtain ⟨s', outcome, later⟩ := ih s (effect s)
    exact ⟨s', outcome, runs_iff.mpr ⟨(), .inr ⟨_, _, rfl, later⟩⟩⟩

theorem step_cases (stepped : (eventExecutor format handleEvent).Runs s none s' outcome) :
    (s.1.events.pop.1 = none ∧ s' = s ∧ refuses s.1 = false) ∨
    (∃ ev queue, s.1.events.pop = (some ev, queue) ∧ refuses s.1 = true ∧
      s' = ({ s.1 with events := queue }, s.2) ∧
      outcome = .error (pastEventText format ev s.1.clock.time)) ∨
    ∃ ev queue, s.1.events.pop = (some ev, queue) ∧ refuses s.1 = false ∧
      NotBefore s.1.clock.time ev ∧
      (eventExecutor format handleEvent).Runs (s.1.accept ev queue, s.2)
        (some (handleEvent ev)) s' outcome := by
  obtain ⟨_, first⟩ := runs_iff.mp stepped
  cases popped : s.1.events.pop with
  | mk top queue =>
    cases top with
    | none =>
      left
      simp only [eventExecutor, popped] at first
      rcases first with ended | ⟨_, _, moved, _⟩
      · cases ended
        exact ⟨rfl, rfl, by simp [refuses, popped]⟩
      · cases moved
    | some ev =>
      right
      cases past : ev.time.less s.1.clock.time with
      | true =>
        left
        simp only [eventExecutor, popped, past, if_true] at first
        rcases first with ended | ⟨_, _, moved, _⟩
        · cases ended
          exact ⟨ev, queue, rfl, by simp [refuses, popped, past], rfl, rfl⟩
        · cases moved
      | false =>
        right
        simp only [eventExecutor, popped, past] at first
        rcases first with ended | ⟨_, _, moved, later⟩
        · cases ended
        · cases moved
          exact ⟨ev, queue, rfl, by simp [refuses, popped, past], past, later⟩

theorem outcome_of_handler (runs : (eventExecutor format handleEvent).Runs s (some process) s'
      outcome) : outcome ≠ .returned false := by
  induction process generalizing s with
  | halt res =>
    obtain ⟨_, ended | ⟨_, _, moved, _⟩⟩ := runs_iff.mp runs
    · rcases res with _ | ⟨msg | msg⟩ <;> cases ended <;> nofun
    · cases res <;> cases moved
  | act effect rest ih =>
    obtain ⟨_, ended | ⟨_, _, moved, later⟩⟩ := runs_iff.mp runs
    · cases ended
    · cases moved
      exact ih s later

theorem runs_of_empty (empty : s.1.events.pop.1 = none)
    (step : (eventExecutor format handleEvent).Runs s none s' outcome) :
    s' = s ∧ outcome = .returned false := by
  obtain ⟨_, first⟩ := runs_iff.mp step
  cases popped : s.1.events.pop with
  | mk top queue =>
    rw [popped] at empty
    cases empty
    simp only [eventExecutor, popped] at first
    rcases first with ended | ⟨_, _, moved, _⟩
    · cases ended
      exact ⟨rfl, rfl⟩
    · cases moved

theorem empty_of_drained (step : (eventExecutor format handleEvent).Runs s none s'
      (.returned false)) : s.1.events.pop.1 = none := by
  rcases step_cases step with ⟨empty, _⟩ | ⟨_, _, _, _, _, failed⟩ | ⟨_, _, _, _, _, later⟩
  · exact empty
  · cases failed
  · exact absurd rfl (outcome_of_handler later)

variable (format handleEvent) in
theorem exists_runs (s : World G × M) :
    ∃ s' outcome, (eventExecutor format handleEvent).Runs s
      ((eventExecutor format handleEvent).start s) s' outcome := by
  cases popped : s.1.events.pop with
  | mk top queue =>
    cases top with
    | none =>
      refine ⟨s, .returned false, Executor.runs_iff.mpr ⟨(), .inl ?_⟩⟩
      simp [eventExecutor, popped]
    | some ev =>
      cases past : ev.time.less s.1.clock.time with
      | true =>
        refine ⟨({ s.1 with events := queue }, s.2),
          .error (pastEventText format ev s.1.clock.time), Executor.runs_iff.mpr ⟨(), .inl ?_⟩⟩
        simp [eventExecutor, popped, past]
      | false =>
        obtain ⟨s', outcome, later⟩ := exists_runs_handler
          (handleEvent ev) (s.1.accept ev queue, s.2)
        refine ⟨s', outcome, Executor.runs_iff.mpr ⟨(), .inr ⟨_, _, ?_, later⟩⟩⟩
        simp [eventExecutor, popped, past, World.accept]

end

theorem Float64.not_less_trans {x y z : Float64} (xNumber : x.isNaN = false)
    (yNumber : y.isNaN = false) (zNumber : z.isNaN = false)
    (first : x.less y = false) (second : y.less z = false) : x.less z = false := by
  simp only [less, xNumber, yNumber, zNumber, Bool.not_false,
    Bool.true_and, decide_eq_false_iff_not] at first second ⊢
  omega

theorem EventQueue.mem_pushAll {es : List (Event G)} {q : EventQueue G}
    {e : Event G} (mem : e ∈ (q.pushAll es).heap) :
    e ∈ q.heap ∨ ∃ pushed ∈ es, e.time = pushed.time := by
  induction es generalizing q with
  | nil => exact .inl mem
  | cons first rest ih =>
    rcases ih mem with queued | ⟨pushed, inRest, eq⟩
    · rw [(perm_push q first).mem_iff, mem_cons] at queued
      rcases queued with rfl | old
      · exact .inr ⟨first, .head _, rfl⟩
      · exact .inl old
    · exact .inr ⟨pushed, .tail _ inRest, eq⟩

def Queued (allowed : Float64 → Float64 → Prop) (w : World G) : Prop :=
  ∀ e ∈ w.events.heap, allowed w.clock.time e.time

variable {effect : World G × M → World G × M} {s : World G × M} {handled : List (Event G)}

theorem Queued.schedules {ok : Float64 → Float64 → Prop} (queued : Queued ok s.1)
    (schedules : Schedules (fun time e => ok time e.time) effect) :
    Queued ok (effect s).1 := by
  obtain ⟨clockEq, es, pushes, queueEq⟩ := schedules s
  intro e mem
  rw [clockEq]
  rw [queueEq] at mem
  rcases mem_pushAll mem with old | ⟨pushed, inEvents, eq⟩
  · exact queued e old
  · rw [eq]
    exact pushes pushed inEvents

structure InOrder (handled : List (Event G)) (w : World G) : Prop where
  queued : Queued (fun _ time => time.isNaN = false) w
  clock_number : w.clock.time.isNaN = false
  shows : w.clock.time = (handled.getLast?.map Event.time).getD .zero
  numbers : ∀ e ∈ handled, Timed e
  reached : ∀ e ∈ handled, w.clock.time.less e.time = false
  ordered : handled.Pairwise fun first second => NotBefore first.time second

theorem InOrder.schedules (inOrder : InOrder handled s.1)
    (schedules : Schedules (fun _ e => Timed e) effect) : InOrder handled (effect s).1 := by
  have clockEq := (schedules s).1
  have queued := inOrder.queued.schedules schedules
  exact ⟨queued, by rw [clockEq]; exact inOrder.clock_number,
    by rw [clockEq]; exact inOrder.shows, inOrder.numbers,
    by rw [clockEq]; exact inOrder.reached, inOrder.ordered⟩

theorem InOrder.handle {w : World G}
    {ev : Event G} {queue : EventQueue G} (inOrder : InOrder handled w)
    (popped : w.events.pop = (some ev, queue)) (due : NotBefore w.clock.time ev) :
    InOrder (handled ++ [ev]) (w.accept ev queue) := by
  have split := perm_pop popped
  have evTimed : Timed ev := inOrder.queued ev (split.mem_iff.mpr (.head _))
  have later : ∀ e ∈ handled, ev.time.less e.time = false := by
    intro e mem
    exact not_less_trans evTimed inOrder.clock_number
      (inOrder.numbers e mem) due (inOrder.reached e mem)
  refine ⟨?_, evTimed, by simp [World.accept, Clock.advanceTime], ?_, ?_, ?_⟩
  · intro e mem
    exact inOrder.queued e (split.mem_iff.mpr (.tail _ mem))
  · intro e mem
    rw [mem_append, mem_singleton] at mem
    rcases mem with old | rfl
    · exact inOrder.numbers e old
    · exact evTimed
  · intro e mem
    rw [mem_append, mem_singleton] at mem
    rcases mem with old | rfl
    · exact later e old
    · simp [World.accept, Clock.advanceTime, less]
  · rw [pairwise_append]
    refine ⟨inOrder.ordered, by simp, ?_⟩
    intro e mem last isLast
    rw [mem_singleton.mp isLast]
    exact later e mem

section

variable {format : Float64 → String}
  {handleEvent : Event G → Process (World G × M) (Option StepFault)} {handled : List (Event G)}
  {s : World G × M} {s' : World G × M} {outcome : StepOutcome} {w : World G} {start : World G × M}
  {outcomes : List StepOutcome}

theorem InOrder.step (inOrder : InOrder handled s.1)
    (schedules : OnlySchedules (fun _ e => Timed e) handleEvent)
    (stepped : (eventExecutor format handleEvent).Runs s none s' outcome) :
    InOrder (handled ++ (handled? s.1).toList) s'.1 := by
  rcases step_cases stepped with ⟨empty, rfl, _⟩ | ⟨ev, queue, popped, refused, rfl, _⟩ |
    ⟨ev, queue, popped, accepted, due, later⟩
  · simpa [handled?, empty] using inOrder
  · have split := perm_pop popped
    have none : handled? s.1 = none := by simp [handled?, refused]
    rw [none, Option.toList_none, append_nil]
    refine { inOrder with queued := ?_ }
    intro e member
    exact inOrder.queued e (split.mem_iff.mpr (.tail _ member))
  · have some : handled? s.1 = some ev := by
      simp [handled?, accepted, popped]
    rw [some, Option.toList_some]
    exact keeps_of_runs (fun t => InOrder (handled ++ [ev]) t.1)
      (fun effect t acts holds => holds.schedules acts)
      (schedules ev) later (inOrder.handle popped due)

abbrev Ahead (w : World G) : Prop :=
  Queued (fun clock time => time.less clock = false) w

theorem Ahead.handle {ev : Event G} {queue : EventQueue G}
    (timed : ∀ e ∈ w.events.heap, Timed e) (popped : w.events.pop = (some ev, queue)) :
    Ahead (w.accept ev queue) := by
  intro e mem
  have split := perm_pop popped
  have wasQueued : e ∈ w.events.heap := split.mem_iff.mpr (.tail _ mem)
  have evTimed := timed ev (split.mem_iff.mpr (.head _))
  have notLess := pop_first popped timed e wasQueued
  rw [← Bool.not_eq_true, eventLess_iff (timed e wasQueued) evTimed] at notLess
  have eTimed := timed e wasQueued
  unfold Timed at eTimed evTimed
  show e.time.less ev.time = false
  simp only [less, eTimed, evTimed, Bool.not_false, Bool.true_and, decide_eq_false_iff_not]
  omega

theorem Ahead.step (ahead : Ahead s.1) (inOrder : InOrder handled s.1)
    (schedules : OnlySchedules NotBefore handleEvent)
    (stepped : (eventExecutor format handleEvent).Runs s none s' outcome) : Ahead s'.1 := by
  rcases step_cases stepped with ⟨_, rfl, _⟩ | ⟨ev, queue, popped, refused, rfl, _⟩ |
    ⟨ev, queue, popped, accepted, due, later⟩
  · exact ahead
  · have split := perm_pop popped
    intro e member
    exact ahead e (split.mem_iff.mpr (.tail _ member))
  · have moved := Ahead.handle inOrder.queued popped
    exact keeps_of_runs (fun t => Ahead t.1) (fun effect t acts holds => holds.schedules acts)
      (schedules ev) later moved

theorem Ahead.not_refuses (ahead : Ahead w) : refuses w = false := by
  unfold refuses
  split
  · rfl
  · rename_i ev queue popped
    exact ahead ev ((perm_pop popped).mem_iff.mpr (.head _))

theorem InOrder.history (inOrder : InOrder [] start.1)
    (schedules : OnlySchedules (fun _ e => Timed e) handleEvent)
    (history : EventHistory format handleEvent start handled outcomes s) : InOrder handled s.1 := by
  induction history with
  | start => exact inOrder
  | step old stepped ih => exact ih.step schedules stepped

theorem Ahead.history (ahead : Ahead start.1) (inOrder : InOrder [] start.1)
    (numbers : OnlySchedules (fun _ e => Timed e) handleEvent)
    (schedules : OnlySchedules NotBefore handleEvent)
    (history : EventHistory format handleEvent start handled outcomes s) : Ahead s.1 := by
  induction history with
  | start => exact ahead
  | step old stepped ih =>
    exact ih.step (inOrder.history numbers old) schedules stepped

end

def oneEvent : World flagTypes × Unit :=
  ({ World.new (World.sampleMetadata "one") with
      events := EventQueue.new.pushAll [EventQueue.plainEvent 1 0] }, ())

def ignoreEvent (_ : Event flagTypes) : Process (World flagTypes × Unit) (Option StepFault) :=
  .halt none

end Simulator
