import Simulator.TickAtomicity

/-!
# Runs on their own

A session on a simulation that nobody else uses is a sequence of whole steps, `Rounds`.
-/

namespace Simulator

open Function

variable {W : Type} {E : Executor W}

namespace Executor

inductive Rounds (E : Executor W) (limit : Limit W) (start : W) :
    List W → W → UInt64 → Prop
  | start : Rounds E limit start [] start 0
  | round {begun : List W} {w w' : W} {steps : UInt64} (before : Rounds E limit start begun w steps)
      (goesOn : limit.may w steps .no = true) (stepped : E.Runs w (E.start w) w' (.returned true)) :
      Rounds E limit start (begun ++ [w]) w' (steps + 1)

/-- The last of the steps, begun in `origin`, is not counted yet. -/
inductive InRound (E : Executor W) (limit : Limit W) (start : W) :
    List W → UInt64 → W → Prop
  | enter {begun : List W} {origin : W} {steps : UInt64}
      (before : Rounds E limit start begun origin steps)
      (goesOn : limit.may origin steps .no = true) :
      InRound E limit start (begun ++ [origin]) steps origin

inductive Ended (E : Executor W) (limit : Limit W) (start : W) :
    List W → W → UInt64 → Prop
  | reached {begun : List W} {w : W} {steps : UInt64} (rounds : Rounds E limit start begun w steps)
      (answer : limit.may w steps .yes = true) : Ended E limit start begun w steps
  | drained {begun : List W} {origin w : W} {steps : UInt64}
      (inRound : InRound E limit start begun steps origin)
      (stepped : E.Runs origin (E.start origin) w (.returned false)) :
      Ended E limit start begun w steps

inductive Broken (E : Executor W) (limit : Limit W) (start : W) :
    List W → W → UInt64 → Prop
  | limit {begun : List W} {w : W} {steps : UInt64} {detail : String}
      (rounds : Rounds E limit start begun w steps)
      (answer : limit.may w steps (.panics detail) = true) : Broken E limit start begun w steps
  | error {begun : List W} {origin w : W} {steps : UInt64} {detail : String}
      (inRound : InRound E limit start begun steps origin)
      (stepped : E.Runs origin (E.start origin) w (.error detail)) :
      Broken E limit start begun w steps
  | panic {begun : List W} {origin w : W} {steps : UInt64} {detail : String}
      (inRound : InRound E limit start begun steps origin)
      (stepped : E.Runs origin (E.start origin) w (.panicked detail)) :
      Broken E limit start begun w steps

theorem InRound.count {limit : Limit W} {start origin w : W} {begun : List W} {steps : UInt64}
    (inRound : E.InRound limit start begun steps origin)
    (step : E.Runs origin (E.start origin) w (.returned true)) :
    E.Rounds limit start begun w (steps + 1) := by
  cases inRound with
  | enter old goesOn => exact old.round goesOn step

end Executor

def State.Going (disturbed : Prop) (state : State) : Prop :=
  state = .running ∨ state = .stopped ∧ disturbed

def LoopPoint.InRun (E : Executor W) (limit : Limit W) (start : W)
    (disturbed : Prop) (state : State) (steps : UInt64) (w : W)
    (begun : List W) : LoopPoint E.Frame → Prop
  | .begun | .head | .checked =>
    state.Going disturbed ∧ E.Rounds limit start begun w steps
  | .limitReached =>
    state.Going disturbed ∧ E.Rounds limit start begun w steps ∧ limit.may w steps .yes = true
  | .stepping frame =>
    state.Going disturbed ∧ ∃ origin, E.InRound limit start begun steps origin ∧
        ∀ w' outcome, E.Runs w frame w' outcome → E.Runs origin (E.start origin) w' outcome
  | .stepped outcome =>
    state.Going disturbed ∧ ∃ origin, E.InRound limit start begun steps origin ∧
        E.Runs origin (E.start origin) w outcome
  | .drained =>
    state.Going disturbed ∧ ∃ origin, E.InRound limit start begun steps origin ∧
        E.Runs origin (E.start origin) w (.returned false)
  | .failing detail =>
    ∃ origin, E.InRound limit start begun steps origin ∧
      E.Runs origin (E.start origin) w (.error detail)
  | .exiting none | .finalized none | .released none | .closed none =>
    state = .stopped ∧ disturbed ∨ state = .completed ∧ E.Ended limit start begun w steps
  | .exiting (some _) => E.Broken limit start begun w steps
  | .finalized (some _) | .released (some _) | .closed (some _) =>
    state = .failed ∧ E.Broken limit start begun w steps
  | .absent | .parked | .interrupted => False

def LoopAction.begins (w : W) : LoopAction E → List W
  | .ask .no => [w]
  | _ => []

namespace State

variable {disturbed : Prop} {state : State}

section

variable (going : state.Going disturbed)
include going

theorem Going.not_paused : state ≠ .paused := by
  rintro rfl
  rcases going with no | ⟨no, _⟩ <;> cases no

theorem Going.stopped (idle : state ≠ .running) : state = .stopped ∧ disturbed := by
  rcases going with running | stopped
  · exact absurd running idle
  · exact stopped

theorem Going.complete :
    state.complete = .stopped ∧ disturbed ∨ state.complete = .completed := by
  rcases going with rfl | ⟨rfl, others⟩
  · exact .inr rfl
  · exact .inl ⟨rfl, others⟩

theorem Going.halt (others : disturbed) :
    state.halt.Going disturbed := by
  rcases going with rfl | ⟨rfl, _⟩
  · exact .inr ⟨rfl, others⟩
  · exact .inr ⟨rfl, others⟩

end

end State

section

variable {limit : Limit W} {start : W} {disturbed : Prop} {i : Nat} {c c' : Control} {w w' : W}
  {loop loop' : Loop E} {action : LoopAction E} {woken : Bool} {begun : List W}

theorem LoopMoves.inRun (moved : LoopMoves i c w loop action c' w' loop' woken)
    (inRun : loop.point.InRun E limit start disturbed c.state c.steps w begun)
    (limitEq : loop.limit = limit) (live : loop.cancelled = true → loop.point.isReleased = true) :
    loop'.point.InRun E limit start disturbed c'.state c'.steps w' (begun ++ action.begins w) := by
  have notCancelled := loop.not_cancelled live
  cases moved <;> simp only [LoopAction.begins, List.append_nil]
  case register here =>
    rw [here] at inRun
    exact inRun
  case park here paused =>
    rw [here] at inRun
    exact absurd paused inRun.1.not_paused
  case check here running =>
    rw [here] at inRun
    exact inRun
  case leave here notPaused notRunning =>
    rw [here] at inRun
    exact .inl (inRun.1.stopped notRunning)
  case reach here answer =>
    rw [here] at inRun
    rw [limitEq] at answer
    exact ⟨inRun.1, inRun.2, answer⟩
  case enter here answer =>
    rw [here] at inRun
    rw [limitEq] at answer
    exact ⟨inRun.1, w, .enter inRun.2 answer, fun _ _ runs => runs⟩
  case limitPanic here answer =>
    rw [here] at inRun
    rw [limitEq] at answer
    exact .limit inRun.2 answer
  case advance here went =>
    rw [notCancelled (by rw [here]; rfl)] at went
    rw [here] at inRun
    obtain ⟨going, origin, inRound, rest⟩ := inRun
    exact ⟨going, origin, inRound, fun _ _ runs => rest _ _ (.advance went runs)⟩
  case finish here went =>
    rw [notCancelled (by rw [here]; rfl)] at went
    rw [here] at inRun
    obtain ⟨going, origin, inRound, rest⟩ := inRun
    exact ⟨going, origin, inRound, rest _ _ (.finish went)⟩
  case interrupt here done =>
    rw [notCancelled (by rw [here]; rfl)] at done
    cases done
  case fail here notDone =>
    rw [here] at inRun
    exact inRun.2
  case panic here =>
    rw [here] at inRun
    obtain ⟨_, origin, inRound, step⟩ := inRun
    exact .panic inRound step
  case drain here =>
    rw [here] at inRun
    exact inRun
  case count here =>
    rw [here] at inRun
    obtain ⟨going, origin, inRound, step⟩ := inRun
    exact ⟨going, inRound.count step⟩
  case complete here =>
    rcases here with reached | drained
    · rw [reached] at inRun
      obtain ⟨going, rounds, answer⟩ := inRun
      exact going.complete.imp id fun completed =>
        ⟨completed, .reached rounds answer⟩
    · rw [drained] at inRun
      obtain ⟨going, origin, inRound, step⟩ := inRun
      exact going.complete.imp id fun completed =>
        ⟨completed, .drained inRound step⟩
  case halt here =>
    rw [here] at inRun
    exact inRun.elim
  case record here =>
    rw [here] at inRun
    obtain ⟨origin, inRound, step⟩ := inRun
    exact .error inRound step
  case finalizeError here =>
    rw [here] at inRun
    exact ⟨rfl, inRun⟩
  case finalize here =>
    rw [here] at inRun
    rcases inRun with ⟨stopped, others⟩ | ⟨completed, ended⟩
    · exact .inl ⟨by rw [stopped]; rfl, others⟩
    · exact .inr ⟨by rw [completed]; rfl, ended⟩
  case release runErr here =>
    rw [here] at inRun
    cases runErr with
    | none | some msg => exact inRun
  case close runErr here =>
    rw [here] at inRun
    cases runErr with
    | none | some msg => exact inRun

end

namespace Sim

/-- The world in which a move calls `exec.step`. -/
def begins (sim : Sim E) : Action E → List W
  | .loop _ action => action.begins sim.world
  | .enterStep _ => [sim.world]
  | _ => []

/-- Moves of a kind, one after another, with the worlds in which they called
`exec.step`. -/
inductive Recorded (allowed : Action E → Prop) (first : Sim E) :
    List W → Sim E → Prop
  | start : Recorded allowed first [] first
  | move {begun : List W} {sim next : Sim E} {action : Action E}
      (before : Recorded allowed first begun sim) (permitted : allowed action)
      (stepped : sim.step action = some next) :
      Recorded allowed first (begun ++ sim.begins action) next

variable {first sim next : Sim E} {begun : List W}

theorem Recorded.take {ok : Action E → Prop} (old : Recorded ok first begun sim)
    (action : Action E) (permitted : ok action) (step : sim.step action = some next) :
    Recorded ok first (begun ++ sim.begins action) next :=
  old.move permitted step

/-- The moves of session `i`, and the watchers. -/
def OfSession (i : Nat) : Action E → Prop
  | .loop j _ => j = i
  | .watch _ => True
  | _ => False

theorem Recorded.loop {i : Nat}
    (old : Recorded (OfSession i) first begun sim) (action : LoopAction E)
    (step : sim.step (.loop i action) = some next) :
    Recorded (OfSession i) first (begun ++ action.begins sim.world) next :=
  old.take (.loop i action) rfl step

def Disturbed (sim : Sim E) (i : Nat) : Prop :=
  ∃ j, j ≠ i ∧ (sim.loops j).watcher = .waiting

/-- Session `i` and the sequence of whole steps it has made. -/
structure Lone (limit : Limit W) (start : W) (disturbed : Prop) (i : Nat)
    (begun : List W) (sim : Sim E) : Prop where
  limitEq : (sim.loops i).limit = limit
  inRun : (sim.loops i).point.InRun E limit start disturbed
    sim.control.state sim.control.steps sim.world begun
  live : (sim.loops i).cancelled = true → (sim.loops i).point.isReleased = true
  others : sim.Disturbed i → disturbed

namespace Lone

variable {limit : Limit W} {start : W} {disturbed : Prop} {i : Nat} {begun : List W}
  {sim next : Sim E}

theorem not_parked (lone : sim.Lone limit start disturbed i begun) :
    (sim.loops i).point ≠ .parked := by
  intro here
  have inRun := lone.inRun
  rw [here] at inRun
  exact inRun

theorem loops_wakeAll (lone : sim.Lone limit start disturbed i begun)
    (woken : Bool) : sim.wakeAll woken i = sim.loops i := by
  have notParked := lone.not_parked
  cases woken with
  | false => rfl
  | true =>
    have eq : (sim.loops i).point.wake = (sim.loops i).point := by
      cases point : (sim.loops i).point with
      | parked => exact absurd point notParked
      | _ => rfl
    simp only [wakeAll, if_true, Loop.wake, eq]

end Lone

theorem watcher_wakeAll (sim : Sim E) (woken : Bool) (j : Nat) :
    (sim.wakeAll woken j).watcher = (sim.loops j).watcher := by
  unfold wakeAll
  split <;> rfl

namespace Lone

variable {limit : Limit W} {start : W} {disturbed : Prop} {i : Nat} {begun : List W}
  {sim next : Sim E} {j : Nat} {first : Sim E}

section

variable (lone : sim.Lone limit start disturbed i begun)
include lone

theorem inRun_halt
    (waiting : (sim.loops j).watcher = .waiting) (done : (sim.loops j).cancelled = true) :
    (sim.loops i).point.InRun E limit start disturbed
      sim.control.state.halt sim.control.steps sim.world begun := by
  have inRun := lone.inRun
  have disturbs : (sim.loops i).point.isReleased = false → disturbed := by
    intro notReleased
    by_cases own : j = i
    · subst own
      rw [lone.live done] at notReleased
      cases notReleased
    · exact lone.others ⟨j, own, waiting⟩
  cases point : (sim.loops i).point with
  | begun | head | checked | limitReached | stepping | stepped | drained =>
    rw [point] at inRun disturbs
    exact ⟨inRun.1.halt (disturbs rfl), inRun.2⟩
  | failing detail =>
    rw [point] at inRun
    exact inRun
  | exiting runErr =>
    rw [point] at inRun
    cases runErr with
    | none =>
      rcases inRun with ⟨stopped, others⟩ | ⟨completed, ended⟩
      · exact .inl ⟨by rw [stopped]; rfl, others⟩
      · exact .inr ⟨by rw [completed]; rfl, ended⟩
    | some detail => exact inRun
  | finalized runErr | released runErr | closed runErr =>
    rw [point] at inRun
    cases runErr with
    | none =>
      rcases inRun with ⟨stopped, others⟩ | ⟨completed, ended⟩
      · exact .inl ⟨by rw [stopped]; rfl, others⟩
      · exact .inr ⟨by rw [completed]; rfl, ended⟩
    | some detail => exact ⟨by rw [inRun.1]; rfl, inRun.2⟩
  | absent | parked | interrupted =>
    rw [point] at inRun
    exact inRun.elim

theorem step_watch
    (moved : sim.Moves (.watch j) next) : next.Lone limit start disturbed i begun := by
  cases moved with
  | watch waiting done =>
    have inRun := lone.inRun_halt waiting done
    have awake := lone.loops_wakeAll sim.control.state.isGoing
    -- of the session itself at most the record of its watcher changes
    have same : ∃ watcher, update (sim.wakeAll sim.control.state.isGoing) j
        { sim.wakeAll sim.control.state.isGoing j with
          watcher := .returned } i =
          { sim.loops i with watcher := watcher } := by
      by_cases own : i = j
      · subst own
        exact ⟨.returned, by rw [update_self, awake]⟩
      · exact ⟨(sim.loops i).watcher, by
          rw [update_of_ne own, awake]⟩
    obtain ⟨watcher, eq⟩ := same
    refine ⟨?_, ?_, ?_, ?_⟩
    · simp only [eq]
      exact lone.limitEq
    · simp only [eq]
      exact inRun
    · simp only [eq]
      exact lone.live
    · rintro ⟨other, notOwn, waits⟩
      apply lone.others
      refine ⟨other, notOwn, ?_⟩
      by_cases fired : other = j
      · subst fired
        simp only [update_self] at waits
        cases waits
      · simp only [update_of_ne fired, watcher_wakeAll] at waits
        exact waits

theorem step_loop {action : LoopAction E} (moved : sim.Moves (.loop i action) next) :
    next.Lone limit start disturbed i (begun ++ action.begins sim.world) := by
  cases moved with
  | loop moved =>
    refine ⟨?_, ?_, ?_, ?_⟩
    · simp only [update_self]
      rw [moved.limit_eq]
      exact lone.limitEq
    · simp only [update_self]
      exact moved.inRun lone.inRun lone.limitEq lone.live
    · simp only [update_self]
      exact moved.isReleased lone.live
    · rintro ⟨other, notOwn, waits⟩
      simp only [update_of_ne notOwn, watcher_wakeAll] at waits
      exact lone.others ⟨other, notOwn, waits⟩

theorem step
    {action : Action E} (permitted : OfSession i action) (stepped : sim.step action = some next) :
    next.Lone limit start disturbed i (begun ++ sim.begins action) := by
  have moved := moves_of_step stepped
  cases action with
  | loop j action =>
    cases permitted
    exact lone.step_loop moved
  | watch j =>
    simp only [begins, List.append_nil]
    exact lone.step_watch moved
  | _ => exact permitted.elim

end

theorem recorded (initially : first.Lone limit start disturbed i [])
    (run : Recorded (OfSession i) first begun sim) : sim.Lone limit start disturbed i begun := by
  induction run with
  | start => exact initially
  | move old permitted step ih => exact ih.step permitted step

theorem of_start (started : sim.step (.start limit) = some first) :
    first.Lone limit sim.world (sim.Disturbed sim.sessions) sim.sessions [] := by
  have moved := moves_of_step started
  cases moved with
  | start idle =>
    refine ⟨?_, ?_, ?_, ?_⟩
    · simp only [update_self]
      rfl
    · simp only [update_self]
      exact ⟨.inl rfl, .start⟩
    · simp only [update_self]
      intro done
      cases done
    · rintro ⟨other, notOwn, waits⟩
      simp only [update_of_ne notOwn] at waits
      exact ⟨other, notOwn, waits⟩

end Lone

variable {limit : Limit W} {first sim later : Sim E} {begun : List W} {runErr : Option String}

section

variable (started : sim.step (.start limit) = some first)
  (run : Recorded (OfSession sim.sessions) first begun later)
  (closed : (later.loops sim.sessions).point = .closed runErr)
include started run closed

theorem closed_cases : (later.control.state = .stopped ∧ sim.Disturbed sim.sessions) ∨
    (later.control.state = .completed ∧
      E.Ended limit sim.world begun later.world later.control.steps) ∨
    (later.control.state = .failed ∧
      E.Broken limit sim.world begun later.world later.control.steps) := by
  have inRun := (Lone.recorded (Lone.of_start started) run).inRun
  rw [closed] at inRun
  cases runErr with
  | none => exact inRun.imp id .inl
  | some msg => exact .inr (.inr inRun)

theorem ended_of_completed (done : later.control.state = .completed) :
    E.Ended limit sim.world begun later.world later.control.steps := by
  rcases closed_cases started run closed with ⟨stopped, _⟩ | ⟨_, ended⟩ | ⟨failed, _⟩
  · rw [stopped] at done
    cases done
  · exact ended
  · rw [failed] at done
    cases done

end

end Sim

end Simulator
