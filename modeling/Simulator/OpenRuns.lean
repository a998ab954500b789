import Simulator.RuntimeActivity

/-!
# Open runs

A session is open from `begin` until its channel is closed.
-/

namespace Simulator

variable {W : Type} {E : Executor W}

namespace Action

def isStart : Action E → Bool
  | .start _ => true
  | _ => false

def isClose : Action E → Bool
  | .loop _ .close => true
  | _ => false

/-- A move of a call of `Step`, `Snapshot` or `Restore`. -/
def isCall : Action E → Bool
  | .callStep _ => true
  | .enterStep _ => true
  | .advanceStep _ _ _ => true
  | .leaveStep _ => true
  | .callSnapshot _ => true
  | .readWorld _ => true
  | .leaveSnapshot _ => true
  | .callRestore _ _ => true
  | .writeWorld _ => true
  | .leaveRestore _ => true
  | _ => false

variable {a : Action E}

theorem not_start_of_call (call : a.isCall = true) : a.isStart = false := by
  cases a <;> first | rfl | cases call

theorem not_close_of_call (call : a.isCall = true) : a.isClose = false := by
  cases a <;> first | rfl | cases call

end Action

theorem State.not_going_complete {state : State}
    (still : state.isGoing = false) : state.complete.isGoing = false := by
  cases state <;> simp_all [State.isGoing, State.complete]

theorem State.not_going_halt (state : State) : state.halt.isGoing = false := by
  cases state <;> rfl

theorem Sim.not_going_of_step {sim next : Sim E} {a : Action E} (step : sim.step a = some next)
    (other : a.isStart = false) (still : sim.control.state.isGoing = false) :
    next.control.state.isGoing = false := by
  cases Sim.moves_of_step step with
  | start idle => cases other
  | pause running => simp [running, State.isGoing] at still
  | resume paused => simp [paused, State.isGoing] at still
  | stop going | failStep here => rfl
  | loop moved =>
    cases moved with
    | complete here | finalize here => exact State.not_going_complete still
    | halt here => exact State.not_going_halt _
    | record here | finalizeError here => rfl
    | _ => exact still
  | watch waiting done => exact State.not_going_halt _
  | _ => exact still

theorem LoopMoves.stays_open {i : Nat} {c c' : Control} {w w' : W}
    {loop loop' : Loop E} {act : LoopAction E} {woken : Bool}
    (moved : LoopMoves i c w loop act c' w' loop' woken)
    (other : (Action.loop i act).isClose = false) : loop'.point.isOpen = true := by
  cases moved with
  | close here => cases other
  | _ => rfl

namespace Sim

def isOpen (sim : Sim E) (i : Nat) : Bool :=
  (sim.loops i).point.isOpen

/-- The open session is the one whose channel `Wait` takes, and a simulation
that is running or paused has one. -/
structure Tracked (sim : Sim E) : Prop where
  latest : ∀ i, sim.isOpen i = true → sim.done = some i
  going : sim.control.state.isGoing = true → ∃ i, sim.isOpen i = true

structure Fresh (sim : Sim E) : Prop where
  idle : sim.control.state = .idle
  absent : ∀ i, sim.loops i = .absent

theorem fresh_new (w : W) : (new w : Sim E).Fresh :=
  ⟨rfl, fun _ => rfl⟩

variable {sim next : Sim E} {a : Action E}

theorem Fresh.not_open (fresh : sim.Fresh) (i : Nat) : sim.isOpen i = false := by
  rw [isOpen, fresh.absent i]
  rfl

theorem Fresh.tracked (fresh : sim.Fresh) : sim.Tracked := by
  constructor
  · intro i isOpen
    rw [fresh.not_open] at isOpen
    cases isOpen
  · intro going
    rw [fresh.idle] at going
    cases going

variable {i : Nat} {act : LoopAction E}

theorem isOpen_of_loop (step : sim.step (.loop i act) = some next) : sim.isOpen i = true := by
  cases moves_of_step step with
  | loop moved => exact moved.isOpen

theorem Fresh.no_loop (fresh : sim.Fresh) (step : sim.step (.loop i act) = some next) : False := by
  have isOpen := isOpen_of_loop step
  rw [fresh.not_open] at isOpen
  cases isOpen

theorem Fresh.no_watch (fresh : sim.Fresh) (step : sim.step (.watch i) = some next) : False := by
  cases moves_of_step step with
  | watch waiting done =>
    rw [fresh.absent i] at waiting
    cases waiting

theorem isOpen_before (step : sim.step a = some next)
    (other : a.isStart = false) (isOpen : next.isOpen i = true) : sim.isOpen i = true := by
  rcases (moves_of_step step).isOpen_cases isOpen with old | ⟨⟨limit, rfl⟩, _⟩
  · exact old
  · cases other

theorem isOpen_after (step : sim.step a = some next)
    (other : a.isClose = false) (isOpen : sim.isOpen i = true) : next.isOpen i = true := by
  unfold Sim.isOpen at isOpen ⊢
  rcases (moves_of_step step).loop_cases i with ⟨_, _, rfl, own⟩ | ⟨limit, _, _, new⟩ | same | woken
  · exact own.stays_open other
  · rw [new]
    rfl
  · rw [same]
    exact isOpen
  · rw [woken, LoopPoint.isOpen_wake]
    exact isOpen

theorem done_of_step (step : sim.step a = some next)
    (other : a.isStart = false) : next.done = sim.done := by
  cases moves_of_step step with
  | start idle => cases other
  | _ => rfl

theorem tracked_of_start {limit : Limit W} (step : sim.step (.start limit) = some next)
    (closed : sim.AllClosed) : next.Tracked := by
  have opened := fun {i : Nat} => (moves_of_step step).isOpen_cases (j := i)
  cases moves_of_step step with
  | start idle =>
    constructor
    · intro i isOpen
      rcases opened isOpen with old | ⟨_, rfl⟩
      · rw [closed i] at old
        cases old
      · rfl
    · intro _
      refine ⟨sim.sessions, ?_⟩
      simp [Sim.isOpen, begun, LoopPoint.isOpen]

theorem Tracked.step (tracked : sim.Tracked)
    (step : sim.step a = some next) (notStart : a.isStart = false)
    (ended : a.isClose = true → sim.control.state.isGoing = false) : next.Tracked := by
  constructor
  · intro i isOpen
    rw [done_of_step step notStart]
    exact tracked.latest i (isOpen_before step notStart isOpen)
  · intro going
    have goingBefore : sim.control.state.isGoing = true := by
      by_contra still
      rw [Bool.not_eq_true] at still
      rw [not_going_of_step step notStart still] at going
      cases going
    obtain ⟨i, isOpen⟩ := tracked.going goingBefore
    refine ⟨i, isOpen_after step ?_ isOpen⟩
    by_contra closes
    rw [Bool.not_eq_false] at closes
    rw [ended closes] at goingBefore
    cases goingBefore

theorem state_of_watch (step : sim.step (.watch i) = some next)
    (still : sim.control.state.isGoing = false) : next.control.state = sim.control.state := by
  cases moves_of_step step with
  | watch waiting done => simp [State.halt, still]

theorem call_frame (step : sim.step a = some next) (call : a.isCall = true) :
    next.loops = sim.loops ∧ next.done = sim.done ∧ (next.control.state = sim.control.state ∨
        ∃ k msg, a = .leaveStep k ∧ sim.calls k = .stepped (.error msg)) := by
  cases moves_of_step step with
  | start idle | pause running | resume paused | stop going | cancelContext isOpen
  | loop moved | watch waiting done => cases call
  | @failStep k msg here =>
    exact ⟨rfl, rfl, .inr ⟨k, msg, rfl, here⟩⟩
  | _ => exact ⟨rfl, rfl, .inl rfl⟩

end Sim

end Simulator
