import Simulator.RuntimeMoves

/-!
# Activity in a simulation

Which moves open a session, pass a check, make the simulation run or change the world.
-/

namespace Simulator

open Function LoopPoint

variable {W : Type} {E : Executor W}

namespace LoopPoint

variable {Frame : Type}

@[simp]
theorem isOpen_wake (point : LoopPoint Frame) : point.wake.isOpen = point.isOpen := by
  cases point <;> rfl

@[simp]
theorem isActive_wake (point : LoopPoint Frame) : point.wake.isActive = point.isActive := by
  cases point <;> rfl

variable {point : LoopPoint Frame}

theorem isActive_of_isStepping (stepping : point.isStepping = true) : point.isActive = true := by
  cases point with
  | stepping frame => rfl
  | _ => cases stepping

theorem isOpen_of_isStepping (stepping : point.isStepping = true) : point.isOpen = true := by
  cases point with
  | stepping frame => rfl
  | _ => cases stepping

end LoopPoint

variable {call : Call E} {state : State}

theorem Call.inStep_of_isStepping (stepping : call.isStepping = true) : call.inStep = true := by
  cases call with
  | stepping frame => rfl
  | _ => cases stepping

theorem Call.touches_of_isRestoring
    (restoring : call.isRestoring = true) : call.touches = true := by
  cases call with
  | restoring writes => rfl
  | _ => cases restoring

theorem State.complete_eq_running : state.complete ≠ .running := by
  cases state <;> decide

theorem State.halt_ne_running : state.halt ≠ .running := by
  cases state <;> decide

namespace LoopMoves

variable {i : Nat} {c c' : Control} {w w' : W} {loop loop' : Loop E} {action : LoopAction E}
  {woken : Bool}

section

variable (moved : LoopMoves i c w loop action c' w' loop' woken)
include moved

theorem isOpen : loop.point.isOpen = true := by
  cases moved with
  | complete here =>
    rcases here with here | here <;> rw [here] <;> rfl
  | _ => simp only [*, LoopPoint.isOpen]

theorem isActive (active : loop'.point.isActive = true) :
    loop.point.isActive = true ∨ c.state = .running := by
  cases moved with
  | check here running => exact .inr running
  | enter here answer | advance here went => exact .inl (by rw [here]; rfl)
  | _ => cases active

theorem running (running : c'.state = .running) : c.state = .running := by
  cases moved with
  | complete here | finalize here => exact (State.complete_eq_running running).elim
  | halt here => exact (State.halt_ne_running running).elim
  | record here | finalizeError here => cases running
  | _ => exact running

theorem world_eq (idle : loop.point.isStepping = false) : w' = w := by
  cases moved with
  | advance here went | finish here went =>
    rw [here] at idle
    cases idle
  | _ => rfl

theorem limit_eq : loop'.limit = loop.limit := by
  cases moved <;> rfl

theorem isReleased (live : loop.cancelled = true → loop.point.isReleased = true)
    (done : loop'.cancelled = true) : loop'.point.isReleased = true := by
  cases moved with
  | release here | close here => rfl
  | complete here =>
    have released := live done
    rcases here with here | here
    · rw [here] at released
      cases released
    · rw [here] at released
      cases released
  | _ =>
    have released := live done
    simp_all [isReleased]

end

end LoopMoves

theorem Loop.not_cancelled {loop : Loop E}
    (live : loop.cancelled = true → loop.point.isReleased = true)
    (notReleased : loop.point.isReleased = false) : loop.cancelled = false := by
  by_contra done
  have released := live (by simpa using done)
  rw [notReleased] at released
  cases released

namespace Sim

@[simp]
theorem isOpen_wakeAll (sim : Sim E) (woken : Bool) (j : Nat) :
    (sim.wakeAll woken j).point.isOpen = (sim.loops j).point.isOpen := by
  cases woken <;> simp [wakeAll, Loop.wake]

def AllClosed (sim : Sim E) : Prop :=
  ∀ i, (sim.loops i).point.isOpen = false

def OneOpen (sim : Sim E) : Prop :=
  ∀ i j, (sim.loops i).point.isOpen = true → (sim.loops j).point.isOpen = true → i = j

theorem oneOpen_new (w : W) : (new w : Sim E).OneOpen := by
  intro i j opened
  cases opened

/-- What a move can do to the call of caller `k`. -/
inductive CallMoves (sim : Sim E) (action : Action E) (k : Nat) :
    Call E → Call E → Prop
  | step (called : action = .callStep k) (notRunning : sim.control.state ≠ .running) :
      CallMoves sim action k .idle .stepChecked
  | enter : CallMoves sim action k .stepChecked (.stepping (E.start sim.world))
  | advance {frame next : E.Frame} : CallMoves sim action k (.stepping frame) (.stepping next)
  | finish {frame : E.Frame} {outcome : StepOutcome} :
      CallMoves sim action k (.stepping frame) (.stepped outcome)
  | snapshot (called : action = .callSnapshot k) (notRunning : sim.control.state ≠ .running) :
      CallMoves sim action k .idle (.snapshotting [])
  | read {seen : List W} : CallMoves sim action k (.snapshotting seen)
        (.snapshotting (sim.world :: seen))
  | restore {writes : List (W → W)} (called : action = .callRestore k writes)
      (notRunning : sim.control.state ≠ .running) : CallMoves sim action k .idle (.restoring writes)
  | write {write : W → W} {rest : List (W → W)} :
      CallMoves sim action k (.restoring (write :: rest)) (.restoring rest)
  | leave {call : Call E} : CallMoves sim action k call .idle

namespace Moves

variable {sim next : Sim E} {action : Action E} {j : Nat}

section

variable (moved : sim.Moves action next)
include moved

theorem isOpen_cases
    (opened : (next.loops j).point.isOpen = true) : (sim.loops j).point.isOpen = true ∨
      (∃ limit, action = .start limit) ∧ j = sim.sessions := by
  rcases moved.loop_cases j with ⟨_, _, _, own⟩ | ⟨limit, started, new, _⟩ | eq | woken
  · exact .inl own.isOpen
  · exact .inr ⟨⟨limit, started⟩, new⟩
  · exact .inl (eq ▸ opened)
  · rw [woken, isOpen_wake] at opened
    exact .inl opened

theorem oneOpen (one : sim.OneOpen) (apart : ∀ limit, action = .start limit → sim.AllClosed) :
    next.OneOpen := by
  intro i j openI openJ
  rcases moved.isOpen_cases openI with oldI | ⟨⟨limit, started⟩, newI⟩
  · rcases moved.isOpen_cases openJ with oldJ | ⟨⟨limit, started⟩, newJ⟩
    · exact one i j oldI oldJ
    · rw [apart limit started i] at oldI
      cases oldI
  · rcases moved.isOpen_cases openJ with oldJ | ⟨-, newJ⟩
    · rw [apart limit started j] at oldJ
      cases oldJ
    · rw [newI, newJ]

theorem isActive_cases (active : (next.loops j).point.isActive = true) :
    (sim.loops j).point.isActive = true ∨ sim.control.state = .running := by
  rcases moved.loop_cases j with ⟨_, _, _, own⟩ | ⟨limit, _, _, new⟩ | eq | woken
  · exact own.isActive active
  · rw [new] at active
    cases active
  · exact .inl (eq ▸ active)
  · rw [woken, isActive_wake] at active
    exact .inl active

theorem running_cases (running : next.control.state = .running) :
    sim.control.state = .running ∨ (∃ limit, action = .start limit) ∨ action = .resume := by
  cases moved with
  | start idle => exact .inr (.inl ⟨_, rfl⟩)
  | resume paused => exact .inr (.inr rfl)
  | pause | stop | failStep here => cases running
  | loop moved => exact .inl (moved.running running)
  | watch waiting done => exact (State.halt_ne_running running).elim
  | _ => exact .inl running

theorem calls_cases (j : Nat) :
    next.calls j = sim.calls j ∨ CallMoves sim action j (sim.calls j) (next.calls j) := by
  have own : ∀ {k : Nat} {call : Call E}, CallMoves sim action k (sim.calls k) call →
      update sim.calls k call j = sim.calls j ∨ CallMoves sim action j (sim.calls j)
          (update sim.calls k call j) := by
    intro k call made
    by_cases eq : j = k
    · subst eq
      right
      rwa [update_self]
    · left
      rw [update_of_ne eq]
  cases moved with
  | callStep free idle => exact own (free ▸ .step rfl idle)
  | enterStep here => exact own (here ▸ .enter)
  | advanceStep here went => exact own (here ▸ .advance)
  | finishStep here went => exact own (here ▸ .finish)
  | callSnapshot free idle => exact own (free ▸ .snapshot rfl idle)
  | readWorld here => exact own (here ▸ .read)
  | callRestore free idle => exact own (free ▸ .restore rfl idle)
  | writeWorld here => exact own (here ▸ .write)
  | failStep here | countStep here | panicStep here | leaveSnapshot here | leaveRestore here =>
    exact own .leave
  | _ => exact .inl rfl

theorem inStep_cases (inStep : (next.calls j).inStep = true) : (sim.calls j).inStep = true ∨
      action = .callStep j ∧ sim.control.state ≠ .running := by
  rcases moved.calls_cases j with eq | made
  · exact .inl (eq ▸ inStep)
  · generalize sim.calls j = old at made ⊢
    generalize next.calls j = after at made inStep
    cases made with
    | step called idle => exact .inr ⟨called, idle⟩
    | enter | advance => exact .inl rfl
    | _ => cases inStep

theorem touches_cases (touches : (next.calls j).touches = true) :
    (sim.calls j).touches = true ∨ sim.control.state ≠ .running ∧ (action = .callSnapshot j ∨
        ∃ writes, action = .callRestore j writes) := by
  rcases moved.calls_cases j with eq | made
  · exact .inl (eq ▸ touches)
  · generalize sim.calls j = old at made ⊢
    generalize next.calls j = after at made touches
    cases made with
    | snapshot called idle => exact .inr ⟨idle, .inl called⟩
    | restore called idle => exact .inr ⟨idle, .inr ⟨_, called⟩⟩
    | read | write => exact .inl rfl
    | _ => cases touches

theorem isRestoring_cases
    (restoring : (next.calls j).isRestoring = true) : (sim.calls j).isRestoring = true ∨
      ∃ writes, action = .callRestore j writes := by
  rcases moved.calls_cases j with eq | made
  · exact .inl (eq ▸ restoring)
  · generalize sim.calls j = old at made ⊢
    generalize next.calls j = after at made restoring
    cases made with
    | restore called idle => exact .inr ⟨_, called⟩
    | write => exact .inl rfl
    | _ => cases restoring

theorem seen_cases {seen : List W} (snapshotting : next.calls j = .snapshotting seen) :
    sim.calls j = .snapshotting seen ∨ seen = [] ∨ ∃ old, sim.calls j = .snapshotting old ∧
        seen = sim.world :: old := by
  rcases moved.calls_cases j with eq | made
  · exact .inl (eq ▸ snapshotting)
  · rw [snapshotting] at made
    generalize sim.calls j = old at made ⊢
    cases made with
    | snapshot called idle => exact .inr (.inl rfl)
    | read => exact .inr (.inr ⟨_, rfl, rfl⟩)

theorem world_cases :
    next.world = sim.world ∨ (∃ i, (sim.loops i).point.isStepping = true) ∨
      (∃ k, (sim.calls k).isStepping = true) ∨ ∃ k, (sim.calls k).isRestoring = true := by
  cases moved with
  | @loop i _ _ _ _ _ moved =>
    cases steps : (sim.loops i).point.isStepping with
    | false => exact .inl (moved.world_eq steps)
    | true => exact .inr (.inl ⟨i, steps⟩)
  | advanceStep here | finishStep here => exact .inr (.inr (.inl ⟨_, by rw [here]; rfl⟩))
  | writeWorld here => exact .inr (.inr (.inr ⟨_, by rw [here]; rfl⟩))
  | _ => exact .inl rfl

end

end Moves

end Sim

end Simulator
