import Simulator.Executors
import Simulator.RuntimeActivity
import Simulator.TransitionRuns

/-!
# Runs of a given number of steps

Calls of `RunN` one after another, with steps that never fail.  Only the watcher of an
earlier run may get in the way.
-/

namespace Simulator

open Transition Function UInt64

variable {W : Type} {E : Executor W}

/-- On a live context the steps of the executor go on until they return that
there is more to do.  `sound` holds of the frames that occur. -/
structure Executor.Steady (E : Executor W) (sound : E.Frame → Prop) :
    Prop where
  start : ∀ w, sound (E.start w)
  advance : ∀ {w w' frame next choice}, sound frame →
    E.advance false w frame choice = some (w', .inl next) → sound next
  finish : ∀ {w w' frame outcome choice}, sound frame →
    E.advance false w frame choice = some (w', .inr outcome) → outcome = .returned true
  live : ∀ w frame, sound frame → ∃ choice, (E.advance false w frame choice).isSome = true
  shrinks : WellFounded fun next frame => ∃ w choice w',
    E.advance false w frame choice = some (w', .inl next)

section

open Interleaving

variable {G : GoTypes} {M : Type}

theorem tickExecutor_steady {body : Process (World G × M) (Option StepFault)}
    (returns : body.Returns none) : (tickExecutor body).Steady fun frame => frame.Returns none where
  start := fun _ => returns
  advance := by
    rintro ⟨w, model⟩ w' frame next choice sound went
    cases frame with
    | act effect rest =>
      cases went
      exact sound _
    | halt fault => cases fault <;> cases went
  finish := by
    rintro ⟨w, model⟩ w' frame out choice sound went
    cases frame with
    | act effect rest => cases went
    | halt fault =>
      cases sound
      cases went
      rfl
  live := by
    rintro ⟨w, model⟩ frame sound
    refine ⟨(), ?_⟩
    cases frame with
    | act effect rest => rfl
    | halt fault => cases fault <;> rfl
  shrinks := by
    constructor
    intro frame
    induction frame with
    | halt fault =>
      constructor
      rintro next ⟨⟨w, model⟩, choice, w', went⟩
      cases fault <;> cases went
    | act effect rest ih =>
      constructor
      rintro next ⟨⟨w, model⟩, choice, w', went⟩
      cases went
      exact ih _

end

namespace Limit

variable {n steps : UInt64} {w : W}

theorem atSteps_yes (answer : (atSteps n).may w steps .yes = true) : n.toNat ≤ steps.toNat := by
  have reached : n ≤ steps := by
    by_contra below
    simp [atSteps, below] at answer
  exact le_iff_toNat_le.mp reached

theorem atSteps_no (answer : (atSteps n).may w steps .no = true) : steps.toNat < n.toNat := by
  have below : ¬ n ≤ steps := by
    intro reached
    simp [atSteps, reached] at answer
  rw [le_iff_toNat_le] at below
  omega

theorem atSteps_panics {msg : String}
    (answer : (atSteps n).may w steps (.panics msg) = true) : False := by
  by_cases reached : n ≤ steps
  · simp [atSteps, reached] at answer
  · simp [atSteps, reached] at answer

theorem may_yes_atSteps (reached : n.toNat ≤ steps.toNat) :
    (atSteps n).may w steps .yes = true := by
  have le : n ≤ steps := le_iff_toNat_le.mpr reached
  simp [atSteps, le]

theorem may_no_atSteps (below : steps.toNat < n.toNat) : (atSteps n).may w steps .no = true := by
  have notReached : ¬ n ≤ steps := by
    rw [le_iff_toNat_le]
    omega
  simp [atSteps, notReached]

end Limit

/-- What holds of a run of `n` steps at each point of its loop, with the
lifecycle state, the step counter and the number of executed steps. -/
def LoopPoint.Exact {Frame : Type} (sound : Frame → Prop) (n : UInt64)
    (state : State) (steps : UInt64) (executed : Nat) :
    LoopPoint Frame → Prop
  | .begun | .head | .checked =>
    state = .running ∧ steps.toNat = executed ∧ executed ≤ n.toNat
  | .limitReached =>
    state = .running ∧ steps.toNat = executed ∧ executed = n.toNat
  | .stepping frame =>
    state = .running ∧ steps.toNat = executed ∧ executed < n.toNat ∧ sound frame
  | .stepped outcome =>
    outcome = .returned true ∧ state = .running ∧ steps.toNat + 1 = executed ∧ executed ≤ n.toNat
  | .exiting none | .finalized none | .released none | .closed none =>
    state = .completed ∧ steps.toNat = executed ∧ executed = n.toNat
  | _ => False

structure Loop.Counts (sound : E.Frame → Prop) (n : UInt64) (c : Control)
    (loop : Loop E) : Prop where
  limit : loop.limit = .atSteps n
  exact : loop.point.Exact sound n c.state c.steps loop.log.executed
  live : loop.cancelled = true → loop.point.isReleased = true

theorem toNat_steps_succ {steps n : UInt64} (below : steps.toNat + 1 ≤ n.toNat) :
    (steps + 1).toNat = steps.toNat + 1 := by
  have bound := n.toNat_lt
  rw [UInt64.toNat_add]
  exact Nat.mod_eq_of_lt (by
    have one : toNat 1 = 1 := rfl
    omega)

namespace Loop.Counts

variable {sound : E.Frame → Prop} {n : UInt64} {i : Nat} {c c' : Control} {w w' : W}
  {loop loop' : Loop E} {act : LoopAction E} {woken : Bool}

theorem notCancelled (counts : loop.Counts sound n c)
    (notReleased : loop.point.isReleased = false) : loop.cancelled = false :=
  loop.not_cancelled counts.live notReleased

section

variable (steady : E.Steady sound) (counts : loop.Counts sound n c)
  (moved : LoopMoves i c w loop act c' w' loop' woken)
include steady counts moved

theorem exact_step :
    loop'.point.Exact sound n c'.state c'.steps loop'.log.executed := by
  have exact := counts.exact
  cases moved with
  | register here | check here running =>
    rw [here] at exact
    exact exact
  | park here paused =>
    rw [here, paused] at exact
    cases exact.1
  | leave here notPaused idle =>
    rw [here] at exact
    exact (idle exact.1).elim
  | reach here answer =>
    rw [here] at exact
    rw [counts.limit] at answer
    have reached := Limit.atSteps_yes answer
    obtain ⟨running, counted, bound⟩ := exact
    have all : loop.log.executed = n.toNat := by omega
    exact ⟨running, counted, all⟩
  | enter here answer =>
    rw [here] at exact
    rw [counts.limit] at answer
    have below := Limit.atSteps_no answer
    exact ⟨exact.1, exact.2.1, exact.2.1 ▸ below, steady.start w⟩
  | limitPanic here answer =>
    rw [counts.limit] at answer
    exact (Limit.atSteps_panics answer).elim
  | advance here went =>
    rw [here] at exact
    rw [counts.notCancelled (by rw [here]; rfl)] at went
    exact ⟨exact.1, exact.2.1, exact.2.2.1, steady.advance exact.2.2.2 went⟩
  | finish here went =>
    rw [here] at exact
    rw [counts.notCancelled (by rw [here]; rfl)] at went
    obtain rfl := steady.finish exact.2.2.2 went
    have below := exact.2.2.1
    have counted := exact.2.1
    refine ⟨rfl, exact.1, ?_, ?_⟩
    · simp only [if_true]
      omega
    · simp only [if_true]
      omega
  | interrupt here | fail here | panic here | drain here =>
    rw [here] at exact
    cases exact.1
  | count here =>
    rw [here] at exact
    obtain ⟨-, running, counted, bound⟩ := exact
    refine ⟨running, ?_, bound⟩
    rw [← counted]
    exact toNat_steps_succ (counted ▸ bound)
  | complete here =>
    rcases here with here | here
    · rw [here] at exact
      exact ⟨by rw [exact.1]; rfl, exact.2⟩
    · rw [here] at exact
      exact exact.elim
  | halt here | record here | finalizeError here =>
    rw [here] at exact
    exact exact.elim
  | finalize here =>
    rw [here] at exact
    exact ⟨by rw [exact.1]; rfl, exact.2⟩
  | @release runErr here | @close runErr here =>
    rw [here] at exact
    cases runErr with
    | none => exact exact
    | some msg => exact exact.elim

theorem step :
    loop'.Counts sound n c' where
  limit := moved.limit_eq.trans counts.limit
  exact := exact_step steady counts moved
  live := moved.isReleased counts.live

end

section

variable (counts : loop.Counts sound n c)
include counts

theorem not_woken (moved : LoopMoves i c w loop act c' w' loop' woken) : woken = false := by
  have exact := counts.exact
  cases moved with
  | halt here | record here | finalizeError here =>
    rw [here] at exact
    exact exact.elim
  | _ => rfl

theorem completed_of_exit {runErr : Option String}
    (exited : loop.point = .exiting runErr ∨ loop.point = .finalized runErr ∨
      loop.point = .released runErr ∨ loop.point = .closed runErr) :
    runErr = none ∧ c.state = .completed := by
  have exact := counts.exact
  rcases exited with here | here | here | here <;>
  · rw [here] at exact
    cases runErr with
    | none => exact ⟨rfl, exact.1⟩
    | some msg => exact exact.elim

theorem state_eq :
    c.state = .running ∧ loop.point.isReleased = false ∨ c.state = .completed := by
  have exact := counts.exact
  cases point : loop.point with
  | begun | head | checked | limitReached | stepping frame => exact .inl ⟨(point ▸ exact).1, rfl⟩
  | stepped out => exact .inl ⟨(point ▸ exact).2.1, rfl⟩
  | exiting runErr =>
    exact .inr (counts.completed_of_exit (.inl point)).2
  | finalized runErr =>
    exact .inr (counts.completed_of_exit (.inr (.inl point))).2
  | released runErr =>
    exact .inr (counts.completed_of_exit (.inr (.inr (.inl point)))).2
  | closed runErr =>
    exact .inr (counts.completed_of_exit (.inr (.inr (.inr point)))).2
  | _ =>
    rw [point] at exact
    exact exact.elim

theorem closed (closed : loop.point.isOpen = false) :
    loop.point = .closed none ∧ loop.log.executed = n.toNat ∧
      c.state = .completed ∧ c.steps = n := by
  have exact := counts.exact
  cases point : loop.point with
  | closed runErr =>
    obtain ⟨rfl, done⟩ := counts.completed_of_exit (.inr (.inr (.inr point)))
    rw [point] at exact
    obtain ⟨_, counted, all⟩ := exact
    exact ⟨rfl, all, done, UInt64.toNat_inj.mp (counted.trans all)⟩
  | absent =>
    rw [point] at exact
    exact exact.elim
  | _ =>
    rw [point] at closed
    cases closed

end

end Loop.Counts

namespace Sim

/-- `RunN` is called with the numbers of the list, each call after the one
before returned; only loops and watchers move besides, and no watcher of a
closed session finds the simulation running. -/
def RunsInTurn (ns : List UInt64) (sim : Sim E) : Action E → Prop
  | .start limit => sim.AllClosed ∧ ∃ n, ns[sim.sessions]? = some n ∧ limit = .atSteps n
  | .loop _ _ => True
  | .watch i => (sim.loops i).point.isOpen = true ∨ sim.control.state ≠ .running
  | _ => False

structure Counting (sound : E.Frame → Prop) (ns : List UInt64)
    (sim : Sim E) : Prop where
  idle : sim.sessions = 0 → sim.control.state = .idle
  earlier : ∀ i, i + 1 < sim.sessions → ∃ n, ns[i]? = some n ∧ (sim.loops i).point = .closed none ∧
    (sim.loops i).log.executed = n.toNat
  latest : ∀ i, i + 1 = sim.sessions → ∃ n, ns[i]? = some n ∧
    (sim.loops i).Counts sound n sim.control
  later : ∀ i, sim.sessions ≤ i → sim.loops i = .absent

theorem counting_new (sound : E.Frame → Prop) (ns : List UInt64) (w : W) :
    (new w).Counting sound ns where
  idle := fun _ => rfl
  earlier := by
    intro i old
    cases old
  latest := by
    intro i last
    cases last
  later := fun _ _ => rfl

namespace Counting

variable {sound : E.Frame → Prop} {ns : List UInt64} {sim next : Sim E} {act : Action E} {i : Nat}

theorem sessions_of_isOpen (counting : sim.Counting sound ns)
    (opened : (sim.loops i).point.isOpen = true) : i + 1 = sim.sessions := by
  rcases Nat.lt_trichotomy (i + 1) sim.sessions with old | last | after
  · obtain ⟨n, -, closed, -⟩ := counting.earlier i old
    rw [closed] at opened
    cases opened
  · exact last
  · rw [counting.later i (by omega)] at opened
    cases opened

theorem not_going (counting : sim.Counting sound ns)
    (inTurn : sim.RunsInTurn ns (.watch i)) (done : (sim.loops i).cancelled = true) :
    sim.control.state.isGoing = false := by
  cases sessions : sim.sessions with
  | zero =>
    rw [counting.idle sessions]
    rfl
  | succ last =>
    obtain ⟨n, -, counts⟩ := counting.latest last sessions.symm
    rcases counts.state_eq with ⟨running, notReleased⟩ | completed
    · rcases inTurn with opened | idle
      · have own : i = last := by
          have := counting.sessions_of_isOpen opened
          omega
        subst own
        rw [counts.notCancelled notReleased] at done
        cases done
      · exact (idle running).elim
    · rw [completed]
      rfl

theorem step_start (counting : sim.Counting sound ns) {n : UInt64}
    (closed : sim.AllClosed) (given : ns[sim.sessions]? = some n)
    (moved : sim.Moves (.start (.atSteps n)) next) : next.Counting sound ns := by
  cases moved with
  | start idle =>
    refine ⟨nofun, fun i old => ?_, fun i last => ?_, fun i after => ?_⟩
    · have notNew : i ≠ sim.sessions := by
        simp only at old
        omega
      simp only [update_of_ne notNew]
      rcases Nat.lt_or_ge (i + 1) sim.sessions with prior | atLast
      · exact counting.earlier i prior
      · obtain ⟨m, known, counts⟩ := counting.latest i (by
          simp only at old
          omega)
        obtain ⟨point, all, -⟩ := counts.closed (closed i)
        exact ⟨m, known, point, all⟩
    · have new : i = sim.sessions := by
        simp only at last
        omega
      subst new
      refine ⟨n, given, ?_⟩
      simp only [update_self]
      exact ⟨rfl, ⟨rfl, rfl, Nat.zero_le _⟩, nofun⟩
    · have notNew : i ≠ sim.sessions := by
        simp only at after
        omega
      simp only [update_of_ne notNew]
      exact counting.later i (by
        simp only at after
        omega)

theorem step_loop (steady : E.Steady sound) (counting : sim.Counting sound ns)
    {act : LoopAction E} {control : Control} {world : W} {loop : Loop E} {woken : Bool}
    (moved : LoopMoves i sim.control sim.world (sim.loops i) act control world loop woken) :
    ({ sim with
      control := control
      world := world
      loops := update (sim.wakeAll woken) i loop } : Sim E).Counting
        sound ns := by
  have last := counting.sessions_of_isOpen moved.isOpen
  obtain ⟨n, given, counts⟩ := counting.latest i last
  obtain rfl := counts.not_woken moved
  have others : sim.wakeAll false = sim.loops := rfl
  rw [others]
  refine ⟨fun none => ?_, fun j old => ?_, fun j eq => ?_, fun j after => ?_⟩
  · simp only at none
    omega
  · have notOwn : j ≠ i := by
      simp only at old
      omega
    simp only [update_of_ne notOwn]
    exact counting.earlier j old
  · have own : j = i := by
      simp only at eq
      omega
    subst own
    simp only [update_self]
    exact ⟨n, given, counts.step steady moved⟩
  · have notOwn : j ≠ i := by
      simp only at after
      omega
    simp only [update_of_ne notOwn]
    exact counting.later j after

theorem step_watch (counting : sim.Counting sound ns) (inTurn : sim.RunsInTurn ns (.watch i))
    (moved : sim.Moves (.watch i) next) : next.Counting sound ns := by
  cases moved with
  | watch waiting done =>
    have notGoing := counting.not_going inTurn done
    have kept : sim.control.state.halt = sim.control.state := by
      simp [State.halt, notGoing]
    have others : sim.wakeAll false = sim.loops := rfl
    rw [kept, notGoing, others]
    -- the record of the watcher is all that changes
    have same : ∀ j, ∃ watcher, update sim.loops i
          { sim.loops i with watcher := .returned } j =
            { sim.loops j with watcher := watcher } := by
      intro j
      by_cases own : j = i
      · subst own
        exact ⟨.returned, by simp⟩
      · exact ⟨(sim.loops j).watcher, by
          simp [update_of_ne own]⟩
    refine ⟨counting.idle, fun j old => ?_, fun j last => ?_, fun j after => ?_⟩
    · obtain ⟨watcher, eq⟩ := same j
      simp only [eq]
      exact counting.earlier j old
    · obtain ⟨watcher, eq⟩ := same j
      simp only [eq]
      obtain ⟨n, given, counts⟩ := counting.latest j last
      exact ⟨n, given, counts.limit, counts.exact, counts.live⟩
    · have notOwn : j ≠ i := by
        rintro rfl
        rw [counting.later j after] at waiting
        cases waiting
      simp only [update_of_ne notOwn]
      exact counting.later j after

theorem step (steady : E.Steady sound) (counting : sim.Counting sound ns)
    (inTurn : sim.RunsInTurn ns act) (moved : sim.Moves act next) :
    next.Counting sound ns := by
  cases moved with
  | start idle =>
    obtain ⟨closed, n, given, rfl⟩ := inTurn
    exact counting.step_start closed given (.start idle)
  | loop moved => exact counting.step_loop steady moved
  | watch waiting done => exact counting.step_watch inTurn (.watch waiting done)
  | _ => exact inTurn.elim

theorem exists_move (steady : E.Steady sound) (counting : sim.Counting sound ns)
    (opened : (sim.loops i).point.isOpen = true) :
    ∃ act next, sim.step (.loop i act) = some next := by
  obtain ⟨n, -, counts⟩ := counting.latest i (counting.sessions_of_isOpen opened)
  have exact := counts.exact
  suffices moves : ∃ act, ((sim.loops i).step i sim.control sim.world act).isSome = true by
    obtain ⟨act, moves⟩ := moves
    obtain ⟨res, moved⟩ := Option.isSome_iff_exists.mp moves
    exact ⟨act, _, by rw [Sim.step, loopStep, moved]; rfl⟩
  cases point : (sim.loops i).point with
  | absent | closed runErr =>
    rw [point] at opened
    cases opened
  | begun => exact ⟨.register, by simp [Loop.step, point]⟩
  | head =>
    rw [point] at exact
    exact ⟨.look, by simp [Loop.step, point, exact.1]⟩
  | checked =>
    obtain ⟨answer, may⟩ := (sim.loops i).limit.answers sim.world sim.control.steps
    refine ⟨.ask answer, ?_⟩
    cases answer <;> simp [Loop.step, point, may]
  | limitReached => exact ⟨.settle, by simp [Loop.step, point]⟩
  | stepping frame =>
    rw [point] at exact
    obtain ⟨choice, lives⟩ := steady.live sim.world frame exact.2.2.2
    obtain ⟨⟨w, res⟩, went⟩ := Option.isSome_iff_exists.mp lives
    have live := counts.notCancelled (by rw [point]; rfl)
    refine ⟨.advance choice, ?_⟩
    cases res <;> simp [Loop.step, point, live, went]
  | stepped out =>
    rw [point] at exact
    obtain rfl := exact.1
    exact ⟨.handle, by simp [Loop.step, point]⟩
  | exiting runErr =>
    refine ⟨.finalize, ?_⟩
    cases runErr <;> simp [Loop.step, point]
  | finalized runErr => exact ⟨.release, by simp [Loop.step, point]⟩
  | released runErr => exact ⟨.close, by simp [Loop.step, point]⟩
  | _ =>
    rw [point] at exact
    exact exact.elim

theorem exists_start (counting : sim.Counting sound ns) (closed : sim.AllClosed) (limit : Limit W) :
    ∃ next, sim.step (.start limit) = some next := by
  have idle : sim.control.state ≠ .running := by
    cases sessions : sim.sessions with
    | zero =>
      rw [counting.idle sessions]
      decide
    | succ last =>
      obtain ⟨n, -, counts⟩ := counting.latest last sessions.symm
      rw [(counts.closed (closed last)).2.2.1]
      decide
  exact ⟨_, by rw [Sim.step, begin, if_neg idle]; rfl⟩

end Counting

end Sim

end Simulator
