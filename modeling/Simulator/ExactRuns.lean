import Simulator.BoundedRuns

/-!
# Bounded runs end

Every move of a sequence of bounded runs lowers what is left to do.
-/

namespace Simulator

open Transition Function Finset LoopPoint

variable {W : Type} {E : Executor W}

namespace LoopPoint

variable {Frame : Type}

def rank : LoopPoint Frame → Nat
  | .stepped _ => 10
  | .begun => 9
  | .head => 8
  | .checked => 7
  | .limitReached => 6
  | .stepping _ => 5
  | .exiting _ => 4
  | .finalized _ => 3
  | .released _ => 2
  | .closed _ => 1
  | _ => 0

def frame? : LoopPoint Frame → Option Frame
  | .stepping frame => some frame
  | _ => none

theorem rank_of_isReleased {point : LoopPoint Frame}
    (released : point.isReleased = true) : (point.rank == 9) = false := by
  cases point with
  | released runErr | closed runErr => rfl
  | _ => cases released

end LoopPoint

def Executor.Shrinks (E : Executor W) (next current : Option E.Frame) : Prop :=
  ∃ after before, next = some after ∧ current = some before ∧
    ∃ w choice w', E.advance false w before choice = some (w', .inl after)

theorem Executor.Steady.wellFounded_shrinks {sound : E.Frame → Prop}
    (steady : E.Steady sound) : WellFounded E.Shrinks := by
  have ends : ∀ frame, Acc E.Shrinks (some frame) := by
    intro frame
    induction frame using steady.shrinks.induction with
    | h frame ih =>
      constructor
      rintro next ⟨after, old, rfl, eq, smaller⟩
      cases eq
      exact ih after smaller
  constructor
  intro cur
  cases cur with
  | none =>
    constructor
    rintro next ⟨after, old, -, eq, -⟩
    cases eq
  | some frame => exact ends frame

namespace Loop

/-- What a run of `n` steps has left to do. -/
def work (n : UInt64) (loop : Loop E) : Nat × Option E.Frame :=
  ((n.toNat - loop.log.executed) * 11 + loop.point.rank, loop.point.frame?)

def isAwaited (loop : Loop E) : Bool :=
  loop.watcher == .waiting || loop.point.rank == 9

end Loop

section

variable {sound : E.Frame → Prop} {n : UInt64} {i : Nat} {c c' : Control} {w w' : W}
  {loop loop' : Loop E} {action : LoopAction E} {woken : Bool}

theorem Loop.work_lt (eq : loop'.log.executed = loop.log.executed)
    (lower : loop'.point.rank < loop.point.rank) :
    Prod.Lex (· < ·) E.Shrinks (loop'.work n) (loop.work n) := by
  apply Prod.Lex.left
  simp only [eq]
  omega

theorem Loop.Counts.work_step (steady : E.Steady sound) (counts : loop.Counts sound n c)
    (moved : LoopMoves i c w loop action c' w' loop' woken) :
    Prod.Lex (· < ·) E.Shrinks (loop'.work n) (loop.work n) := by
  have exact := counts.exact
  cases moved with
  | advance here went =>
    rw [counts.notCancelled (by rw [here]; rfl)] at went
    simp only [work, here, rank, frame?]
    apply Prod.Lex.right
    exact ⟨_, _, rfl, rfl, _, _, _, went⟩
  | finish here went =>
    rw [here] at exact
    rw [counts.notCancelled (by rw [here]; rfl)] at went
    obtain rfl := steady.finish exact.2.2.2 went
    have below := exact.2.2.1
    apply Prod.Lex.left
    simp only [here, rank, if_true]
    omega
  | complete here =>
    rcases here with here | here
    · exact work_lt rfl (by simp [here, rank])
    · rw [here] at exact
      exact exact.elim
  | halt here | record here =>
    rw [here] at exact
    exact exact.elim
  | register here | park here | check here | leave here | reach here | enter here
  | limitPanic here | interrupt here | fail here | panic here | drain here | count here
  | finalizeError here | finalize here | release here | close here =>
    exact work_lt rfl (by simp [here, rank])

theorem LoopMoves.isAwaited_eq (moved : LoopMoves i c w loop action c' w' loop' woken) :
    loop'.isAwaited = loop.isAwaited := by
  cases moved with
  | complete here =>
    rcases here with here | here
    · simp [Loop.isAwaited, here, rank]
    · simp [Loop.isAwaited, here, rank]
  | _ => simp [Loop.isAwaited, *, rank]

end

namespace Sim

variable {sound : E.Frame → Prop} {ns : List UInt64} {sim next : Sim E} {action : Action E}

def budget (ns : List UInt64) (sim : Sim E) : Nat :=
  2 * (ns.length - sim.sessions) + ∑ i ∈ Finset.range sim.sessions, (sim.loops i).isAwaited.toNat

def remaining (ns : List UInt64) (sim : Sim E) : Nat × Nat × Option E.Frame :=
  (sim.budget ns, (sim.loops (sim.sessions - 1)).work (ns.getD (sim.sessions - 1) 0))

def Smaller (E : Executor W) : Nat × Nat × Option E.Frame → Nat × Nat × Option E.Frame → Prop :=
  Prod.Lex (· < ·) (Prod.Lex (· < ·) E.Shrinks)

namespace Counting

theorem remaining_start {n : UInt64} (given : ns[sim.sessions]? = some n)
    (moved : sim.Moves (.start (.atSteps n)) next) :
    Smaller E (next.remaining ns) (sim.remaining ns) := by
  cases moved with
  | start idle =>
    apply Prod.Lex.left
    have lt : sim.sessions < ns.length := (List.getElem?_eq_some_iff.mp given).1
    have kept : ∀ i ∈ range sim.sessions, ((update sim.loops sim.sessions (begun (.atSteps n)))
          i).isAwaited.toNat = (sim.loops i).isAwaited.toNat := by
      intro i prior
      have notNew : i ≠ sim.sessions := by
        have := mem_range.mp prior
        omega
      rw [update_of_ne notNew]
    have awaited : (begun (.atSteps n) : Loop E).isAwaited.toNat = 1 := rfl
    simp only [budget, sum_range_succ, update_self, sum_congr rfl kept, awaited]
    omega

variable {i : Nat}

theorem remaining_loop (steady : E.Steady sound)
    (counting : sim.Counting sound ns) {act : LoopAction E}
    {control : Control} {world : W} {loop : Loop E} {woken : Bool}
    (moved : LoopMoves i sim.control sim.world (sim.loops i) act control world loop woken) :
    Smaller E (({ sim with
        control := control
        world := world
        loops := update (sim.wakeAll woken) i loop } : Sim E).remaining ns) (sim.remaining ns) := by
  have last := counting.sessions_of_isOpen moved.isOpen
  obtain ⟨n, given, counts⟩ := counting.latest i last
  obtain rfl := counts.not_woken moved
  have others : sim.wakeAll false = sim.loops := rfl
  have kept : ∀ j ∈ range sim.sessions,
      (update sim.loops i loop j).isAwaited.toNat = (sim.loops j).isAwaited.toNat := by
    intro j _
    by_cases own : j = i
    · subst own
      rw [update_self, moved.isAwaited_eq]
    · rw [update_of_ne own]
  have latest : sim.sessions - 1 = i := by omega
  have number : ns.getD i 0 = n := by
    rw [List.getD_eq_getElem?_getD, given]
    rfl
  simp only [remaining, budget, others, latest, number, update_self, sum_congr rfl kept]
  exact Prod.Lex.right _ (counts.work_step steady moved)

theorem isReleased (counting : sim.Counting sound ns)
    (began : i < sim.sessions) (done : (sim.loops i).cancelled = true) :
    (sim.loops i).point.isReleased = true := by
  rcases Nat.lt_or_ge (i + 1) sim.sessions with old | atLast
  · obtain ⟨n, -, closed, -⟩ := counting.earlier i old
    rw [closed]
    rfl
  · obtain ⟨n, -, counts⟩ := counting.latest i (by omega)
    exact counts.live done

theorem remaining_watch (counting : sim.Counting sound ns)
    (inTurn : sim.RunsInTurn ns (.watch i)) (moved : sim.Moves (.watch i) next) :
    Smaller E (next.remaining ns) (sim.remaining ns) := by
  cases moved with
  | watch waiting done =>
    apply Prod.Lex.left
    have notGoing := counting.not_going inTurn done
    have others : sim.wakeAll false = sim.loops := rfl
    have began : i < sim.sessions := by
      by_contra later
      rw [counting.later i (by omega)] at waiting
      cases waiting
    have old : (sim.loops i).isAwaited = true := by
      simp [Loop.isAwaited, waiting]
    have after : ({ sim.loops i with watcher := .returned } : Loop E).isAwaited = false :=
      rank_of_isReleased (counting.isReleased began done)
    simp only [budget, notGoing, others]
    apply Nat.add_lt_add_left
    apply sum_lt_sum
    · intro j _
      by_cases own : j = i
      · subst own
        rw [update_self, after]
        exact Nat.zero_le _
      · rw [update_of_ne own]
    · refine ⟨i, mem_range.mpr began, ?_⟩
      rw [update_self, after, old]
      decide

theorem remaining_step (steady : E.Steady sound)
    (counting : sim.Counting sound ns) (inTurn : sim.RunsInTurn ns action)
    (moved : sim.Moves action next) : Smaller E (next.remaining ns) (sim.remaining ns) := by
  cases moved with
  | start idle =>
    obtain ⟨closed, n, given, rfl⟩ := inTurn
    exact remaining_start given (.start idle)
  | loop moved => exact counting.remaining_loop steady moved
  | watch waiting done =>
    exact counting.remaining_watch inTurn (.watch waiting done)
  | _ => exact inTurn.elim

end Counting

def InTurn (ns : List UInt64) (w : W) (sim : Sim E) : Prop :=
  Reachable step (RunsInTurn ns) (new w) sim

theorem InTurn.counting (steady : E.Steady sound) {w : W}
    (inTurn : sim.InTurn ns w) : sim.Counting sound ns := by
  apply Reachable.invariant (counting_new sound ns w) _ inTurn
  intro state action next counting ok step
  exact counting.step steady ok (moves_of_step step)

structure RunsExactly (ns : List UInt64) (sim : Sim E) : Prop where
  returned : ∀ i n runErr, ns[i]? = some n → (sim.loops i).point = .closed runErr →
    runErr = none ∧ (sim.loops i).log.executed = n.toNat ∧ (sim.sessions = i + 1 →
        sim.control.state = .completed ∧ sim.control.steps = n)
  moves : ∀ i, (sim.loops i).point.isOpen = true → ∃ act next, sim.step (.loop i act) = some next
  accepts : sim.AllClosed → ∀ limit, ∃ next, sim.step (.start limit) = some next

theorem Counting.runsExactly (steady : E.Steady sound)
    (counting : sim.Counting sound ns) : sim.RunsExactly ns where
  returned := by
    intro i n runErr given closed
    rcases Nat.lt_trichotomy (i + 1) sim.sessions with old | last | after
    · obtain ⟨m, known, point, all⟩ := counting.earlier i old
      rw [given] at known
      cases known
      rw [point] at closed
      cases closed
      exact ⟨rfl, all, fun eq => by omega⟩
    · obtain ⟨m, known, counts⟩ := counting.latest i last
      rw [given] at known
      cases known
      obtain ⟨point, all, ended⟩ := counts.closed (by rw [closed]; rfl)
      rw [point] at closed
      cases closed
      exact ⟨rfl, all, fun _ => ended⟩
    · rw [counting.later i (by omega)] at closed
      cases closed
  moves := fun _ opened => counting.exists_move steady opened
  accepts := fun closed limit => counting.exists_start closed limit

theorem wellFounded_inTurn (steady : E.Steady sound) (ns : List UInt64) (w : W) :
    WellFounded fun next sim : Sim E => sim.InTurn ns w ∧
      ∃ action, sim.RunsInTurn ns action ∧ sim.step action = some next := by
  have smaller : WellFounded (Smaller E) := WellFounded.prod_lex wellFounded_lt
      (WellFounded.prod_lex wellFounded_lt steady.wellFounded_shrinks)
  apply Subrelation.wf _ (InvImage.wf (remaining ns) smaller)
  rintro next sim ⟨inTurn, action, ok, step⟩
  exact (inTurn.counting steady).remaining_step steady ok (moves_of_step step)

end Sim

section

open Interleaving

variable {G : GoTypes} {M : Type}

theorem Sim.runN_exact {body : Process (World G × M) (Option StepFault)}
    (returns : body.Returns none) (ns : List UInt64) (w : World G × M) :
    (∀ sim : Sim (tickExecutor body), sim.InTurn ns w → sim.RunsExactly ns) ∧
    WellFounded fun next sim : Sim (tickExecutor body) =>
      sim.InTurn ns w ∧ ∃ action, sim.RunsInTurn ns action ∧ sim.step action = some next := by
  have steady := tickExecutor_steady returns
  refine ⟨fun sim inTurn => ?_, wellFounded_inTurn steady ns w⟩
  exact (inTurn.counting steady).runsExactly steady

end

theorem Sim.runN_exact_spawner :
    spawnStep.Returns none ∧
    ∀ sim : Sim spawner, sim.InTurn [1, 2] spawnerNew.world → sim.RunsExactly [1, 2] := by
  have returns : spawnStep.Returns none := fun _ => rfl
  exact ⟨returns, (Sim.runN_exact returns [1, 2] spawnerNew.world).1⟩

/-- `RunN(1)` returns; `RunN(1)` is called again; only then the watcher of the
first run finds its context done. -/
def lateWatcher : List (Action spawner) :=
  [.start (.atSteps 1), .loop 0 .register, .loop 0 .look, .loop 0 (.ask .no),
    .loop 0 (.advance ()), .loop 0 (.advance ()), .loop 0 .handle,
    .loop 0 .look, .loop 0 (.ask .yes), .loop 0 .settle, .loop 0 .finalize,
    .loop 0 .release, .loop 0 .close,
    .start (.atSteps 1), .watch 0, .loop 1 .register, .loop 1 .look,
    .loop 1 .finalize, .loop 1 .release, .loop 1 .close]

theorem Sim.lateWatcher_stops_run :
    ∃ sim : Sim spawner, run step (fun _ _ => true) lateWatcher spawnerNew = some sim ∧
      (sim.loops 0).point = .closed none ∧ (sim.loops 0).log.executed = 1 ∧
      (sim.loops 1).point = .closed none ∧ (sim.loops 1).log.executed = 0 ∧
      sim.control.steps = 0 ∧ sim.control.state = .stopped :=
  ⟨_, rfl, rfl, rfl, rfl, rfl, rfl, rfl⟩

end Simulator
