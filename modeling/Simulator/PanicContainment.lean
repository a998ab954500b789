import Simulator.ShardCalls
import Simulator.TickAtomicity

/-!
# Panics of model code

The loop of a run recovers from panics of its own goroutine, a shard goroutine from
nothing.
-/

namespace Simulator

open Transition Interleaving List SchedulerMove

variable {W : Type} {E : Executor W}

def unwinding {Frame : Type} (detail : String) : Nat → LoopPoint Frame
  | 0 => .closed (some (panicText detail))
  | 1 => .released (some (panicText detail))
  | 2 => .finalized (some (panicText detail))
  | 3 => .exiting (some (panicText detail))
  | _ => .stepped (.panicked detail)

theorem LoopMoves.unwinding {i : Nat} {c c' : Control} {w w' : W} {loop loop' : Loop E}
    {act : LoopAction E} {woken : Bool} (moved : LoopMoves i c w loop act c' w' loop' woken)
    {msg : String} {left : Nat} (bound : left ≤ 4)
    (here : loop.point = Simulator.unwinding msg left) :
    ∃ fewer, left = fewer + 1 ∧ loop'.point = Simulator.unwinding msg fewer ∧
      (fewer = 2 → c'.state = .failed ∧ c'.err = some (panicText msg)) := by
  match left with
  | 0 =>
    have opened := moved.isOpen
    rw [here] at opened
    cases opened
  | 1 =>
    cases moved with
    | close own =>
      cases here.symm.trans own
      exact ⟨0, rfl, rfl, nofun⟩
    | _ => simp_all [Simulator.unwinding]
  | 2 =>
    cases moved with
    | release own =>
      cases here.symm.trans own
      exact ⟨1, rfl, rfl, nofun⟩
    | _ => simp_all [Simulator.unwinding]
  | 3 =>
    cases moved with
    | finalizeError own =>
      cases here.symm.trans own
      exact ⟨2, rfl, rfl, fun _ => ⟨rfl, rfl⟩⟩
    | _ => simp_all [Simulator.unwinding]
  | 4 =>
    cases moved with
    | panic own =>
      cases here.symm.trans own
      exact ⟨3, rfl, rfl, nofun⟩
    | _ => simp_all [Simulator.unwinding]

namespace Sim

/-- The panics of model code in the steps of runs are contained; `raises` tells
with which panic a choice goes on.  The panic ends the step with its outcome,
and from there the loop can make its moves to the closed channel, which no other
move takes it away from.  The finalizer leaves the simulation failed. -/
structure Contains (raises : W → E.Frame → E.Choice → String → Prop) (sim : Sim E) : Prop where
  caught : ∀ j frame choice detail, (sim.loops j).point = .stepping frame →
    raises sim.world frame choice detail →
    ∃ next, sim.step (.loop j (.advance choice)) = some next ∧
      (next.loops j).point = unwinding detail 4
  goesOn : ∀ j detail, ∀ left < 4, (sim.loops j).point = unwinding detail (left + 1) →
    ∃ own next, sim.step (.loop j own) = some next ∧ (next.loops j).point = unwinding detail left
  kept : ∀ j detail, ∀ left ≤ 4, (sim.loops j).point = unwinding detail left →
    ∀ action next, sim.step action = some next → (next.loops j).point = unwinding detail left ∨
      ∃ fewer, left = fewer + 1 ∧ (next.loops j).point = unwinding detail fewer ∧
        (fewer = 2 → next.control.state = .failed ∧ next.control.err = some (panicText detail))

def Unbegun (sim : Sim E) : Prop :=
  ∀ j, sim.sessions ≤ j → (sim.loops j).point = .absent

theorem Moves.sessions_cases {sim next : Sim E} {act : Action E} (moved : sim.Moves act next) :
    next.sessions = sim.sessions ∨
      (∃ limit, act = .start limit) ∧ next.sessions = sim.sessions + 1 := by
  cases moved with
  | start idle => exact .inr ⟨⟨_, rfl⟩, rfl⟩
  | _ => exact .inl rfl

theorem Unbegun.step {sim next : Sim E} {act : Action E} (unbegun : sim.Unbegun)
    (moved : sim.Moves act next) : next.Unbegun := by
  intro j later
  have old : sim.sessions ≤ j := by
    rcases moved.sessions_cases with eq | ⟨_, more⟩ <;> omega
  have absent := unbegun j old
  rcases moved.loop_cases j with ⟨_, _, _, own⟩ | ⟨limit, rfl, new, _⟩ | eq | woken
  · have opened := own.isOpen
    rw [absent] at opened
    cases opened
  · cases moved
    change sim.sessions + 1 ≤ j at later
    omega
  · rw [eq, absent]
  · rw [woken, absent]
    rfl

theorem unbegun_of_reachable {ok : Sim E → Action E → Prop} {w : W} {sim : Sim E}
    (reachable : Reachable step ok (new w) sim) : sim.Unbegun := by
  apply reachable.invariant (fun _ _ => rfl)
  intro state act next unbegun _ stepped
  exact unbegun.step (moves_of_step stepped)

theorem frames_step {sound : E.Frame → Prop} (starts : ∀ w, sound (E.start w))
    {sim next : Sim E} {act : Action E} (moved : sim.Moves act next)
    (sounds : ∀ j frame, (sim.loops j).point = .stepping frame → sound frame)
    (advances : ∀ j choice frame later w, act = .loop j (.advance choice) →
      (sim.loops j).point = .stepping frame →
      E.advance (sim.loops j).cancelled sim.world frame choice = some (w, .inl later) →
      sound later) : ∀ j frame, (next.loops j).point = .stepping frame → sound frame := by
  intro j frame here
  rcases moved.loop_cases j with ⟨_, _, rfl, own⟩ | ⟨limit, _, _, new⟩ | eq | woken
  · rcases own.stepping_cases with ⟨_, _, idle | entered⟩ |
      ⟨before, choice, result, rfl, point, advanced, ⟨later, rfl, after⟩ | ⟨_, _, after⟩⟩
    · rw [here] at idle
      cases idle
    · cases here.symm.trans entered
      exact starts _
    · cases here.symm.trans after
      exact advances j choice before frame _ rfl point advanced
    · cases here.symm.trans after
  · rw [new] at here
    cases here
  · exact sounds j frame (eq ▸ here)
  · rw [woken, LoopPoint.wake_eq_stepping] at here
    exact sounds j frame here

theorem caught_of_advance {sim : Sim E} {j : Nat} {frame : E.Frame} {choice : E.Choice} {w : W}
    {msg : String} (here : (sim.loops j).point = .stepping frame)
    (went : E.advance (sim.loops j).cancelled sim.world frame choice =
      some (w, .inr (.panicked msg))) :
    ∃ next, sim.step (.loop j (.advance choice)) = some next ∧
      (next.loops j).point = unwinding msg 4 := by
  simp [step, loopStep, Loop.step, here, went, unwinding]

theorem contains_of_caught {raises : W → E.Frame → E.Choice → String → Prop} {sim : Sim E}
    (unbegun : sim.Unbegun) (caught : ∀ j frame choice msg, (sim.loops j).point = .stepping frame →
      raises sim.world frame choice msg →
      ∃ w, E.advance (sim.loops j).cancelled sim.world frame choice =
        some (w, .inr (.panicked msg))) : sim.Contains raises where
  caught := by
    intro j frame choice msg here raised
    obtain ⟨w, went⟩ := caught j frame choice msg here raised
    exact caught_of_advance here went
  goesOn := by
    intro j msg left bound here
    match left with
    | 0 => exact ⟨.close, by simp [step, loopStep, Loop.step, here, unwinding]⟩
    | 1 => exact ⟨.release, by simp [step, loopStep, Loop.step, here, unwinding]⟩
    | 2 => exact ⟨.finalize, by simp [step, loopStep, Loop.step, here, unwinding]⟩
    | 3 => exact ⟨.handle, by simp [step, loopStep, Loop.step, here, unwinding]⟩
  kept := by
    intro j msg left bound here act next stepped
    have awake : (unwinding msg left : LoopPoint E.Frame).wake = unwinding msg left := by
      unfold unwinding
      split <;> rfl
    rcases (moves_of_step stepped).loop_cases j with
      ⟨_, _, _, own⟩ | ⟨limit, _, new, _⟩ | same | woken
    · exact .inr (own.unwinding bound here)
    · have absent := unbegun j (by omega)
      rw [here] at absent
      unfold unwinding at absent
      split at absent <;> cases absent
    · exact .inl (same.trans here)
    · exact .inl (by rw [woken, here, awake])

end Sim

section

variable {G : GoTypes}

/-- The panics of the code of the systems, by the position of the system, what is
left of the call of `Run`, and the world. -/
def Panics (G : GoTypes) : Type :=
  Nat → Process (World G) (Option RunError) → World G → Option String

def Panics.may (panics : Panics G) (idx : Nat) : Prop :=
  ∃ body w, panics idx body w ≠ none

def shardPanic (panics : Panics G) (w : World G) (st : RunState G) (idx j : Nat) :
    Option (Nat × String) :=
  match st.runs[idx]? with
  | some (.active shards _) =>
    match shards[j]? with
    | some (.running body) => (panics idx body w).map fun detail => (idx, detail)
    | _ => none
  | _ => none

def panicOf (panics : Panics G) (w : World G) (st : RunState G) :
    SchedulerMove → Option (Nat × String)
  | .act idx j | .release idx j => shardPanic panics w st idx j
  | _ => none

/-- `run` calls the code of a system on its own goroutine: the level has one
system, and the system one shard. -/
def isInline (st : RunState G) (idx : Nat) : Bool :=
  match st.levels, st.runs[idx]? with
  | [_] :: _, some (.active [_] _) => true
  | _, _ => false

/-- `systemTickExecutor`, for systems whose code can panic.  The frame is `none`
once a panic that nothing recovers from has terminated the process. -/
def panickingExecutor (s : Scheduler G) (panics : Panics G) :
    Executor (World G × (Nat → EntitySet)) where
  Frame := Option (RunState G)
  Choice := SchedulerMove
  start := fun (w, cache) => some (s.begin w cache)
  advance := fun cancelled (w, cache) frame move =>
    match frame with
    | none => none
    | some st =>
      match panicOf panics w st move with
      | some (idx, detail) =>
        some ((w, cache), if isInline st idx then .inr (.panicked detail) else .inl none)
      | none =>
        ((systemTickExecutor s).advance cancelled (w, cache) st move).map
          fun (world, result) => (world, result.map some id)

def LaunchesInline (s : Scheduler G) (w : World G) (cache : Nat → EntitySet) (st : RunState G)
    (idx : Nat) : Prop :=
  st.levels.head? = some [idx] ∧ ∀ sys, s.systems[idx]? = some sys →
    sys.serial = true ∨ s.workers ≤ 1 ∨ (entitySet w (cache idx) sys).ids.length ≤ 1

def Sim.LaunchesPanicsInline {s : Scheduler G} {panics : Panics G}
    (sim : Sim (panickingExecutor s panics)) : Action (panickingExecutor s panics) → Prop
  | .loop i (.advance move) => ∀ idx st, move = SchedulerMove.start idx →
      (sim.loops i).point = .stepping (some st) → panics.may idx →
      LaunchesInline s sim.world.1 sim.world.2 st idx
  | _ => True

/-- A panic of `Step` -/
def tickRaises {M : Type} (_ : World G × M) (frame : Process (World G × M) (Option StepFault))
    (_ : Unit) (detail : String) : Prop :=
  frame = .halt (some (.panic detail))

/-- A panic of `HandleEvent` -/
def eventRaises {M : Type} (_ : World G × M)
    (frame : Option (Process (World G × M) (Option StepFault))) (_ : Unit) (detail : String) :
    Prop :=
  frame = some (.halt (some (.panic detail)))

def systemRaises (panics : Panics G) (w : World G × (Nat → EntitySet))
    (frame : Option (RunState G)) (move : SchedulerMove) (detail : String) : Prop :=
  ∃ st idx, frame = some st ∧ panicOf panics w.1 st move = some (idx, detail)

theorem length_of_launch {workers : Int} {sys : System G} {es : List EntityID}
    {shards : List (ShardRun G)} {errs : List RunError}
    (few : sys.serial = true ∨ workers ≤ 1 ∨ es.length ≤ 1)
    (began : launch workers sys es = .active shards errs) : shards.length = 1 := by
  unfold launch at began
  split at began
  · cases began
  · rename_i nonempty
    have few : (if sys.serial then 1 else workers) ≤ 1 ∨ es.length ≤ 1 := by
      rcases few with serial | few
      · simp [serial]
      · split <;> omega
    generalize (if sys.serial then 1 else workers) = bound at few began
    have count := (partition_pieces nonempty bound).1
    have pos := length_pos_iff.mpr nonempty
    obtain ⟨shard, only⟩ := length_eq_one_iff.mp (show (partition es bound).length = 1 by omega)
    rw [only] at began
    cases began
    rfl

def Sheltered (panics : Panics G) (st : RunState G) : Prop :=
  ∀ idx shards errors, st.runs[idx]? = some (.active shards errors) → panics.may idx →
    st.levels.head? = some [idx] ∧ shards.length = 1

namespace Sheltered

variable {s : Scheduler G} {panics : Panics G} {st next : RunState G}

theorem begin (w : World G) (cache : Nat → EntitySet) : Sheltered panics (s.begin w cache) := by
  intro idx shards errs active
  have pending := mem_of_getElem? active
  simp [Scheduler.begin] at pending

section

variable (sheltered : Sheltered panics st)
include sheltered

theorem set {idx : Nat} {new : SystemRun G}
    (levels : next.levels = st.levels) (runs : next.runs = st.runs.set idx new)
    (own : ∀ shards errs, new = .active shards errs → panics.may idx →
      st.levels.head? = some [idx] ∧ shards.length = 1) : Sheltered panics next := by
  intro i shards errs active may
  rw [runs] at active
  rw [levels]
  rcases getElem?_set_cases active with ⟨rfl, eq⟩ | ⟨_, old⟩
  · exact own shards errs eq.symm may
  · exact sheltered i shards errs old may

theorem shard {idx j : Nat}
    {move : List (ShardRun G) → ShardRun G → Option (ShardRun G × Option RunError × World G)}
    (moved : Scheduler.moveShard st idx j move = some next) : Sheltered panics next := by
  obtain ⟨shards, errs, cur, changed, error, world, active, _, _, rfl⟩ :=
    Scheduler.moveShard_eq_some moved
  refine sheltered.set rfl rfl ?_
  rintro _ _ ⟨⟩ may
  rw [length_set]
  exact sheltered idx shards errs active may

theorem step {cancelled : Bool} {move : SchedulerMove}
    (stepped : s.step cancelled st move = some next)
    (careful : ∀ idx, move = .start idx → panics.may idx →
      LaunchesInline s st.world st.cache st idx) : Sheltered panics next := by
  unfold Scheduler.step at stepped
  split at stepped
  · cases stepped
  · revert stepped
    cases move with
    | start idx =>
      dsimp only
      fun_cases Scheduler.start <;> rintro ⟨⟩
      rename_i sys _ system _ _ _
      refine sheltered.set rfl rfl fun shards errs began may => ?_
      obtain ⟨alone, few⟩ := careful idx rfl may
      exact ⟨alone, length_of_launch (few sys system) began⟩
    | acquire idx j | cancel idx j | act idx j | release idx j => exact sheltered.shard
    | join idx =>
      dsimp only
      fun_cases Scheduler.join <;> rintro ⟨⟩
      exact sheltered.set rfl rfl (by rintro _ _ ⟨⟩)
    | advance =>
      dsimp only
      fun_cases Scheduler.advance <;> rintro ⟨⟩
      · exact sheltered
      · rename_i level rest levels ret _
        -- the level that ends has no system in progress
        intro idx shards errs active may
        obtain ⟨alone, _⟩ := sheltered idx shards errs active may
        rw [levels] at alone
        cases alone
        simp only [all_cons, all_nil, Bool.and_true] at ret
        cases active.symm.trans (Scheduler.any_isReturned_iff.mp ret)
      · exact sheltered

theorem inline_of_shardPanic {w : World G} {i j idx : Nat}
    {msg : String} (raised : shardPanic panics w st i j = some (idx, msg)) :
    isInline st idx = true := by
  revert raised
  fun_cases shardPanic <;> try rintro ⟨⟩
  rename_i shards errs active body _
  intro raised
  obtain ⟨_, panicked, ⟨⟩⟩ := Option.map_eq_some_iff.mp raised
  obtain ⟨alone, single⟩ := sheltered i shards errs active ⟨body, w, by rw [panicked]; exact nofun⟩
  obtain ⟨others, levels⟩ := head?_eq_some_iff.mp alone
  obtain ⟨only, rfl⟩ := length_eq_one_iff.mp single
  simp [isInline, levels, active]

theorem inline_of_panicOf {w : World G} {move : SchedulerMove}
    {idx : Nat} {msg : String} (raised : panicOf panics w st move = some (idx, msg)) :
    isInline st idx = true := by
  cases move with
  | act i j | release i j => exact sheltered.inline_of_shardPanic raised
  | _ => cases raised

end

end Sheltered

def Sim.Shielded {s : Scheduler G} {panics : Panics G} (sim : Sim (panickingExecutor s panics)) :
    Prop :=
  ∀ j frame, (sim.loops j).point = .stepping frame → ∃ st, frame = some st ∧ Sheltered panics st

theorem Sim.Shielded.step {s : Scheduler G} {panics : Panics G}
    {sim next : Sim (panickingExecutor s panics)} {act : Action (panickingExecutor s panics)}
    (shielded : sim.Shielded) (careful : sim.LaunchesPanicsInline act)
    (moved : sim.Moves act next) : next.Shielded := by
  refine frames_step (fun _ => ⟨_, rfl, Sheltered.begin _ _⟩) moved shielded ?_
  rintro j move frame later ⟨w, cache⟩ rfl here went
  obtain ⟨st, rfl, inline⟩ := shielded j frame here
  simp only [panickingExecutor] at went
  split at went
  · rename_i raised
    rw [inline.inline_of_panicOf raised] at went
    cases went
  · obtain ⟨⟨_, res⟩, moved, eq⟩ := Option.map_eq_some_iff.mp went
    obtain ⟨after, schedulerMoved, out⟩ := systemTickExecutor_advance moved
    have old : Sheltered panics
      { st with world := sim.world.1, cache := sim.world.2 } := inline
    rcases out with ⟨_, _, rfl⟩ | ⟨_, _, rfl⟩ | ⟨_, _, rfl⟩
    · cases eq
      exact ⟨after, rfl, old.step schedulerMoved fun idx launches may =>
        careful idx st launches here may⟩
    · cases eq
    · cases eq

theorem panics_contained {M : Type} :
    (∀ (body : Process (World G × M) (Option StepFault)) (start : World G × M)
      (sim : Sim (tickExecutor body)), Reachable Sim.step (fun _ _ => True) (.new start) sim →
      sim.Contains tickRaises) ∧ (∀ (format : Float64 → String)
      (handleEvent : Event G → Process (World G × M) (Option StepFault)) (start : World G × M)
      (sim : Sim (eventExecutor format handleEvent)),
      Reachable Sim.step (fun _ _ => True) (.new start) sim → sim.Contains eventRaises) ∧
    ∀ (s : Scheduler G) (panics : Panics G) (start : World G × (Nat → EntitySet))
      (sim : Sim (panickingExecutor s panics)),
      Reachable Sim.step Sim.LaunchesPanicsInline (.new start) sim →
      sim.Contains (systemRaises panics) := by
  refine ⟨?_, ?_, ?_⟩
  · intro body start sim reachable
    refine Sim.contains_of_caught (Sim.unbegun_of_reachable reachable) ?_
    rintro j _ choice msg here rfl
    exact ⟨_, rfl⟩
  · intro format handleEvent start sim reachable
    refine Sim.contains_of_caught (Sim.unbegun_of_reachable reachable) ?_
    rintro j _ choice msg here rfl
    exact ⟨_, rfl⟩
  · intro s panics start sim reachable
    have shielded : sim.Shielded := by
      apply reachable.invariant (by rintro _ _ ⟨⟩)
      intro sim act next shielded careful step
      exact shielded.step careful (Sim.moves_of_step step)
    refine Sim.contains_of_caught (Sim.unbegun_of_reachable reachable) ?_
    rintro j _ move msg here ⟨st, idx, rfl, raised⟩
    obtain ⟨_, ⟨⟩, inline⟩ := shielded j _ here
    refine ⟨sim.world, ?_⟩
    simp [panickingExecutor, raised, inline.inline_of_panicOf raised]

/-- One system over two entities with two workers, and any call of its `Run`
panics. -/
def bomb (serial : Bool) : Scheduler flagTypes :=
  ⟨2, [⟨[], [], serial, fun _ => .halt none⟩]⟩

def boom : Panics flagTypes :=
  fun _ _ _ => some "boom"

def bombNew (serial : Bool) : Sim (panickingExecutor (bomb serial) boom) :=
  .new (World.sampleWorld "bomb" [.create, .create], newCache)

theorem panics_contained_serial :
    ∃ sim next, sim.Contains (systemRaises boom) ∧
      Reachable Sim.step Sim.LaunchesPanicsInline (bombNew true) sim ∧
      sim.step (.loop 0 (.advance (SchedulerMove.release 0 0))) = some next ∧
      (next.loops 0).point = .stepped (.panicked "boom") := by
  have started : Reachable Sim.step Sim.LaunchesPanicsInline (bombNew true) _ :=
    Reachable.start.take (.start .unlimited) trivial rfl
  have reg := started.take (.loop 0 .register) trivial rfl
  have looked := reg.take (.loop 0 .look) trivial rfl
  have entered := looked.take (.loop 0 (.ask .no)) trivial rfl
  have inline : ∀ sys, (bomb true).systems[0]? = some sys → sys.serial = true := by
    rintro _ ⟨⟩
    rfl
  have began := entered.take (.loop 0 (.advance (start 0))) (by
      rintro _ _ ⟨⟩ ⟨⟩ _
      exact ⟨rfl, fun sys system => .inl (inline sys system)⟩) rfl
  exact ⟨_, _, (panics_contained (M := Unit)).2.2 _ _ _ _ began, began, rfl, rfl⟩

theorem panic_escapes :
    ∃ sim next, run Sim.step (fun _ _ => true)
        [.start .unlimited, .loop 0 .register, .loop 0 .look, .loop 0 (.ask .no),
          .loop 0 (.advance (SchedulerMove.start 0)),
          .loop 0 (.advance (SchedulerMove.acquire 0 0))] (bombNew false) = some sim ∧
      sim.step (.loop 0 (.advance (SchedulerMove.release 0 0))) = some next ∧
      (next.loops 0).point = .stepping none ∧ ¬ sim.Contains (systemRaises boom) := by
  refine ⟨_, _, rfl, rfl, rfl, fun contains => ?_⟩
  obtain ⟨next, step, point⟩ := contains.caught 0 _ (release 0 0) "boom" rfl ⟨_, _, rfl, rfl⟩
  cases step
  cases point

end

end Simulator
