import Simulator.SchedulerLevels
import Simulator.WorldOperations

/-!
# Moves of the scheduler

`Moves` lists what one move of `scheduler.run` can do; no interleaving is infinite.
-/

namespace Simulator

open Interleaving List Option SystemRun

variable {G : GoTypes}

theorem getElem?_set_cases {α : Type*} {xs : List α} {i j : Nat} {new x : α}
    (held : (xs.set i new)[j]? = some x) : (j = i ∧ x = new) ∨ (j ≠ i ∧ xs[j]? = some x) := by
  by_cases eq : j = i
  · subst eq
    rw [getElem?_set_self'] at held
    obtain ⟨_, _, isNew⟩ := map_eq_some_iff.mp held
    exact .inl ⟨rfl, isNew.symm⟩
  · rw [getElem?_set_ne (Ne.symm eq)] at held
    exact .inr ⟨eq, held⟩

namespace Scheduler

inductive ShardMoves (s : Scheduler G) (cancelled : Bool) (w : World G)
    (shards : List (ShardRun G)) :
    ShardRun G → ShardRun G → Option RunError → World G → Prop
  | acquire (body : Process (World G) (Option RunError))
      (free : shards.countP ShardRun.isRunning < s.workers.toNat) :
      ShardMoves s cancelled w shards (.waiting body) (.running body) none w
  | cancel (body : Process (World G) (Option RunError)) (done : cancelled = true) :
      ShardMoves s cancelled w shards (.waiting body) .returned (some .contextCanceled) w
  | act (effect : World G → World G) (rest : World G → Process (World G) (Option RunError)) :
      ShardMoves s cancelled w shards (.running (.act effect rest))
        (.running (rest w)) none (effect w)
  | release (error : Option RunError) :
      ShardMoves s cancelled w shards (.running (.halt error)) .returned error w

inductive Moves (s : Scheduler G) (cancelled : Bool) (st : RunState G) :
    RunState G → Prop
  | start {level : List Nat} {rest : List (List Nat)} {idx : Nat}
      {sys : System G} (levels : st.levels = level :: rest)
      (member : idx ∈ level) (system : s.systems[idx]? = some sys)
      (pending : st.runs[idx]? = some .pending) : Moves s cancelled st { st with
        cache := Function.update st.cache idx (entitySet st.world (st.cache idx) sys)
        runs := st.runs.set idx (launch s.workers sys (entitySet st.world (st.cache idx) sys).ids) }
  | shard {idx j : Nat} {shards : List (ShardRun G)}
      {errors : List RunError} {current next : ShardRun G}
      {error : Option RunError} {world : World G}
      (active : st.runs[idx]? = some (.active shards errors)) (held : shards[j]? = some current)
      (moved : ShardMoves s cancelled st.world shards current next error world) :
      Moves s cancelled st { st with
        world := world
        runs := st.runs.set idx (.active (shards.set j next) (errors ++ error.toList)) }
  | join {idx : Nat} {shards : List (ShardRun G)} {errors : List RunError}
      (active : st.runs[idx]? = some (.active shards errors))
      (returned : ∀ shard ∈ shards, shard = .returned) : Moves s cancelled st { st with
        runs := st.runs.set idx .returned
        errors := st.errors ++ errors.head?.toList }
  | nextLevel {level : List Nat} {rest : List (List Nat)} (levels : st.levels = level :: rest)
      (returned : ∀ idx ∈ level, st.runs[idx]? = some .returned) (noError : st.errors = []) :
      Moves s cancelled st { st with levels := rest }
  | fail {level : List Nat} {rest : List (List Nat)} {error : RunError}
      {errors : List RunError} (levels : st.levels = level :: rest)
      (returned : ∀ idx ∈ level, st.runs[idx]? = some .returned)
      (someError : st.errors = error :: errors) :
      Moves s cancelled st { st with result := some (.error error) }
  | finish (levels : st.levels = []) : Moves s cancelled st { st with result := some (.ok ()) }

variable {s : Scheduler G} {cancelled : Bool} {next st : RunState G}

theorem shardMoves_of_shardMove
    {w world : World G} {move : SchedulerMove} {shards : List (ShardRun G)}
    {cur next : ShardRun G} {error : Option RunError}
    (moved : s.shardMove cancelled w move shards cur = some (next, error, world)) :
    ShardMoves s cancelled w shards cur next error world := by
  revert moved
  fun_cases shardMove s cancelled w move shards cur <;> rintro ⟨⟩
  · exact .acquire _ ‹_›
  · exact .cancel _ ‹_›
  · exact .act _ _
  · exact .release _

theorem isReturned_iff {shard : ShardRun G} : shard.isReturned = true ↔ shard = .returned := by
  cases shard <;> simp [ShardRun.isReturned]

theorem any_isReturned_iff {run : Option (SystemRun G)} :
    run.any SystemRun.isReturned = true ↔ run = some .returned := by
  match run with
  | none => simp
  | some .pending => simp [SystemRun.isReturned]
  | some (.active shards errors) => simp [SystemRun.isReturned]
  | some .returned => simp [SystemRun.isReturned]

theorem moveShard_eq_some {idx j : Nat}
    {move : List (ShardRun G) → ShardRun G → Option (ShardRun G × Option RunError × World G)}
    (moved : moveShard st idx j move = some next) :
    ∃ shards errors cur changed error world, st.runs[idx]? = some (.active shards errors) ∧
      shards[j]? = some cur ∧ move shards cur = some (changed, error, world) ∧ next = { st with
        world := world
        runs := st.runs.set idx (.active (shards.set j changed) (errors ++ error.toList)) } := by
  revert moved
  fun_cases moveShard st idx j move <;> try rintro ⟨⟩
  rename_i shards errors active cur held
  intro moved
  obtain ⟨⟨changed, error, world⟩, ownMove, rfl⟩ := map_eq_some_iff.mp moved
  exact ⟨shards, errors, cur, changed, error, world, active, held, ownMove, rfl⟩

theorem moves_of_step (stepped : s.Step cancelled st next) :
    st.result = none ∧ Moves s cancelled st next := by
  obtain ⟨move, moved⟩ := stepped
  have shardCase : ∀ idx j, moveShard st idx j (s.shardMove cancelled st.world move) = some next →
        Moves s cancelled st next := by
    intro idx j shardMoved
    obtain ⟨shards, errors, cur, changed, error, world, active, held,
      ownMove, rfl⟩ := moveShard_eq_some shardMoved
    exact .shard active held (shardMoves_of_shardMove ownMove)
  unfold step at moved
  split at moved
  · cases moved
  · rename_i running
    refine ⟨by simpa using running, ?_⟩
    revert moved
    cases move with
    | start idx =>
      dsimp only
      fun_cases start <;> rintro ⟨⟩
      exact .start ‹_› ‹_› ‹_› ‹_›
    | acquire idx j | cancel idx j | act idx j | release idx j => exact shardCase idx j
    | join idx =>
      dsimp only
      fun_cases join <;> rintro ⟨⟩
      rename_i active ret
      refine .join active fun shard mem => ?_
      exact isReturned_iff.mp (all_eq_true.mp ret shard mem)
    | advance =>
      have ret {level : List Nat} (all : level.all fun idx =>
          st.runs[idx]?.any SystemRun.isReturned) : ∀ idx ∈ level, st.runs[idx]? = some .returned :=
        fun idx mem => any_isReturned_iff.mp (List.all_eq_true.mp all idx mem)
      fun_cases advance <;> rintro ⟨⟩
      · exact .finish ‹_›
      · exact .nextLevel ‹_› (ret ‹_›) ‹_›
      · exact .fail ‹_› (ret ‹_›) ‹_›

end Scheduler

/-- What is left to do in a call of `run`. -/
inductive Task (G : GoTypes)
  | waiting (body : Process (World G) (Option RunError))
  | running (body : Process (World G) (Option RunError))
  | join
  | system
  | level
  | result

namespace Task

inductive Smaller : Task G → Task G → Prop
  | act (effect : World G → World G) (rest : World G → Process (World G) (Option RunError))
      (w : World G) : Smaller (.running (rest w)) (.running (.act effect rest))
  | acquire (body : Process (World G) (Option RunError)) : Smaller (.running body) (.waiting body)
  | wait (body : Process (World G) (Option RunError)) : Smaller (.waiting body) .system
  | run (body : Process (World G) (Option RunError)) : Smaller (.running body) .system
  | join : Smaller .join .system

theorem acc_running (body : Process (World G) (Option RunError)) :
    Acc Smaller (Task.running body) := by
  induction body with
  | halt error =>
    refine ⟨_, fun smaller below => ?_⟩
    cases below
  | act effect rest ih =>
    refine ⟨_, fun smaller below => ?_⟩
    cases below with
    | act _ _ w => exact ih w

theorem acc_waiting (body : Process (World G) (Option RunError)) :
    Acc Smaller (Task.waiting body) := by
  refine ⟨_, fun smaller below => ?_⟩
  cases below with
  | acquire => exact acc_running body

theorem acc_join : Acc Smaller (Task.join : Task G) := by
  refine ⟨_, fun smaller below => ?_⟩
  cases below

theorem wellFounded_smaller : WellFounded (Smaller : Task G → Task G → Prop) := by
  refine ⟨fun task => ?_⟩
  cases task with
  | waiting body => exact acc_waiting body
  | running body => exact acc_running body
  | join => exact acc_join
  | system =>
    refine ⟨_, fun smaller below => ?_⟩
    cases below with
    | wait body => exact acc_waiting body
    | run body => exact acc_running body
    | join => exact acc_join
  | level | result =>
    refine ⟨_, fun smaller below => ?_⟩
    cases below

end Task

def ShardRun.tasks : ShardRun G → Multiset (Task G)
  | .waiting body => {.waiting body}
  | .running body => {.running body}
  | .returned => 0

def SystemRun.tasks : SystemRun G → Multiset (Task G)
  | .pending => {.system}
  | .active shards _ => {.join} + (shards.map ShardRun.tasks).sum
  | .returned => 0

def RunState.tasks (st : RunState G) : Multiset (Task G) :=
  (st.runs.map SystemRun.tasks).sum + Multiset.replicate st.levels.length .level +
    if st.result.isSome then 0 else {.result}

theorem sum_map_set_add {α M : Type*} [AddCommMonoid M] (f : α → M)
    {xs : List α} {i : Nat} {old : α} (held : xs[i]? = some old) (new : α) :
    ((xs.set i new).map f).sum + f old = (xs.map f).sum + f new := by
  induction xs generalizing i with
  | nil => cases held
  | cons x xs ih =>
    cases i with
    | zero =>
      cases held
      simp only [set_cons_zero, map_cons, sum_cons]
      abel
    | succ i =>
      simp only [set_cons_succ, map_cons, sum_cons, add_assoc, ih held]

theorem RunState.tasks_add {st next : RunState G} {old new : Multiset (Task G)}
    (systems : (next.runs.map SystemRun.tasks).sum + old = (st.runs.map SystemRun.tasks).sum + new)
    (levels : next.levels = st.levels) (res : next.result = st.result) :
    next.tasks + old = st.tasks + new := by
  unfold RunState.tasks
  rw [levels, res]
  calc
    _ = ((next.runs.map SystemRun.tasks).sum + old) +
        (Multiset.replicate st.levels.length Task.level +
          if st.result.isSome then 0 else {Task.result}) := by abel
    _ = _ := by
      rw [systems]
      abel

/-- The goroutine of one of `count` shards: a single one runs at once, and
several wait for the semaphore. -/
def launchShard (sys : System G) (count : Nat) (shard : List EntityID) : ShardRun G :=
  if count = 1 then .running (sys.run shard) else .waiting (sys.run shard)

section

variable {workers : Int} {sys : System G} {es : List EntityID}

theorem launch_eq (workers : Int) (sys : System G) (es : List EntityID) :
    launch workers sys es = if shardsOf workers sys es = [] then .returned
      else .active ((shardsOf workers sys es).map
        (launchShard sys (shardsOf workers sys es).length)) [] := by
  have flat := flatten_shardsOf workers sys es
  by_cases empty : es = []
  · simp [launch, shardsOf, empty]
  · simp only [launch, shardsOf, if_neg empty] at flat ⊢
    generalize partition es (if sys.serial then 1 else workers) = parts at flat ⊢
    match parts with
    | [] => exact absurd flat.symm empty
    | [shard] => rfl
    | first :: second :: rest => simp [launchShard]

theorem launch_ne_pending : launch workers sys es ≠ .pending := by
  rw [launch_eq]
  split <;> exact nofun

theorem launch_active {shards : List (ShardRun G)} {errors : List RunError}
    (began : launch workers sys es = .active shards errors) :
    shards = (shardsOf workers sys es).map
      (launchShard sys (shardsOf workers sys es).length) ∧ errors = [] := by
  rw [launch_eq] at began
  split at began
  · cases began
  · cases began
    exact ⟨rfl, rfl⟩

end

theorem smaller_of_mem_launch {workers : Int} {sys : System G} {es : List EntityID} {task : Task G}
    (mem : task ∈ (launch workers sys es).tasks) : task.Smaller .system := by
  have shardSmaller : ∀ shards : List (ShardRun G),
      task ∈ ({.join} + (shards.map ShardRun.tasks).sum : Multiset _) → task.Smaller .system := by
    intro shards inTasks
    rcases Multiset.mem_add.mp inTasks with isJoin | inShards
    · rw [Multiset.mem_singleton.mp isJoin]
      exact .join
    · induction shards with
      | nil => simp at inShards
      | cons shard shards ih =>
        rw [map_cons, sum_cons, Multiset.mem_add] at inShards
        rcases inShards with inShard | inShards
        · cases shard with
          | waiting body =>
            rw [Multiset.mem_singleton.mp inShard]
            exact .wait body
          | running body =>
            rw [Multiset.mem_singleton.mp inShard]
            exact .run body
          | returned => simp [ShardRun.tasks] at inShard
        · exact ih (by simp [inShards]) inShards
  cases began : launch workers sys es with
  | pending => exact absurd began launch_ne_pending
  | active shards errors =>
    rw [began] at mem
    exact shardSmaller shards mem
  | returned =>
    rw [began] at mem
    cases mem

namespace Scheduler

variable {s : Scheduler G} {cancelled : Bool} {shards : List (ShardRun G)} {next st : RunState G}

theorem ShardMoves.tasks {w world : World G} {cur next : ShardRun G} {error : Option RunError}
    (moved : ShardMoves s cancelled w shards cur next error world) :
    ∃ task, cur.tasks = {task} ∧ ∀ other ∈ next.tasks, other.Smaller task := by
  cases moved with
  | acquire body =>
    refine ⟨_, rfl, fun other mem => ?_⟩
    rw [Multiset.mem_singleton.mp mem]
    exact .acquire body
  | cancel body | release error =>
    exact ⟨_, rfl, by simp [ShardRun.tasks]⟩
  | act effect rest =>
    refine ⟨_, rfl, fun other mem => ?_⟩
    rw [Multiset.mem_singleton.mp mem]
    exact .act effect rest w

theorem Moves.cutExpand (running : st.result = none) (moved : Moves s cancelled st next) :
    Relation.CutExpand Task.Smaller next.tasks st.tasks := by
  cases moved with
  | @start level rest idx sys levels mem system pending =>
    refine ⟨(launch s.workers sys (entitySet st.world (st.cache idx) sys).ids).tasks, .system,
      fun task inTasks => smaller_of_mem_launch inTasks, ?_⟩
    exact RunState.tasks_add (sum_map_set_add SystemRun.tasks pending _) rfl rfl
  | @shard idx j shards errors cur changed error world active held own =>
    obtain ⟨task, currentTasks, smaller⟩ := own.tasks
    refine ⟨changed.tasks, task, smaller, ?_⟩
    have outer := sum_map_set_add SystemRun.tasks active
      (.active (shards.set j changed) (errors ++ error.toList))
    have inner := sum_map_set_add ShardRun.tasks held changed
    rw [currentTasks] at inner
    refine RunState.tasks_add ?_ rfl rfl
    apply add_right_cancel (b := tasks (.active shards errors))
    calc
      _ = (((st.runs.set idx (.active (shards.set j changed)
            (errors ++ error.toList))).map SystemRun.tasks).sum +
            SystemRun.tasks (.active shards errors)) + {task} := by
        rw [add_right_comm]
      _ = (st.runs.map SystemRun.tasks).sum + ({.join} +
            (((shards.set j changed).map ShardRun.tasks).sum + {task})) := by
        rw [outer]
        simp only [tasks, add_assoc]
      _ = _ := by
        rw [inner]
        simp only [tasks]
        abel
  | @join idx shards errors active ret =>
    refine ⟨0, .join, by simp, ?_⟩
    have exchanged := sum_map_set_add SystemRun.tasks active .returned
    have nothing : (shards.map ShardRun.tasks).sum = 0 := by
      apply sum_eq_zero
      intro tasks mem
      obtain ⟨shard, inShards, rfl⟩ := mem_map.mp mem
      rw [ret shard inShards]
      rfl
    simp only [SystemRun.tasks, nothing, add_zero] at exchanged
    exact RunState.tasks_add (by rw [add_zero]; exact exchanged) rfl rfl
  | @nextLevel level rest levels ret noError =>
    refine ⟨0, .level, by simp, ?_⟩
    simp only [RunState.tasks, levels, length_cons,
      Multiset.replicate_succ, add_zero, ← Multiset.singleton_add]
    abel
  | fail levels ret someError | finish levels =>
    refine ⟨0, .result, by simp, ?_⟩
    simp [RunState.tasks, running]

theorem wellFounded_step (s : Scheduler G) :
    WellFounded fun next st : RunState G =>
      ∃ cancelled, s.Step cancelled st next := by
  refine Subrelation.wf ?_ (InvImage.wf RunState.tasks (Task.wellFounded_smaller.cutExpand))
  rintro next st ⟨cancelled, step⟩
  obtain ⟨running, moved⟩ := moves_of_step step
  exact moved.cutExpand running

theorem nodup_levels (s : Scheduler G) : s.levels.flatten.Nodup :=
  (flatten_dependencyLevels_perm s.systems).nodup_iff.mp nodup_range

theorem notMem_later {old : List (List Nat)} (split : s.levels = old ++ st.levels) {idx : Nat}
    (inLevel : idx ∈ st.levels.headD []) : ∀ level ∈ st.levels.tail, idx ∉ level := by
  have nodup := nodup_levels s
  intro level mem inLater
  cases levels : st.levels with
  | nil =>
    rw [levels] at mem
    cases mem
  | cons cur rest =>
    rw [levels] at inLevel mem split
    rw [split, flatten_append, flatten_cons] at nodup
    have apart := (nodup_append.mp (nodup_append.mp nodup).2.1).2.2
    exact apart idx inLevel idx (mem_flatten.mpr ⟨level, mem, inLater⟩) rfl

/-- What keeps a call of `run` from getting stuck: the levels name systems,
and only a system with several workers makes shards wait. -/
structure Sized (s : Scheduler G) (st : RunState G) : Prop where
  length : st.runs.length = s.systems.length
  inRange : ∀ level ∈ st.levels, ∀ idx ∈ level, idx < s.systems.length
  bounded : ∀ (idx : Nat) shards errors body, st.runs[idx]? = some (.active shards errors) →
      .waiting body ∈ shards → 1 < s.workers

theorem sized_begin (s : Scheduler G) (w : World G)
    (cache : Nat → EntitySet) : Sized s (s.begin w cache) := by
  refine ⟨by simp [begin], ?_, ?_⟩
  · intro level mem idx inLevel
    have inFlat : idx ∈ (dependencyLevels s.systems).flatten :=
      mem_flatten.mpr ⟨level, mem, inLevel⟩
    exact mem_range.mp ((flatten_dependencyLevels_perm s.systems).mem_iff.mpr inFlat)
  · intro idx shards errors body active
    simp only [begin, getElem?_map] at active
    obtain ⟨_, _, no⟩ := map_eq_some_iff.mp active
    cases no

variable {errors : List RunError}

theorem launch_waiting {workers : Int} {sys : System G}
    {es : List EntityID} {body : Process (World G) (Option RunError)}
    (began : launch workers sys es = .active shards errors)
    (waiting : .waiting body ∈ shards) : 1 < workers := by
  obtain ⟨rfl, -⟩ := launch_active began
  obtain ⟨shard, mem, isWaiting⟩ := mem_map.mp waiting
  by_contra few
  have one : (if sys.serial then 1 else workers) ≤ 1 := by
    split <;> omega
  have single : (shardsOf workers sys es).length ≤ 1 := by
    unfold shardsOf
    split <;> simp [partition, one]
  have count := length_pos_of_mem mem
  rw [launchShard, if_pos (by omega)] at isWaiting
  cases isWaiting

theorem Sized.step (sized : Sized s st) (moved : Moves s cancelled st next) : Sized s next := by
  have boundedSet : ∀ (idx : Nat) (run : SystemRun G),
      (∀ shards errors body, run = .active shards errors → .waiting body ∈ shards → 1 < s.workers) →
      ∀ (other : Nat) shards errors body,
        (st.runs.set idx run)[other]? = some (.active shards errors) →
          .waiting body ∈ shards → 1 < s.workers := by
    intro idx run fresh other shards errors body active waiting
    rcases getElem?_set_cases active with ⟨_, isNew⟩ | ⟨_, before⟩
    · exact fresh shards errors body isNew.symm waiting
    · exact sized.bounded other shards errors body before waiting
  cases moved with
  | @start level rest idx sys levels mem system pending =>
    refine ⟨by simpa using sized.length, sized.inRange, boundedSet idx _ ?_⟩
    intro shards errors body began waiting
    exact launch_waiting began waiting
  | @shard idx j shards errors cur changed error world active held own =>
    refine ⟨by simpa using sized.length, sized.inRange, boundedSet idx _ ?_⟩
    intro _ _ body eq waiting
    cases eq
    rcases mem_or_eq_of_mem_set waiting with old | isChanged
    · exact sized.bounded idx shards errors body active old
    · subst isChanged
      cases own
  | @join idx shards errors active ret =>
    refine ⟨by simpa using sized.length, sized.inRange, boundedSet idx _ ?_⟩
    intro _ _ body eq
    cases eq
  | nextLevel levels ret noError =>
    refine ⟨sized.length, fun level mem => sized.inRange level ?_, sized.bounded⟩
    rw [levels]
    exact mem_cons_of_mem _ mem
  | fail | finish => exact ⟨sized.length, sized.inRange, sized.bounded⟩

theorem Sized.reaches {start : RunState G} (sized : Sized s start) (reaches : s.Reaches start st) :
    Sized s st := by
  induction reaches with
  | refl => exact sized
  | tail _ step ih =>
    obtain ⟨cancelled, step⟩ := step
    exact ih.step (moves_of_step step).2

theorem ReachesUncancelled.reaches
    (uncancelled : s.ReachesUncancelled st next) : s.Reaches st next := by
  induction uncancelled with
  | refl => exact Relation.ReflTransGen.refl
  | tail _ step ih => exact ih.tail ⟨false, step⟩

theorem exists_step_of_isSome {m : SchedulerMove} (enabled : (s.step false st m).isSome) :
    ∃ next, s.Step false st next := by
  obtain ⟨next, moved⟩ := isSome_iff_exists.mp enabled
  exact ⟨next, m, moved⟩

section

variable {idx : Nat} (running : st.result = none)
  (active : st.runs[idx]? = some (.active shards errors))
include running active

theorem exists_step_of_shardMoves {j : Nat} {cur changed : ShardRun G}
    {error : Option RunError} {world : World G} (held : shards[j]? = some cur)
    (moved : ShardMoves s cancelled st.world shards cur changed error world) :
    ∃ next, s.Step cancelled st next ∧ next.levels = st.levels ∧ next.errors = st.errors ∧
      next.result = none ∧
      next.runs[idx]? = some (.active (shards.set j changed) (errors ++ error.toList)) := by
  obtain ⟨move, own, isShard⟩ : ∃ move,
      s.shardMove cancelled st.world move shards cur = some (changed, error, world) ∧
      s.step cancelled st move = moveShard st idx j (s.shardMove cancelled st.world move) := by
    cases moved with
    | acquire body free => exact ⟨.acquire idx j, if_pos free, by simp [step, running]⟩
    | cancel body done => exact ⟨.cancel idx j, if_pos done, by simp [step, running]⟩
    | act effect rest => exact ⟨.act idx j, rfl, by simp [step, running]⟩
    | release error => exact ⟨.release idx j, rfl, by simp [step, running]⟩
  refine ⟨{ st with world := world, runs := st.runs.set idx _ }, ⟨move, isShard.trans ?_⟩, rfl, rfl,
    running, List.getElem?_set_self (List.getElem?_eq_some_iff.mp active).1⟩
  simp [moveShard, active, held, own]

theorem step_of_returned (ret : ∀ shard ∈ shards, shard = .returned) :
    s.Step cancelled st { st with
      runs := st.runs.set idx .returned
      errors := st.errors ++ errors.head?.toList } := by
  have all := all_eq_true.mpr fun shard mem => isReturned_iff.mpr (ret shard mem)
  exact ⟨.join idx, by simp only [step, running, join, active, all]; rfl⟩

end

theorem exists_shardMoves (sized : Sized s st) {idx : Nat}
    (active : st.runs[idx]? = some (.active shards errors)) :
    (∀ shard ∈ shards, shard = .returned) ∨ ∃ (j : Nat) (current changed : ShardRun G) (error : _)
      (world : _), shards[j]? = some current ∧
        ShardMoves s false st.world shards current changed error world := by
  by_cases someRunning : ∃ body, .running body ∈ shards
  · obtain ⟨body, member⟩ := someRunning
    obtain ⟨j, held⟩ := mem_iff_getElem?.mp member
    cases body with
    | halt error => exact .inr ⟨j, _, _, _, _, held, .release error⟩
    | act effect rest => exact .inr ⟨j, _, _, _, _, held, .act effect rest⟩
  by_cases someWaiting : ∃ body, .waiting body ∈ shards
  · obtain ⟨body, member⟩ := someWaiting
    obtain ⟨j, held⟩ := mem_iff_getElem?.mp member
    -- nobody runs, so a place in the semaphore is free
    have idle : shards.countP ShardRun.isRunning = 0 := by
      rw [countP_eq_zero]
      intro shard inShards isRunning
      cases shard with
      | running body => exact someRunning ⟨body, inShards⟩
      | waiting body | returned => cases isRunning
    have workers := sized.bounded idx shards errors body active member
    exact .inr ⟨j, _, _, _, _, held, .acquire body (by omega)⟩
  · refine .inl fun shard member => ?_
    cases shard with
    | running body => exact (someRunning ⟨body, member⟩).elim
    | waiting body => exact (someWaiting ⟨body, member⟩).elim
    | returned => rfl

theorem exists_step (sized : Sized s st) (running : st.result = none) :
    ∃ next, s.Step false st next := by
  cases levels : st.levels with
  | nil =>
    apply exists_step_of_isSome (m := .advance)
    simp [step, running, advance, levels]
  | cons level rest =>
    by_cases allReturned : (level.all fun idx =>
        (st.runs[idx]?).any SystemRun.isReturned) = true
    · apply exists_step_of_isSome (m := .advance)
      simp only [step, running, advance, levels, allReturned, if_true,
        isSome_none, Bool.false_eq_true, if_false]
      cases st.errors <;> rfl
    · have unfinished : ∃ idx ∈ level, (st.runs[idx]?).any SystemRun.isReturned = false := by
        simpa using allReturned
      obtain ⟨idx, member, notReturned⟩ := unfinished
      have inside := sized.inRange level (by rw [levels]; simp) idx member
      have runInside : idx < st.runs.length := by rw [sized.length]; omega
      have held := getElem?_eq_getElem runInside
      cases run : st.runs[idx] with
      | pending =>
        rw [run] at held
        have system := getElem?_eq_getElem inside
        apply exists_step_of_isSome (m := .start idx)
        simp [step, running, start, levels, system, held, member]
      | active shards errors =>
        rw [run] at held
        rcases exists_shardMoves sized held with returned | ⟨j, _, _, _, _, here, moved⟩
        · exact ⟨_, step_of_returned running held returned⟩
        · obtain ⟨next, stepped, -⟩ := exists_step_of_shardMoves running held here moved
          exact ⟨next, stepped⟩
      | returned =>
        rw [held, run] at notReturned
        simp [isReturned] at notReturned

def Precedes (s : Scheduler G) (i j : Nat) : Prop :=
  i < j ∧ ∃ a b, s.systems[i]? = some a ∧ s.systems[j]? = some b ∧ conflicts a b = true

theorem Precedes.mem_earlier {i j : Nat} (precedes : s.Precedes i j) {old rest : List (List Nat)}
    {level : List Nat} (split : s.levels = old ++ level :: rest) (here : j ∈ level) :
    ∃ level ∈ old, i ∈ level := by
  obtain ⟨declared, a, b, first, second, conflict⟩ := precedes
  have ordered : s.levels.flatten.Pairwise _ := pairwise_flatten_dependencyLevels s.systems
  have known : i ∈ s.levels.flatten :=
    (flatten_dependencyLevels_perm s.systems).mem_iff.mp
      (mem_range.mpr (List.getElem?_eq_some_iff.mp first).1)
  rw [split, flatten_append, flatten_cons] at ordered known
  rcases mem_append.mp known with before | left
  · exact mem_flatten.mp before
  rcases mem_append.mp left with same | later
  · have isLevel : level ∈ s.levels := by simp [split]
    rw [not_conflicts_of_level isLevel same here declared.ne first second] at conflict
    cases conflict
  · rcases (pairwise_append.mp (pairwise_append.mp ordered).2.1).2.2 j here i later with
      wrong | apart
    · omega
    · rw [conflicts_comm, apart b a second first] at conflict
      cases conflict

/-- The levels left behind have returned, and a system that has started has waited for
those before it. -/
structure Staged (s : Scheduler G) (st : RunState G) : Prop where
  earlier : ∃ old, s.levels = old ++ st.levels ∧
    ∀ level ∈ old, ∀ idx ∈ level, st.runs[idx]? = some .returned
  waited : ∀ i j : Nat, s.Precedes i j →
    st.runs[i]? = some .returned ∨ st.runs[j]? = some .pending

theorem Staged.set (staged : Staged s st) {idx : Nat} {run : SystemRun G}
    (unfinished : st.runs[idx]? ≠ some .returned) (ready : st.runs[idx]? = some .pending →
      ∀ i : Nat, s.Precedes i idx → st.runs[i]? = some .returned)
    (same : next.levels = st.levels) (runs : next.runs = st.runs.set idx run) :
    Staged s next := by
  have kept {i : Nat} (ret : st.runs[i]? = some .returned) : next.runs[i]? = some .returned := by
    have ne : idx ≠ i := fun eq => unfinished (eq ▸ ret)
    rw [runs, getElem?_set_ne ne, ret]
  obtain ⟨⟨old, split, returned⟩, waited⟩ := staged
  refine ⟨⟨old, by rw [same, split], fun level mem i inLevel =>
    kept (returned level mem i inLevel)⟩, fun i j precedes => ?_⟩
  rcases waited i j precedes with ret | pending
  · exact .inl (kept ret)
  · by_cases here : idx = j
    · subst here
      exact .inl (kept (ready pending i precedes))
    · exact .inr (by rw [runs, getElem?_set_ne here, pending])

theorem Staged.step (staged : Staged s st) (moved : Moves s cancelled st next) :
    Staged s next := by
  obtain ⟨old, split, returned⟩ := staged.earlier
  cases moved with
  | start levels mem system pending =>
    refine staged.set (by rw [pending]; nofun) ?_ rfl rfl
    intro _ i precedes
    obtain ⟨other, inOld, inOther⟩ := precedes.mem_earlier (levels ▸ split) mem
    exact returned other inOld i inOther
  | shard active | join active =>
    exact staged.set (by rw [active]; nofun) (by rw [active]; nofun) rfl rfl
  | nextLevel levels ret =>
    refine ⟨⟨old ++ [_], by rw [split, levels, append_assoc, singleton_append], ?_⟩,
      staged.waited⟩
    intro other mem
    rcases mem_append.mp mem with before | last
    · exact returned other before
    · cases mem_singleton.mp last
      exact ret
  | fail | finish => exact ⟨staged.earlier, staged.waited⟩

/-- Of two systems that conflict, the one declared first has returned before the other
is started, whatever the systems do and whenever the context is cancelled. -/
theorem conflicting_systems_ordered {w : World G} {cache : Nat → EntitySet} {i j : Nat}
    (reaches : s.Reaches (s.begin w cache) st) (precedes : s.Precedes i j) :
    st.runs[i]? = some .returned ∨ st.runs[j]? = some .pending := by
  have staged : Staged s st := by
    induction reaches with
    | refl =>
      refine ⟨⟨[], rfl, nofun⟩, fun i j ⟨_, _, _, _, second, _⟩ => .inr ?_⟩
      rw [begin, getElem?_map, second]
      rfl
    | tail _ step ih => exact ih.step (moves_of_step step.choose_spec).2
  exact staged.waited i j precedes

def writers : Scheduler flagTypes :=
  let writer := ⟨[], [0], true, fun _ => .halt none⟩
  ⟨1, [writer, writer]⟩

theorem conflicting_systems_ordered_writers :
    ∃ st, writers.Reaches (writers.begin (World.sampleWorld "a" []) newCache) st ∧
      st.runs[1]? ≠ some .pending ∧ st.runs[0]? = some .returned := by
  have reaches : writers.Reaches (writers.begin (World.sampleWorld "a" []) newCache) _ :=
    .tail (.tail (.tail .refl ⟨false, .start 0, rfl⟩) ⟨false, .advance, rfl⟩)
      ⟨false, .start 1, rfl⟩
  have precedes : writers.Precedes 0 1 := ⟨Nat.one_pos, _, _, rfl, rfl, rfl⟩
  exact ⟨_, reaches, nofun, (conflicting_systems_ordered reaches precedes).resolve_right nofun⟩

end Scheduler

end Simulator
