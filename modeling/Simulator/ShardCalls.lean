import Simulator.SchedulerRuns

/-!
# Shards and the calls of `Run`

No slice bound of `partition` is out of range, and every goroutine runs its own shard.
-/

namespace Simulator

open List Option ShardRun

variable {G : GoTypes}

/-- A slice expression; `none` is a bound out of range. -/
def goSlice {α : Type} (xs : List α) (low high : Int) : Option (List α) :=
  if 0 ≤ low ∧ low ≤ high ∧ high ≤ xs.length then
    some ((xs.take high.toNat).drop low.toNat)
  else
    none

/-- An integer division; `none` is a division by zero. -/
def goDivide (dividend divisor : Int) : Option Int :=
  if divisor = 0 then none else some (dividend.tdiv divisor)

/-- `partition` with its panics. -/
def partitionChecked (entities : List EntityID) (workers : Int) : Option (List (List EntityID)) :=
  if workers ≤ 1 then some [entities]
  else do
    let n : Int := entities.length
    let workers := if workers > n then n else workers
    let chunk ← goDivide (n + workers - 1) workers
    (List.range workers.toNat).mapM fun (i : Nat) =>
      let start := (i : Int) * chunk
      if start ≥ n then goSlice entities n n
      else
        let stop := start + chunk
        goSlice entities start (if stop > n then n else stop)

theorem goSlice_natCast {α : Type} {xs : List α} {low high : Nat}
    (ordered : low ≤ high) (lt : high ≤ xs.length) :
    goSlice xs low high = some ((xs.take high).drop low) := by
  rw [goSlice, if_pos (by omega)]
  simp

variable {entities : List EntityID}

theorem partitionChecked_eq (nonempty : entities ≠ []) (workers : Int) :
    partitionChecked entities workers = some (partition entities workers) := by
  unfold partitionChecked partition
  split
  · rfl
  · rename_i several
    have pos : 0 < entities.length := length_pos_iff.mpr nonempty
    obtain ⟨count, capped, countEq⟩ : ∃ count : Nat,
        0 < count ∧ min workers.toNat entities.length = count := ⟨_, by omega, rfl⟩
    have clamped : (if workers > (entities.length : Int) then
        (entities.length : Int) else workers) = count := by
      split <;> omega
    obtain ⟨chunk, chunkEq⟩ : ∃ chunk : Nat,
        (entities.length + count - 1) / count = chunk := ⟨_, rfl⟩
    have quotient : goDivide (entities.length + count - 1) count = some (chunk : Int) := by
      have dividend : (entities.length : Int) + count - 1 =
          (entities.length + count - 1 : Nat) := by omega
      rw [goDivide, if_neg (by omega), dividend, ← Int.ofNat_tdiv, chunkEq]
    simp only [clamped, quotient, countEq, chunkEq, bind_eq_bind, bind_some, Int.toNat_natCast]
    apply mapM_some_eq_map
    intro i _
    have start : (i : Int) * chunk = (i * chunk : Nat) := by simp
    rw [start]
    by_cases past : i * chunk ≥ entities.length
    · rw [if_pos (by omega), if_pos past, goSlice_natCast (Nat.le_refl _) (Nat.le_refl _)]
      simp
    · have stop : (if ((i * chunk : Nat) : Int) + chunk > entities.length then
          (entities.length : Int) else ((i * chunk : Nat) : Int) + chunk) =
            (min (i * chunk + chunk) entities.length : Nat) := by
        split <;> omega
      rw [if_neg (by omega), if_neg past, stop, goSlice_natCast (by omega) (Nat.min_le_right ..)]

theorem partition_pieces (nonempty : entities ≠ []) (workers : Int) :
    ((partition entities workers).length : Int) = max 1 (min workers entities.length) ∧
      ∀ shard ∈ partition entities workers, (∃ low high, low ≤ high ∧ high ≤ entities.length ∧
          shard = (entities.take high).drop low) ∧ shard.length ≤
          (entities.length + (partition entities workers).length - 1) /
            (partition entities workers).length := by
  have pos : 0 < entities.length := length_pos_iff.mpr nonempty
  by_cases few : workers ≤ 1
  · have single : partition entities workers = [entities] := by
      rw [partition, if_pos few]
    rw [single]
    refine ⟨by simp; omega, ?_⟩
    intro shard mem
    rw [mem_singleton.mp mem]
    exact ⟨⟨0, entities.length, by omega, by omega, by simp⟩, by simp⟩
  · have count : (partition entities workers).length = min workers.toNat entities.length := by
      simp [partition, few]
    refine ⟨by omega, ?_⟩
    intro shard mem
    rw [count]
    simp only [partition, if_neg few, List.mem_map, List.mem_range] at mem
    obtain ⟨i, _, rfl⟩ := mem
    generalize (entities.length + min workers.toNat entities.length - 1) /
      min workers.toNat entities.length = chunk
    generalize i * chunk = start
    split
    · exact ⟨⟨0, 0, by omega, by omega, by simp⟩, by simp⟩
    · rename_i old
      refine ⟨⟨start, min (start + chunk) entities.length, by omega, by omega, rfl⟩, ?_⟩
      rw [length_drop, length_take]
      omega

def ShardRun.isWaiting : ShardRun G → Bool
  | .waiting _ => true
  | _ => false

namespace Scheduler

/-- The calls of `Run` that a move makes, as the positions of the system and of
the shard: by the goroutine that gets a place in the semaphore, or by
`runSystem` itself if there is a single shard. -/
def calls (s : Scheduler G) (st : RunState G) :
    SchedulerMove → List (Nat × Nat)
  | .acquire idx shard => [(idx, shard)]
  | .start idx =>
    match s.systems[idx]? with
    | some sys =>
      if (shardsOf s.workers sys (s.entitiesOf st.world st.cache idx)).length = 1
      then [(idx, 0)] else []
    | none => []
  | _ => []

/-- The states a call of `run` gets to while its context is not done, with the
calls of `Run` made so far. -/
inductive Calling (s : Scheduler G) (start : RunState G) :
    RunState G → List (Nat × Nat) → Prop
  | refl : Calling s start start []
  | step {st next : RunState G} {made : List (Nat × Nat)}
      {move : SchedulerMove} (before : Calling s start st made)
      (moved : s.step false st move = some next) : Calling s start next (made ++ s.calls st move)

/-- How often `Run` has been called on each shard of a system. -/
inductive Counts (sys : System G) (shards : List (List EntityID))
    (called : Nat → Nat) : SystemRun G → Prop
  | pending (never : ∀ j, called j = 0) : Counts sys shards called .pending
  | active {runs : List (ShardRun G)} {errors : List RunError}
      (length : runs.length = shards.length) (started : ∀ (j : Nat) run, runs[j]? = some run →
        called j = if run.isWaiting then 0 else 1) (outside : ∀ j, shards.length ≤ j → called j = 0)
      (bodies : ∀ (j : Nat) body, runs[j]? = some (ShardRun.waiting body) →
        ∃ shard, shards[j]? = some shard ∧ body = sys.run shard) :
      Counts sys shards called (.active runs errors)
  | returned (once : ∀ j, called j = if j < shards.length then 1 else 0) :
      Counts sys shards called .returned

def Accounted (s : Scheduler G) (made : List (Nat × Nat)) (st : RunState G) : Prop :=
  ∀ (idx : Nat) sys run, s.systems[idx]? = some sys → st.runs[idx]? = some run →
    Counts sys (shardsOf s.workers sys (st.cache idx).ids) (fun j => made.count (idx, j)) run

namespace Counts

variable {sys : System G} {shards : List (List EntityID)} {called : Nat → Nat}
  {runs : List (ShardRun G)} {errors : List RunError}

theorem launch {workers : Int} (never : ∀ j, called j = 0) :
    Counts sys (shardsOf workers sys entities) (fun j => called j +
        if (shardsOf workers sys entities).length = 1 ∧ j = 0 then 1 else 0)
      (Simulator.launch workers sys entities) := by
  rw [launch_eq]
  split
  · rename_i none
    rw [none]
    exact .returned fun j => by simp [never]
  generalize shardsOf workers sys entities = shards
  have started (j : Nat) (run : ShardRun G)
      (held : (shards.map (launchShard sys shards.length))[j]? = some run) :
      ∃ shard, shards[j]? = some shard ∧ run = launchShard sys shards.length shard := by
    rw [getElem?_map] at held
    obtain ⟨shard, hit, rfl⟩ := map_eq_some_iff.mp held
    exact ⟨shard, hit, rfl⟩
  by_cases single : shards.length = 1
  · refine .active (by simp) ?_ ?_ ?_
    · intro j run held
      obtain ⟨shard, hit, rfl⟩ := started j run held
      have first := (List.getElem?_eq_some_iff.mp hit).1
      simp [never, single, launchShard, isWaiting]
      omega
    · intro j ge
      have later : j ≠ 0 := by omega
      simp [never, later]
    · intro j body held
      obtain ⟨shard, _, eq⟩ := started j _ held
      rw [launchShard, if_pos single] at eq
      cases eq
  · refine .active (by simp) ?_ ?_ ?_
    · intro j run held
      obtain ⟨shard, _, rfl⟩ := started j run held
      simp [never, single, launchShard, isWaiting]
    · intro j _
      simp [never, single]
    · intro j body held
      obtain ⟨shard, hit, eq⟩ := started j _ held
      rw [launchShard, if_neg single] at eq
      cases eq
      exact ⟨shard, hit, rfl⟩

theorem goOn (counts : Counts sys shards called (.active runs errors))
    {j : Nat} {cur changed : ShardRun G} (held : runs[j]? = some cur)
    (going : changed.isWaiting = false) (later : List RunError) :
    Counts sys shards (fun i => called i + if i = j ∧ cur.isWaiting = true then 1 else 0)
      (.active (runs.set j changed) later) := by
  cases counts with
  | active length started ge bodies =>
    have lt := (List.getElem?_eq_some_iff.mp held).1
    refine .active (by simpa using length) ?_ ?_ ?_
    · intro i run hit
      rcases getElem?_set_cases hit with ⟨rfl, rfl⟩ | ⟨ne, old⟩
      · rw [started i cur held, going]
        cases cur.isWaiting <;> simp
      · simp [started i run old, ne]
    · intro i beyond
      have eq : i ≠ j := by omega
      simp [ge i beyond, eq]
    · intro i body hit
      rcases getElem?_set_cases hit with ⟨_, rfl⟩ | ⟨_, old⟩
      · cases going
      · exact bodies i body old

theorem join (counts : Counts sys shards called (.active runs errors))
    (allReturned : ∀ run ∈ runs, run = .returned) : Counts sys shards called .returned := by
  cases counts with
  | active length started ge bodies =>
    refine .returned fun j => ?_
    by_cases lt : j < shards.length
    · have held := getElem?_eq_getElem (length ▸ lt : j < runs.length)
      have done := allReturned _ (getElem_mem (length ▸ lt))
      rw [started j _ held, done, if_pos lt]
      rfl
    · rw [ge j (by omega), if_neg lt]

end Counts

variable {s : Scheduler G} {made : List (Nat × Nat)} {st next : RunState G} {idx : Nat}
  {more : List (Nat × Nat)} {move : SchedulerMove}

section

variable (accounted : s.Accounted made st)
include accounted

theorem Accounted.change {run : SystemRun G} (runs : next.runs = st.runs.set idx run)
    (cache : ∀ other, other ≠ idx → next.cache other = st.cache other)
    (own : ∀ call ∈ more, call.1 = idx) (counts : ∀ sys, s.systems[idx]? = some sys →
      Counts sys (shardsOf s.workers sys (next.cache idx).ids)
        (fun j => (made ++ more).count (idx, j)) run) : s.Accounted (made ++ more) next := by
  intro other sys hit system held
  rcases getElem?_set_cases (runs ▸ held) with ⟨rfl, rfl⟩ | ⟨ne, heldBefore⟩
  · exact counts sys system
  · have old := accounted other sys hit system heldBefore
    have unaffected : ∀ j, more.count (other, j) = 0 := by
      intro j
      rw [count_eq_zero]
      intro mem
      exact ne (own _ mem)
    simpa [cache other ne, unaffected] using old

theorem Accounted.shard {j : Nat}
    (moved : moveShard st idx j (s.shardMove false st.world move) = some next)
    (counted : ∀ shards cur changed error world,
      s.shardMove false st.world move shards cur = some (changed, error, world) →
      changed.isWaiting = false ∧ more = if cur.isWaiting then [(idx, j)] else []) :
    s.Accounted (made ++ more) next := by
  obtain ⟨shards, errors, cur, changed, error, world, active, held,
    ownMove, rfl⟩ := moveShard_eq_some moved
  obtain ⟨going, rfl⟩ := counted shards cur changed error world ownMove
  refine accounted.change rfl (fun _ _ => rfl) ?_ ?_
  · intro call mem
    split at mem
    · rw [mem_singleton.mp mem]
    · cases mem
  · intro sys system
    have old := (accounted idx sys _ system active).goOn held going (errors ++ error.toList)
    have added : ∀ i, (if cur.isWaiting then [(idx, j)] else []).count
        (idx, i) = if i = j ∧ cur.isWaiting = true then 1 else 0 := by
      intro i
      cases cur.isWaiting
      · simp
      · by_cases eq : i = j <;> simp [eq, Ne.symm]
    simpa [added] using old

theorem Accounted.same (runs : next.runs = st.runs) (cache : next.cache = st.cache) :
    s.Accounted (made ++ []) next := by
  intro idx sys run system held
  rw [runs] at held
  rw [cache, append_nil]
  exact accounted idx sys run system held

theorem Accounted.start (moved : s.start st idx = some next) :
    s.Accounted (made ++ s.calls st (.start idx)) next := by
  revert moved
  fun_cases Scheduler.start <;> rintro ⟨⟩
  rename_i sys pending system _ _ set
  have entities : s.entitiesOf st.world st.cache idx = set.ids := by
    simp [entitiesOf, system, set]
  simp only [calls, system, entities]
  refine accounted.change rfl (fun _ ne => Function.update_of_ne ne _ _) ?_ ?_
  · intro call mem
    split at mem
    · rw [mem_singleton.mp mem]
    · cases mem
  · intro other hit
    cases system.symm.trans hit
    cases accounted idx sys .pending system pending with
    | pending never =>
      have began : Counts sys (shardsOf s.workers sys set.ids) _ _ := Counts.launch never
      have added : ∀ j, (if (shardsOf s.workers sys set.ids).length = 1
          then [(idx, 0)] else []).count (idx, j) =
            if (shardsOf s.workers sys set.ids).length = 1 ∧ j = 0 then 1 else 0 := by
        intro j
        split
        · by_cases first : j = 0 <;> simp_all [Ne.symm]
        · simp_all
      simpa [added] using began

end

theorem isWaiting_of_shardMove {w world : World G} {shards : List (ShardRun G)}
    {cur changed : ShardRun G} {error : Option RunError}
    (own : s.shardMove false w move shards cur = some (changed, error, world)) :
    changed.isWaiting = false ∧ (cur.isWaiting = true ↔ ∃ idx j, move = .acquire idx j) := by
  revert own
  fun_cases s.shardMove false w move shards cur <;> rintro ⟨⟩
  all_goals simp_all [isWaiting]

theorem Accounted.step (accounted : s.Accounted made st)
    (moved : s.step false st move = some next) : s.Accounted (made ++ s.calls st move) next := by
  unfold Scheduler.step at moved
  split at moved
  · cases moved
  · revert moved
    cases move with
    | start idx => exact accounted.start
    | acquire idx j | cancel idx j | act idx j | release idx j =>
      refine fun moved => accounted.shard moved fun shards cur changed error world own => ?_
      obtain ⟨going, waits⟩ := isWaiting_of_shardMove own
      exact ⟨going, by simp [waits, calls]⟩
    | join idx =>
      dsimp only
      fun_cases Scheduler.join <;> rintro ⟨⟩
      rename_i shards errors active allReturned
      refine accounted.change rfl (fun _ _ => rfl) (by simp [calls]) fun sys system => ?_
      have old := accounted idx sys _ system active
      simpa [calls] using old.join fun run mem =>
        isReturned_iff.mp (all_eq_true.mp allReturned run mem)
    | advance =>
      dsimp only
      fun_cases Scheduler.advance <;> rintro ⟨⟩ <;> exact accounted.same rfl rfl

theorem accounted_begin (s : Scheduler G) (w : World G)
    (cache : Nat → EntitySet) : s.Accounted [] (s.begin w cache) := by
  intro idx sys run system held
  simp only [begin, getElem?_map] at held
  obtain ⟨_, _, rfl⟩ := map_eq_some_iff.mp held
  exact .pending fun j => rfl

def InProgress (st : RunState G) : Prop :=
  ∀ (idx : Nat) shards errors, st.runs[idx]? = some (.active shards errors) →
    ∃ level rest, st.levels = level :: rest ∧ idx ∈ level

/-- Nobody is in progress once `run` has returned. -/
def Settled (st : RunState G) : Prop :=
  InProgress st ∧ (st.result.isSome = true → ∀ (idx : Nat) shards errors,
      st.runs[idx]? ≠ some (.active shards errors))

theorem Settled.step {cancelled : Bool} (settled : Settled st)
    (running : st.result = none) (moved : Moves s cancelled st next) : Settled next := by
  have stillRunning : ∀ after : RunState G, after.result = st.result →
      InProgress after → Settled after := by
    intro after eq inProgress
    refine ⟨inProgress, fun done => ?_⟩
    rw [eq, running] at done
    cases done
  cases moved with
  | @start level rest idx sys levels mem system pending =>
    refine stillRunning _ rfl fun other shards errors active => ?_
    rcases getElem?_set_cases active with ⟨rfl, _⟩ | ⟨_, old⟩
    · exact ⟨level, rest, levels, mem⟩
    · exact settled.1 other shards errors old
  | @shard idx j shards errors cur changed error world active held own
  | @join idx shards errors active ret =>
    refine stillRunning _ rfl fun other others otherErrors otherActive => ?_
    rcases getElem?_set_cases otherActive with ⟨rfl, _⟩ | ⟨_, old⟩
    · exact settled.1 other shards errors active
    · exact settled.1 other others otherErrors old
  | @nextLevel level rest levels ret noError =>
    refine stillRunning _ rfl ?_
    intro idx shards errors active
    obtain ⟨cur, others, hit, mem⟩ := settled.1 idx shards errors active
    cases levels.symm.trans hit
    cases (ret idx mem).symm.trans active
  | @fail level rest error errors levels ret someError =>
    refine ⟨settled.1, fun _ idx shards errors active => ?_⟩
    obtain ⟨cur, others, hit, mem⟩ := settled.1 idx shards errors active
    cases levels.symm.trans hit
    cases (ret idx mem).symm.trans active
  | finish levels =>
    refine ⟨settled.1, fun _ idx shards errors active => ?_⟩
    obtain ⟨cur, others, hit, _⟩ := settled.1 idx shards errors active
    cases levels.symm.trans hit

namespace Calling

variable {start : RunState G}

section

variable (calling : s.Calling start st made)
include calling

theorem reaches : s.Reaches start st := by
  induction calling with
  | refl => exact .refl
  | step _ moved ih => exact ih.tail ⟨false, _, moved⟩

theorem accounted (initial : s.Accounted [] start) : s.Accounted made st := by
  induction calling with
  | refl => exact initial
  | step _ moved ih => exact ih.step moved

theorem settled (initial : Settled start) : Settled st := by
  induction calling with
  | refl => exact initial
  | step _ moved ih =>
    obtain ⟨running, moves⟩ := moves_of_step ⟨_, moved⟩
    exact ih.step running moves

theorem finish (sized : Sized s start) :
    ∃ last more, s.Calling start last (made ++ more) ∧ last.result.isSome = true := by
  induction st using (wellFounded_step s).induction generalizing made with
  | _ st ih =>
    cases running : st.result with
    | some res =>
      exact ⟨st, [], by simpa using calling, by simp [running]⟩
    | none =>
      obtain ⟨next, move, moved⟩ := exists_step (sized.reaches calling.reaches) running
      obtain ⟨last, more, whole, done⟩ := ih next ⟨false, move, moved⟩ (calling.step moved)
      exact ⟨last, s.calls st move ++ more, by simpa using whole, done⟩

end

end Calling

theorem settled_begin (s : Scheduler G) (w : World G)
    (cache : Nat → EntitySet) : Settled (s.begin w cache) := by
  refine ⟨?_, ?_⟩
  · intro idx shards errors active
    simp only [begin, getElem?_map] at active
    obtain ⟨_, _, no⟩ := map_eq_some_iff.mp active
    cases no
  · intro done
    cases done

theorem shards_run_once : (∀ entities : List EntityID, entities ≠ [] → ∀ workers : Int,
      ∃ shards, partitionChecked entities workers = some shards ∧
        (shards.length : Int) = max 1 (min workers entities.length) ∧ shards.flatten = entities ∧
        ∀ shard ∈ shards, (∃ low high, low ≤ high ∧ high ≤ entities.length ∧
            shard = (entities.take high).drop low) ∧ shard.length ≤
            (entities.length + shards.length - 1) / shards.length) ∧
      ∀ (s : Scheduler G) (w : World G) (cache : Nat → EntitySet)
        (st : RunState G) (made : List (Nat × Nat)), s.Calling (s.begin w cache) st made →
        (∀ (idx : Nat) sys, s.systems[idx]? = some sys →
          st.runs[idx]? = some .returned → ∀ j, made.count (idx, j) =
            if j < (shardsOf s.workers sys (st.cache idx).ids).length
              then 1 else 0) ∧
        (∀ (idx : Nat) sys shards errors (j : Nat) body, s.systems[idx]? = some sys →
          st.runs[idx]? = some (.active shards errors) → shards[j]? = some (.waiting body) →
          ∃ shard, (shardsOf s.workers sys (st.cache idx).ids)[j]? =
            some shard ∧ body = sys.run shard) ∧
        ∃ last more, s.Calling (s.begin w cache) last (made ++ more) ∧ last.result.isSome = true ∧
          ∀ (idx : Nat) shards errors, last.runs[idx]? ≠ some (.active shards errors) := by
  constructor
  · intro entities nonempty workers
    obtain ⟨count, pieces⟩ := partition_pieces nonempty workers
    exact ⟨partition entities workers, partitionChecked_eq nonempty workers,
      count, flatten_partition nonempty workers, pieces⟩
  · intro s w cache st made calling
    have accounted := calling.accounted (accounted_begin s w cache)
    refine ⟨?_, ?_, ?_⟩
    · intro idx sys system returned
      cases accounted idx sys _ system returned with
      | returned once => exact once
    · intro idx sys shards errors j body system active waiting
      cases accounted idx sys _ system active with
      | active length started outside bodies => exact bodies j body waiting
    · obtain ⟨last, more, whole, done⟩ := calling.finish (sized_begin s w cache)
      exact ⟨last, more, whole, done, (whole.settled (settled_begin s w cache)).2 done⟩

end Scheduler

end Simulator
