import Simulator.LevelPools
import Simulator.SchedulerRuns

/-!
# The scheduler refines its pools

A call of `run` that has lost no shard is some way into an interleaving of the pool of
its level.
-/

namespace Simulator

open Interleaving List Option Function ShardRun SystemRun

variable {G : GoTypes}

def RunState.level (st : RunState G) : List Nat :=
  st.levels.headD []

def ShardRun.body : ShardRun G → Process (World G) (Option RunError)
  | .waiting body => body
  | .running body => body
  | .returned => .halt none

/-- What the goroutine of one shard has left to do; `pending` is all of
it. -/
def SystemRun.bodyOf (pending : Nat → Process (World G) (Option RunError))
    (shard : Nat) : SystemRun G → Process (World G) (Option RunError)
  | .pending => pending shard
  | .active shards _ => (shards[shard]?).elim (.halt none) ShardRun.body
  | .returned => .halt none

theorem launch_cases (workers : Int) (sys : System G) (es : List EntityID) :
    (shardsOf workers sys es = [] ∧ launch workers sys es = .returned) ∨
      ∃ shards, launch workers sys es = .active shards [] ∧ shards.map body =
          (shardsOf workers sys es).map sys.run := by
  unfold launch shardsOf
  split
  · exact .inl ⟨rfl, rfl⟩
  · right
    split
    · rename_i shard single
      exact ⟨_, rfl, by rw [single]; rfl⟩
    · exact ⟨_, rfl, by rw [List.map_map]; rfl⟩

namespace Scheduler

section Runs

variable (s : Scheduler G) (w : World G) (cache : Nat → EntitySet)

def bodiesIn (level : List Nat) (st : RunState G) (thread : Nat × Nat) :
    Process (World G) (Option RunError) :=
  if thread.1 ∈ level then
    (st.runs[thread.1]?).elim (.halt none) fun run =>
      run.bodyOf (fun shard => s.bodyAt w cache level (thread.1, shard)) thread.2
  else .halt none

/-- A call of `run` that has lost no shard: the levels before the current one
have run as if one after another, and the current one is on its way. -/
structure OnTrack (done : List (List Nat)) (st : RunState G) : Prop where
  split : s.levels = done ++ st.levels
  noErrors : st.errors = []
  result : st.result = none ∨ st.result = some (.ok ()) ∧ st.levels = []
  active : ∀ idx shards errors, st.runs[idx]? = some (.active shards errors) →
      idx ∈ st.level ∧ errors = [] ∧ ∀ shard ∈ shards, shard.body.Returns none
  fresh : ∀ idx : Nat, st.runs[idx]? = some .pending → st.cache idx = cache idx
  later : ∀ level ∈ st.levels.tail, ∀ idx ∈ level, st.runs[idx]? = some .pending
  reaches : Pool.Reaches ⟨done.flatten.foldl (s.execSystem w cache) w, s.bodyAt w cache st.level⟩
    ⟨st.world, s.bodiesIn w cache st.level st⟩

def Failed (st : RunState G) : Prop :=
  st.result = none ∧ st.levels ≠ [] ∧ (st.errors ≠ [] ∨ ∃ idx ∈ st.level, ∃ shards errors,
      st.runs[idx]? = some (.active shards errors) ∧ errors ≠ [])

variable {s w cache} {level : List Nat} {st : RunState G} {next : RunState G} {idx : Nat}
  {old : SystemRun G}

section

variable {run : SystemRun G} (held : st.runs[idx]? = some old)
  (runsEq : next.runs = st.runs.set idx run)
include held runsEq

theorem bodiesIn_set (thread : Nat × Nat) :
    s.bodiesIn w cache level next thread =
      if thread.1 = idx ∧ idx ∈ level then
        run.bodyOf (fun shard => s.bodyAt w cache level (idx, shard)) thread.2
      else s.bodiesIn w cache level st thread := by
  have lt := (List.getElem?_eq_some_iff.mp held).1
  unfold bodiesIn
  rw [runsEq]
  by_cases eq : thread.1 = idx
  · subst eq
    by_cases inLevel : thread.1 ∈ level
    · simp [inLevel, lt]
    · simp [inLevel]
  · simp [eq, getElem?_set_ne (Ne.symm eq)]

theorem bodiesIn_eq_of_set (eq : idx ∈ level → ∀ shard,
      run.bodyOf (fun shard => s.bodyAt w cache level (idx, shard)) shard =
        old.bodyOf (fun shard => s.bodyAt w cache level (idx, shard)) shard) :
    s.bodiesIn w cache level next = s.bodiesIn w cache level st := by
  funext thread
  rw [bodiesIn_set held runsEq]
  split
  · rename_i own
    obtain ⟨rfl, inLevel⟩ := own
    rw [eq inLevel, bodiesIn, if_pos inLevel, held]
    rfl
  · rfl

end

theorem bodiesIn_of_pending (pending : ∀ idx ∈ level, st.runs[idx]? = some .pending) :
    s.bodiesIn w cache level st = s.bodyAt w cache level := by
  funext thread
  unfold bodiesIn
  split
  · rename_i inLevel
    rw [pending _ inLevel]
    rfl
  · rename_i ge
    have absent : s.shardAt w cache level thread = none := if_neg ge
    rw [bodyAt, absent]
    rfl

namespace OnTrack

variable {done : List (List Nat)} {st next : RunState G}

theorem level_mem (track : s.OnTrack w cache done st) : ∀ idx ∈ st.level, st.level ∈ s.levels := by
  intro idx inLevel
  unfold RunState.level at inLevel ⊢
  cases levels : st.levels with
  | nil =>
    rw [levels] at inLevel
    cases inLevel
  | cons level rest => simp [track.split, levels]

theorem alike (obliging : s.Obliging w cache)
    (track : s.OnTrack w cache done st) : w.SameFrame st.world := by
  have base := alike_foldl obliging done.flatten
  have undisturbed := Pool.Undisturbed.reaches (footprintAt_spares obliging track.level_mem)
    (fun thread => (within_bodyAt obliging st.level thread).of_alike base) track.reaches
  exact (World.store G).equivalence.trans base undisturbed.alike

variable {idx : Nat} {shards : List (ShardRun G)} {j : Nat} {changed : ShardRun G}

theorem set (track : s.OnTrack w cache done st)
    {run : SystemRun G} (inLevel : idx ∈ st.level) (runsEq : next.runs = st.runs.set idx run)
    (levelsEq : next.levels = st.levels) (noErrors : next.errors = [])
    (running : next.result = none) (cacheEq : ∀ other ≠ idx, next.cache other = st.cache other)
    (started : run ≠ .pending) (active : ∀ shards errors, run = .active shards errors →
      errors = [] ∧ ∀ shard ∈ shards, shard.body.Returns none)
    (reaches : Pool.Reaches ⟨st.world, s.bodiesIn w cache st.level st⟩
      ⟨next.world, s.bodiesIn w cache st.level next⟩) : s.OnTrack w cache done next := by
  have levelEq : next.level = st.level := by
    unfold RunState.level
    rw [levelsEq]
  refine ⟨by rw [levelsEq]; exact track.split, noErrors, .inl running, ?_, ?_, ?_, ?_⟩
  · intro other shards errors isActive
    rw [levelEq]
    rcases getElem?_set_cases (runsEq ▸ isActive) with ⟨rfl, isRun⟩ | ⟨_, before⟩
    · exact ⟨inLevel, active shards errors isRun.symm⟩
    · exact track.active other shards errors before
  · intro other isPending
    rcases getElem?_set_cases (runsEq ▸ isPending) with ⟨_, isRun⟩ | ⟨ne, before⟩
    · exact absurd isRun.symm started
    · rw [cacheEq other ne]
      exact track.fresh other before
  · intro level mem other inLater
    rw [levelsEq] at mem
    have ne : idx ≠ other := by
      rintro rfl
      exact Scheduler.notMem_later track.split inLevel level mem inLater
    rw [runsEq, getElem?_set_ne ne]
    exact track.later level mem other inLater
  · rw [levelEq]
    exact track.reaches.trans reaches

theorem keep (track : s.OnTrack w cache done st)
    {old run : SystemRun G} (held : st.runs[idx]? = some old) (inLevel : idx ∈ st.level)
    (runsEq : next.runs = st.runs.set idx run) (worldEq : next.world = st.world)
    (levelsEq : next.levels = st.levels) (noErrors : next.errors = [])
    (running : next.result = none) (cacheEq : ∀ other ≠ idx, next.cache other = st.cache other)
    (started : run ≠ .pending) (active : ∀ shards errors, run = .active shards errors →
      errors = [] ∧ ∀ shard ∈ shards, shard.body.Returns none) (eq : ∀ shard,
      run.bodyOf (fun shard => s.bodyAt w cache st.level (idx, shard)) shard =
        old.bodyOf (fun shard => s.bodyAt w cache st.level (idx, shard)) shard) :
    s.OnTrack w cache done next := by
  refine track.set inLevel runsEq levelsEq noErrors running cacheEq started active ?_
  rw [bodiesIn_eq_of_set held runsEq fun _ => eq, worldEq]
  exact Relation.ReflTransGen.refl

theorem start (obliging : s.Obliging w cache)
    (track : s.OnTrack w cache done st) (running : st.result = none)
    {sys : System G} (inLevel : idx ∈ st.level) (system : s.systems[idx]? = some sys)
    (pending : st.runs[idx]? = some .pending) :
    s.OnTrack w cache done { st with
      cache := update st.cache idx (entitySet st.world (st.cache idx) sys)
      runs := st.runs.set idx (launch s.workers sys
        (entitySet st.world (st.cache idx) sys).ids) } := by
  have idsEq : (entitySet st.world (st.cache idx) sys).ids =
      s.entitiesOf w cache idx := by
    rw [track.fresh idx pending, ← (track.alike obliging).entitySet_eq (cache idx) sys]
    simp [entitiesOf, system]
  have pendingBody : ∀ shard, s.bodyAt w cache st.level (idx, shard) =
      (((shardsOf s.workers sys (s.entitiesOf w cache idx)).map
        sys.run)[shard]?).getD (.halt none) := by
    intro shard
    unfold bodyAt shardAt
    rw [if_pos inLevel, system, bind_some, getElem?_map]
    cases (shardsOf s.workers sys (s.entitiesOf w cache idx))[shard]? <;> rfl
  have began := launch_cases s.workers sys (s.entitiesOf w cache idx)
  rw [idsEq]
  refine track.keep pending inLevel rfl rfl rfl track.noErrors running ?_ launch_ne_pending ?_ ?_
  · intro other ne
    simp [update_of_ne ne]
  · intro shards errors isLaunched
    rcases began with ⟨_, isReturned⟩ | ⟨others, isActive, bodies⟩
    · rw [isReturned] at isLaunched
      cases isLaunched
    · rw [isActive] at isLaunched
      cases isLaunched
      refine ⟨rfl, fun shard mem => ?_⟩
      have inBodies := mem_map_of_mem (f := body) mem
      rw [bodies] at inBodies
      obtain ⟨es, _, bodyEq⟩ := mem_map.mp inBodies
      rw [← bodyEq]
      exact (obliging.contained idx sys system).returns_none es
  · intro shard
    rcases began with ⟨noShards, isReturned⟩ | ⟨shards, isActive, bodies⟩
    · simp [isReturned, bodyOf, pendingBody, noShards]
    · rw [isActive]
      simp only [bodyOf, pendingBody, ← bodies, getElem?_map]
      cases shards[shard]? <;> rfl

variable {current : ShardRun G} {cancelled : Bool} {errors : List RunError}

theorem elim_body_set (held : shards[j]? = some current)
    (bodyEq : changed.body = current.body) (shard : Nat) :
    ((shards.set j changed)[shard]?).elim (.halt none) body =
      (shards[shard]?).elim (.halt none) body := by
  by_cases eq : j = shard
  · subst eq
    have lt := (List.getElem?_eq_some_iff.mp held).1
    rw [getElem?_set_self lt, held]
    exact bodyEq
  · rw [getElem?_set_ne eq]

theorem returns_set
    (old : ∀ shard ∈ shards, shard.body.Returns none) (new : changed.body.Returns none) :
    ∀ shard ∈ shards.set j changed, shard.body.Returns none := by
  intro shard mem
  rcases mem_or_eq_of_mem_set mem with inOld | rfl
  · exact old shard inOld
  · exact new

section

variable (track : s.OnTrack w cache done st) (running : st.result = none)
  (isActive : st.runs[idx]? = some (.active shards errors))
include track running isActive

theorem shard {error : Option RunError} {world : World G} (held : shards[j]? = some current)
    (moved : ShardMoves s cancelled st.world shards current changed error world)
    (nextEq : next = { st with
      world := world
      runs := st.runs.set idx (.active (shards.set j changed) (errors ++ error.toList)) }) :
    s.OnTrack w cache done next ∨ cancelled = true ∧ Failed next := by
  obtain ⟨inLevel, noErrors, returns⟩ := track.active idx shards errors isActive
  have currentReturns := returns current (mem_of_getElem? held)
  subst noErrors nextEq
  cases moved with
  | acquire body free =>
    left
    refine track.keep isActive inLevel rfl rfl rfl track.noErrors running
      (fun _ _ => rfl) (by simp) ?_ (elim_body_set held rfl)
    intro _ _ eq
    cases eq
    exact ⟨rfl, returns_set returns currentReturns⟩
  | cancel body isDone =>
    have notOver : st.levels ≠ [] := by
      intro finished
      simp [RunState.level, finished] at inLevel
    exact .inr ⟨isDone, running, notOver, .inr ⟨idx, inLevel,
      shards.set j .returned, [.contextCanceled], getElem?_set_self
        (List.getElem?_eq_some_iff.mp isActive).1, by simp⟩⟩
  | act effect rest =>
    left
    refine track.set inLevel rfl rfl track.noErrors running
      (fun _ _ => rfl) (by simp) ?_ (Relation.ReflTransGen.single ?_)
    · intro _ _ eq
      cases eq
      exact ⟨rfl, returns_set returns (currentReturns st.world)⟩
    · have acting : s.bodiesIn w cache st.level st (idx, j) =
          .act effect rest := by
        simp [bodiesIn, inLevel, isActive, bodyOf, held, body]
      have updated : s.bodiesIn w cache st.level { st with
          world := effect st.world
          runs := st.runs.set idx (.active (shards.set j (.running (rest st.world)))
              ([] ++ toList none)) } =
          update (s.bodiesIn w cache st.level st) (idx, j) (rest st.world) := by
        funext thread
        rw [bodiesIn_set isActive rfl]
        by_cases own : thread = (idx, j)
        · subst own
          have lt := (List.getElem?_eq_some_iff.mp held).1
          simp [inLevel, bodyOf, lt, body]
        · rw [update_of_ne own]
          split
          · rename_i sameSystem
            have other : j ≠ thread.2 := fun eq =>
              own (Prod.ext sameSystem.1 eq.symm)
            obtain ⟨rfl, _⟩ := sameSystem
            simp [bodiesIn, inLevel, isActive, bodyOf, getElem?_set_ne other]
          · rfl
      rw [updated]
      exact Pool.Step.act ⟨st.world, _⟩ (idx, j) effect rest acting
  | release error =>
    left
    have noError : error = none := currentReturns
    subst noError
    refine track.keep isActive inLevel rfl rfl rfl track.noErrors running
      (fun _ _ => rfl) (by simp) ?_ (elim_body_set held rfl)
    intro _ _ eq
    cases eq
    exact ⟨rfl, returns_set returns rfl⟩

theorem join (ret : ∀ shard ∈ shards, shard = .returned) :
    s.OnTrack w cache done { st with
      runs := st.runs.set idx .returned
      errors := st.errors ++ errors.head?.toList } := by
  obtain ⟨inLevel, noErrors, _⟩ := track.active idx shards errors isActive
  subst noErrors
  refine track.keep isActive inLevel rfl rfl rfl ?_ running (fun _ _ => rfl) (by simp) ?_ ?_
  · simp [track.noErrors]
  · intro _ _ eq
    cases eq
  · intro shard
    simp only [bodyOf]
    cases held : shards[shard]? with
    | none => rfl
    | some current =>
      rw [ret current (mem_of_getElem? held)]
      rfl

end

section

variable (obliging : s.Obliging w cache) (track : s.OnTrack w cache done st)
include obliging track

theorem world_eq (ret : ∀ idx ∈ st.level, st.runs[idx]? = some .returned) :
    st.world = (done ++ [st.level]).flatten.foldl (s.execSystem w cache) w := by
  have base := alike_foldl obliging done.flatten
  have nodup : st.level.Nodup := by
    by_cases empty : st.level = []
    · rw [empty]
      exact nodup_nil
    · obtain ⟨idx, inLevel⟩ := exists_mem_of_ne_nil _ empty
      obtain ⟨_, _, levelEq⟩ := mem_level_iff.mp (track.level_mem idx inLevel)
      rw [levelEq]
      exact nodup_range.filter _
  have halted : ∀ thread, s.bodiesIn w cache st.level st thread =
      .halt none := by
    intro thread
    unfold bodiesIn
    split
    · rename_i inLevel
      rw [ret _ inLevel]
      rfl
    · rfl
  have ended := Pool.shared_eq_foldl (s.threadsOf w cache st.level) (nodup_threadsOf nodup)
    (fun _ ge => ⟨none, bodyAt_of_notMem ge⟩) (footprintAt_spares obliging track.level_mem)
    (fun thread => (within_bodyAt obliging st.level thread).of_alike base)
    track.reaches fun thread => ⟨none, halted thread⟩
  rw [foldl_bodyAt obliging] at ended
  rw [flatten_append, foldl_append, flatten_singleton]
  exact ended

theorem nextLevel (running : st.result = none)
    {level : List Nat} {rest : List (List Nat)} (levels : st.levels = level :: rest)
    (ret : ∀ idx ∈ level, st.runs[idx]? = some .returned) :
    s.OnTrack w cache (done ++ [level]) { st with levels := rest } := by
  have levelEq : st.level = level := by simp [RunState.level, levels]
  have tailEq : st.levels.tail = rest := by simp [levels]
  have nextPending : ∀ idx ∈ rest.headD [], st.runs[idx]? = some .pending := by
    intro idx mem
    cases rest with
    | nil => cases mem
    | cons following _ =>
      exact track.later following (by simp [tailEq]) idx mem
  refine ⟨by simp [track.split, levels], track.noErrors, .inl running, ?_, track.fresh, ?_, ?_⟩
  · intro idx shards errors isActive
    have inLevel := (track.active idx shards errors isActive).1
    rw [levelEq] at inLevel
    rw [ret idx inLevel] at isActive
    cases isActive
  · intro later mem idx inLater
    refine track.later later ?_ idx inLater
    rw [tailEq]
    exact mem_of_mem_tail mem
  · have ended := track.world_eq obliging (by rw [levelEq]; exact ret)
    rw [levelEq] at ended
    have bodies : s.bodiesIn w cache (rest.headD []) { st with
        levels := rest } = s.bodyAt w cache (rest.headD []) :=
      bodiesIn_of_pending nextPending
    simp only [RunState.level]
    rw [bodies, ← ended]
    exact Relation.ReflTransGen.refl

theorem step (stepped : s.Step cancelled st next) : (∃ done, s.OnTrack w cache done next) ∨
      cancelled = true ∧ Failed next := by
  obtain ⟨running, moved⟩ := moves_of_step stepped
  cases moved with
  | @start level rest idx sys levels mem system pending =>
    have inLevel : idx ∈ st.level := by
      unfold RunState.level
      rw [levels]
      exact mem
    exact .inl ⟨done, track.start obliging running inLevel system pending⟩
  | shard isActive held own =>
    rcases track.shard running isActive held own rfl with onTrack | failed
    · exact .inl ⟨done, onTrack⟩
    · exact .inr failed
  | join isActive ret =>
    exact .inl ⟨done, track.join running isActive ret⟩
  | nextLevel levels ret noError =>
    exact .inl ⟨_, track.nextLevel obliging running levels ret⟩
  | fail levels ret someError =>
    rw [track.noErrors] at someError
    cases someError
  | finish levels =>
    exact .inl ⟨done, track.split, track.noErrors, .inr ⟨rfl, levels⟩,
      track.active, track.fresh, track.later, track.reaches⟩

end

end OnTrack

theorem onTrack_begin (s : Scheduler G) (w : World G) (cache : Nat → EntitySet) :
    s.OnTrack w cache [] (s.begin w cache) := by
  have pending : ∀ idx < s.systems.length, (s.begin w cache).runs[idx]? = some .pending := by
    intro idx lt
    simp [begin, lt]
  have levelsInside := (sized_begin s w cache).inRange
  have firstPending : ∀ idx ∈ (s.begin w cache).level,
      (s.begin w cache).runs[idx]? = some .pending := by
    intro idx mem
    unfold RunState.level at mem
    cases levels : (s.begin w cache).levels with
    | nil =>
      rw [levels] at mem
      cases mem
    | cons level rest =>
      rw [levels] at mem
      exact pending idx (levelsInside level (by simp [levels]) idx mem)
  refine ⟨rfl, rfl, .inl rfl, ?_, fun _ _ => rfl, ?_, ?_⟩
  · intro idx shards errors isActive
    simp only [begin, getElem?_map] at isActive
    obtain ⟨_, _, no⟩ := map_eq_some_iff.mp isActive
    cases no
  · intro level mem idx inLevel
    exact pending idx (levelsInside level (mem_of_mem_tail mem) idx inLevel)
  · rw [bodiesIn_of_pending firstPending]
    exact Relation.ReflTransGen.refl

end Runs

end Scheduler

end Simulator
