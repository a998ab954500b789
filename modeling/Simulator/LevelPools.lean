import Simulator.CommutingFolds
import Simulator.ShardFootprints

/-!
# The goroutines of a level as a pool

The shards of one level are processes with footprints that spare each other.
-/

namespace Simulator

open Interleaving CommutingFolds List Option

variable {G : GoTypes}

namespace Scheduler

structure Obliging (s : Scheduler G) (w : World G)
    (cache : Nat → EntitySet) : Prop where
  distinct : ∀ idx, ((s.entitiesOf w cache idx).map EntityID.key).Nodup
  contained : ∀ (idx : Nat) (sys : System G), s.systems[idx]? = some sys →
    sys.SelfContained w (s.entitiesOf w cache idx)

section Pools

variable (s : Scheduler G) (w : World G) (cache : Nat → EntitySet)

def shardAt (level : List Nat) (thread : Nat × Nat) : Option (System G × List EntityID) :=
  if thread.1 ∈ level then
    (s.systems[thread.1]?).bind fun sys =>
      ((shardsOf s.workers sys (s.entitiesOf w cache thread.1))[thread.2]?).map
        fun shard => (sys, shard)
  else none

def bodyAt (level : List Nat) (thread : Nat × Nat) : Process (World G) (Option RunError) :=
  (s.shardAt w cache level thread).elim (.halt none) fun entry => entry.1.run entry.2

def footprintAt (level : List Nat) (thread : Nat × Nat) : Footprint World.Location :=
  (s.shardAt w cache level thread).elim ⟨∅, ∅⟩ fun entry => entry.1.shardFootprint entry.2

def execSystem (current : World G) (idx : Nat) : World G :=
  match s.systems[idx]? with
  | some sys => (sys.run (s.entitiesOf w cache idx)).exec current
  | none => current

variable {s w cache} {level : List Nat} {thread : Nat × Nat} {j : Nat} {current : World G}

theorem shardAt_eq_some {sys : System G} {shard : List EntityID} :
    s.shardAt w cache level thread = some (sys, shard) ↔
      thread.1 ∈ level ∧ s.systems[thread.1]? = some sys ∧
        (shardsOf s.workers sys (s.entitiesOf w cache thread.1))[thread.2]? =
          some shard := by
  unfold shardAt
  split
  · rename_i mem
    simp only [mem, true_and, bind_eq_some_iff, map_eq_some_iff, Prod.mk.injEq]
    constructor
    · rintro ⟨_, hit, _, held, rfl, rfl⟩
      exact ⟨hit, held⟩
    · rintro ⟨hit, held⟩
      exact ⟨sys, hit, shard, held, rfl, rfl⟩
  · rename_i ge
    simp [ge]

theorem key_ne_of_shards {shards : List (List EntityID)} {i : Nat} {first second : List EntityID}
    (distinct : (shards.flatten.map EntityID.key).Nodup)
    (ne : i ≠ j) (left : shards[i]? = some first) (right : shards[j]? = some second) :
    ∀ e ∈ first, ∀ e' ∈ second, e.key ≠ e'.key := by
  have apart : shards.Pairwise fun left right =>
      ∀ e ∈ left, ∀ e' ∈ right, e.key ≠ e'.key := by
    rw [List.Nodup, pairwise_map, pairwise_flatten] at distinct
    exact distinct.2
  obtain ⟨leftInside, rfl⟩ := List.getElem?_eq_some_iff.mp left
  obtain ⟨rightInside, rfl⟩ := List.getElem?_eq_some_iff.mp right
  rcases Nat.lt_or_gt_of_ne ne with old | after
  · exact pairwise_iff_getElem.mp apart i j leftInside rightInside old
  · intro e mem e' member'
    exact (pairwise_iff_getElem.mp apart j i rightInside leftInside after e' member' e mem).symm

theorem footprintAt_spares (obliging : s.Obliging w cache)
    (isLevel : ∀ idx ∈ level, level ∈ s.levels) (first second : Nat × Nat) (ne : first ≠ second) :
    (s.footprintAt w cache level first).Spares (s.footprintAt w cache level second) := by
  unfold footprintAt
  match left : s.shardAt w cache level first, right : s.shardAt w cache level second with
  | none, _ => exact Set.empty_disjoint _
  | some (sys, shard), none =>
    refine Set.disjoint_left.mpr ?_
    rintro loc _ (no | no)
    · exact no
    · exact no
  | some (sys, shard), some (sys', shard') =>
    obtain ⟨inLevel, hit, held⟩ := shardAt_eq_some.mp left
    obtain ⟨inLevel', found', held'⟩ := shardAt_eq_some.mp right
    by_cases eq : first.1 = second.1
    · rw [eq] at hit held
      rw [hit] at found'
      cases found'
      apply System.shardFootprint_spares_of_disjoint
      refine key_ne_of_shards ?_ ?_ held held'
      · rw [flatten_shardsOf]
        exact obliging.distinct second.1
      · intro samePlace
        exact ne (Prod.ext eq samePlace)
    · exact System.shardFootprint_spares_of_not_conflicts
        (not_conflicts_of_level (isLevel _ inLevel) inLevel inLevel' eq hit found') shard shard'

theorem within_bodyAt (obliging : s.Obliging w cache) (level : List Nat) (thread : Nat × Nat) :
    Within (World.store G) w (s.footprintAt w cache level thread)
      (s.bodyAt w cache level thread) := by
  unfold footprintAt bodyAt
  match hit : s.shardAt w cache level thread with
  | none => trivial
  | some (sys, shard) =>
    obtain ⟨_, system, held⟩ := shardAt_eq_some.mp hit
    refine (obliging.contained _ sys system).within_shard ?_
    intro e mem
    rw [← flatten_shardsOf s.workers sys (s.entitiesOf w cache thread.1)]
    exact mem_flatten.mpr ⟨shard, mem_of_getElem? held, mem⟩

theorem execSystem_alike (obliging : s.Obliging w cache) (alike : w.SameFrame current) (idx : Nat) :
    w.SameFrame (s.execSystem w cache current idx) := by
  unfold execSystem
  split
  · rename_i sys system
    exact ((obliging.contained idx sys system).within_whole fun _ mem => mem).exec_alike alike
  · exact alike

def threadsOf (s : Scheduler G) (w : World G) (cache : Nat → EntitySet)
    (level : List Nat) : List (Nat × Nat) :=
  level.flatMap fun idx =>
    (List.range ((s.systems[idx]?).elim 0 fun sys =>
      (shardsOf s.workers sys (s.entitiesOf w cache idx)).length)).map fun shard => (idx, shard)

theorem nodup_threadsOf (nodup : level.Nodup) : (s.threadsOf w cache level).Nodup := by
  refine nodup_flatMap.mpr ⟨fun idx _ => ?_, ?_⟩
  · exact nodup_range.map fun _ _ eq => (Prod.mk.inj eq).2
  · refine nodup.imp fun ne => ?_
    intro thread inFirst inSecond
    obtain ⟨_, _, rfl⟩ := mem_map.mp inFirst
    obtain ⟨_, _, eq⟩ := mem_map.mp inSecond
    exact ne (Prod.mk.inj eq).1.symm

theorem bodyAt_of_notMem (ge : thread ∉ s.threadsOf w cache level) :
    s.bodyAt w cache level thread = .halt none := by
  unfold bodyAt
  match hit : s.shardAt w cache level thread with
  | none => rfl
  | some (sys, shard) =>
    obtain ⟨inLevel, system, held⟩ := shardAt_eq_some.mp hit
    refine (ge (mem_flatMap.mpr ⟨thread.1, inLevel, ?_⟩)).elim
    refine mem_map.mpr ⟨thread.2, ?_, rfl⟩
    rw [system]
    exact List.mem_range.mpr (List.getElem?_eq_some_iff.mp held).1

theorem foldl_positions {α β : Type*} {byPlace : β → Nat → β} {byElement : β → α → β} {xs : List α}
    (eq : ∀ current pos x, xs[pos]? = some x →
      byPlace current pos = byElement current x) (current : β) :
    (range xs.length).foldl byPlace current =
      xs.foldl byElement current := by
  induction xs using reverseRecOn with
  | nil => rfl
  | append_singleton xs x ih =>
    rw [length_append, length_singleton, range_succ, foldl_append, foldl_append, ih]
    · exact eq _ _ x (by simp)
    · intro current pos other held
      refine eq current pos other ?_
      rw [List.getElem?_append_left (List.getElem?_eq_some_iff.mp held).1]
      exact held

section

variable (obliging : s.Obliging w cache)
include obliging

theorem foldl_bodyAt (level : List Nat) (current : World G) :
    (s.threadsOf w cache level).foldl (fun current thread =>
          (s.bodyAt w cache level thread).exec current) current =
      level.foldl (s.execSystem w cache) current := by
  have oneSystem : ∀ idx ∈ level, ∀ current, ((range ((s.systems[idx]?).elim 0 fun sys =>
        (shardsOf s.workers sys (s.entitiesOf w cache idx)).length)).map
          fun shard => (idx, shard)).foldl
        (fun current thread =>
          (s.bodyAt w cache level thread).exec current) current =
      s.execSystem w cache current idx := by
    intro idx inLevel current
    unfold execSystem
    cases system : s.systems[idx]? with
    | none => simp
    | some sys =>
      have whole := (obliging.contained idx sys system).foldl_exec
        (shardsOf s.workers sys (s.entitiesOf w cache idx)) current
      rw [flatten_shardsOf] at whole
      rw [elim_some, foldl_map]
      refine Eq.trans ?_ whole
      apply foldl_positions
      intro current pos shard held
      have hit := shardAt_eq_some.mpr (show (idx, pos).1 ∈ level ∧ s.systems[(idx, pos).1]? =
          some sys ∧ _ = some shard from ⟨inLevel, system, held⟩)
      rw [bodyAt, hit]
      rfl
  unfold threadsOf
  rw [foldl_flatMap]
  exact foldl_ext _ _ _ fun current idx inLevel =>
    oneSystem idx inLevel current

theorem alike_foldl (indices : List Nat) :
    w.SameFrame (indices.foldl (s.execSystem w cache) w) := by
  have preserved : ∀ current idx, w.SameFrame current →
      w.SameFrame (s.execSystem w cache current idx) :=
    fun _ idx alike => execSystem_alike obliging alike idx
  exact valid_foldl preserved indices ⟨rfl, rfl⟩

theorem execSystem_comm {i : Nat}
    (independent : ∀ a b, s.systems[i]? = some a → s.systems[j]? = some b → conflicts a b = false) :
    Commute (s.execSystem w cache) w.SameFrame i j := by
  intro current alike
  unfold execSystem
  cases first : s.systems[i]? with
  | none => rfl
  | some a =>
    cases second : s.systems[j]? with
    | none => rfl
    | some b =>
      have apart := independent a b first second
      have left := (obliging.contained i a first).within_whole fun _ mem => mem
      have right := (obliging.contained j b second).within_whole fun _ mem => mem
      refine left.exec_comm right ?_ ?_ alike
      · exact System.wholeFootprint_spares_of_not_conflicts apart
      · rw [conflicts_comm] at apart
        exact System.wholeFootprint_spares_of_not_conflicts apart

theorem foldl_levels :
    s.levels.flatten.foldl (s.execSystem w cache) w =
      (range s.systems.length).foldl (s.execSystem w cache) w := by
  have preserved : ∀ current idx, w.SameFrame current →
      w.SameFrame (s.execSystem w cache current idx) :=
    fun _ idx alike => execSystem_alike obliging alike idx
  have kept : s.levels.flatten.Pairwise fun i j =>
      i < j ∨ Commute (s.execSystem w cache) w.SameFrame i j := by
    refine (pairwise_flatten_dependencyLevels s.systems).imp ?_
    rintro i j (ordered | independent)
    · exact .inl ordered
    · exact .inr (execSystem_comm obliging independent)
  exact (foldl_eq_of_pairwise (fun _ _ less => Nat.lt_asymm less) preserved
    (flatten_dependencyLevels_perm s.systems) pairwise_lt_range kept ⟨rfl, rfl⟩).symm

end

theorem runWhole_eq (alike : w.SameFrame current) (idx : Nat) :
    s.runWhole cache current idx = s.execSystem w cache current idx := by
  unfold runWhole execSystem entitiesOf
  cases system : s.systems[idx]? with
  | none => rfl
  | some sys =>
    simp only
    rw [alike.entitySet_eq]

theorem runSerially_eq (obliging : s.Obliging w cache) :
    s.runSerially cache w = (range s.systems.length).foldl (s.execSystem w cache) w := by
  have general : ∀ (indices : List Nat) (current : World G), w.SameFrame current →
        indices.foldl (s.runWhole cache) current =
          indices.foldl (s.execSystem w cache) current := by
    intro indices
    induction indices with
    | nil => exact fun _ _ => rfl
    | cons idx indices ih =>
      intro current alike
      rw [foldl_cons, foldl_cons, runWhole_eq alike]
      exact ih _ (execSystem_alike obliging alike idx)
  exact general _ w ⟨rfl, rfl⟩

end Pools

end Scheduler

end Simulator
