import Simulator.EntityLifecycle
import Simulator.SchedulerLevels
import Simulator.TransitionRuns
import Simulator.WorldMembership

/-!
# Shards own live entities with distinct indices

Two shards touch different slots only if their entities have different indices.
-/

namespace Simulator

open List ComponentStore EntityID EntityManager Column

variable {G : GoTypes} {e : EntityID} {out es : List EntityID}

theorem mem_addEntities : e ∈ addEntities out es ↔ e ∈ out ∨ e ∈ es := by
  unfold addEntities
  induction es generalizing out with
  | nil => simp
  | cons first rest ih =>
    rw [foldl_cons, ih]
    split
    · rename_i known
      constructor
      · rintro (old | later)
        · exact .inl old
        · exact .inr (mem_cons_of_mem _ later)
      · rintro (old | mem)
        · exact .inl old
        · rcases mem_cons.mp mem with rfl | later
          · exact .inl known
          · exact .inr later
    · simp only [mem_append, mem_cons, not_mem_nil, or_false]
      rw [or_assoc]

theorem nodup_addEntities (nodup : out.Nodup) : (addEntities out es).Nodup := by
  unfold addEntities
  induction es generalizing out with
  | nil => exact nodup
  | cons first rest ih =>
    rw [foldl_cons]
    apply ih
    split
    · exact nodup
    · rename_i fresh
      exact nodup_append.mpr ⟨nodup, by simp, fun e old last isLast eq =>
        fresh (mem_singleton.mp isLast ▸ eq ▸ old)⟩

theorem foldl_addEntities (entities : ComponentID → List EntityID)
    (ids : List ComponentID) (out : List EntityID) (nodup : out.Nodup) :
    (ids.foldl (fun out id => addEntities out (entities id)) out).Nodup ∧
      ∀ e, e ∈ ids.foldl (fun out id => addEntities out (entities id)) out ↔
        e ∈ out ∨ ∃ id ∈ ids, e ∈ entities id := by
  induction ids generalizing out with
  | nil => exact ⟨nodup, by simp⟩
  | cons id rest ih =>
    obtain ⟨nodupLast, memberLast⟩ := ih (addEntities out (entities id)) (nodup_addEntities nodup)
    refine ⟨nodupLast, fun e => ?_⟩
    rw [foldl_cons, memberLast, mem_addEntities]
    simp only [mem_cons, exists_eq_or_imp]
    rw [or_assoc]

theorem mem_systemEntities {w : World G} {sys : System G} (mem : e ∈ systemEntities w sys) :
    e ∈ w.entities.ids ∨ ∃ id, e ∈ w.components.entities id := by
  unfold systemEntities at mem
  split at mem
  · exact .inl mem
  · exact .inr ⟨_, mem⟩
  · exact .inr ⟨_, mem⟩
  · have union := (foldl_addEntities w.components.entities
      (sys.reads ++ sys.writes) [] nodup_nil).2 e
    rcases union.mp mem with old | ⟨id, _, held⟩
    · cases old
    · exact .inr ⟨id, held⟩

namespace World

structure Indexed (w : World G) : Prop where
  sound : w.Sound
  within : w.entities.versions.length < 2 ^ 32
  current : w.entities.Current

variable {w next : World G} {op : Operation G}

theorem Indexed.entities (indexed : w.Indexed) : w.entities.Consistent :=
  indexed.sound.entities indexed.within

structure ShardsOwn (w : World G) : Prop where
  alive : ∀ (sys : System G), ∀ e ∈ systemEntities w sys, w.entities.alive e = true
  distinct : ∀ sys : System G, ((systemEntities w sys).map EntityID.index).Nodup
  disjoint : ∀ (sys : System G) (workers : Int) (i j : Nat) (first second : List EntityID), i ≠ j →
    (shardsOf workers sys (systemEntities w sys))[i]? = some first →
    (shardsOf workers sys (systemEntities w sys))[j]? = some second →
    ∀ e ∈ first, ∀ other ∈ second, e.index ≠ other.index

def ListsLive (w : World G) : Prop :=
  ∀ id, ∀ e ∈ w.components.entities id, w.entities.alive e = true

theorem Indexed.entities_nodup (indexed : w.Indexed)
    (id : ComponentID) : (w.components.entities id).Nodup := by
  unfold ComponentStore.entities
  cases held : w.components.cols id with
  | none => exact nodup_nil
  | some col =>
    exact List.Nodup.of_map _ (indexed.sound.columns id col held).nodup

theorem Indexed.systemEntities_nodup (indexed : w.Indexed)
    (sys : System G) : (systemEntities w sys).Nodup := by
  unfold systemEntities
  split
  · exact indexed.entities.dense_nodup
  · exact indexed.entities_nodup _
  · exact indexed.entities_nodup _
  · exact (foldl_addEntities w.components.entities _ [] nodup_nil).1

theorem Indexed.eq_of_alive (indexed : w.Indexed)
    {first second : EntityID} (firstAlive : w.entities.alive first = true)
    (secondAlive : w.entities.alive second = true)
    (eq : first.index = second.index) : first = second := by
  have sameKey : first.key = second.key := congrArg UInt32.toNat eq
  apply eq_of_key_version sameKey
  rw [alive_iff_mem indexed.entities indexed.current] at firstAlive secondAlive
  rw [← indexed.current first firstAlive, ← indexed.current second secondAlive, sameKey]

theorem disjoint_of_flatten_nodup {α : Type*} {pieces : List (List α)}
    (nodup : pieces.flatten.Nodup) {i j : Nat} {first second : List α}
    (ne : i ≠ j) (firstAt : pieces[i]? = some first)
    (secondAt : pieces[j]? = some second) {a : α} (inFirst : a ∈ first) : a ∉ second := by
  rw [nodup_flatten] at nodup
  have pairwise := pairwise_iff_getElem.mp nodup.2
  obtain ⟨iLt, rfl⟩ := List.getElem?_eq_some_iff.mp firstAt
  obtain ⟨jLt, rfl⟩ := List.getElem?_eq_some_iff.mp secondAt
  rcases Nat.lt_or_gt_of_ne ne with old | behind
  · exact fun inSecond => pairwise i j iLt jLt old inFirst inSecond
  · exact fun inSecond => pairwise j i jLt iLt behind inSecond inFirst

theorem Indexed.shardsOwn_iff (indexed : w.Indexed) : w.ShardsOwn ↔ w.ListsLive := by
  constructor
  · intro own id e listed
    -- a system that reads just this component
    exact own.alive ⟨[id], [], false, fun _ => .halt none⟩ e listed
  · intro live
    have alive : ∀ (sys : System G), ∀ e ∈ systemEntities w sys, w.entities.alive e = true := by
      intro sys e mem
      rcases mem_systemEntities mem with inIds | ⟨id, listed⟩
      · exact (alive_iff_mem indexed.entities indexed.current e).mpr inIds
      · exact live id e listed
    refine ⟨alive, ?_, ?_⟩
    · intro sys
      refine List.Nodup.map_on ?_ (indexed.systemEntities_nodup sys)
      intro e mem other otherMember eq
      exact indexed.eq_of_alive (alive sys e mem) (alive sys other otherMember) eq
    · intro sys workers i j first second ne firstAt secondAt e inFirst other inSecond eq
      have flat := flatten_shardsOf workers sys (systemEntities w sys)
      have inSystem : ∀ (k : Nat) (shard : List EntityID),
          (shardsOf workers sys (systemEntities w sys))[k]? = some shard →
          ∀ x ∈ shard, x ∈ systemEntities w sys := by
        intro k shard shardAt x inShard
        rw [← flat]
        exact mem_flatten.mpr ⟨shard, mem_of_getElem? shardAt, inShard⟩
      have equal := indexed.eq_of_alive (alive sys e (inSystem i first firstAt e inFirst))
        (alive sys other (inSystem j second secondAt other inSecond)) eq
      subst equal
      refine disjoint_of_flatten_nodup ?_ ne firstAt secondAt inFirst inSecond
      rw [flat]
      exact indexed.systemEntities_nodup sys

def stepWithin (sortSlice : SortSlice (Event G)) (w : World G)
    (op : Operation G) : Option (World G) :=
  (w.run sortSlice op).bind fun ran =>
    if ran.2.entities.versions.length < 2 ^ 32 then some ran.2 else none

def Tidy (w : World G) : Operation G → Prop
  | .destroy id => w.entities.alive id = true → ∀ component, id ∉ w.components.entities component
  | .column _ component (.set e _) => w.entities.alive e = true ∨
      ∃ holder ∈ w.components.entities component, holder.key = e.key
  | _ => True

variable {sortSlice : SortSlice (Event G)}

theorem run_of_stepWithin (step : w.stepWithin sortSlice op = some next) :
    ∃ reply, w.run sortSlice op = some (reply, next) ∧ next.entities.versions.length < 2 ^ 32 := by
  obtain ⟨⟨reply, after⟩, ran, kept⟩ := Option.bind_eq_some_iff.mp step
  split at kept
  · rename_i within
    cases kept
    exact ⟨reply, ran, within⟩
  · cases kept

theorem indexed_new (metadata : Metadata) : (new metadata : World G).Indexed where
  sound := sound_new metadata
  within := by simp [new, EntityManager.new]
  current := by
    intro e live
    cases live

variable {reply : Reply G}

theorem Indexed.run (indexed : w.Indexed) (ran : w.run sortSlice op = some (reply, next))
    (within : next.entities.versions.length < 2 ^ 32) : next.Indexed := by
  refine ⟨indexed.sound.run ran, within, ?_⟩
  have valid := indexed.entities
  have cur := indexed.current
  cases op with
  | create =>
    obtain ⟨id, entities, made, rfl, rfl⟩ := create_of_run ran
    exact (valid.creates made).current valid cur
  | destroy id =>
    cases ran
    cases isAlive : w.entities.aliveLocked id with
    | false =>
      rw [destroy_of_not_alive isAlive]
      exact cur
    | true =>
      obtain ⟨pos, spot⟩ := exists_position_of_alive isAlive
      rw [destroy_of_alive isAlive spot]
      exact current_release cur ((alive_iff_mem valid cur id).mp isAlive) spot
  | columnOf t id =>
    obtain ⟨_, _, rfl, rfl⟩ := columnOf_of_run ran
    exact cur
  | column t id op =>
    obtain ⟨_, _, rfl, rfl⟩ := column_of_run ran
    exact cur
  | _ =>
    cases ran
    exact cur

theorem Indexed.listsLive_iff (indexed : w.Indexed) :
    w.ListsLive ↔ ∀ id, ∀ e ∈ w.components.entities id, e ∈ w.entities.ids := by
  unfold ListsLive
  simp only [alive_iff_mem indexed.entities indexed.current]
  rfl

theorem listsLive_of_sameMembers (indexed : w.Indexed)
    (indexedNext : next.Indexed) (live : w.ListsLive)
    (eq : SameMembers w next) : next.ListsLive := by
  rw [indexed.listsLive_iff] at live
  rw [indexedNext.listsLive_iff]
  intro id e listed
  rw [← eq.components] at listed
  rw [← eq.ids]
  exact live id e listed

theorem listsLive_set_iff {t : G.Ty} {component : ComponentID}
    {col : Column (G.Value t)} {e : EntityID} {v : G.Value t}
    (live : w.ListsLive) (valid : col.Consistent)
    (hit : w.components.columnOf t component = some col) :
    (∀ id, ∀ other ∈ (w.components.bind t component
        (col.set e v)).entities id, w.entities.alive other = true) ↔ w.entities.alive e = true ∨
        ∃ holder ∈ w.components.entities component, holder.key = e.key := by
  have heldEq := entities_of_columnOf hit
  cases spot : col.place e with
  | some pos =>
    rw [set_of_present v spot]
    have taken : ∃ holder ∈ w.components.entities component, holder.key = e.key := by
      have held := valid.points _ _ spot
      rw [heldEq]
      exact mem_map.mp (mem_of_getElem? held)
    refine iff_of_true ?_ (.inr taken)
    have sameIDs : (col.write pos v).entityIDs = col.entityIDs := rfl
    intro id other listed
    rw [entities_bind_same hit sameIDs] at listed
    exact live id other listed
  | none =>
    rw [set_of_absent v spot]
    have free : ¬∃ holder ∈ w.components.entities component, holder.key = e.key := by
      rintro ⟨holder, listed, sameKey⟩
      rw [heldEq] at listed
      obtain ⟨pos, held⟩ := mem_iff_getElem?.mp (mem_map_of_mem (f := key) listed)
      have again := (valid _ pos).mpr held
      rw [sameKey] at again
      rw [Column.place, again] at spot
      cases spot
    have added : (col.add e v).entityIDs = col.entityIDs ++ [e] := rfl
    constructor
    · intro after
      refine .inl (after component e ?_)
      rw [entities_bind_self, added]
      exact mem_append_right _ (mem_singleton_self e)
    · rintro (isAlive | taken)
      · intro id other listed
        by_cases here : id = component
        · subst here
          rw [entities_bind_self, added, mem_append, mem_singleton] at listed
          rcases listed with old | rfl
          · exact live id other (by rw [heldEq]; exact old)
          · exact isAlive
        · rw [entities_bind_of_ne _ _ _ here] at listed
          exact live id other listed
      · exact (free taken).elim

theorem listsLive_release_iff {id : EntityID} {pos : Nat}
    (indexed : w.Indexed) (live : w.ListsLive) (isAlive : w.entities.alive id = true)
    (spot : SparseIndex.position w.entities.sparse id.key = some pos) :
    (∀ component, ∀ e ∈ w.components.entities component,
        e ∈ (w.entities.release id pos spot).dense) ↔
      ∀ component, id ∉ w.components.entities component := by
  have valid := indexed.entities
  have cur := indexed.current
  have inDense := (alive_iff_mem valid cur id).mp isAlive
  rw [indexed.listsLive_iff] at live
  simp only [mem_release_iff valid cur inDense spot]
  constructor
  · intro remain component listed
    exact (remain component id listed).2 rfl
  · intro unlisted component e listed
    refine ⟨live component e listed, ?_⟩
    rintro rfl
    exact unlisted component listed

theorem listsLive_step_iff (indexed : w.Indexed) (live : w.ListsLive)
    (ran : w.run sortSlice op = some (reply, next))
    (within : next.entities.versions.length < 2 ^ 32) : next.ListsLive ↔ w.Tidy op := by
  have indexedNext := indexed.run ran within
  have kept : SameMembers w next → next.ListsLive :=
    listsLive_of_sameMembers indexed indexedNext live
  cases op with
  | create =>
    obtain ⟨id, entities, created, rfl, rfl⟩ := create_of_run ran
    refine iff_of_true ?_ trivial
    rw [indexed.listsLive_iff] at live
    rw [indexedNext.listsLive_iff]
    intro component e listed
    have denseEq := (indexed.entities.creates created).dense_eq
    change e ∈ entities.dense
    rw [denseEq]
    exact mem_append_left _ (live component e listed)
  | destroy id =>
    cases ran
    cases isAlive : w.entities.aliveLocked id with
    | false =>
      have dead : w.entities.alive id = false := isAlive
      refine iff_of_true (kept ?_) ?_
      · rw [destroy_of_not_alive isAlive]
        exact .refl w
      · intro contradiction
        rw [dead] at contradiction
        cases contradiction
    | true =>
      obtain ⟨place, recorded⟩ := exists_position_of_alive isAlive
      rw [indexedNext.listsLive_iff, destroy_of_alive isAlive recorded]
      refine (listsLive_release_iff indexed live isAlive recorded).trans ?_
      exact ⟨fun unlisted _ => unlisted, fun tidy => tidy isAlive⟩
  | registerComponent name =>
    cases ran
    exact iff_of_true (kept ⟨rfl, fun id =>
      (entities_register _ name id).symm⟩) trivial
  | columnOf t id =>
    obtain ⟨column, found, rfl, rfl⟩ := columnOf_of_run ran
    exact iff_of_true (kept ⟨rfl, fun other =>
      (entities_bind_same found rfl other).symm⟩) trivial
  | column t id op =>
    obtain ⟨column, found, rfl, rfl⟩ := column_of_run ran
    cases op with
    | set e v =>
      exact listsLive_set_iff live (indexed.sound.columnOf found) found
    | remove e =>
      refine iff_of_true ?_ trivial
      intro other x listed
      change x ∈ (w.components.bind t id (column.remove e).2).entities other at listed
      refine live other x ?_
      by_cases here : other = id
      · subst here
        rw [entities_bind_self] at listed
        rw [entities_of_columnOf found]
        exact mem_of_mem_remove listed
      · rwa [entities_bind_of_ne _ _ _ here] at listed
    | _ =>
      exact iff_of_true (kept ⟨rfl, fun other =>
        (entities_bind_same found rfl other).symm⟩)
        trivial
  | _ =>
    -- the remaining operations touch neither entities nor components
    cases ran
    exact iff_of_true (kept ⟨rfl, fun _ => rfl⟩) trivial

theorem shards_own_iff_tidy (metadata : Metadata) (ops : List (Operation G)) :
    Transition.Throughout (stepWithin sortSlice) ShardsOwn ops (new metadata) ↔
      Transition.Follows (stepWithin sortSlice) Tidy ops (new metadata) := by
  refine Transition.throughout_iff_follows Indexed ShardsOwn ?_ ?_ ops (indexed_new metadata) ?_
  · intro w op next indexed step
    obtain ⟨reply, ran, within⟩ := run_of_stepWithin step
    exact indexed.run ran within
  · intro w op next indexed own step
    obtain ⟨reply, ran, within⟩ := run_of_stepWithin step
    rw [(indexed.run ran within).shardsOwn_iff]
    exact listsLive_step_iff indexed (indexed.shardsOwn_iff.mp own) ran within
  · rw [(indexed_new metadata).shardsOwn_iff]
    intro id e listed
    cases listed

def untidyRun : List (Operation flagTypes) :=
  [.registerComponent "first", .columnOf .flag 0, .registerComponent "second", .columnOf .flag 1,
    .create, .column .flag 0 (.set (EntityID.ofParts 0 1) true), .destroy (EntityID.ofParts 0 1),
    .create, .column .flag 1 (.set (EntityID.ofParts 0 2) true)]

theorem shards_share_slot :
    ∃ w, runAll (fun _ events => events) untidyRun (new (sampleMetadata "a")) = some w ∧
      systemEntities w ⟨[0], [1], false, fun _ => .halt none⟩ =
        [EntityID.ofParts 0 1, EntityID.ofParts 0 2] ∧
      w.entities.alive (EntityID.ofParts 0 1) = false ∧
      w.entities.alive (EntityID.ofParts 0 2) = true ∧
      partition [EntityID.ofParts 0 1, EntityID.ofParts 0 2] 2 =
        [[EntityID.ofParts 0 1], [EntityID.ofParts 0 2]] ∧
      (EntityID.ofParts 0 1).index = (EntityID.ofParts 0 2).index :=
  ⟨_, rfl, rfl, rfl, rfl, rfl, rfl⟩

end World

end Simulator
