import Simulator.EntityLifecycle
import Simulator.RestoreAtomicity

/-!
# Restoring snapshots nobody vouches for

`SafeRestore` is what the engine relies on after a restore; `Trustworthy` snapshots give
that.
-/

namespace Simulator

open SparseIndex List Option Function ComponentStore EntityID EntityManager Column

structure EntityManagerState.WellFormed (s : EntityManagerState) :
    Prop where
  distinct : (s.dense.map EntityID.key).Nodup
  current : ∀ e ∈ s.dense, s.versions[e.key]? = some e.version
  freeDistinct : s.free.Nodup
  freeDead : ∀ index ∈ s.free, index.toNat ∉ s.dense.map EntityID.key
  freeAllocated : ∀ index ∈ s.free, index.toNat < s.next.toNat
  liveAllocated : ∀ key ∈ s.dense.map EntityID.key, key < s.next.toNat
  nextInside : s.next.toNat ≤ s.versions.length

structure Addresses (sparse : List Nat) (dense : List EntityID) : Prop where
  positions : ∀ key place, position sparse key = some place → place < dense.length
  keys : ∀ e ∈ dense, e.key < sparse.length

theorem addresses_of_points {sparse : List Nat} {dense : List EntityID}
    (points : Points sparse (dense.map EntityID.key))
    (inRange : ∀ e ∈ dense, e.key < sparse.length) : Addresses sparse dense := by
  refine ⟨?_, inRange⟩
  intro key pos spot
  have held := points key pos spot
  have lt := (List.getElem?_eq_some_iff.mp held).1
  rwa [length_map] at lt

namespace EntityManager

/-- The indices `Create` and `Destroy` use lie in the arrays they are used
on. -/
structure InBounds (m : EntityManager) : Prop where
  aligned : m.sparse.length = m.versions.length
  addresses : Addresses m.sparse m.dense
  reusable : ∀ index ∈ m.free, index.toNat < m.versions.length

variable {m : EntityManager}

theorem inBounds_of_reusable (reusable : ∀ i ∈ m.free, i.toNat < m.versions.length) :
    m.InBounds :=
  ⟨m.aligned, addresses_of_points m.points m.inRange, reusable⟩

variable {after : EntityManager} {s : EntityManagerState}

theorem mem_free_of_create {id : EntityID} (made : m.create = some (id, after)) {i : UInt32}
    (mem : i ∈ after.free) : i ∈ m.free := by
  unfold create at made
  split at made
  · obtain ⟨_, _, eq, _, _, _, _, freeEq, _⟩ := place_eq_some (inside_of_place made)
    rw [made] at eq
    cases eq
    rw [freeEq] at mem
    exact mem_of_mem_dropLast mem
  · obtain ⟨_, _, eq, _, _, _, _, freeEq, _⟩ := place_eq_some (inside_of_place made)
    rw [made] at eq
    cases eq
    rw [freeEq] at mem
    exact mem

theorem InBounds.create {id : EntityID}
    (inBounds : m.InBounds) (made : m.create = some (id, after)) : after.InBounds := by
  apply inBounds_of_reusable
  intro i mem
  exact Nat.lt_of_lt_of_le (inBounds.reusable i (mem_free_of_create made mem))
    (versions_length_le_of_create made)

theorem InBounds.destroy (inBounds : m.InBounds) (id : EntityID) : (m.destroy id).2.InBounds := by
  cases isAlive : m.aliveLocked id with
  | false =>
    rw [destroy_of_not_alive isAlive]
    exact inBounds
  | true =>
    obtain ⟨pos, spot⟩ := exists_position_of_alive isAlive
    rw [destroy_of_alive isAlive spot]
    apply inBounds_of_reusable
    intro i mem
    rcases mem_append.mp mem with old | new
    · exact inBounds.reusable i old
    · rw [mem_singleton.mp new]
      obtain ⟨e, live, sameKey⟩ := mem_map.mp (mem_of_getElem? (m.points id.key pos spot))
      have lt := m.inRange e live
      rw [sameKey, m.aligned] at lt
      exact lt

theorem restore_parts (back : restore s = some m) :
    m.dense = s.dense ∧ m.versions = s.versions ∧ m.free = s.free ∧
      m.next = s.next ∧ m.count = s.dense.length ∧
      m.sparse = rebuild s.versions.length (s.dense.map key) := by
  unfold restore at back
  split at back
  · cases back
    exact ⟨rfl, rfl, rfl, rfl, rfl, rfl⟩
  · cases back

theorem restored_consistent_iff (back : restore s = some m) :
    m.Consistent ∧ m.Current ↔ s.WellFormed := by
  obtain ⟨denseEq, versionsEq, freeEq, nextEq, countEq, sparseEq⟩ := restore_parts back
  have keysEq : m.keys = s.dense.map key := by
    rw [keys, denseEq]
  have lt : ∀ e ∈ s.dense, e.key < s.versions.length := restore_eq_some_iff.mp (by rw [back]; rfl)
  constructor
  · rintro ⟨valid, cur⟩
    refine ⟨?_, ?_, ?_, ?_, ?_, ?_, ?_⟩
    · rw [← keysEq]
      exact valid.indexes.nodup
    · intro e live
      rw [← denseEq] at live
      rw [← versionsEq, getElem?_versions live, cur e live]
    · rw [← freeEq]
      exact valid.free_nodup
    · intro i mem live
      rw [← freeEq] at mem
      rw [← keysEq] at live
      obtain ⟨pos, held⟩ := mem_iff_getElem?.mp live
      have spot := (valid.indexes _ pos).mpr held
      rw [valid.free_dead i mem] at spot
      cases spot
    · rw [← freeEq, ← nextEq]
      exact valid.free_lt
    · rw [← keysEq, ← nextEq]
      exact valid.live_lt
    · rw [← nextEq, ← versionsEq]
      exact valid.next_le
  · intro wellFormed
    have indexes : Indexes m.sparse m.keys := by
      rw [sparseEq, keysEq]
      apply indexes_rebuild wellFormed.distinct
      intro key mem
      obtain ⟨e, live, rfl⟩ := mem_map.mp mem
      exact lt e live
    refine ⟨⟨indexes, ?_, ?_, ?_, ?_, ?_, ?_⟩, ?_⟩
    · rw [countEq, denseEq]
    · rw [freeEq]
      exact wellFormed.freeDistinct
    · intro i mem
      rw [freeEq] at mem
      cases hit : position m.sparse i.toNat with
      | none => rfl
      | some pos =>
        have held := indexes.points _ _ hit
        rw [keysEq] at held
        exact (wellFormed.freeDead i mem (mem_of_getElem? held)).elim
    · rw [freeEq, nextEq]
      exact wellFormed.freeAllocated
    · rw [keysEq, nextEq]
      exact wellFormed.liveAllocated
    · rw [nextEq, versionsEq]
      exact wellFormed.nextInside
    · intro e live
      rw [denseEq] at live
      rw [generation, versionsEq, wellFormed.current e live]
      rfl

end EntityManager

namespace Column

variable {α : Type}

/-- The indices `Set`, `Get` and `Remove` use lie in the arrays they are used
on. -/
structure InBounds (c : Column α) : Prop where
  aligned : c.dense.length = c.data.length
  addresses : Addresses c.sparse c.dense

theorem inBounds (c : Column α) : c.InBounds :=
  ⟨c.aligned, addresses_of_points c.points c.inRange⟩

theorem restored_consistent_iff {unmarshal : Json → Except String α}
    {es : List EntityID} {vs : RawMessage} {c : Column α}
    (back : restoreJSON unmarshal es vs = .ok c) :
    c.Consistent ↔ (es.map key).Nodup := by
  constructor
  · intro valid
    have distinct := Indexes.nodup valid
    rw [keys, (restoreJSON_eq_ok back).1] at distinct
    exact distinct
  · intro distinct
    exact consistent_of_restoreJSON distinct back

end Column

variable {G : GoTypes}

namespace ComponentStore

/-- The last entry of a snapshot for the component `id`. -/
def lastEntry (byName : String → Option ComponentID)
    (snaps : List ComponentSnapshot) (id : ComponentID) : Option ComponentSnapshot :=
  snaps.reverse.find? fun snap => byName snap.name == some id

theorem lastEntry_cons (byName : String → Option ComponentID)
    (snap : ComponentSnapshot) (rest : List ComponentSnapshot) (id : ComponentID) :
    lastEntry byName (snap :: rest) id = (lastEntry byName rest id).or
        (if byName snap.name = some id then some snap else none) := by
  simp only [lastEntry, reverse_cons, find?_append]
  congr 1
  by_cases named : byName snap.name = some id <;> simp [named]

theorem column_of_restoreFrom {byName : String → Option ComponentID}
    {snaps : List ComponentSnapshot} {cols after : ComponentID → Option (BoundColumn G)}
    (back : restoreFrom byName snaps cols = (after, none)) (id : ComponentID) :
    (lastEntry byName snaps id = none ∧ after id = cols id) ∨
      ∃ snap t col, lastEntry byName snaps id = some snap ∧ after id = some ⟨t, col⟩ ∧
        restoreJSON (G.unmarshal t) snap.entities snap.values =
          .ok col := by
  induction snaps generalizing cols with
  | nil =>
    cases back
    exact .inl ⟨rfl, rfl⟩
  | cons snap rest ih =>
    unfold restoreFrom at back
    split at back
    · cases back
    · rename_i n col loaded
      obtain ⟨hit, _, dec⟩ := restoreOne_eq_ok loaded
      rw [lastEntry_cons, hit]
      rcases ih back with ⟨noLater, kept⟩ | ⟨later, t, held, last, bound, loadedLater⟩
      · rw [noLater, none_or, kept]
        by_cases eq : n = id
        · subst eq
          rw [if_pos rfl, update_self]
          exact .inr ⟨snap, col.1, col.2, rfl, rfl, dec⟩
        · have other : ¬ some n = some id := fun equal => eq (some.inj equal)
          rw [if_neg other, update_of_ne (Ne.symm eq)]
          exact .inl ⟨rfl, rfl⟩
      · rw [last, some_or]
        exact .inr ⟨later, t, held, rfl, bound, loadedLater⟩

end ComponentStore

namespace World

structure Represented (w : World G) : Prop where
  entities : w.entities.Consistent
  current : w.entities.Current
  columns : ∀ id column, w.components.cols id = some column → column.2.Consistent

/-- No array of a world is indexed outside its bounds by `Create`,
`Destroy`, `Set`, `Get` or `Remove`. -/
structure InBounds (w : World G) : Prop where
  entities : w.entities.InBounds
  columns : ∀ id column, w.components.cols id = some column → column.2.InBounds

variable {w : World G} {sortSlice : SortSlice (Event G)} {after : World G} {s : Snapshot}

theorem inBounds_of_entities (es : w.entities.InBounds) : w.InBounds :=
  ⟨es, fun _ col _ => col.2.inBounds⟩

theorem InBounds.run {op : Operation G} {reply : Reply G} (inBounds : w.InBounds)
    (ran : w.run sortSlice op = some (reply, after)) : after.InBounds := by
  apply inBounds_of_entities
  cases op with
  | create =>
    obtain ⟨id, es, made, rfl, rfl⟩ := create_of_run ran
    exact inBounds.entities.create made
  | destroy id =>
    cases ran
    exact inBounds.entities.destroy id
  | columnOf t id =>
    obtain ⟨_, _, rfl, rfl⟩ := columnOf_of_run ran
    exact inBounds.entities
  | column t id op =>
    obtain ⟨_, _, rfl, rfl⟩ := column_of_run ran
    exact inBounds.entities
  | _ =>
    -- the remaining operations leave the entities alone
    cases ran
    exact inBounds.entities

theorem InBounds.runAll {ops : List (Operation G)} (inBounds : w.InBounds)
    (ran : World.runAll sortSlice ops w = some after) : after.InBounds := by
  induction ops generalizing w with
  | nil =>
    cases ran
    exact inBounds
  | cons op ops ih =>
    simp only [World.runAll] at ran
    split at ran
    · cases ran
    · rename_i reply next step
      exact ih (inBounds.run step) ran

theorem Represented.inBounds (represented : w.Represented) : w.InBounds :=
  inBounds_of_entities (inBounds_of_reusable represented.entities.reusable)

structure SafeRestore (hash : Snapshot → String)
    (sortSlice : SortSlice (Event G)) (w : World G) (s : Snapshot) :
    Prop where
  returns : w.restore hash s ≠ none
  represented : ∀ after, w.restore hash s = some (after, none) → after.Represented
  inBounds : ∀ after ops later, w.restore hash s = some (after, none) →
    runAll sortSlice ops after = some later → later.InBounds ∧ later.entities.create.isSome

def loads (w : World G) (s : Snapshot) : Bool :=
  !w.componentsFail s && !w.resourcesFail s && !w.eventsFail s

structure ColumnsWellFormed (w : World G) (s : Snapshot) : Prop where
  listed : ∀ id snap, ComponentStore.lastEntry w.components.byName s.components id =
      some snap → (snap.entities.map EntityID.key).Nodup
  unlisted : ∀ id column, ComponentStore.lastEntry w.components.byName s.components id = none →
    w.components.cols id = some column → column.2.Consistent

def Trustworthy (hash : Snapshot → String) (w : World G) (s : Snapshot) : Prop :=
  (∃ cause, w.accepts hash s = .error cause) ∨
    (∀ e ∈ s.entities.dense, e.key < s.entities.versions.length) ∧
      (w.loads s = true → s.entities.WellFormed ∧ ColumnsWellFormed w s)

theorem loads_iff (w : World G) (s : Snapshot) :
    w.loads s = true ↔ (w.components.restore s.components).2 = none ∧
        (w.resources.restore s.resources).2 = none ∧
        (EventQueue.restore w.payloadTypes s.events).2 = none := by
  rw [loads, componentsFail_eq, resourcesFail_eq, eventsFail_eq]
  simp [and_assoc]

theorem columns_consistent_iff (loaded : (w.components.restore s.components).2 = none) :
    (∀ id col, (w.components.restore s.components).1.cols id =
        some col → col.2.Consistent) ↔ ColumnsWellFormed w s := by
  have origin := column_of_restoreFrom (Prod.ext rfl loaded : restoreFrom w.components.byName
      s.components w.components.cols = ((w.components.restore s.components).1.cols, none))
  constructor
  · intro valid
    constructor
    · intro id snap last
      rcases origin id with ⟨unlisted, _⟩ | ⟨other, t, col, lastOther, bound, dec⟩
      · rw [last] at unlisted
        cases unlisted
      · rw [last] at lastOther
        cases lastOther
        exact (restored_consistent_iff dec).mp (valid id ⟨t, col⟩ bound)
    · intro id col unlisted bound
      rcases origin id with ⟨_, kept⟩ | ⟨snap, _, _, last, _⟩
      · exact valid id col (kept.trans bound)
      · rw [unlisted] at last
        cases last
  · intro wellFormed id col bound
    rcases origin id with ⟨unlisted, kept⟩ | ⟨snap, t, fresh, last, boundFresh, dec⟩
    · exact wellFormed.unlisted id col unlisted (kept.symm.trans bound)
    · rw [bound] at boundFresh
      cases boundFresh
      exact (restored_consistent_iff dec).mpr (wellFormed.listed id snap last)

theorem represented_iff (mode : Mode) {entities : EntityManager}
    (replaced : EntityManager.restore s.entities = some entities)
    (loaded : (w.components.restore s.components).2 = none) :
    (({ w with entities := entities } : World G).overwrite s mode).Represented ↔
      s.entities.WellFormed ∧ ColumnsWellFormed w s := by
  rw [← EntityManager.restored_consistent_iff replaced, ← columns_consistent_iff loaded]
  constructor
  · intro represented
    exact ⟨⟨represented.entities, represented.current⟩, represented.columns⟩
  · rintro ⟨⟨consistent, current⟩, columns⟩
    exact ⟨consistent, current, columns⟩

variable {hash : Snapshot → String}

theorem safeRestore_of_error
    (returns : w.restore hash s ≠ none) (fails : ∀ after, w.restore hash s ≠ some (after, none)) :
    SafeRestore hash sortSlice w s where
  returns := returns
  represented after back := (fails after back).elim
  inBounds after _ _ back := (fails after back).elim

theorem safeRestore_of_represented
    (ended : w.restore hash s = some (after, none)) (represented : after.Represented) :
    SafeRestore hash sortSlice w s := by
  refine ⟨?_, ?_, ?_⟩
  · rw [ended]
    exact some_ne_none _
  · intro other back
    rw [ended] at back
    cases back
    exact represented
  · intro other ops later back ran
    rw [ended] at back
    cases back
    have inBounds := represented.inBounds.runAll ran
    exact ⟨inBounds, create_isSome inBounds.entities.reusable⟩

theorem restore_safe_iff (hash : Snapshot → String)
    (sortSlice : SortSlice (Event G)) (w : World G) (s : Snapshot) :
    SafeRestore hash sortSlice w s ↔ Trustworthy hash w s := by
  unfold Trustworthy
  cases accepted : w.accepts hash s with
  | error cause =>
    have rejected : w.restore hash s = some (w, some cause) := by
      simp only [restore, accepted]
    refine ⟨fun _ => .inl ⟨cause, rfl⟩, fun _ => safeRestore_of_error ?_ ?_⟩
    · rw [rejected]
      exact some_ne_none _
    · intro after restored
      rw [rejected] at restored
      cases restored
  | ok mode =>
    have notRejected : ¬ ∃ cause : WorldError,
        (.ok mode : Except WorldError Mode) = .error cause := by simp
    rw [or_iff_right notRejected, ← restore_eq_some_iff]
    cases replaced : EntityManager.restore s.entities with
    | none =>
      have broken : w.restore hash s = none := by
        simp only [restore, accepted, replaced]
      constructor
      · intro safe
        exact (safe.returns broken).elim
      · rintro ⟨impossible, _⟩
        cases impossible
    | some entities =>
      rw [isSome_some, and_iff_right rfl]
      by_cases loaded : w.loads s = true
      · obtain ⟨components, resources, events⟩ := (w.loads_iff s).mp loaded
        have ended := restore_of_stages accepted replaced components resources events
        rw [← represented_iff mode replaced components]
        constructor
        · intro safe _
          exact safe.represented _ ended
        · intro represented
          exact safeRestore_of_represented ended (represented loaded)
      · refine ⟨fun _ impossible => (loaded impossible).elim, fun _ => safeRestore_of_error ?_ ?_⟩
        · simp only [restore, accepted, replaced]
          exact some_ne_none _
        · intro after restored
          obtain ⟨_, _, _, _, components, resources, events, _⟩ := restore_eq_success restored
          exact loaded ((w.loads_iff s).mpr ⟨components, resources, events⟩)

def flagSnapshot (entities : EntityManagerState) (listed : List EntityID)
    (values : Json) : Snapshot :=
  { (World.new (World.sampleMetadata "a") : World flagTypes).capture
      [⟨"flag", listed, some values⟩] [] ⟨[], 0, 0⟩ with
    entities := entities }

theorem restore_safe_iff_flag :
    SafeRestore (fun _ => "") (fun _ events => events) (sampleWorld "a" sampleSetup)
      (flagSnapshot ⟨[.ofParts 1 1], 2, [0], [1, 1]⟩ [.ofParts 1 1] (.array [.bool true])) := by
  refine (restore_safe_iff _ _ _ _).mpr (.inr ⟨by decide, fun _ => ⟨?_, ?_⟩⟩)
  · refine ⟨by decide, by decide, by decide, ?_, ?_, by decide, by decide⟩
    · intro i mem
      cases mem_singleton.mp mem
      decide
    · intro i mem
      cases mem_singleton.mp mem
      decide
  · constructor
    · intro id snap last
      have mem := mem_of_find?_eq_some last
      rw [mem_reverse] at mem
      cases mem_singleton.mp mem
      decide
    · intro id col unlisted bound
      by_cases first : id = 0
      · subst first
        cases unlisted
      · have unbound : (sampleWorld "a" sampleSetup).components.cols id =
            none := update_of_ne first _ _
        rw [unbound] at bound
        cases bound

theorem accepted_snapshots_break : (∃ s, (sampleWorld "a" sampleSetup).accepts (fun _ => "") s =
          .ok .tick ∧ (sampleWorld "a" sampleSetup).restore (fun _ => "") s = none) ∧
      (∃ s after, (sampleWorld "a" sampleSetup).restore (fun _ => "") s = some (after, none) ∧
        after.entities.create = none) ∧ ∃ s after column,
        (sampleWorld "a" sampleSetup).restore (fun _ => "") s = some (after, none) ∧
        after.components.cols 0 = some column ∧ column.2.dense = [.ofParts 0 1, .ofParts 0 1] ∧
        ¬ column.2.Consistent := by
  refine ⟨⟨flagSnapshot ⟨[.ofParts 5 1], 1, [], [0]⟩ [] (.array []), rfl, rfl⟩,
    ⟨flagSnapshot ⟨[], 1, [5], [0]⟩ [] (.array []), _, rfl, rfl⟩,
    flagSnapshot ⟨[.ofParts 0 1], 1, [], [1]⟩ [.ofParts 0 1, .ofParts 0 1]
      (.array [.bool true, .bool false]), _, _, rfl, rfl, rfl, ?_⟩
  intro valid
  exact absurd (Indexes.nodup valid) (by decide)

end World

end Simulator
