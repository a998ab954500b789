import Mathlib
import Simulator.SparseIndex

/-!
# Entity identifiers and the entity manager

The propositional fields hold in every manager the code can build.  Only the free list
can name an index outside the arrays, so `create` alone may panic.
-/

namespace Simulator

open SparseIndex

/-- `EntityID`: the entity index in the high 32 bits and the generation in
the low ones. -/
structure EntityID where
  value : UInt64
deriving DecidableEq, Repr

namespace EntityID

def index (e : EntityID) : UInt32 :=
  (e.value >>> 32).toUInt32

def version (e : EntityID) : UInt32 :=
  e.value.toUInt32

/-- The identifier `Create` builds from an index and a generation. -/
def ofParts (index version : UInt32) : EntityID :=
  ⟨index.toUInt64 <<< 32 ||| version.toUInt64⟩

/-- The index as an array subscript, `int(e.Index())`. -/
def key (e : EntityID) : Nat :=
  e.index.toNat

theorem toNat_ofParts (index ver : UInt32) : (ofParts index ver).value.toNat =
      index.toNat * 2 ^ 32 + ver.toNat := by
  have indexLt := index.toNat_lt
  have versionLt := ver.toNat_lt
  have shifted : (index.toUInt64 <<< 32).toNat = index.toNat <<< 32 := by
    simp [UInt64.toNat_shiftLeft, Nat.shiftLeft_eq]
    omega
  rw [ofParts, UInt64.toNat_or, shifted, UInt32.toNat_toUInt64,
    ← Nat.shiftLeft_add_eq_or_of_lt versionLt, Nat.shiftLeft_eq]

theorem toNat_index (e : EntityID) : e.index.toNat = e.value.toNat / 2 ^ 32 := by
  have := e.value.toNat_lt
  simp [index, Nat.shiftRight_eq_div_pow]
  omega

@[simp]
theorem index_ofParts (index ver : UInt32) : (ofParts index ver).index = index := by
  apply UInt32.toNat_inj.mp
  rw [toNat_index, toNat_ofParts]
  have := ver.toNat_lt
  omega

theorem toNat_version (e : EntityID) : e.version.toNat = e.value.toNat % 2 ^ 32 := by
  simp [version]

@[simp]
theorem version_ofParts (index ver : UInt32) : (ofParts index ver).version = ver := by
  apply UInt32.toNat_inj.mp
  rw [toNat_version, toNat_ofParts]
  have := ver.toNat_lt
  omega

theorem eq_of_key_version {first second : EntityID} (sameKey : first.key = second.key)
    (sameVersion : first.version = second.version) : first = second := by
  have versionEq := congrArg UInt32.toNat sameVersion
  simp only [key, toNat_index] at sameKey
  rw [toNat_version, toNat_version] at versionEq
  have valueEq : first.value = second.value := by
    apply UInt64.toNat_inj.mp
    omega
  cases first
  cases second
  simpa using valueEq

@[simp]
theorem key_ofParts (index ver : UInt32) : (ofParts index ver).key = index.toNat := by
  simp [key]

end EntityID

/-- `EntityManager`.  The sparse array holds `int32` positions; they are
natural numbers here. -/
@[ext]
structure EntityManager where
  versions : List UInt32
  sparse : List Nat
  dense : List EntityID
  free : List UInt32
  next : UInt32
  count : Int
  aligned : sparse.length = versions.length
  points : Points sparse (dense.map EntityID.key)
  inRange : ∀ e ∈ dense, e.key < sparse.length

@[ext]
structure EntityManagerState where
  dense : List EntityID
  next : UInt32
  free : List UInt32
  versions : List UInt32
deriving DecidableEq

namespace EntityManager

def keys (m : EntityManager) : List Nat :=
  m.dense.map EntityID.key

/-- `NewEntityManager` -/
def new : EntityManager where
  versions := [0]
  sparse := [0]
  dense := []
  free := []
  next := 0
  count := 0
  aligned := rfl
  points := points_nil _ (position_replicate 1)
  inRange := by simp

/-- Extend the per-index arrays until they hold `index`. -/
def extend (m : EntityManager) (index : UInt32) : EntityManager where
  versions := m.versions ++ List.replicate (index.toNat + 1 - m.versions.length) 0
  sparse := grow m.sparse index.toNat
  dense := m.dense
  free := m.free
  next := m.next
  count := m.count
  aligned := by simp [grow, m.aligned]
  points := by
    intro key place recorded
    rw [position_grow] at recorded
    exact m.points key place recorded
  inRange := by
    intro e member
    exact (m.inRange e member).trans_le (by simp [grow])

/-- The part of `Create` after the index is chosen: raise its generation,
append the entity and record its position. `none` is the index panic. -/
def place (m : EntityManager) (index : UInt32) : Option (EntityID × EntityManager) :=
  if inside : index.toNat < m.versions.length then
    let version := m.versions[index.toNat] + 1
    let id := EntityID.ofParts index version
    some (id,
      { versions := m.versions.set index.toNat version
        sparse := m.sparse.set index.toNat (m.dense.length + 1)
        dense := m.dense ++ [id]
        free := m.free
        next := m.next
        count := m.count + 1
        aligned := by simp [m.aligned]
        points := by
          have appended := m.points.append (show index.toNat < m.sparse.length by rwa [m.aligned])
          simpa [id] using appended
        inRange := by
          intro e member
          rw [List.length_set]
          rcases List.mem_append.mp member with old | new
          · exact m.inRange e old
          · rw [List.mem_singleton.mp new, EntityID.key_ofParts, m.aligned]
            exact inside })
  else
    none

/-- `Create`: reuse the index freed last, or take the next one. -/
def create (m : EntityManager) : Option (EntityID × EntityManager) :=
  match m.free.getLast? with
  | some index => { m with free := m.free.dropLast }.place index
  | none => { m.extend m.next with next := m.next + 1 }.place m.next

def aliveLocked (m : EntityManager) (id : EntityID) : Bool :=
  match m.versions[id.key]? with
  | none => false
  | some version =>
    version == id.version && (position m.sparse id.key).isSome

def alive (m : EntityManager) (id : EntityID) : Bool :=
  m.aliveLocked id

/-- The part of `Destroy` after the liveness check: the last dense entity
moves into the hole and the index becomes reusable. -/
def release (m : EntityManager) (id : EntityID) (place : Nat)
    (recorded : position m.sparse id.key = some place) :
    EntityManager where
  versions := m.versions
  sparse := redirect m.sparse m.keys place id.key
  dense := swapErase m.dense place
  free := m.free ++ [id.index]
  next := m.next
  count := m.count - 1
  aligned := by simp [m.aligned]
  points := by
    rw [map_swapErase]
    exact m.points.erase recorded
  inRange := by
    intro e member
    rw [length_redirect]
    have inside : place < m.dense.length := by
      have := (List.getElem?_eq_some_iff.mp (m.points id.key place recorded)).1
      simpa using this
    exact m.inRange e (mem_of_mem_swapErase inside member)

def destroy (m : EntityManager) (id : EntityID) : Bool × EntityManager :=
  if m.aliveLocked id then
    match recorded : position m.sparse id.key with
    | some place => (true, m.release id place recorded)
    | none => (false, m)
  else
    (false, m)

/-- `IDs`, also the order in which `Each` visits the entities -/
def ids (m : EntityManager) : List EntityID :=
  m.dense

def len (m : EntityManager) : Int :=
  m.count

def snapshot (m : EntityManager) : EntityManagerState where
  dense := m.dense
  next := m.next
  free := m.free
  versions := m.versions

/-- `restore`, which panics on a dense entity outside the version array. -/
def restore (s : EntityManagerState) : Option EntityManager :=
  if inside : ∀ e ∈ s.dense, e.key < s.versions.length then
    some
      { versions := s.versions
        sparse := rebuild s.versions.length (s.dense.map EntityID.key)
        dense := s.dense
        free := s.free
        next := s.next
        count := s.dense.length
        aligned := by simp
        points := points_rebuild _ _
        inRange := by simpa using inside }
  else
    none

structure Consistent (m : EntityManager) : Prop where
  indexes : Indexes m.sparse m.keys
  count_eq : m.count = m.dense.length
  free_nodup : m.free.Nodup
  free_dead : ∀ index ∈ m.free, position m.sparse index.toNat = none
  free_lt : ∀ index ∈ m.free, index.toNat < m.next.toNat
  live_lt : ∀ key ∈ m.keys, key < m.next.toNat
  next_le : m.next.toNat ≤ m.versions.length

theorem consistent_new : new.Consistent where
  indexes := indexes_nil (position_replicate 1)
  count_eq := rfl
  free_nodup := List.nodup_nil
  free_dead := by simp [new]
  free_lt := by simp [new]
  live_lt := by simp [new, keys]
  next_le := by simp [new]

variable {m : EntityManager} {index : UInt32} {after : EntityManager} {id : EntityID}

theorem place_eq_some (lt : index.toNat < m.versions.length) :
    ∃ id after, m.place index = some (id, after) ∧
      id = EntityID.ofParts index (m.versions[index.toNat] + 1) ∧ after.versions =
        m.versions.set index.toNat (m.versions[index.toNat] + 1) ∧
      after.sparse = m.sparse.set index.toNat (m.dense.length + 1) ∧
      after.dense = m.dense ++ [id] ∧ after.free = m.free ∧
      after.next = m.next ∧ after.count = m.count + 1 := by
  simp only [place, dif_pos lt]
  exact ⟨_, _, rfl, rfl, rfl, rfl, rfl, rfl, rfl, rfl⟩

theorem inside_of_place (placed : m.place index = some (id, after)) :
    index.toNat < m.versions.length := by
  by_contra ge
  simp [place, ge] at placed

theorem Consistent.place (valid : m.Consistent) (unused : position m.sparse index.toNat = none)
    (notFree : index ∉ m.free) (below : index.toNat < m.next.toNat)
    (placed : m.place index = some (id, after)) : after.Consistent := by
  have lt := inside_of_place placed
  obtain ⟨_, _, eq, idEq, versionsEq, sparseEq, denseEq, freeEq, nextEq,
    countEq⟩ := place_eq_some lt
  rw [placed] at eq
  cases eq
  have keysEq : after.keys = m.keys ++ [index.toNat] := by
    simp [keys, denseEq, idEq]
  have inSparse : index.toNat < m.sparse.length := by rwa [m.aligned]
  refine ⟨?_, ?_, ?_, ?_, ?_, ?_, ?_⟩
  · rw [sparseEq, keysEq]
    have lengthEq : m.dense.length = m.keys.length := by simp [keys]
    rw [lengthEq]
    exact valid.indexes.append inSparse unused
  · rw [countEq, denseEq, valid.count_eq]
    simp
  · rw [freeEq]
    exact valid.free_nodup
  · intro other mem
    rw [freeEq] at mem
    have ne : other.toNat ≠ index.toNat := by
      intro equal
      exact notFree (UInt32.toNat_inj.mp equal ▸ mem)
    rw [sparseEq, position_set_of_ne _ ne]
    exact valid.free_dead other mem
  · rw [freeEq, nextEq]
    exact valid.free_lt
  · intro key mem
    rw [keysEq, List.mem_append, List.mem_singleton] at mem
    rw [nextEq]
    rcases mem with old | new
    · exact valid.live_lt key old
    · rw [new]
      exact below
  · rw [nextEq, versionsEq, List.length_set]
    exact valid.next_le

theorem Consistent.create (valid : m.Consistent) (made : m.create = some (id, after))
    (small : after.versions.length < 2 ^ 32) : after.Consistent := by
  unfold EntityManager.create at made
  split at made
  · rename_i index lastEq
    have mem : index ∈ m.free := List.mem_of_getLast? lastEq
    have splitFree : m.free = m.free.dropLast ++ [index] :=
      (List.dropLast_append_getLast? index lastEq).symm
    have nodup := valid.free_nodup
    rw [splitFree] at nodup
    have shorter : ({ m with free := m.free.dropLast } : EntityManager).Consistent :=
      { valid with
        free_nodup := (List.nodup_append.mp nodup).1
        free_dead := fun other inRest =>
          valid.free_dead other (List.mem_of_mem_dropLast inRest)
        free_lt := fun other inRest =>
          valid.free_lt other (List.mem_of_mem_dropLast inRest) }
    refine shorter.place (valid.free_dead index mem) ?_ (valid.free_lt index mem) made
    intro again
    exact (List.nodup_append.mp nodup).2.2 index again index (by simp) rfl
  · have placed := place_eq_some (inside_of_place made)
    obtain ⟨_, _, eq, _, versionsEq, _⟩ := placed
    rw [made] at eq
    cases eq
    have grownLength : m.next.toNat + 1 ≤ after.versions.length := by
      rw [versionsEq]
      simp [extend]
      omega
    have nextEq : (m.next + 1).toNat = m.next.toNat + 1 := by
      rw [UInt32.toNat_add]
      simp
      omega
    have unused : position m.sparse m.next.toNat = none := by
      cases hit : position m.sparse m.next.toNat with
      | none => rfl
      | some pos =>
        have held := valid.indexes.points _ _ hit
        have := valid.live_lt _ (List.mem_of_getElem? held)
        omega
    have extended : ({ m.extend m.next with next := m.next + 1 } : EntityManager).Consistent := by
      refine ⟨?_, valid.count_eq, valid.free_nodup, ?_, ?_, ?_, ?_⟩
      · intro key pos
        simp only [extend, position_grow]
        exact valid.indexes key pos
      · intro index mem
        simp only [extend, position_grow]
        exact valid.free_dead index mem
      · intro index mem
        have := valid.free_lt index mem
        simp only [nextEq]
        omega
      · intro key mem
        have := valid.live_lt key mem
        simp only [nextEq]
        omega
      · simp only [nextEq, extend, List.length_append, List.length_replicate]
        omega
    refine extended.place ?_ ?_ ?_ made
    · simpa [extend] using unused
    · intro mem
      have := valid.free_lt m.next mem
      omega
    · simp only [nextEq]
      omega

theorem versions_length_le_of_create (made : m.create = some (id, after)) :
    m.versions.length ≤ after.versions.length := by
  unfold create at made
  split at made <;>
  · obtain ⟨_, _, eq, _, versionsEq, _⟩ := place_eq_some (inside_of_place made)
    rw [made] at eq
    cases eq
    simp [versionsEq, extend]

theorem create_isSome (reusable : ∀ index ∈ m.free, index.toNat < m.versions.length) :
    m.create.isSome := by
  unfold EntityManager.create
  split
  · rename_i index lastEq
    obtain ⟨_, _, eq, _⟩ := place_eq_some (m := { m with free := m.free.dropLast })
        (reusable index (List.mem_of_getLast? lastEq))
    rw [eq]
    rfl
  · have lt : m.next.toNat <
        ({ m.extend m.next with next := m.next + 1 } : EntityManager).versions.length := by
      simp [extend]
      omega
    obtain ⟨_, _, eq, _⟩ := place_eq_some lt
    rw [eq]
    rfl

theorem Consistent.reusable (valid : m.Consistent) :
    ∀ index ∈ m.free, index.toNat < m.versions.length :=
  fun index mem =>
    lt_of_lt_of_le (valid.free_lt index mem) valid.next_le

theorem Consistent.create_isSome (valid : m.Consistent) : m.create.isSome :=
  EntityManager.create_isSome valid.reusable

theorem destroy_of_not_alive (dead : m.aliveLocked id = false) : m.destroy id = (false, m) := by
  simp [destroy, dead]

theorem exists_position_of_alive (isAlive : m.aliveLocked id = true) :
    ∃ pos, position m.sparse id.key = some pos := by
  unfold aliveLocked at isAlive
  split at isAlive
  · cases isAlive
  · rw [Bool.and_eq_true] at isAlive
    exact Option.isSome_iff_exists.mp isAlive.2

theorem destroy_of_alive {pos : Nat}
    (isAlive : m.aliveLocked id = true) (spot : position m.sparse id.key = some pos) :
    m.destroy id = (true, m.release id pos spot) := by
  unfold destroy
  rw [if_pos isAlive]
  split
  · rename_i other hit
    have equal : pos = other := by
      rw [spot] at hit
      exact Option.some.inj hit
    subst equal
    rfl
  · rename_i hit
    rw [spot] at hit
    cases hit

theorem Consistent.release
    {pos : Nat} (valid : m.Consistent) (recorded : position m.sparse id.key = some pos) :
    (m.release id pos recorded).Consistent := by
  have held := valid.indexes.points _ _ recorded
  have lt : pos < m.dense.length := by
    have := (List.getElem?_eq_some_iff.mp held).1
    simpa [keys] using this
  have keysEq : (m.release id pos recorded).keys = swapErase m.keys pos := map_swapErase _ _ _
  have remains : ∀ key ∈ (m.release id pos recorded).keys, key ∈ m.keys := by
    intro key mem
    rw [keysEq] at mem
    exact mem_of_mem_swapErase (by simpa [keys] using lt) mem
  have indexes : Indexes (m.release id pos recorded).sparse (m.release id pos recorded).keys := by
    rw [keysEq]
    exact valid.indexes.erase recorded
  refine ⟨indexes, ?_, ?_, ?_, ?_, ?_, valid.next_le⟩
  · simp only [EntityManager.release, valid.count_eq, length_swapErase]
    omega
  · refine List.nodup_append.mpr ⟨valid.free_nodup, by simp, ?_⟩
    intro other mem last isLast equal
    rw [List.mem_singleton.mp isLast] at equal
    have dead := valid.free_dead other mem
    rw [equal] at dead
    rw [EntityID.key, dead] at recorded
    cases recorded
  · intro other mem
    rcases List.mem_append.mp mem with old | new
    · -- a dead index stays dead: the erased list has no new keys
      cases hit : position (m.release id pos recorded).sparse other.toNat with
      | none => rfl
      | some spot =>
        have live := remains _ (List.mem_of_getElem? (indexes.points _ _ hit))
        obtain ⟨before, atBefore⟩ := List.mem_iff_getElem?.mp live
        have recordedBefore := (valid.indexes _ before).mpr atBefore
        rw [valid.free_dead other old] at recordedBefore
        cases recordedBefore
    · rw [List.mem_singleton.mp new]
      exact position_redirect_self _ _ _ _
  · intro other mem
    rcases List.mem_append.mp mem with old | new
    · exact valid.free_lt other old
    · rw [List.mem_singleton.mp new]
      exact valid.live_lt _ (List.mem_of_getElem? held)
  · intro key mem
    exact valid.live_lt key (remains key mem)

theorem Consistent.destroy (valid : m.Consistent)
    (id : EntityID) : (m.destroy id).2.Consistent := by
  cases isAlive : m.aliveLocked id with
  | false => rw [destroy_of_not_alive isAlive]; exact valid
  | true =>
    obtain ⟨pos, spot⟩ := exists_position_of_alive isAlive
    rw [destroy_of_alive isAlive spot]
    exact valid.release spot

theorem versions_destroy (m : EntityManager) (id : EntityID) :
    (m.destroy id).2.versions = m.versions := by
  cases isAlive : m.aliveLocked id with
  | false => rw [destroy_of_not_alive isAlive]
  | true =>
    obtain ⟨pos, spot⟩ := exists_position_of_alive isAlive
    rw [destroy_of_alive isAlive spot]
    rfl

variable {s : EntityManagerState}

theorem restore_eq_some_iff : (restore s).isSome ↔ ∀ e ∈ s.dense, e.key < s.versions.length := by
  unfold restore
  split <;> simp_all

theorem snapshot_of_restore (back : restore s = some m) : m.snapshot = s := by
  unfold restore at back
  split at back
  · cases back
    rfl
  · cases back

theorem Consistent.restore_snapshot (valid : m.Consistent) : restore m.snapshot = some m := by
  have lt : ∀ e ∈ m.snapshot.dense, e.key < m.snapshot.versions.length := by
    intro e mem
    have := m.inRange e mem
    rwa [m.aligned] at this
  unfold restore
  rw [dif_pos lt]
  congr 1
  apply EntityManager.ext
  · rfl
  · refine (indexes_rebuild valid.indexes.nodup ?_).sparse_eq
      valid.indexes (by simp [snapshot, m.aligned])
    intro key mem
    obtain ⟨e, live, rfl⟩ := List.mem_map.mp mem
    exact lt e live
  · rfl
  · rfl
  · rfl
  · exact valid.count_eq.symm

end EntityManager

end Simulator
