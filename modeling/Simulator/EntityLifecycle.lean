import Simulator.EntityManager

/-!
# Histories of the entity manager

Sequences of `Create`, `Destroy` and restores of the manager's own snapshot, with fewer
than `2 ^ 31` entities created.
-/

namespace Simulator

open SparseIndex List Option EntityID

namespace EntityManager

/-- A call on the manager; `reload` is `snapshot` followed by `restore`. -/
inductive Call
  | create
  | destroy (id : EntityID)
  | reload
deriving DecidableEq

inductive Entry
  | created (id : EntityID)
  | destroyed (id : EntityID) (found : Bool)
  | reloaded
deriving DecidableEq

/-- Make a call; `none` is a panic. -/
def call (m : EntityManager) : Call → Option (Entry × EntityManager)
  | .create => m.create.map fun made => (.created made.1, made.2)
  | .destroy id => some (.destroyed id (m.destroy id).1, (m.destroy id).2)
  | .reload => (restore m.snapshot).map fun after => (.reloaded, after)

def runCalls :
    List Call → EntityManager → Option (List Entry × EntityManager)
  | [], m => some ([], m)
  | call :: rest, m =>
    (m.call call).bind fun made =>
      (runCalls rest made.2).map fun (log, last) => (made.1 :: log, last)

def Entry.issued? : Entry → Option EntityID
  | .created id => some id
  | _ => none

/-- The identifiers `Create` returned, in order. -/
def issued (log : List Entry) : List EntityID :=
  log.filterMap Entry.issued?

/-- `id` was returned by a `Create` and not destroyed since. -/
def Outstanding (log : List Entry) (id : EntityID) : Prop :=
  ∃ before behind, log = before ++ .created id :: behind ∧ ∀ found, .destroyed id found ∉ behind

structure Represents (log : List Entry) (m : EntityManager) : Prop where
  dense_nodup : m.dense.Nodup
  sparse_iff : ∀ index place, m.sparse[index]? = some (place + 1) ↔
    (m.dense[place]?).map EntityID.key = some index
  sparse_int32 : ∀ entry ∈ m.sparse, entry < 2 ^ 31
  versions_live : ∀ e ∈ m.dense, m.versions[e.key]? = some e.version
  free_nodup : m.free.Nodup
  indices : ∀ index : Nat, index < m.next.toNat ↔ index ∈ m.free.map UInt32.toNat ∨ index ∈ m.keys
  disjoint : ∀ index ∈ m.free, index.toNat ∉ m.keys
  count_eq : m.count = m.dense.length
  alive_iff : ∀ id, m.alive id = true ↔ Outstanding log id
  issued_nodup : (issued log).Nodup

def generation (m : EntityManager) (index : Nat) : UInt32 :=
  m.versions[index]?.getD 0

def Current (m : EntityManager) : Prop :=
  ∀ e ∈ m.dense, m.generation e.key = e.version

def Covered (m : EntityManager) : Prop :=
  ∀ index : Nat, index < m.next.toNat → index ∈ m.free.map UInt32.toNat ∨ index ∈ m.keys

/-- What `Create` does to a consistent manager. -/
structure Creates (m : EntityManager) (id : EntityID)
    (after : EntityManager) : Prop where
  unused : position m.sparse id.key = none
  dense_eq : after.dense = m.dense ++ [id]
  version_eq : id.version = m.generation id.key + 1
  generation_self : after.generation id.key = id.version
  generation_other : ∀ index, index ≠ id.key → after.generation index = m.generation index
  allocated : (m.free = after.free ++ [id.index] ∧ after.next = m.next) ∨
    (m.free = [] ∧ after.free = [] ∧ id.index = m.next ∧ after.next = m.next + 1)
  length_le : after.versions.length ≤ max m.versions.length (m.next.toNat + 1)

theorem generation_extend (m : EntityManager) (i : UInt32)
    (other : Nat) : (m.extend i).generation other =
      m.generation other := by
  unfold generation extend
  by_cases lt : other < m.versions.length
  · simp [getElem?_append_left lt]
  · have ge : m.versions.length ≤ other := by omega
    rw [getElem?_append_right ge, getElem?_eq_none ge]
    cases hit : (replicate (i.toNat + 1 - m.versions.length)
        (0 : UInt32))[other - m.versions.length]? with
    | none => rfl
    | some zero =>
      have := eq_of_mem_replicate (mem_of_getElem? hit)
      simp [this]

variable {m after : EntityManager} {id : EntityID}

theorem place_spec {i : UInt32} (placed : m.place i = some (id, after)) :
    id.index = i ∧ after.dense = m.dense ++ [id] ∧ id.version = m.generation id.key + 1 ∧
      after.generation id.key = id.version ∧ (∀ other, other ≠ id.key →
        after.generation other = m.generation other) ∧ after.free = m.free ∧ after.next = m.next ∧
      after.versions.length = m.versions.length := by
  have lt := inside_of_place placed
  obtain ⟨_, _, eq, idEq, versionsEq, _, denseEq, freeEq, nextEq, _⟩ := place_eq_some lt
  rw [placed] at eq
  cases eq
  have keyEq : id.key = i.toNat := by rw [idEq, key_ofParts]
  have versionEq : id.version = m.generation id.key + 1 := by
    rw [idEq, version_ofParts, key_ofParts, generation, getElem?_eq_getElem lt, getD_some]
  refine ⟨by rw [idEq, index_ofParts], denseEq, versionEq, ?_, ?_,
    freeEq, nextEq, by rw [versionsEq, length_set]⟩
  · rw [generation, versionsEq, keyEq, getElem?_set_self lt, idEq, version_ofParts, getD_some]
  · intro other ne
    rw [keyEq] at ne
    rw [generation, versionsEq, getElem?_set_ne ne.symm, generation]

theorem Consistent.next_unused (consistent : m.Consistent) :
    position m.sparse m.next.toNat = none := by
  cases found : position m.sparse m.next.toNat with
  | none => rfl
  | some place =>
    have held := consistent.indexes.points _ _ found
    have := consistent.live_lt _ (mem_of_getElem? held)
    omega

theorem Consistent.creates (consistent : m.Consistent) (created : m.create = some (id, after)) :
    Creates m id after := by
  unfold EntityManager.create at created
  split at created
  · -- an index is recycled
    rename_i index lastEq
    have splitFree : m.free = m.free.dropLast ++ [index] :=
      (dropLast_append_getLast? index lastEq).symm
    obtain ⟨indexEq, denseEq, versionEq, self, others, freeEq, nextEq,
      lengthEq⟩ := place_spec created
    refine ⟨?_, denseEq, versionEq, self, others, ?_, ?_⟩
    · rw [key, indexEq]
      exact consistent.free_dead index (mem_of_getLast? lastEq)
    · left
      rw [freeEq, nextEq, indexEq]
      exact ⟨splitFree, rfl⟩
    · rw [lengthEq]
      exact le_max_left _ _
  · -- a new index is taken and the arrays grow
    rename_i noneFree
    rw [getLast?_eq_none_iff] at noneFree
    obtain ⟨indexEq, denseEq, versionEq, self, others, freeEq, nextEq,
      lengthEq⟩ := place_spec created
    refine ⟨?_, denseEq, ?_, self, ?_, ?_, ?_⟩
    · rw [key, indexEq]
      exact consistent.next_unused
    · rw [versionEq]
      exact congrArg (· + 1) (generation_extend m m.next id.key)
    · intro other different
      rw [others other different]
      exact generation_extend m m.next other
    · right
      exact ⟨noneFree, by rw [freeEq]; exact noneFree, indexEq, nextEq⟩
    · rw [lengthEq]
      simp only [extend, length_append, length_replicate]
      omega

variable {e : EntityID}

theorem Creates.key_ne (creates : Creates m id after) (valid : m.Consistent)
    (live : e ∈ m.dense) : e.key ≠ id.key := by
  intro eq
  obtain ⟨place, held⟩ := mem_iff_getElem?.mp (mem_map_of_mem (f := key) live)
  have spot := (valid.indexes _ place).mpr held
  rw [eq, creates.unused] at spot
  cases spot

theorem Creates.current (creates : Creates m id after) (valid : m.Consistent)
    (current : m.Current) : after.Current := by
  intro e live
  rw [creates.dense_eq, mem_append, mem_singleton] at live
  rcases live with old | rfl
  · rw [creates.generation_other _ (creates.key_ne valid old)]
    exact current e old
  · exact creates.generation_self

@[simp]
theorem issued_concat (log : List Entry) (x : Entry) :
    issued (log ++ [x]) = issued log ++ x.issued?.toList := by
  cases x <;> simp [issued, Entry.issued?]

theorem outstanding_concat {log : List Entry} {x : Entry}
    : Outstanding (log ++ [x]) id ↔ x = .created id ∨
        Outstanding log id ∧ ∀ hit, x ≠ .destroyed id hit := by
  constructor
  · rintro ⟨before, behind, logEq, kept⟩
    cases behind using reverseRecOn with
    | nil =>
      left
      have lastEq := congrArg getLast? logEq
      simpa using lastEq
    | append_singleton behind last =>
      right
      rw [← cons_append, ← append_assoc] at logEq
      obtain ⟨front, lastEq⟩ := append_inj' logEq rfl
      have entryEq : x = last := by simpa using lastEq
      subst entryEq
      refine ⟨⟨before, behind, front, ?_⟩, ?_⟩
      · intro hit mem
        exact kept hit (mem_append_left _ mem)
      · intro hit isDestroyed
        exact kept hit (by simp [isDestroyed])
  · rintro (isCreated | ⟨⟨before, behind, rfl, kept⟩, notDestroyed⟩)
    · exact ⟨log, [], by rw [isCreated], by simp⟩
    · refine ⟨before, behind ++ [x], by simp, ?_⟩
      intro hit mem
      rcases mem_append.mp mem with old | new
      · exact kept hit old
      · exact notDestroyed hit (mem_singleton.mp new).symm

theorem not_outstanding_nil (id : EntityID) : ¬Outstanding [] id := by
  rintro ⟨old, behind, empty, _⟩
  simp at empty

structure Tracks (log : List Entry) (m : EntityManager) : Prop where
  consistent : m.Consistent
  current : m.Current
  covered : ∀ index : Nat, index < m.next.toNat → index ∈ m.free.map UInt32.toNat ∨ index ∈ m.keys
  issued_le : ∀ id ∈ issued log, id.version.toNat ≤ (m.generation id.key).toNat
  generation_le : ∀ index, (m.generation index).toNat ≤ (issued log).length
  next_le : m.next.toNat ≤ (issued log).length
  length_le : m.versions.length ≤ (issued log).length + 1
  dense_le : m.dense.length ≤ (issued log).length
  live_iff : ∀ id, id ∈ m.dense ↔ Outstanding log id
  issued_nodup : (issued log).Nodup

theorem tracks_new : Tracks [] new where
  consistent := consistent_new
  current := by simp [Current, new]
  covered := by simp [new]
  issued_le := by simp [issued]
  generation_le := by
    intro i
    cases i <;> simp [generation, new]
  next_le := by simp [new]
  length_le := by simp [new]
  dense_le := by simp [new]
  live_iff := by
    intro id
    simp [new, not_outstanding_nil]
  issued_nodup := nodup_nil

theorem getElem?_versions (live : e ∈ m.dense) :
    m.versions[e.key]? = some (m.generation e.key) := by
  have lt : e.key < m.versions.length := by
    rw [← m.aligned]
    exact m.inRange e live
  rw [generation, getElem?_eq_getElem lt, getD_some]

theorem alive_iff_mem (valid : m.Consistent) (current : m.Current) (id : EntityID) :
    m.alive id = true ↔ id ∈ m.dense := by
  constructor
  · intro isAlive
    obtain ⟨place, spot⟩ := exists_position_of_alive isAlive
    have held := valid.indexes.points _ _ spot
    obtain ⟨e, live, sameKey⟩ := mem_map.mp (mem_of_getElem? held)
    have versionEq : m.versions[id.key]? = some id.version := by
      unfold alive aliveLocked at isAlive
      split at isAlive
      · cases isAlive
      · rename_i ver hit
        rw [Bool.and_eq_true, beq_iff_eq] at isAlive
        rw [hit, isAlive.1]
    have sameVersion : e.version = id.version := by
      rw [← sameKey, getElem?_versions live, current e live] at versionEq
      exact some.inj versionEq
    rw [← eq_of_key_version sameKey sameVersion]
    exact live
  · intro live
    obtain ⟨place, held⟩ := mem_iff_getElem?.mp (mem_map_of_mem (f := key) live)
    have spot := (valid.indexes _ place).mpr held
    simp [alive, aliveLocked, getElem?_versions live, current id live, spot]

section Created

variable {log : List Entry} {m after : EntityManager} {id : EntityID}

section

variable (tracks : Tracks log m) (creates : Creates m id after)
  (few : (issued log).length + 1 < 2 ^ 31)
include tracks creates few

theorem Tracks.toNat_version : id.version.toNat = (m.generation id.key).toNat + 1 := by
  have small := tracks.generation_le id.key
  rw [creates.version_eq, UInt32.toNat_add]
  simp
  omega

theorem Tracks.not_issued : id ∉ issued log := by
  intro again
  have := tracks.issued_le id again
  have := tracks.toNat_version creates few
  omega

theorem Tracks.generation_mono (i : Nat) : (m.generation i).toNat ≤ (after.generation i).toNat := by
  by_cases eq : i = id.key
  · subst eq
    rw [creates.generation_self, tracks.toNat_version creates few]
    omega
  · rw [creates.generation_other i eq]

end

theorem Creates.covered (creates : Creates m id after)
    (covered : m.Covered) (small : m.next.toNat + 1 < 2 ^ 32) : after.Covered := by
  intro i below
  have keysEq : after.keys = m.keys ++ [id.key] := by
    simp [keys, creates.dense_eq]
  rw [keysEq]
  rcases creates.allocated with ⟨freeEq, nextEq⟩ | ⟨noneFree, _, indexEq, nextEq⟩
  · rw [nextEq] at below
    rcases covered i below with inFree | live
    · rw [freeEq, map_append, mem_append] at inFree
      rcases inFree with still | taken
      · exact .inl still
      · exact .inr (mem_append_right _ taken)
    · exact .inr (mem_append_left _ live)
  · have nextNat : after.next.toNat = m.next.toNat + 1 := by
      rw [nextEq, UInt32.toNat_add]
      simp
      omega
    by_cases last : i = m.next.toNat
    · right
      rw [last, ← indexEq]
      exact mem_append_right _ (mem_singleton_self _)
    · rcases covered i (by omega) with inFree | live
      · simp [noneFree] at inFree
      · exact .inr (mem_append_left _ live)

theorem Tracks.created (tracks : Tracks log m) (made : m.create = some (id, after))
    (few : (issued log).length + 1 < 2 ^ 31) : Tracks (log ++ [.created id]) after := by
  have creates := tracks.consistent.creates made
  have nextSmall := tracks.next_le
  have lengthSmall := tracks.length_le
  have longer : (issued (log ++ [.created id])).length =
      (issued log).length + 1 := by simp [Entry.issued?]
  have lengthLe := creates.length_le
  have nextLe : after.next.toNat ≤ (issued log).length + 1 := by
    rcases creates.allocated with ⟨_, nextEq⟩ | ⟨_, _, _, nextEq⟩
    · rw [nextEq]
      omega
    · rw [nextEq, UInt32.toNat_add]
      simp
      omega
  refine ⟨tracks.consistent.create made (by omega),
    creates.current tracks.consistent tracks.current,
    creates.covered tracks.covered (by omega), ?_, ?_, by omega, by omega, ?_, ?_, ?_⟩
  · intro other mem
    rw [issued_concat, mem_append] at mem
    rcases mem with old | new
    · exact (tracks.issued_le other old).trans (tracks.generation_mono creates few _)
    · have eq : other = id := by simpa [Entry.issued?] using new
      rw [eq, creates.generation_self]
  · intro i
    rw [longer]
    by_cases eq : i = id.key
    · subst eq
      rw [creates.generation_self, tracks.toNat_version creates few]
      have := tracks.generation_le id.key
      omega
    · rw [creates.generation_other i eq]
      have := tracks.generation_le i
      omega
  · rw [creates.dense_eq, longer, length_append]
    have := tracks.dense_le
    simp
    omega
  · intro other
    rw [creates.dense_eq, mem_append, mem_singleton, tracks.live_iff, outstanding_concat]
    simp only [Entry.created.injEq, ne_eq, reduceCtorEq, not_false_eq_true, implies_true, and_true]
    rw [or_comm, eq_comm]
  · rw [issued_concat]
    simp only [Entry.issued?, toList_some]
    exact nodup_append.mpr ⟨tracks.issued_nodup, by simp,
      fun other old last isLast eq =>
        tracks.not_issued creates few (mem_singleton.mp isLast ▸ eq ▸ old)⟩

end Created

variable {log : List Entry} {m : EntityManager} {id : EntityID} {place : Nat}

theorem Tracks.silent {x : Entry} (tracks : Tracks log m) (issues : x.issued? = none)
    (kills : ∀ id, Outstanding log id → ∀ hit, x ≠ .destroyed id hit) :
    Tracks (log ++ [x]) m := by
  have issuedEq : issued (log ++ [x]) = issued log := by
    simp [issues]
  have creates : ∀ id, x ≠ .created id := by
    rintro id rfl
    cases issues
  refine { tracks with
    issued_le := by rw [issuedEq]; exact tracks.issued_le
    generation_le := by rw [issuedEq]; exact tracks.generation_le
    next_le := by rw [issuedEq]; exact tracks.next_le
    length_le := by rw [issuedEq]; exact tracks.length_le
    dense_le := by rw [issuedEq]; exact tracks.dense_le
    live_iff := ?_
    issued_nodup := by rw [issuedEq]; exact tracks.issued_nodup }
  intro id
  rw [outstanding_concat, tracks.live_iff]
  constructor
  · intro outstanding
    exact .inr ⟨outstanding, kills id outstanding⟩
  · rintro (isCreated | ⟨outstanding, _⟩)
    · exact (creates id isCreated).elim
    · exact outstanding

theorem Tracks.notFound (tracks : Tracks log m) (dead : m.aliveLocked id = false) :
    Tracks (log ++ [.destroyed id false]) m := by
  refine tracks.silent rfl ?_
  rintro other outstanding hit eq
  cases eq
  have isAlive := (alive_iff_mem tracks.consistent tracks.current
    id).mpr ((tracks.live_iff id).mpr outstanding)
  rw [alive, dead] at isAlive
  cases isAlive

section

variable (current : m.Current) (live : id ∈ m.dense) (spot : position m.sparse id.key = some place)
include current live spot

theorem dense_of_position :
    m.dense[place]? = some id := by
  have keyHeld := m.points _ _ spot
  rw [getElem?_map, map_eq_some_iff] at keyHeld
  obtain ⟨e, eHeld, sameKey⟩ := keyHeld
  have eLive := mem_of_getElem? eHeld
  have sameVersion : e.version = id.version := by
    rw [← current e eLive, ← current id live, sameKey]
  rw [eHeld, eq_of_key_version sameKey sameVersion]

theorem perm_release :
    m.dense.Perm (id :: (m.release id place spot).dense) :=
  perm_swapErase (dense_of_position current live spot)

end

theorem Consistent.dense_nodup (valid : m.Consistent) : m.dense.Nodup :=
  List.Nodup.of_map _ valid.indexes.nodup

theorem mem_release_iff {other : EntityID}
    (valid : m.Consistent) (current : m.Current) (live : id ∈ m.dense)
    (spot : position m.sparse id.key = some place) :
    other ∈ (m.release id place spot).dense ↔ other ∈ m.dense ∧ other ≠ id := by
  have split := perm_release current live spot
  have nodup := split.nodup_iff.mp valid.dense_nodup
  rw [split.mem_iff, mem_cons]
  constructor
  · intro remains
    refine ⟨.inr remains, ?_⟩
    rintro rfl
    exact (nodup_cons.mp nodup).1 remains
  · rintro ⟨eq | remains, ne⟩
    · exact (ne eq).elim
    · exact remains

theorem current_release
    (current : m.Current) (live : id ∈ m.dense) (spot : position m.sparse id.key = some place) :
    (m.release id place spot).Current := by
  intro e remains
  exact current e ((perm_release current live spot).mem_iff.mpr (mem_cons_of_mem _ remains))

theorem Covered.release (covered : m.Covered) (current : m.Current) (live : id ∈ m.dense)
    (spot : position m.sparse id.key = some place) : (m.release id place spot).Covered := by
  intro i below
  have split := perm_release current live spot
  have freeEq : (m.release id place spot).free = m.free ++ [id.index] := rfl
  rw [freeEq, map_append, mem_append]
  rcases covered i below with inFree | wasLive
  · exact .inl (.inl inFree)
  · have keysSplit := (split.map key).mem_iff.mp wasLive
    rw [map_cons, mem_cons] at keysSplit
    rcases keysSplit with freed | remains
    · exact .inl (.inr (mem_singleton.mpr freed))
    · exact .inr remains

section

variable (tracks : Tracks log m)
include tracks

theorem Tracks.released (live : id ∈ m.dense) (spot : position m.sparse id.key = some place) :
    Tracks (log ++ [.destroyed id true]) (m.release id place spot) := by
  have split := perm_release tracks.current live spot
  have shorter : m.dense.length = (m.release id place spot).dense.length + 1 := by
    simpa using split.length_eq
  have denseLe := tracks.dense_le
  have issuedEq : issued (log ++ [.destroyed id true]) = issued log := by
    simp [Entry.issued?]
  refine ⟨tracks.consistent.release spot, current_release tracks.current live spot,
    Covered.release tracks.covered tracks.current live spot,
    by rw [issuedEq]; exact tracks.issued_le, by rw [issuedEq]; exact tracks.generation_le,
    by rw [issuedEq]; exact tracks.next_le,
    by rw [issuedEq]; exact tracks.length_le, by rw [issuedEq]; omega, ?_,
    by rw [issuedEq]; exact tracks.issued_nodup⟩
  intro other
  rw [outstanding_concat, ← tracks.live_iff,
    mem_release_iff tracks.consistent tracks.current live spot]
  constructor
  · rintro ⟨wasLive, ne⟩
    refine .inr ⟨wasLive, ?_⟩
    rintro hit eq
    cases eq
    exact ne rfl
  · rintro (isCreated | ⟨wasLive, notDestroyed⟩)
    · cases isCreated
    · refine ⟨wasLive, ?_⟩
      rintro rfl
      exact notDestroyed true rfl

theorem Tracks.destroyed (id : EntityID) :
    Tracks (log ++ [.destroyed id (m.destroy id).1]) (m.destroy id).2 := by
  cases isAlive : m.aliveLocked id with
  | false =>
    rw [destroy_of_not_alive isAlive]
    exact tracks.notFound isAlive
  | true =>
    obtain ⟨place, spot⟩ := exists_position_of_alive isAlive
    rw [destroy_of_alive isAlive spot]
    exact tracks.released ((alive_iff_mem tracks.consistent tracks.current id).mp isAlive) spot

theorem Tracks.call (call : Call) (few : (issued log).length + [call].count .create < 2 ^ 31) :
    ∃ x after, m.call call = some (x, after) ∧ Tracks (log ++ [x]) after ∧
      (issued (log ++ [x])).length = (issued log).length + [call].count .create := by
  cases call with
  | create =>
    obtain ⟨⟨id, after⟩, made⟩ := isSome_iff_exists.mp tracks.consistent.create_isSome
    refine ⟨.created id, after, by simp [EntityManager.call, made],
      tracks.created made (by simpa using few), ?_⟩
    simp [Entry.issued?]
  | destroy id =>
    exact ⟨_, _, rfl, tracks.destroyed id, by simp [Entry.issued?]⟩
  | reload =>
    refine ⟨.reloaded, m, ?_, tracks.silent rfl (by simp), by
      simp [Entry.issued?]⟩
    simp [EntityManager.call, tracks.consistent.restore_snapshot]

theorem Tracks.runCalls (calls : List Call)
    (few : (issued log).length + calls.count .create < 2 ^ 31) :
    ∃ behind after, runCalls calls m = some (behind, after) ∧ Tracks (log ++ behind) after ∧
      (issued (log ++ behind)).length = (issued log).length + calls.count .create := by
  induction calls generalizing log m with
  | nil => exact ⟨[], m, rfl, by simpa using tracks, by simp⟩
  | cons call rest ih =>
    have countEq : (call :: rest).count .create = [call].count .create + rest.count .create := by
      rw [← count_append, singleton_append]
    obtain ⟨x, next, called, tracked, issuedEq⟩ := tracks.call call (by omega)
    obtain ⟨behind, after, ran, last, lengthEq⟩ := ih tracked (by omega)
    refine ⟨x :: behind, after, ?_, by simpa using last, ?_⟩
    · simp [EntityManager.runCalls, called, ran]
    · rw [countEq, ← add_assoc, ← issuedEq, ← lengthEq]
      simp

theorem Tracks.represents (few : (issued log).length < 2 ^ 31) :
    Represents log m where
  dense_nodup := tracks.consistent.dense_nodup
  sparse_iff := by
    intro i place
    rw [← position_eq_some_iff, ← getElem?_map]
    exact tracks.consistent.indexes i place
  sparse_int32 := by
    intro x mem
    cases x with
    | zero => decide
    | succ place =>
      obtain ⟨i, hit⟩ := mem_iff_getElem?.mp mem
      have held := tracks.consistent.indexes.points _ _ (position_eq_some_iff.mpr hit)
      have lt := (List.getElem?_eq_some_iff.mp held).1
      rw [keys, length_map] at lt
      have := tracks.dense_le
      omega
  versions_live := by
    intro e live
    rw [getElem?_versions live, tracks.current e live]
  free_nodup := tracks.consistent.free_nodup
  indices := by
    intro i
    refine ⟨tracks.covered i, ?_⟩
    rintro (inFree | live)
    · obtain ⟨freed, mem, rfl⟩ := mem_map.mp inFree
      exact tracks.consistent.free_lt freed mem
    · exact tracks.consistent.live_lt i live
  disjoint := by
    intro i mem live
    obtain ⟨place, held⟩ := mem_iff_getElem?.mp live
    have spot := (tracks.consistent.indexes _ place).mpr held
    rw [tracks.consistent.free_dead i mem] at spot
    cases spot
  count_eq := tracks.consistent.count_eq
  alive_iff := by
    intro id
    rw [alive_iff_mem tracks.consistent tracks.current, tracks.live_iff]
  issued_nodup := tracks.issued_nodup

end

theorem represents_of_runCalls (calls : List Call) (few : calls.count .create < 2 ^ 31) :
    ∃ log m, runCalls calls new = some (log, m) ∧ Represents log m := by
  obtain ⟨log, m, ran, tracks, issuedEq⟩ := tracks_new.runCalls calls (by simpa [issued] using few)
  rw [nil_append] at tracks issuedEq
  refine ⟨log, m, ran, tracks.represents ?_⟩
  rw [issuedEq]
  simpa [issued] using few

theorem represents_of_runCalls_recycled :
    ∃ log m, runCalls [.create, .create, .destroy (EntityID.ofParts 0 1),
        .reload, .create] new = some (log, m) ∧ Represents log m :=
  represents_of_runCalls _ (by decide)

end EntityManager

end Simulator
