import Mathlib.Data.List.Induction
import Mathlib.Data.List.Nodup

/-!
# Sparse indexes over a dense list

Entry `position + 1` records a position, and removal moves the last dense element into
the hole.  `Points` is kept by every operation; `Indexes` adds the converse.
-/

namespace SparseIndex

open List Option

def position (sparse : List Nat) (key : Nat) : Option Nat :=
  match sparse[key]? with
  | some (place + 1) => some place
  | _ => none

/-- Extend the sparse array with absent entries until it can hold `key`. -/
def grow (sparse : List Nat) (key : Nat) : List Nat :=
  sparse ++ List.replicate (key + 1 - sparse.length) 0

/-- Move the last element into position `place` and drop the last slot. -/
def swapErase {α : Type*} (dense : List α) (place : Nat) : List α :=
  match dense.getLast? with
  | none => dense
  | some moved => (dense.set place moved).dropLast

/-- Point the last key at `place`, unless it is the erased key itself, and
mark the erased key absent. -/
def redirect (sparse keys : List Nat) (place key : Nat) : List Nat :=
  match keys.getLast? with
  | none => sparse.set key 0
  | some moved =>
    if place ≠ keys.length - 1 then
      (sparse.set moved (place + 1)).set key 0
    else
      sparse.set key 0

/-- Record the keys of a dense list from position `start` on. -/
def recordFrom (sparse : List Nat) : Nat → List Nat → List Nat
  | _, [] => sparse
  | start, key :: keys =>
    recordFrom (sparse.set key (start + 1)) (start + 1) keys

def rebuild (size : Nat) (keys : List Nat) : List Nat :=
  recordFrom (List.replicate size 0) 0 keys

def Points (sparse keys : List Nat) : Prop :=
  ∀ key place, position sparse key = some place → keys[place]? = some key

def Indexes (sparse keys : List Nat) : Prop :=
  ∀ key place, position sparse key = some place ↔ keys[place]? = some key

variable {sparse keys : List Nat} {key place : Nat} {α : Type*} {dense : List α} {moved : Nat}

theorem Indexes.points (indexes : Indexes sparse keys) : Points sparse keys :=
  fun key place spot => (indexes key place).mp spot

theorem position_eq_some_iff :
    position sparse key = some place ↔ sparse[key]? = some (place + 1) := by
  unfold position
  split <;> simp_all

theorem position_eq_none_iff :
    position sparse key = none ↔ sparse.length ≤ key ∨ sparse[key]? = some 0 := by
  unfold position
  split
  · rename_i place hit
    have inRange : key < sparse.length := by
      by_contra ge
      rw [getElem?_eq_none (by omega)] at hit
      cases hit
    simp only [reduceCtorEq, hit, some.injEq, or_false, false_iff]
    omega
  · rename_i notRecorded
    simp only [true_iff]
    by_cases inRange : key < sparse.length
    · right
      rw [getElem?_eq_getElem inRange] at notRecorded ⊢
      cases x : sparse[key] with
      | zero => rfl
      | succ place => exact (notRecorded place (by rw [x])).elim
    · left
      omega

theorem lt_length_of_position (spot : position sparse key = some place) : key < sparse.length := by
  rw [position_eq_some_iff] at spot
  exact (List.getElem?_eq_some_iff.mp spot).1

@[simp]
theorem position_nil (key : Nat) : position [] key = none := by
  simp [position]

@[simp]
theorem position_replicate (size key : Nat) : position (replicate size 0) key = none := by
  rw [position_eq_none_iff]
  by_cases inRange : key < size
  · right
    simp [inRange]
  · left
    simpa using inRange

theorem position_set_succ_self (place : Nat) (inRange : key < sparse.length) :
    position (sparse.set key (place + 1)) key = some place := by
  simp [position_eq_some_iff, inRange]

@[simp]
theorem position_set_zero_self (sparse : List Nat) (key : Nat) :
    position (sparse.set key 0) key = none := by
  rw [position_eq_none_iff]
  by_cases inRange : key < sparse.length
  · right
    simp [inRange]
  · left
    simpa using inRange

variable {other : Nat}

theorem position_set_of_ne (entry : Nat) (different : other ≠ key) :
    position (sparse.set key entry) other = position sparse other := by
  simp [position, getElem?_set_ne (Ne.symm different)]

@[simp]
theorem position_grow (sparse : List Nat) (key other : Nat) :
    position (grow sparse key) other = position sparse other := by
  unfold position grow
  by_cases inRange : other < sparse.length
  · rw [getElem?_append_left inRange]
  · rw [getElem?_append_right (by omega), getElem?_eq_none (show sparse.length ≤ other by omega)]
    by_cases extended : other - sparse.length < key + 1 - sparse.length
    · simp [extended]
    · rw [getElem?_eq_none (by simpa using extended)]

theorem lt_length_grow (sparse : List Nat) (key : Nat) : key < (grow sparse key).length := by
  simp [grow]
  omega

theorem points_nil (sparse : List Nat)
    (absent : ∀ key, position sparse key = none) : Points sparse [] := by
  intro key place recorded
  rw [absent key] at recorded
  cases recorded

theorem indexes_nil (absent : ∀ key, position sparse key = none) : Indexes sparse [] := by
  intro key place
  simp [absent key]

theorem Indexes.nodup (indexes : Indexes sparse keys) : keys.Nodup := by
  rw [nodup_iff_getElem?_ne_getElem?]
  intro first second firstLt secondLt equal
  have hit := getElem?_eq_getElem secondLt
  have atFirst := (indexes keys[second] first).mpr (equal.trans hit)
  have atSecond := (indexes keys[second] second).mpr hit
  rw [atFirst] at atSecond
  simp only [some.injEq] at atSecond
  omega

theorem Points.append (points : Points sparse keys) (inRange : key < sparse.length) :
    Points (sparse.set key (keys.length + 1)) (keys ++ [key]) := by
  intro other place recorded
  by_cases same : other = key
  · subst other
    rw [position_set_succ_self _ inRange] at recorded
    cases recorded
    simp
  · rw [position_set_of_ne _ same] at recorded
    have held := points other place recorded
    rw [List.getElem?_append_left (List.getElem?_eq_some_iff.mp held).1]
    exact held

theorem Indexes.append (indexes : Indexes sparse keys) (inRange : key < sparse.length)
    (absent : position sparse key = none) :
    Indexes (sparse.set key (keys.length + 1)) (keys ++ [key]) := by
  intro other place
  refine ⟨indexes.points.append inRange other place, ?_⟩
  intro held
  by_cases old : place < keys.length
  · rw [getElem?_append_left old] at held
    have recorded := (indexes other place).mpr held
    have different : other ≠ key := by
      rintro rfl
      rw [absent] at recorded
      cases recorded
    rw [position_set_of_ne _ different]
    exact recorded
  · rw [getElem?_append_right (by omega)] at held
    have placeEq : place = keys.length := by
      have := (List.getElem?_eq_some_iff.mp held).1
      simp at this
      omega
    subst placeEq
    simp only [Nat.sub_self, getElem?_cons_zero, some.injEq] at held
    subst other
    exact position_set_succ_self _ inRange

theorem swapErase_of_getLast? {moved : α} (lastEq : dense.getLast? = some moved) (place : Nat) :
    swapErase dense place = (dense.set place moved).dropLast := by
  simp [swapErase, lastEq]

@[simp]
theorem length_swapErase (dense : List α) (place : Nat) :
    (swapErase dense place).length = dense.length - 1 := by
  unfold swapErase
  split
  · rename_i empty
    rw [getLast?_eq_none_iff] at empty
    simp [empty]
  · simp

theorem map_swapErase {β : Type*} (f : α → β) (dense : List α) (place : Nat) :
    (swapErase dense place).map f = swapErase (dense.map f) place := by
  unfold swapErase
  cases lastEq : dense.getLast? with
  | none => simp [lastEq]
  | some moved => simp [lastEq, map_dropLast, map_set]

theorem getElem?_swapErase
    (inRange : place < dense.length) (i : Nat) : (swapErase dense place)[i]? =
      if i < dense.length - 1 then
        if i = place then dense.getLast? else dense[i]?
      else
        none := by
  cases lastEq : dense.getLast? with
  | none =>
    rw [getLast?_eq_none_iff] at lastEq
    simp [lastEq] at inRange
  | some moved =>
    rw [swapErase_of_getLast? lastEq, getElem?_dropLast, length_set]
    by_cases kept : i < dense.length - 1
    · rw [if_pos kept, if_pos kept, getElem?_set]
      by_cases hole : place = i
      · subst i
        simp [inRange]
      · rw [if_neg hole, if_neg (Ne.symm hole)]
    · rw [if_neg kept, if_neg kept]

theorem getElem?_swapErase_of_ne {hole : Nat} (holeLt : hole < dense.length)
    (placeLt : place < dense.length) (ne : place ≠ hole) :
    (swapErase dense hole)[if place = dense.length - 1 then hole
      else place]? = dense[place]? := by
  rw [getElem?_swapErase holeLt]
  by_cases isLast : place = dense.length - 1
  · rw [if_pos isLast, if_pos (by omega), if_pos rfl, getLast?_eq_getElem?, isLast]
  · rw [if_neg isLast, if_pos (by omega), if_neg ne]

theorem perm_swapErase {erased : α} (held : dense[place]? = some erased) :
    dense.Perm (erased :: swapErase dense place) := by
  obtain ⟨inRange, heldEq⟩ := List.getElem?_eq_some_iff.mp held
  cases dense using reverseRecOn with
  | nil => simp at inRange
  | append_singleton front moved =>
    have lastEq : (front ++ [moved]).getLast? = some moved := by simp
    rw [swapErase_of_getLast? lastEq]
    by_cases inner : place < front.length
    · rw [set_append_left _ _ inner, dropLast_concat]
      rw [getElem_append_left inner] at heldEq
      obtain ⟨old, behind, frontEq, _, setEq⟩ :
          ∃ old behind, front = old ++ front[place] :: behind ∧ old.length = place ∧
            front.set place moved = old ++ moved :: behind := exists_of_set inner
      rw [heldEq] at frontEq
      rw [setEq, frontEq]
      have toFront : (old ++ erased :: behind ++ [moved]).Perm
          (moved :: erased :: (old ++ behind)) := (perm_append_singleton _ _).trans
          (perm_middle.cons moved)
      exact toFront.trans ((List.Perm.swap _ _ _).trans (perm_middle.symm.cons erased))
    · have placeEq : place = front.length := by
        simp at inRange
        omega
      subst placeEq
      have erasedIs : moved = erased := by simpa using heldEq
      subst erasedIs
      simp

theorem swapErase_eq_eraseIdx_iff (nodup : dense.Nodup) (inRange : place < dense.length) :
    swapErase dense place = dense.eraseIdx place ↔ dense.length ≤ place + 2 := by
  constructor
  · intro eq
    by_contra inner
    have atHole : (swapErase dense place)[place]? = (dense.eraseIdx place)[place]? := by rw [eq]
    rw [getElem?_swapErase inRange, getElem?_eraseIdx, if_pos (by omega), if_pos rfl,
      if_neg (by omega), getLast?_eq_getElem?] at atHole
    rw [getElem?_inj (by omega) nodup] at atHole
    omega
  · intro late
    apply ext_getElem?
    intro i
    rw [getElem?_swapErase inRange, getElem?_eraseIdx, getLast?_eq_getElem?]
    split
    · split
      · rw [if_neg (by omega)]
        congr 1
        omega
      · rw [if_pos (by omega)]
    · rw [if_neg (by omega), getElem?_eq_none (by omega)]

theorem mem_of_mem_swapErase {x : α} (inRange : place < dense.length)
    (mem : x ∈ swapErase dense place) : x ∈ dense := by
  have held := getElem?_eq_getElem inRange
  exact (perm_swapErase held).mem_iff.mpr (mem_cons_of_mem _ mem)

theorem redirect_eq (lastEq : keys.getLast? = some moved) :
    redirect sparse keys place key =
      if place ≠ keys.length - 1 then
        (sparse.set moved (place + 1)).set key 0
      else
        sparse.set key 0 := by
  simp [redirect, lastEq]

@[simp]
theorem length_redirect (sparse keys : List Nat) (place key : Nat) :
    (redirect sparse keys place key).length = sparse.length := by
  unfold redirect
  split
  · simp
  · split <;> simp

theorem position_redirect_self (sparse keys : List Nat) (place key : Nat) :
    position (redirect sparse keys place key) key = none := by
  unfold redirect
  split
  · simp
  · split <;> simp

section

variable (lastEq : keys.getLast? = some moved)
include lastEq

theorem position_redirect_moved (notLast : place ≠ keys.length - 1) (different : moved ≠ key)
    (inRange : moved < sparse.length) :
    position (redirect sparse keys place key) moved = some place := by
  rw [redirect_eq lastEq, if_pos notLast, position_set_of_ne _ different]
  exact position_set_succ_self _ inRange

theorem position_redirect_of_ne (notKey : other ≠ key) (notMoved : other ≠ moved) :
    position (redirect sparse keys place key) other =
      position sparse other := by
  rw [redirect_eq lastEq]
  split
  · rw [position_set_of_ne _ notKey, position_set_of_ne _ notMoved]
  · rw [position_set_of_ne _ notKey]

private theorem getElem?_last :
    keys[keys.length - 1]? = some moved := by
  rw [← getLast?_eq_getElem?]
  exact lastEq

end

theorem Points.erase (points : Points sparse keys) (recorded : position sparse key = some place) :
    Points (redirect sparse keys place key) (swapErase keys place) := by
  have held := points key place recorded
  have inRange := (List.getElem?_eq_some_iff.mp held).1
  obtain ⟨moved, lastEq⟩ : ∃ moved, keys.getLast? = some moved := by
    cases found : keys.getLast? with
    | none =>
      rw [getLast?_eq_none_iff] at found
      simp [found] at inRange
    | some moved => exact ⟨moved, rfl⟩
  intro other spot found
  have notKey : other ≠ key := by
    rintro rfl
    rw [position_redirect_self] at found
    cases found
  rw [getElem?_swapErase inRange]
  by_cases isMoved : other = moved
  · subst other
    -- a recorded last key ends up in the hole, wherever it was recorded
    have notLast : place ≠ keys.length - 1 := by
      intro atLast
      have lastHeld := getElem?_last lastEq
      rw [← atLast, held] at lastHeld
      simp only [some.injEq] at lastHeld
      exact notKey lastHeld.symm
    rw [redirect_eq lastEq, if_pos notLast, position_set_of_ne _ notKey] at found
    have movedInRange : moved < sparse.length := by
      have := lt_length_of_position found
      simpa using this
    rw [position_set_succ_self _ movedInRange] at found
    cases found
    rw [if_pos (by omega), if_pos rfl]
    exact lastEq
  · rw [position_redirect_of_ne lastEq notKey isMoved] at found
    have stays := points other spot found
    have spotLt := (List.getElem?_eq_some_iff.mp stays).1
    have notLastSpot : spot ≠ keys.length - 1 := by
      rintro rfl
      rw [getElem?_last lastEq] at stays
      simp only [some.injEq] at stays
      exact isMoved stays.symm
    have notHole : spot ≠ place := by
      rintro rfl
      rw [held] at stays
      simp only [some.injEq] at stays
      exact notKey stays.symm
    rw [if_pos (by omega), if_neg notHole]
    exact stays

theorem Indexes.erase (indexes : Indexes sparse keys)
    (recorded : position sparse key = some place) :
    Indexes (redirect sparse keys place key) (swapErase keys place) := by
  intro other spot
  refine ⟨indexes.points.erase recorded other spot, ?_⟩
  intro stays
  have held := indexes.points key place recorded
  have inRange := (List.getElem?_eq_some_iff.mp held).1
  rw [getElem?_swapErase inRange] at stays
  split at stays
  · rename_i spotLt
    cases lastEq : keys.getLast? with
    | none =>
      rw [getLast?_eq_none_iff] at lastEq
      simp [lastEq] at inRange
    | some moved =>
      have movedRecorded := (indexes moved (keys.length - 1)).mpr (getElem?_last lastEq)
      split at stays
      · rename_i hole
        subst spot
        rw [lastEq] at stays
        simp only [some.injEq] at stays
        subst other
        have ne : moved ≠ key := by
          rintro rfl
          rw [recorded] at movedRecorded
          simp only [some.injEq] at movedRecorded
          omega
        exact position_redirect_moved lastEq (by omega) ne (lt_length_of_position movedRecorded)
      · rename_i notHole
        have otherRecorded := (indexes other spot).mpr stays
        have notKey : other ≠ key := by
          rintro rfl
          rw [recorded] at otherRecorded
          simp only [some.injEq] at otherRecorded
          exact notHole otherRecorded.symm
        have notMoved : other ≠ moved := by
          rintro rfl
          rw [movedRecorded] at otherRecorded
          simp only [some.injEq] at otherRecorded
          omega
        rw [position_redirect_of_ne lastEq notKey notMoved]
        exact otherRecorded
  · cases stays

@[simp]
theorem length_recordFrom (sparse : List Nat) (start : Nat) (keys : List Nat) :
    (recordFrom sparse start keys).length = sparse.length := by
  induction keys generalizing sparse start with
  | nil => rfl
  | cons key keys ih => simp [recordFrom, ih]

@[simp]
theorem length_rebuild (size : Nat) (keys : List Nat) : (rebuild size keys).length = size := by
  simp [rebuild]

theorem recordFrom_append (sparse : List Nat) (start : Nat) (first second : List Nat) :
    recordFrom sparse start (first ++ second) = recordFrom (recordFrom sparse start first)
        (start + first.length) second := by
  induction first generalizing sparse start with
  | nil => rfl
  | cons key first ih =>
    simp only [cons_append, recordFrom, ih, length_cons]
    congr 1
    omega

theorem rebuild_concat (size : Nat) (keys : List Nat) (key : Nat) :
    rebuild size (keys ++ [key]) = (rebuild size keys).set key (keys.length + 1) := by
  simp [rebuild, recordFrom_append, recordFrom]

theorem points_rebuild (size : Nat) (keys : List Nat) : Points (rebuild size keys) keys := by
  induction keys using reverseRecOn with
  | nil => exact points_nil _ (by simp [rebuild, recordFrom])
  | append_singleton keys key ih =>
    rw [rebuild_concat]
    by_cases inRange : key < size
    · exact ih.append (by simpa using inRange)
    · rw [set_eq_of_length_le (by simpa using inRange)]
      intro other place recorded
      have held := ih other place recorded
      rw [List.getElem?_append_left (List.getElem?_eq_some_iff.mp held).1]
      exact held

theorem le_foldl_max {start : Nat} (mem : key ∈ keys) : key ≤ keys.foldl max start := by
  have startLe (keys : List Nat) (start : Nat) : start ≤ keys.foldl max start := by
    induction keys generalizing start with
    | nil => exact Nat.le_refl _
    | cons head tail ih =>
      exact Nat.le_trans (Nat.le_max_left start head) (ih _)
  induction keys generalizing start with
  | nil => cases mem
  | cons head tail ih =>
    rcases mem_cons.mp mem with rfl | inTail
    · exact Nat.le_trans (Nat.le_max_right start key) (startLe tail _)
    · exact ih inTail

theorem indexes_rebuild {size : Nat} (nodup : keys.Nodup) (inRange : ∀ key ∈ keys, key < size) :
    Indexes (rebuild size keys) keys := by
  induction keys using reverseRecOn with
  | nil => exact indexes_nil (by simp [rebuild, recordFrom])
  | append_singleton keys key ih =>
    rw [rebuild_concat]
    have split := nodup_append.mp nodup
    have rest := ih split.1 fun other member =>
      inRange other (mem_append_left _ member)
    refine rest.append (by simpa using inRange key (by simp)) ?_
    cases found : position (rebuild size keys) key with
    | none => rfl
    | some place =>
      have held := rest.points key place found
      exact (split.2.2 key (mem_of_getElem? held) key (by simp) rfl).elim

theorem Indexes.sparse_eq {first second : List Nat}
    (firstIndexes : Indexes first keys) (secondIndexes : Indexes second keys)
    (sameLength : first.length = second.length) : first = second := by
  apply ext_getElem sameLength
  intro key firstLt secondLt
  have samePosition : position first key = position second key := by
    apply ext
    intro place
    rw [firstIndexes key place, secondIndexes key place]
  have firstEntry := getElem?_eq_getElem firstLt
  have secondEntry := getElem?_eq_getElem secondLt
  unfold position at samePosition
  rw [firstEntry, secondEntry] at samePosition
  cases firstCase : first[key] <;> cases secondCase : second[key] <;> simp_all

end SparseIndex
