import Simulator.EntityManager
import Simulator.GoValues

/-!
# Component columns

The propositional fields of `Column` hold for every column the code can build;
`Consistent` adds that the index lists every entity.
-/

namespace Simulator

open SparseIndex EntityID

/-- `Column`.  `allocated` tells a non-nil `data` slice, which only the JSON
form of an empty column can show. -/
@[ext]
structure Column (α : Type) where
  sparse : List Nat
  dense : List EntityID
  data : List α
  allocated : Bool
  aligned : dense.length = data.length
  points : Points sparse (dense.map EntityID.key)
  inRange : ∀ e ∈ dense, e.key < sparse.length
  filled : data ≠ [] → allocated = true

/-- The errors of `restoreJSON`. -/
inductive ColumnError
  | unmarshal (detail : String)
  | lengthMismatch (entities values : Nat)
deriving DecidableEq

def ColumnError.message : ColumnError → String
  | .unmarshal detail => detail
  | .lengthMismatch entities values =>
    "simulation: component restore length mismatch: " ++
      toString entities ++ " entities, " ++ toString values ++ " values"

namespace Column

variable {α : Type}

/-- The zero `Column`. -/
def empty : Column α where
  sparse := []
  dense := []
  data := []
  allocated := false
  aligned := rfl
  points := points_nil _ position_nil
  inRange := by simp
  filled := by simp

def keys (c : Column α) : List Nat :=
  c.dense.map EntityID.key

def place (c : Column α) (e : EntityID) : Option Nat :=
  position c.sparse e.key

variable {c : Column α} {e : EntityID} {place : Nat} {unmarshal : Json → Except String α}
  {entities : List EntityID} {values : RawMessage}

theorem place_lt (spot : c.place e = some place) : place < c.data.length := by
  have held := c.points _ _ spot
  have := (List.getElem?_eq_some_iff.mp held).1
  rwa [List.length_map, c.aligned] at this

/-- The branch of `Set` that adds an entity. -/
def add (c : Column α) (e : EntityID) (v : α) : Column α where
  sparse := (grow c.sparse e.key).set e.key (c.data.length + 1)
  dense := c.dense ++ [e]
  data := c.data ++ [v]
  allocated := true
  aligned := by simp [c.aligned]
  points := by
    have grown : Points (grow c.sparse e.key) (c.dense.map EntityID.key) := by
      intro key place recorded
      rw [position_grow] at recorded
      exact c.points key place recorded
    have appended := grown.append (lt_length_grow c.sparse e.key)
    rw [List.length_map, c.aligned] at appended
    simpa using appended
  inRange := by
    intro other member
    rw [List.length_set]
    rcases List.mem_append.mp member with old | new
    · have := c.inRange other old
      simp [grow]
      omega
    · rw [List.mem_singleton.mp new]
      exact lt_length_grow c.sparse e.key
  filled := fun _ => rfl

def write (c : Column α) (place : Nat) (v : α) : Column α where
  sparse := c.sparse
  dense := c.dense
  data := c.data.set place v
  allocated := c.allocated
  aligned := by simp [c.aligned]
  points := c.points
  inRange := c.inRange
  filled := by
    intro nonempty
    apply c.filled
    rintro empty
    exact nonempty (by rw [empty, List.set_nil])

def set (c : Column α) (e : EntityID) (v : α) : Column α :=
  match c.place e with
  | none => c.add e v
  | some place => c.write place v

/-- `Get`, and `GetShard` without the lock -/
def get (c : Column α) (e : EntityID) : Option α :=
  match c.place e with
  | none => none
  | some place => c.data[place]?

def has (c : Column α) (e : EntityID) : Bool :=
  (c.place e).isSome

/-- `SetShard`; `none` is the panic on an absent component. -/
def setShard (c : Column α) (e : EntityID) (v : α) : Option (Column α) :=
  match c.place e with
  | none => none
  | some place => some (c.write place v)

/-- The part of `Remove` after the presence check: the last entity and value
move into the hole. -/
def drop (c : Column α) (e : EntityID) (place : Nat)
    (recorded : c.place e = some place) : Column α where
  sparse := redirect c.sparse c.keys place e.key
  dense := swapErase c.dense place
  data := swapErase c.data place
  allocated := c.allocated
  aligned := by simp [c.aligned]
  points := by
    rw [map_swapErase]
    exact c.points.erase recorded
  inRange := by
    intro other member
    rw [length_redirect]
    exact c.inRange other (mem_of_mem_swapErase (by rw [c.aligned]; exact place_lt recorded) member)
  filled := by
    intro nonempty
    apply c.filled
    rintro empty
    have := place_lt recorded
    simp [empty] at this

def remove (c : Column α) (e : EntityID) : Bool × Column α :=
  match recorded : c.place e with
  | none => (false, c)
  | some place => (true, c.drop e place recorded)

/-- The pairs `Each` visits, in order -/
def each (c : Column α) : List (EntityID × α) :=
  c.dense.zip c.data

def len (c : Column α) : Nat :=
  c.data.length

def entityIDs (c : Column α) : List EntityID :=
  c.dense

def snapshotJSON (marshal : α → Except String Json) (c : Column α) :
    Except String (List EntityID × RawMessage) :=
  (fun document => (c.dense, some document)) <$> marshalSlice marshal c.allocated c.data

def maxIndex (entities : List EntityID) : Nat :=
  (entities.map EntityID.key).foldl max 0

/-- `restoreJSON`: the new contents of the column. -/
def restoreJSON (unmarshal : Json → Except String α)
    (entities : List EntityID) (values : RawMessage) : Except ColumnError (Column α) :=
  match unmarshalSlice unmarshal values with
  | .error detail => .error (.unmarshal detail)
  | .ok data =>
    if aligned : data.length = entities.length then
      .ok
        { sparse := rebuild (maxIndex entities + 1) (entities.map EntityID.key)
          dense := entities
          data := data
          allocated := !data.isEmpty
          aligned := aligned.symm
          points := points_rebuild _ _
          inRange := by
            intro e member
            rw [length_rebuild]
            exact Nat.lt_succ_of_le (le_foldl_max (List.mem_map_of_mem member))
          filled := by simp }
    else
      .error (.lengthMismatch entities.length data.length)

def Consistent (c : Column α) : Prop :=
  Indexes c.sparse c.keys

theorem consistent_empty : (empty : Column α).Consistent :=
  indexes_nil position_nil

theorem set_of_absent (v : α) (absent : c.place e = none) : c.set e v = c.add e v := by
  simp [set, absent]

theorem set_of_present (v : α) (spot : c.place e = some place) : c.set e v = c.write place v := by
  simp [set, spot]

theorem remove_of_absent (absent : c.place e = none) : c.remove e = (false, c) := by
  unfold remove
  split
  · rfl
  · rename_i spot
    rw [absent] at spot
    cases spot

theorem remove_of_present (spot : c.place e = some place) :
    c.remove e = (true, c.drop e place spot) := by
  unfold remove
  split
  · rename_i absent
    rw [spot] at absent
    cases absent
  · rename_i other hit
    have equal : place = other := by
      rw [spot] at hit
      exact Option.some.inj hit
    subst equal
    rfl

theorem mem_of_mem_remove {other : EntityID}
    (mem : other ∈ (c.remove e).2.entityIDs) : other ∈ c.entityIDs := by
  cases held : c.place e with
  | none => rwa [remove_of_absent held] at mem
  | some hole =>
    rw [remove_of_present held] at mem
    have inDense : hole < c.dense.length := by
      rw [c.aligned]
      exact place_lt held
    exact mem_of_mem_swapErase inDense mem

theorem Consistent.set (valid : c.Consistent) (e : EntityID) (v : α) : (c.set e v).Consistent := by
  cases spot : c.place e with
  | none =>
    rw [set_of_absent v spot]
    have grown : Indexes (grow c.sparse e.key) c.keys := by
      intro key place
      rw [position_grow]
      exact valid key place
    have appended := grown.append (lt_length_grow c.sparse e.key)
      (by rw [position_grow]; exact spot)
    have lengthEq : c.keys.length = c.data.length := by
      simp [keys, c.aligned]
    rw [lengthEq] at appended
    simpa [Consistent, add, keys] using appended
  | some place =>
    rw [set_of_present v spot]
    exact valid

theorem Consistent.remove (valid : c.Consistent) (e : EntityID) : (c.remove e).2.Consistent := by
  cases spot : c.place e with
  | none =>
    rw [remove_of_absent spot]
    exact valid
  | some place =>
    rw [remove_of_present spot]
    have erased := valid.erase spot
    rw [keys, ← map_swapErase] at erased
    exact erased

theorem restoreJSON_eq_ok (back : restoreJSON unmarshal entities values = .ok c) :
    c.dense = entities ∧ unmarshalSlice unmarshal values = .ok c.data ∧
      c.allocated = !c.data.isEmpty ∧ c.sparse = rebuild (maxIndex entities + 1)
        (entities.map key) := by
  unfold restoreJSON at back
  split at back
  · cases back
  · rename_i data dec
    split at back
    · cases back
      exact ⟨rfl, dec, rfl, rfl⟩
    · cases back

theorem restoreJSON_isOk {data : List α} (dec : unmarshalSlice unmarshal values = .ok data)
    (aligned : data.length = entities.length) :
    ∃ c, restoreJSON unmarshal entities values = .ok c := by
  simp only [restoreJSON, dec, dif_pos aligned]
  exact ⟨_, rfl⟩

theorem consistent_of_restoreJSON (distinct : (entities.map key).Nodup)
    (back : restoreJSON unmarshal entities values = .ok c) : c.Consistent := by
  obtain ⟨denseEq, _, _, sparseEq⟩ := restoreJSON_eq_ok back
  unfold Consistent keys
  rw [denseEq, sparseEq]
  apply indexes_rebuild distinct
  intro key mem
  exact Nat.lt_succ_of_le (le_foldl_max mem)

theorem snapshotJSON_eq_ok {marshal : α → Except String Json}
    (took : c.snapshotJSON marshal = .ok (entities, values)) :
    entities = c.dense ∧ ∃ doc, values = some doc ∧
      marshalSlice marshal c.allocated c.data = .ok doc := by
  unfold snapshotJSON at took
  cases enc : marshalSlice marshal c.allocated c.data with
  | error msg => rw [enc] at took; cases took
  | ok doc =>
    rw [enc] at took
    cases took
    exact ⟨rfl, doc, rfl, rfl⟩

structure RebuiltFrom (fresh c : Column α) : Prop where
  dense_eq : fresh.dense = c.dense
  data_eq : fresh.data = c.data
  allocated_eq : fresh.allocated = !c.data.isEmpty
  sparse_eq : fresh.sparse = rebuild (maxIndex c.dense + 1) c.keys

theorem restoreJSON_snapshotJSON {G : GoTypes} {t : G.Ty} {c : Column (G.Value t)}
    (took : c.snapshotJSON G.marshal = .ok (entities, values))
    (roundTrips : ∀ v ∈ c.data, GoTypes.RoundTrips v) :
    ∃ fresh, restoreJSON (G.unmarshal t) entities values = .ok fresh ∧
      fresh.RebuiltFrom c := by
  obtain ⟨rfl, doc, rfl, enc⟩ := snapshotJSON_eq_ok took
  have dec := GoTypes.unmarshalSlice_marshalSlice c.filled roundTrips enc
  obtain ⟨fresh, back⟩ := restoreJSON_isOk dec c.aligned.symm
  obtain ⟨denseEq, decodedEq, allocatedEq, sparseEq⟩ := restoreJSON_eq_ok back
  rw [dec] at decodedEq
  have dataEq : fresh.data = c.data := (Except.ok.inj decodedEq).symm
  rw [dataEq] at allocatedEq
  exact ⟨fresh, back, denseEq, dataEq, allocatedEq, sparseEq⟩

structure Alike (first second : Column α) : Prop where
  dense_eq : first.dense = second.dense
  data_eq : first.data = second.data
  consistent_left : first.Consistent
  consistent_right : second.Consistent

theorem RebuiltFrom.alike {fresh : Column α} (rebuilt : fresh.RebuiltFrom c)
    (valid : c.Consistent) : Alike c fresh := by
  refine ⟨rebuilt.dense_eq.symm, rebuilt.data_eq.symm, valid, ?_⟩
  unfold Consistent
  rw [keys, rebuilt.dense_eq, rebuilt.sparse_eq]
  apply indexes_rebuild (Indexes.nodup valid)
  intro key mem
  exact Nat.lt_succ_of_le (le_foldl_max mem)

namespace Alike

variable {first second : Column α}

section

variable (alike : Alike first second)
include alike

theorem place_eq (e : EntityID) : first.place e = second.place e := by
  apply Option.ext
  intro spot
  have left := alike.consistent_left e.key spot
  have right := alike.consistent_right e.key spot
  rw [keys, alike.dense_eq] at left
  exact left.trans right.symm

theorem get_eq (e : EntityID) : first.get e = second.get e := by
  simp only [get, alike.place_eq e, alike.data_eq]

theorem has_eq (e : EntityID) : first.has e = second.has e := by
  simp only [has, alike.place_eq e]

theorem each_eq : first.each = second.each := by
  rw [each, each, alike.dense_eq, alike.data_eq]

theorem entityIDs_eq : first.entityIDs = second.entityIDs :=
  alike.dense_eq

theorem set (e : EntityID) (v : α) : Alike (first.set e v) (second.set e v) := by
  refine ⟨?_, ?_, alike.consistent_left.set e v, alike.consistent_right.set e v⟩ <;>
  · unfold Column.set
    rw [alike.place_eq e]
    split
    · simp [add, alike.dense_eq, alike.data_eq]
    · simp [write, alike.dense_eq, alike.data_eq]

theorem remove (e : EntityID) :
    (first.remove e).1 = (second.remove e).1 ∧ Alike (first.remove e).2 (second.remove e).2 := by
  have left := alike.consistent_left.remove e
  have right := alike.consistent_right.remove e
  have placeEq := alike.place_eq e
  cases spot : first.place e with
  | none =>
    rw [spot] at placeEq
    rw [remove_of_absent spot, remove_of_absent placeEq.symm]
    exact ⟨rfl, alike⟩
  | some place =>
    rw [spot] at placeEq
    rw [remove_of_present spot] at left ⊢
    rw [remove_of_present placeEq.symm] at right ⊢
    refine ⟨rfl, ?_, ?_, left, right⟩
    · simp [drop, alike.dense_eq]
    · simp [drop, alike.data_eq]

end

end Alike

end Column

end Simulator
