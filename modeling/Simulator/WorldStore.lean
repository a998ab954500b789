import Simulator.Scheduler

/-!
# Component values as shared memory

A running system sees one value for each component and entity index.
-/

namespace Simulator

open Interleaving SparseIndex List Option ComponentStore Column

variable {G : GoTypes}

@[ext]
structure ColumnFrame (α : Type) where
  sparse : List Nat
  dense : List EntityID
  allocated : Bool
  unindexed : List (Option α)

namespace Column

variable {α : Type}

def live (c : Column α) (place : Nat) : Bool :=
  (c.dense[place]?).any fun e => decide (c.place e = some place)

def frame (c : Column α) : ColumnFrame α where
  sparse := c.sparse
  dense := c.dense
  allocated := c.allocated
  unindexed := c.data.mapIdx fun place v =>
    if c.live place then none else some v

def valueAt (c : Column α) (key : Nat) : Option α :=
  (position c.sparse key).bind fun place => c.data[place]?

theorem get_eq_valueAt (c : Column α) (e : EntityID) : c.get e = c.valueAt e.key := by
  unfold get valueAt place
  cases position c.sparse e.key <;> rfl

variable {c : Column α} {e : EntityID} {place : Nat}

theorem live_of_place (recorded : c.place e = some place) : c.live place = true := by
  have held := c.points _ _ recorded
  rw [getElem?_map] at held
  obtain ⟨other, hit, keyEq⟩ := map_eq_some_iff.mp held
  unfold live
  rw [hit]
  simp only [any_some, decide_eq_true_eq]
  unfold Column.place at recorded ⊢
  rw [keyEq]
  exact recorded

theorem eq_of_frame {first second : Column α} (frames : first.frame = second.frame)
    (values : ∀ key, first.valueAt key = second.valueAt key) : first = second := by
  have sparseEq : first.sparse = second.sparse := congrArg ColumnFrame.sparse frames
  have denseEq : first.dense = second.dense := congrArg ColumnFrame.dense frames
  have liveEq : ∀ place, first.live place = second.live place := by
    intro place
    unfold live Column.place
    rw [denseEq, sparseEq]
  refine Column.ext sparseEq denseEq (List.ext_getElem? fun place => ?_)
    (congrArg ColumnFrame.allocated frames)
  cases isLive : first.live place with
  | true =>
    have held := isLive
    unfold live at held
    obtain ⟨e, _, recorded⟩ := (any_eq_true _ _).mp held
    rw [decide_eq_true_eq] at recorded
    have value := values e.key
    have same : position second.sparse e.key = some place := by
      rw [← sparseEq]
      exact recorded
    unfold Column.place at recorded
    simpa [valueAt, recorded, same] using value
  | false =>
    have others := congrArg (fun frame => frame.unindexed[place]?) frames
    simp only [frame, getElem?_mapIdx, ← liveEq place, isLive,
      Bool.false_eq_true, if_false] at others
    exact map_injective (some_injective _) others

section

variable (recorded : c.place e = some place) (v : α)
include recorded v

theorem frame_write : (c.write place v).frame = c.frame := by
  have liveEq : ∀ other, (c.write place v).live other = c.live other := fun _ => rfl
  refine ColumnFrame.ext rfl rfl rfl (ext_getElem? fun other => ?_)
  simp only [frame, getElem?_mapIdx, liveEq]
  by_cases eq : other = place
  · subst eq
    have lt := place_lt recorded
    simp [write, live_of_place recorded, lt]
  · simp only [write, getElem?_set_ne (Ne.symm eq)]

theorem valueAt_write_of_ne {key : Nat} (other : key ≠ e.key) :
    (c.write place v).valueAt key = c.valueAt key := by
  unfold valueAt
  simp only [write]
  cases found : position c.sparse key with
  | none => rfl
  | some spot =>
    -- one place cannot belong to two indices
    have different : place ≠ spot := by
      rintro rfl
      have left := c.points _ _ recorded
      have right := c.points _ _ found
      rw [left] at right
      exact other (some.inj right).symm
    simp [getElem?_set_ne different]

theorem valueAt_write_self : (c.write place v).valueAt e.key = some v := by
  unfold Column.place at recorded
  simp [valueAt, write, recorded, place_lt (c := c) recorded]

end

end Column

namespace World

abbrev Location := ComponentID × Nat

def value (w : World G) (location : Location) : Option G.Any :=
  (w.components.cols location.1).bind fun column =>
    (column.2.valueAt location.2).map fun v => ⟨column.1, v⟩

def withoutColumns (w : World G) : World G :=
  { w with components := { w.components with cols := fun _ => none } }

def columnFrames (w : World G) (id : ComponentID) : Option (Σ t : G.Ty, ColumnFrame (G.Value t)) :=
  (w.components.cols id).map fun column => ⟨column.1, column.2.frame⟩

def SameFrame (first second : World G) : Prop :=
  first.withoutColumns = second.withoutColumns ∧ first.columnFrames = second.columnFrames

variable {first second : World G} {id : ComponentID} {t : G.Ty} {e : EntityID} {w : World G}

theorem cols_eq_of_frame (frames : first.columnFrames id = second.columnFrames id)
    (vs : ∀ key, first.value (id, key) = second.value (id, key)) :
    first.components.cols id = second.components.cols id := by
  unfold columnFrames at frames
  unfold value at vs
  cases left : first.components.cols id with
  | none =>
    rw [left, map_none, eq_comm, map_eq_none_iff] at frames
    rw [frames]
  | some col =>
    obtain ⟨t, c⟩ := col
    cases right : second.components.cols id with
    | none =>
      rw [left, right] at frames
      cases frames
    | some other =>
      obtain ⟨u, d⟩ := other
      rw [left, right] at frames
      simp only [left, right] at vs
      have pair := some.inj frames
      have typeEq : t = u := congrArg Sigma.fst pair
      subst typeEq
      have frameEq : c.frame = d.frame := eq_of_heq (Sigma.mk.inj pair).2
      have eq : c = d := eq_of_frame frameEq fun key => by
        have value := vs key
        simp only [bind_some] at value
        exact map_injective (fun _ _ equal =>
          eq_of_heq (Sigma.mk.inj equal).2) value
      rw [eq]

def store (G : GoTypes) :
    Store (World G) Location (Option G.Any) where
  view := value
  Alike := SameFrame
  equivalence := ⟨fun _ => ⟨rfl, rfl⟩, fun same => ⟨same.1.symm, same.2.symm⟩,
      fun left right =>
        ⟨left.1.trans right.1, left.2.trans right.2⟩⟩
  ext := by
    intro first second same values
    have colsEq : first.components.cols = second.components.cols :=
      funext fun id => cols_eq_of_frame (congrFun same.2 id) fun key => values (id, key)
    calc
      first = { first.withoutColumns with
          components := { first.withoutColumns.components with
            cols := first.components.cols } } := rfl
      _ = { second.withoutColumns with
          components := { second.withoutColumns.components with
            cols := second.components.cols } } := by
        rw [same.1, colsEq]
      _ = second := rfl

theorem SameFrame.entities_eq (eq : SameFrame first second) (id : ComponentID) :
    first.components.entities id = second.components.entities id := by
  have frames := congrFun eq.2 id
  unfold columnFrames at frames
  unfold ComponentStore.entities
  cases left : first.components.cols id with
  | none =>
    rw [left, map_none, eq_comm, map_eq_none_iff] at frames
    rw [frames]
  | some col =>
    cases right : second.components.cols id with
    | none =>
      rw [left, right] at frames
      cases frames
    | some other =>
      rw [left, right] at frames
      have dense := congrArg (fun frame => frame.2.dense) (some.inj frames)
      exact dense

theorem SameFrame.systemEntities_eq (eq : SameFrame first second) (sys : System G) :
    systemEntities first sys = systemEntities second sys := by
  have es : first.withoutColumns.entities =
      second.withoutColumns.entities := by rw [eq.1]
  have columns : first.components.entities = second.components.entities := funext eq.entities_eq
  simp only [withoutColumns] at es
  unfold systemEntities
  rw [es, columns]

theorem SameFrame.entitySet_eq (eq : SameFrame first second) (cached : EntitySet) (sys : System G) :
    entitySet first cached sys = entitySet second cached sys := by
  have revision : first.withoutColumns.revision =
      second.withoutColumns.revision := by rw [eq.1]
  simp only [withoutColumns] at revision
  unfold entitySet
  rw [revision, eq.systemEntities_eq sys]

/-- `GetShard` on the column of a component. -/
def getShard (t : G.Ty) (id : ComponentID) (e : EntityID) (w : World G) : Option (G.Value t) :=
  (w.components.columnOf t id).bind fun column => column.get e

/-- `SetShard` on the column of a component.  It panics on an absent
component; a system that does not fail never gets there. -/
def setShard (t : G.Ty) (id : ComponentID) (e : EntityID) (v : G.Value t) (w : World G) : World G :=
  match (w.components.columnOf t id).bind fun column =>
      column.setShard e v with
  | some column =>
    { w with components := w.components.bind t id column }
  | none => w

/-- The stored value as one of type `t`. -/
def ofType (t : G.Ty) : Option G.Any → Option (G.Value t)
  | some ⟨bound, v⟩ => if same : bound = t then some (same ▸ v) else none
  | none => none

/-- A present value of type `t` is replaced. -/
def replaced (t : G.Ty) (v : G.Value t) : Option G.Any → Option G.Any
  | some ⟨bound, old⟩ =>
    if bound = t then some ⟨t, v⟩ else some ⟨bound, old⟩
  | none => none

theorem getShard_eq_value (t : G.Ty) (id : ComponentID) (e : EntityID) (w : World G) :
    w.getShard t id e = ofType t (w.value (id, e.key)) := by
  unfold getShard value
  cases held : w.components.cols id with
  | none =>
    rw [columnOf_unbound held]
    rfl
  | some col =>
    obtain ⟨bound, c⟩ := col
    by_cases eq : bound = t
    · subst eq
      rw [columnOf_bound held]
      simp only [bind_some, get_eq_valueAt]
      cases c.valueAt e.key <;> simp [ofType]
    · rw [columnOf_other held eq]
      cases hit : c.valueAt e.key <;> simp [ofType, hit, eq]

theorem replaced_of_ofType_eq_none {stored : Option G.Any}
    (absent : ofType t stored = none) (v : G.Value t) : replaced t v stored = stored := by
  match stored with
  | none => rfl
  | some ⟨bound, old⟩ =>
    by_cases same : bound = t
    · simp [ofType, same] at absent
    · simp [replaced, same]

theorem setShard_of_absent (absent : w.getShard t id e = none) (v : G.Value t) :
    w.setShard t id e v = w := by
  have missing : ((w.components.columnOf t id).bind fun col =>
      col.setShard e v) = none := by
    unfold getShard at absent
    cases hit : w.components.columnOf t id with
    | none => rfl
    | some col =>
      rw [hit, bind_some] at absent
      rw [Option.bind_some, Column.setShard]
      cases recorded : col.place e with
      | none => rfl
      | some place =>
        have lt := place_lt recorded
        simp [Column.get, recorded] at absent
        omega
  unfold setShard
  rw [missing]

theorem exists_place_of_getShard {old : G.Value t} (present : w.getShard t id e = some old) :
    ∃ col place, w.components.cols id = some ⟨t, col⟩ ∧ col.place e = some place := by
  unfold getShard at present
  obtain ⟨col, hit, got⟩ := bind_eq_some_iff.mp present
  unfold Column.get at got
  split at got
  · cases got
  · rename_i place recorded
    unfold columnOf at hit
    split at hit
    · cases hit
      cases recorded
    · rename_i bound other held
      split at hit
      · rename_i eq
        subst eq
        cases hit
        exact ⟨other, place, held, recorded⟩
      · cases hit

theorem write_spec {column : Column (G.Value t)} {place : Nat}
    (held : w.components.cols id = some ⟨t, column⟩)
    (recorded : column.place e = some place) (v : G.Value t) :
    SameFrame w { w with
        components := w.components.bind t id (column.write place v) } ∧
      ∀ location, value { w with
          components := w.components.bind t id (column.write place v) }
          location =
        if location = (id, e.key) then some ⟨t, v⟩
        else w.value location := by
  refine ⟨⟨rfl, funext fun other => ?_⟩, fun location => ?_⟩
  · by_cases own : other = id
    · subst own
      simp [columnFrames, held, frame_write recorded]
    · simp [columnFrames, cols_bind_of_ne _ _ _ own]
  · obtain ⟨component, key⟩ := location
    by_cases own : component = id
    · subst own
      by_cases ownKey : key = e.key
      · subst ownKey
        simp only [value, cols_bind_self, bind_some, valueAt_write_self recorded v]
        simp
      · simp [value, held, ownKey, valueAt_write_of_ne recorded v ownKey]
    · simp [value, own, cols_bind_of_ne _ _ _ own]

theorem setShard_spec (t : G.Ty) (id : ComponentID) (e : EntityID) (v : G.Value t) (w : World G) :
    SameFrame w (w.setShard t id e v) ∧ ∀ location, (w.setShard t id e v).value location =
        if location = (id, e.key) then replaced t v (w.value location)
        else w.value location := by
  cases present : w.getShard t id e with
  | none =>
    rw [setShard_of_absent present]
    rw [getShard_eq_value] at present
    refine ⟨⟨rfl, rfl⟩, fun location => ?_⟩
    split
    · rename_i own
      rw [own, replaced_of_ofType_eq_none present]
    · rfl
  | some old =>
    obtain ⟨column, place, held, recorded⟩ := exists_place_of_getShard present
    have written : w.setShard t id e v = { w with
        components := w.components.bind t id (column.write place v) } := by
      simp [setShard, ComponentStore.columnOf_bound held, Column.setShard, recorded]
    obtain ⟨frame, values⟩ := write_spec held recorded v
    rw [written]
    refine ⟨frame, fun location => (values location).trans ?_⟩
    split
    · rename_i own
      have got := getShard_eq_value t id e w
      rw [present] at got
      rw [own]
      match stored : w.value (id, e.key) with
      | none => simp [stored, ofType] at got
      | some ⟨bound, _⟩ =>
        by_cases same : bound = t
        · simp [replaced, same]
        · simp [stored, ofType, same] at got
    · rfl

def reading {ρ : Type} (t : G.Ty) (id : ComponentID) (e : EntityID)
    (rest : Option (G.Value t) → Process (World G) ρ) : Process (World G) ρ :=
  .act (fun w => w) fun w => rest (w.getShard t id e)

def writing (t : G.Ty) (id : ComponentID) (e : EntityID) (v : G.Value t) : Process (World G) Unit :=
  .act (setShard t id e v) fun _ => .halt ()

variable {base : World G} {footprint : Footprint Location}

theorem within_reading {ρ : Type}
    {rest : Option (G.Value t) → Process (World G) ρ} (readable : (id, e.key) ∈ footprint.touched)
    (later : ∀ v, Within (store G) base footprint (rest v)) :
    Within (store G) base footprint (reading t id e rest) := by
  refine ⟨fun w _ => ⟨⟨rfl, rfl⟩, fun _ _ => rfl⟩, ?_, fun w _ => later _⟩
  intro first second _ _ agree
  refine ⟨?_, fun loc wrote => agree loc (Or.inr wrote)⟩
  have sameValue : first.value (id, e.key) = second.value (id, e.key) := agree _ readable
  simp only [getShard_eq_value, sameValue]

theorem within_writing (v : G.Value t) (writable : (id, e.key) ∈ footprint.writes) :
    Within (store G) base footprint (writing t id e v) := by
  refine ⟨fun w _ => ?_, ?_, fun _ _ => trivial⟩
  · obtain ⟨frame, vs⟩ := setShard_spec t id e v w
    refine ⟨frame, fun loc ge => ?_⟩
    have other : loc ≠ (id, e.key) := by
      rintro rfl
      exact ge writable
    exact (vs loc).trans (if_neg other)
  · intro first second _ _ agree
    refine ⟨rfl, fun loc wrote => ?_⟩
    have old : first.value loc = second.value loc := agree loc (Or.inr wrote)
    have left := (setShard_spec t id e v first).2 loc
    have right := (setShard_spec t id e v second).2 loc
    rw [old] at left
    exact left.trans right.symm

end World

end Simulator
