import Simulator.ComponentColumn
import Simulator.TransitionRuns

/-!
# Who wrote the values of a column

A column is keyed by entity index alone; a value is attributed to the identifier of the
last write to its slot.
-/

namespace Simulator

open SparseIndex List Option Column Transition

namespace Column

variable {α : Type} {c : Column α} {v : α} {e : EntityID}

theorem mem_each {id : EntityID} : (id, v) ∈ c.each ↔
      ∃ pos : Nat, c.dense[pos]? = some id ∧ c.data[pos]? = some v := by
  simp only [each, mem_iff_getElem?, getElem?_zip_eq_some]

variable {pos : Nat}

theorem Consistent.place_iff (consistent : c.Consistent) : c.place e = some pos ↔
      ∃ holder, c.dense[pos]? = some holder ∧ holder.key = e.key := by
  rw [place, consistent, keys, getElem?_map, map_eq_some_iff]

theorem get_eq_some :
    c.get e = some v ↔ ∃ pos, c.place e = some pos ∧ c.data[pos]? = some v := by
  unfold get
  split <;> simp_all

theorem each_add (c : Column α) (e : EntityID) (v : α) : (c.add e v).each = c.each ++ [(e, v)] :=
  zip_append c.aligned

def OwnSlot (c : Column α) (e : EntityID) : Prop :=
  c.has e = true → e ∈ c.entityIDs

instance (c : Column α) (e : EntityID) : Decidable (c.OwnSlot e) :=
  inferInstanceAs (Decidable (_ → _))

theorem Consistent.ownSlot_iff (consistent : c.Consistent) (spot : c.place e = some pos) :
    c.OwnSlot e ↔ c.dense[pos]? = some e := by
  constructor
  · intro own
    have listed := own (by rw [has, spot]; rfl)
    obtain ⟨other, held⟩ := mem_iff_getElem?.mp listed
    have again := consistent.place_iff.mpr ⟨e, held, rfl⟩
    rw [spot] at again
    rwa [some.inj again]
  · intro held _
    exact mem_of_getElem? held

theorem mem_each_of_remove {id : EntityID}
    (mem : (id, v) ∈ (c.remove e).2.each) : (id, v) ∈ c.each := by
  cases spot : c.place e with
  | none =>
    rw [remove_of_absent spot] at mem
    exact mem
  | some pos =>
    rw [remove_of_present spot] at mem
    obtain ⟨i, denseHeld, dataHeld⟩ := mem_each.mp mem
    have inData := place_lt spot
    have inDense : pos < c.dense.length := by rwa [c.aligned]
    -- the pair at the hole comes from the last slot of both lists
    simp only [drop, getElem?_swapErase inDense, getElem?_swapErase inData, ← c.aligned,
      getLast?_eq_getElem?] at denseHeld dataHeld
    split at denseHeld
    · split at denseHeld
      · simp_all only [if_true]
        exact mem_each.mpr ⟨_, denseHeld, dataHeld⟩
      · simp_all only [if_true, if_false]
        exact mem_each.mpr ⟨_, denseHeld, dataHeld⟩
    · cases denseHeld

end Column

structure WrittenColumn (α : Type) where
  entities : EntityManager
  column : Column α
  writes : List (EntityID × α)

inductive ColumnAccess (α : Type)
  | create
  | destroy (id : EntityID)
  | set (e : EntityID) (v : α)
  | setShard (e : EntityID) (v : α)
  | remove (e : EntityID)

namespace WrittenColumn

variable {α : Type}

def new : WrittenColumn α :=
  ⟨.new, .empty, []⟩

/-- Make a call; `none` is a panic. -/
def step (st : WrittenColumn α) :
    ColumnAccess α → Option (WrittenColumn α)
  | .create => st.entities.create.map fun made =>
    { st with entities := made.2 }
  | .destroy id => some { st with entities := (st.entities.destroy id).2 }
  | .set e v => some { st with
      column := st.column.set e v
      writes := st.writes ++ [(e, v)] }
  | .setShard e v => (st.column.setShard e v).map fun column =>
    { st with
      column := column
      writes := st.writes ++ [(e, v)] }
  | .remove e => some { st with column := (st.column.remove e).2 }

def lastWrite (writes : List (EntityID × α)) (index : Nat) : Option (EntityID × α) :=
  writes.reverse.find? fun write => write.1.key == index

theorem lastWrite_concat (writes : List (EntityID × α)) (e : EntityID) (v : α) (i : Nat) :
    lastWrite (writes ++ [(e, v)]) i =
      if e.key = i then some (e, v) else lastWrite writes i := by
  by_cases eq : e.key = i <;> simp [lastWrite, eq]

/-- Every pair `Each` reports was last written under its identifier. -/
def Attributed (st : WrittenColumn α) : Prop :=
  ∀ id v, (id, v) ∈ st.column.each → lastWrite st.writes id.key = some (id, v)

def OwnWrite (st : WrittenColumn α) : ColumnAccess α → Prop
  | .set e _ | .setShard e _ => st.column.OwnSlot e
  | _ => True

instance (st : WrittenColumn α) (access : ColumnAccess α) : Decidable (st.OwnWrite access) :=
  match access with
  | .set e _ | .setShard e _ =>
    inferInstanceAs (Decidable (st.column.OwnSlot e))
  | .create | .destroy _ | .remove _ => inferInstanceAs (Decidable True)

variable {st : WrittenColumn α} {e : EntityID} {v : α} {next : WrittenColumn α}
  {access : ColumnAccess α}

section

variable (consistent : st.column.Consistent)
include consistent

theorem attributed_write_iff {pos : Nat} (attributed : st.Attributed)
    (recorded : st.column.place e = some pos) :
    Attributed { st with
        column := st.column.write pos v
        writes := st.writes ++ [(e, v)] } ↔ st.column.OwnSlot e := by
  have inside := place_lt recorded
  obtain ⟨holder, held, sameKey⟩ := consistent.place_iff.mp recorded
  rw [consistent.ownSlot_iff recorded]
  constructor
  · intro after
    have listed : (holder, v) ∈ (st.column.write pos v).each := by
      refine mem_each.mpr ⟨pos, held, ?_⟩
      simp [write, inside]
    have written := after holder v listed
    rw [lastWrite_concat, if_pos sameKey.symm] at written
    cases written
    exact held
  · rintro own id w listed
    obtain ⟨index, idHeld, valueHeld⟩ := mem_each.mp listed
    change st.column.dense[index]? = some id at idHeld
    change (st.column.data.set pos v)[index]? = some w at valueHeld
    rw [lastWrite_concat]
    by_cases here : index = pos
    · subst here
      rw [own] at idHeld
      cases idHeld
      rw [getElem?_set_self inside] at valueHeld
      cases valueHeld
      rw [if_pos rfl]
    · have otherKey : e.key ≠ id.key := by
        intro same
        have again := consistent.place_iff.mpr ⟨id, idHeld, same.symm⟩
        rw [recorded] at again
        exact here (some.inj again).symm
      rw [getElem?_set_ne (Ne.symm here)] at valueHeld
      rw [if_neg otherKey]
      exact attributed id w (mem_each.mpr ⟨index, idHeld, valueHeld⟩)

theorem attributed_add (attributed : st.Attributed) (absent : st.column.place e = none) :
    Attributed { st with
      column := st.column.add e v
      writes := st.writes ++ [(e, v)] } := by
  intro id w listed
  rw [each_add, mem_append, mem_singleton] at listed
  rw [lastWrite_concat]
  rcases listed with old | new
  · obtain ⟨index, idHeld, _⟩ := mem_each.mp old
    have otherKey : e.key ≠ id.key := by
      intro same
      have recorded := consistent.place_iff.mpr ⟨id, idHeld, same.symm⟩
      rw [absent] at recorded
      cases recorded
    rw [if_neg otherKey]
    exact attributed id w old
  · cases new
    rw [if_pos rfl]

theorem consistent_step (step : st.step access = some next) : next.column.Consistent := by
  cases access with
  | create =>
    obtain ⟨made, _, rfl⟩ := map_eq_some_iff.mp step
    exact consistent
  | destroy id =>
    cases step
    exact consistent
  | set e v =>
    cases step
    exact consistent.set e v
  | setShard e v =>
    obtain ⟨col, wrote, rfl⟩ := map_eq_some_iff.mp step
    unfold setShard at wrote
    split at wrote
    · cases wrote
    · cases wrote
      exact consistent
  | remove e =>
    cases step
    exact consistent.remove e

theorem attributed_step_iff (attributed : st.Attributed) (stepped : st.step access = some next) :
    next.Attributed ↔ st.OwnWrite access := by
  cases access with
  | create =>
    obtain ⟨made, _, rfl⟩ := map_eq_some_iff.mp stepped
    exact iff_of_true attributed trivial
  | destroy id =>
    cases stepped
    exact iff_of_true attributed trivial
  | set e v =>
    cases stepped
    cases recorded : st.column.place e with
    | none =>
      rw [set_of_absent v recorded]
      refine iff_of_true (attributed_add consistent attributed recorded) ?_
      intro held
      simp [has, recorded] at held
    | some pos =>
      rw [set_of_present v recorded]
      exact attributed_write_iff consistent attributed recorded
  | setShard e v =>
    obtain ⟨column, written, rfl⟩ := map_eq_some_iff.mp stepped
    unfold setShard at written
    split at written
    · cases written
    · rename_i pos recorded
      cases written
      exact attributed_write_iff consistent attributed recorded
  | remove e =>
    cases stepped
    refine iff_of_true ?_ trivial
    intro id v listed
    exact attributed id v (mem_each_of_remove listed)

theorem get_attributed_iff (attributed : st.Attributed) (e : EntityID) :
    (∀ v, st.column.get e = some v →
      lastWrite st.writes e.key = some (e, v)) ↔ st.column.OwnSlot e := by
  cases spot : st.column.place e with
  | none =>
    refine iff_of_true ?_ ?_
    · intro v got
      simp [Column.get, spot] at got
    · intro held
      simp [has, spot] at held
  | some pos =>
    have lt := place_lt spot
    have valueHeld := getElem?_eq_getElem lt
    have got := get_eq_some.mpr ⟨pos, spot, valueHeld⟩
    obtain ⟨holder, held, sameKey⟩ := consistent.place_iff.mp spot
    have wrote := attributed holder _ (mem_each.mpr ⟨pos, held, valueHeld⟩)
    rw [sameKey] at wrote
    rw [consistent.ownSlot_iff spot]
    constructor
    · intro answers
      rw [wrote] at answers
      have holderEq := answers _ got
      simp only [some.injEq, Prod.mk.injEq, and_true] at holderEq
      rw [held, holderEq]
    · intro own v gotValue
      rw [held] at own
      cases own
      rw [got] at gotValue
      cases gotValue
      exact wrote

end

theorem values_attributed_iff (accesses : List (ColumnAccess α)) {st : WrittenColumn α}
    (ends : Transition.last step accesses new = some st) (e : EntityID) :
    (Transition.Throughout step Attributed accesses new ∧ ∀ v, st.column.get e = some v →
        lastWrite st.writes e.key = some (e, v)) ↔ Transition.Follows step OwnWrite accesses new ∧
        st.column.OwnSlot e := by
  have consistent : st.column.Consistent := invariant_last (fun st => st.column.Consistent)
      (fun _ _ _ old stepped => consistent_step old stepped) consistent_empty ends
  have along : Transition.Throughout step Attributed accesses new ↔
      Transition.Follows step OwnWrite accesses new :=
    throughout_iff_follows (fun st => st.column.Consistent) Attributed
      (fun _ _ _ old stepped => consistent_step old stepped) (fun _ _ _ old attributed stepped =>
        attributed_step_iff old attributed stepped)
      accesses consistent_empty (by simp [Attributed, new, each, empty])
  rw [← along]
  refine and_congr_right ?_
  intro attributed
  exact get_attributed_iff consistent (attributed.at_last ends) e

def removedFirst : List (ColumnAccess Bool) :=
  [.create, .set (EntityID.ofParts 0 1) true,
    .remove (EntityID.ofParts 0 1), .destroy (EntityID.ofParts 0 1),
    .create, .set (EntityID.ofParts 0 2) false]

theorem values_attributed_iff_removedFirst :
    ∃ st, Transition.last step removedFirst new = some st ∧
      Transition.Throughout step Attributed removedFirst new ∧
      ∀ v, st.column.get (EntityID.ofParts 0 2) = some v →
        lastWrite st.writes 0 = some (EntityID.ofParts 0 2, v) := by
  obtain ⟨st, ends, own, checked⟩ : ∃ st, last step removedFirst new = some st ∧
        st.column.OwnSlot (EntityID.ofParts 0 2) ∧
        run step (fun st access => decide (st.OwnWrite access))
          removedFirst new = some st := ⟨_, rfl, by decide, by rfl⟩
  exact ⟨st, ends, (values_attributed_iff removedFirst ends _).mpr ⟨follows_of_run checked, own⟩⟩

theorem value_leaks_to_next_generation :
    ∃ st later : WrittenColumn Bool, Transition.last step
        [.create, .set (EntityID.ofParts 0 1) true,
          .destroy (EntityID.ofParts 0 1), .create] new = some st ∧
      st.entities.alive (EntityID.ofParts 0 1) = false ∧
      st.entities.alive (EntityID.ofParts 0 2) = true ∧
      st.column.get (EntityID.ofParts 0 2) = some true ∧
      st.writes = [(EntityID.ofParts 0 1, true)] ∧
      st.step (.set (EntityID.ofParts 0 2) false) = some later ∧
      later.column.each = [(EntityID.ofParts 0 1, false)] ∧
      lastWrite later.writes 0 = some (EntityID.ofParts 0 2, false) :=
  ⟨_, _, rfl, rfl, rfl, rfl, rfl, rfl, rfl, rfl⟩

end WrittenColumn

end Simulator
