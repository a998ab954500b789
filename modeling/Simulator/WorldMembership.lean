import Simulator.Scheduler
import Simulator.WorldOperations

/-!
# Memberships of a world

An operation leaves memberships and revision as they are or counts the revision up.
-/

namespace Simulator

open ComponentStore EntityManager Column

variable {G : GoTypes}

namespace ComponentStore

variable {id : ComponentID} {s : ComponentStore G} {t : G.Ty} {column : Column (G.Value t)}

theorem entities_of_columnOf (hit : s.columnOf t id = some column) :
    s.entities id = column.entityIDs := by
  unfold entities
  cases bound : s.cols id with
  | none =>
    rw [columnOf_unbound bound] at hit
    cases hit
    rfl
  | some held =>
    obtain ⟨other, old⟩ := held
    by_cases eq : other = t
    · subst eq
      rw [columnOf_bound bound] at hit
      cases hit
      rfl
    · rw [columnOf_other bound eq] at hit
      cases hit

@[simp]
theorem entities_bind_self (s : ComponentStore G) (t : G.Ty)
    (id : ComponentID) (column : Column (G.Value t)) :
    (s.bind t id column).entities id = column.entityIDs := by
  simp [entities]

theorem entities_bind_of_ne (s : ComponentStore G) (t : G.Ty)
    {other : ComponentID} (column : Column (G.Value t)) (ne : other ≠ id) :
    (s.bind t id column).entities other = s.entities other := by
  simp [entities, cols_bind_of_ne s t column ne]

theorem entities_register (s : ComponentStore G) (name : String) (id : ComponentID) :
    (s.register name).2.entities id = s.entities id := by
  cases known : s.byName name with
  | some hit => rw [register_of_found known]
  | none =>
    rw [register_of_fresh known]
    rfl

theorem entities_bind_same {old : Column (G.Value t)} (hit : s.columnOf t id = some old)
    (eq : column.entityIDs = old.entityIDs) (other : ComponentID) :
    (s.bind t id column).entities other = s.entities other := by
  by_cases here : other = id
  · subst here
    rw [entities_bind_self, eq, entities_of_columnOf hit]
  · exact entities_bind_of_ne s t column here

end ComponentStore

theorem ColumnOp.entityIDs_run {α : Type} {op : ColumnOp α} {c : Column α}
    (kept : (op.run c).2.2 = false) : (op.run c).2.1.entityIDs = c.entityIDs := by
  cases op with
  | set e v =>
    simp only [run, Bool.not_eq_false', Column.has] at kept
    obtain ⟨pos, spot⟩ := Option.isSome_iff_exists.mp kept
    simp only [run, set_of_present v spot]
    rfl
  | remove e =>
    simp only [run] at kept ⊢
    cases spot : c.place e with
    | none => rw [remove_of_absent spot]
    | some pos =>
      rw [remove_of_present spot] at kept
      cases kept
  | get e | has e | each | entityIDs | len => rfl

namespace World

structure SameMembers (first second : World G) : Prop where
  ids : first.entities.ids = second.entities.ids
  components : ∀ id, first.components.entities id = second.components.entities id

theorem SameMembers.refl (w : World G) : SameMembers w w :=
  ⟨rfl, fun _ => rfl⟩

theorem SameMembers.systemEntities_eq {first second : World G}
    (eq : SameMembers first second) (sys : System G) :
    systemEntities first sys = systemEntities second sys := by
  have comps : first.components.entities =
      second.components.entities := funext eq.components
  unfold systemEntities
  rw [eq.ids, comps]

theorem run_members {sortSlice : SortSlice (Event G)} {op : Operation G}
    {w after : World G} {reply : Reply G} (ran : w.run sortSlice op = some (reply, after)) :
    (after.revision = w.revision ∧ SameMembers w after) ∨ after.revision = w.revision + 1 := by
  cases op with
  | create =>
    obtain ⟨_, _, _, rfl, rfl⟩ := create_of_run ran
    exact .inr rfl
  | destroy id =>
    cases ran
    cases isAlive : w.entities.aliveLocked id with
    | false =>
      rw [destroy_of_not_alive isAlive]
      exact .inl ⟨rfl, .refl w⟩
    | true =>
      obtain ⟨place, recorded⟩ := exists_position_of_alive isAlive
      rw [destroy_of_alive isAlive recorded]
      exact .inr rfl
  | registerComponent name =>
    cases ran
    exact .inl ⟨rfl, rfl, fun id =>
      (entities_register _ name id).symm⟩
  | columnOf t id =>
    obtain ⟨column, found, rfl, rfl⟩ := columnOf_of_run ran
    exact .inl ⟨rfl, rfl, fun other =>
      (entities_bind_same found rfl other).symm⟩
  | column t id op =>
    obtain ⟨column, found, rfl, rfl⟩ := column_of_run ran
    cases changed : (op.run column).2.2 with
    | true => exact .inr rfl
    | false =>
      exact .inl ⟨rfl, rfl, fun other =>
        (entities_bind_same found (ColumnOp.entityIDs_run changed) other).symm⟩
  | _ =>
    -- the remaining operations touch neither entities nor components
    cases ran
    exact .inl ⟨rfl, rfl, fun _ => rfl⟩

theorem systemEntities_new (metadata : Metadata) (sys : System G) :
    systemEntities (new metadata) sys = [] := by
  have none : ∀ ids : List ComponentID, ids.foldl (fun out id => addEntities out
        ((new metadata : World G).components.entities id)) [] = [] := by
    intro ids
    induction ids with
    | nil => rfl
    | cons id rest ih => exact ih
  unfold systemEntities
  split
  · rfl
  · rfl
  · rfl
  · exact none _

end World

end Simulator
