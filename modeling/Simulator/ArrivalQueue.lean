import Mathlib.Data.List.Basic

/-!
# Queues served by urgency, then by arrival

What a stable priority queue is for.
-/

namespace ArrivalQueue

variable {α : Type*}

/-- `item` is served next out of `waiting`, which leaves `rest`. -/
def Selects (sooner : α → α → Prop) (waiting : List α) (item : α) (rest : List α) : Prop :=
  ∃ front back, waiting = front ++ item :: back ∧ rest = front ++ back ∧
    (∀ other ∈ front, sooner item other) ∧ ∀ other ∈ back, ¬ sooner other item

variable {sooner : α → α → Prop} {waiting rest : List α} {item : α}

theorem Selects.perm (selects : Selects sooner waiting item rest) :
    waiting.Perm (item :: rest) := by
  obtain ⟨front, back, rfl, rfl, _, _⟩ := selects
  exact List.perm_middle

theorem Selects.sublist (selects : Selects sooner waiting item rest) : rest.Sublist waiting := by
  obtain ⟨front, back, rfl, rfl, _, _⟩ := selects
  exact (List.Sublist.refl front).append (List.sublist_cons_self item back)

inductive Entry (α : Type*)
  | arrived (item : α)
  | served (item : Option α)

inductive Serves (sooner : α → α → Prop) : List (Entry α) → List α → Prop
  | nil : Serves sooner [] []
  | arrive {log : List (Entry α)} {waiting : List α}
      (earlier : Serves sooner log waiting) (item : α) :
      Serves sooner (log ++ [.arrived item]) (waiting ++ [item])
  | serve {log : List (Entry α)} {waiting rest : List α} {item : α}
      (earlier : Serves sooner log waiting) (selects : Selects sooner waiting item rest) :
      Serves sooner (log ++ [.served (some item)]) rest
  | idle {log : List (Entry α)} (earlier : Serves sooner log []) :
      Serves sooner (log ++ [.served none]) []

end ArrivalQueue
