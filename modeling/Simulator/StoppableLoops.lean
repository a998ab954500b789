import Mathlib.Data.List.Basic

/-!
# Loops that stop at an error

A loop returns at the first error, with the state as it is then.
-/

namespace StoppableLoops

variable {σ α ε : Type*}

/-- `for _, a := range list { if err := step(a); err != nil { return err } }`
-/
def untilError (step : σ → α → σ × Option ε) :
    List α → σ → σ × Option ε
  | [], state => (state, none)
  | a :: rest, state =>
    match step state a with
    | (next, none) => untilError step rest next
    | (next, some error) => (next, some error)

variable {step other : σ → α → σ × Option ε} {a : α} {rest : List α} {state next : σ}

theorem untilError_cons_none (stepped : step state a = (next, none)) :
    untilError step (a :: rest) state = untilError step rest next := by
  rw [untilError, stepped]

theorem untilError_cons_some {error : ε} (stepped : step state a = (next, some error)) :
    untilError step (a :: rest) state = (next, some error) := by
  rw [untilError, stepped]

theorem untilError_filter (skipped : α → Bool)
    (skips : ∀ state a, skipped a = true → step state a = (state, none))
    (does : ∀ state a, skipped a = false → step state a = other state a)
    (list : List α) (state : σ) :
    untilError step list state = untilError other (list.filter fun a => !skipped a) state := by
  induction list generalizing state with
  | nil => rfl
  | cons a rest ih =>
    cases isSkipped : skipped a with
    | true =>
      rw [untilError_cons_none (skips state a isSkipped), ih,
        List.filter_cons_of_neg (by simp [isSkipped])]
    | false =>
      rw [List.filter_cons_of_pos (by simp [isSkipped]), untilError,
        untilError, does state a isSkipped]
      split
      · exact ih _
      · rfl

end StoppableLoops
