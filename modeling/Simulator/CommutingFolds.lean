import Mathlib.Data.List.Basic

/-!
# Folds over rearranged lists

A fold does not depend on the order of elements whose steps commute.
-/

namespace CommutingFolds

open List

variable {σ ι : Type*}

def Commute (step : σ → ι → σ) (Valid : σ → Prop) (first second : ι) : Prop :=
  ∀ state, Valid state → step (step state first) second = step (step state second) first

variable {step : σ → ι → σ} {Valid : σ → Prop} {state : σ}

theorem valid_foldl (preserved : ∀ state i, Valid state → Valid (step state i)) (indices : List ι)
    (valid : Valid state) : Valid (indices.foldl step state) := by
  induction indices generalizing state with
  | nil => exact valid
  | cons i indices ih => exact ih (preserved state i valid)

theorem foldl_append_cons (preserved : ∀ state i, Valid state →
      Valid (step state i)) (i : ι) (old after : List ι)
    (commutes : ∀ other ∈ old, Commute step Valid i other)
    (valid : Valid state) : (old ++ i :: after).foldl step state =
      (old ++ after).foldl step (step state i) := by
  induction old generalizing state with
  | nil => rfl
  | cons other old ih =>
    have exchange := commutes other (by simp) state valid
    rw [cons_append, foldl_cons, cons_append, foldl_cons, exchange]
    exact ih (fun prior mem => commutes prior (by simp [mem])) (preserved state other valid)

theorem foldl_eq_of_pairwise {precedes : ι → ι → Prop}
    (asymm : ∀ first second, precedes first second → ¬ precedes second first)
    (preserved : ∀ state i, Valid state → Valid (step state i))
    {sorted arranged : List ι} (perm : sorted.Perm arranged) (isSorted : sorted.Pairwise precedes)
    (kept : arranged.Pairwise fun first second =>
      precedes first second ∨ Commute step Valid first second)
    (valid : Valid state) : sorted.foldl step state = arranged.foldl step state := by
  induction sorted generalizing arranged state with
  | nil => rw [perm.nil_eq]
  | cons i sorted ih =>
    obtain ⟨old, after, rfl⟩ := append_of_mem (perm.subset mem_cons_self)
    have rest : sorted.Perm (old ++ after) := (perm.trans perm_middle).cons_inv
    have smallest := (pairwise_cons.mp isSorted).1
    have commutes : ∀ other ∈ old,
        Commute step Valid i other := by
      intro other mem
      have later : precedes i other := smallest other (rest.symm.subset (mem_append_left _ mem))
      rcases (pairwise_append.mp kept).2.2 other mem i mem_cons_self with prior | commute
      · exact (asymm _ _ later prior).elim
      · exact fun state valid => (commute state valid).symm
    rw [foldl_append_cons preserved i old after commutes valid, foldl_cons]
    refine ih rest (pairwise_cons.mp isSorted).2 ?_ (preserved state i valid)
    exact kept.sublist ((sublist_cons_self i after).append_left old)

theorem foldl_perm {left right : List ι} (invariant : List ι → σ → Prop)
    (reordered : ∀ left right state, left.Perm right → invariant left state → invariant right state)
    (kept : ∀ first rest state, invariant (first :: rest) state → invariant rest (step state first))
    (commutes : ∀ first second rest state, invariant (first :: second :: rest) state →
      step (step state first) second = step (step state second) first)
    (perm : left.Perm right) (initially : invariant left state) :
    left.foldl step state = right.foldl step state := by
  induction perm generalizing state with
  | nil => rfl
  | cons first _ ih => exact ih (kept first _ state initially)
  | swap first second rest =>
    simp only [foldl_cons, commutes second first rest state initially]
  | trans first _ ih again =>
    exact (ih initially).trans (again (reordered _ _ state first initially))

end CommutingFolds
