import Mathlib

/-!
# Loops that stop at the first failure

The first failure ends the loop with everything stored so far.
-/

namespace FirstFailure

open List Function

variable {ι ε β σ : Type*}

def process (load : ι → Except ε β) (store : σ → β → σ) :
    List ι → σ → σ × Option ε
  | [], state => (state, none)
  | entry :: rest, state =>
    match load entry with
    | .error cause => (state, some cause)
    | .ok item => process load store rest (store state item)

def loaded (load : ι → Except ε β) : List ι → List β
  | [] => []
  | entry :: rest =>
    match load entry with
    | .error _ => []
    | .ok item => item :: loaded load rest

def failure (load : ι → Except ε β) : List ι → Option ε
  | [] => none
  | entry :: rest =>
    match load entry with
    | .error cause => some cause
    | .ok _ => failure load rest

theorem process_eq (load : ι → Except ε β) (store : σ → β → σ) (entries : List ι) (state : σ) :
    process load store entries state =
      ((loaded load entries).foldl store state, failure load entries) := by
  induction entries generalizing state with
  | nil => rfl
  | cons x rest ih =>
    cases out : load x with
    | error cause => simp [process, loaded, failure, out]
    | ok item => simp [process, loaded, failure, out, ih]

theorem forall₂_loaded {load : ι → Except ε β} {entries : List ι}
    (noFailure : failure load entries = none) :
    List.Forall₂ (fun x item => load x = .ok item) entries (loaded load entries) := by
  induction entries with
  | nil => exact .nil
  | cons x rest ih =>
    cases out : load x with
    | error cause => simp [failure, out] at noFailure
    | ok item =>
      simp only [failure, out] at noFailure
      simp only [loaded, out]
      exact .cons out (ih noFailure)

def write {κ : Type*} [DecidableEq κ] (map : κ → Option β) (item : κ × β) : κ → Option β :=
  Function.update map item.1 (some item.2)

theorem foldl_write {κ : Type*} [DecidableEq κ] (xs : List (κ × β)) (map : κ → Option β) (key : κ) :
    xs.foldl write map key = (xs.reverse.lookup key).or (map key) := by
  induction xs generalizing map with
  | nil => rfl
  | cons item xs ih =>
    obtain ⟨wrote, v⟩ := item
    rw [foldl_cons, ih, reverse_cons, lookup_append]
    by_cases eq : key = wrote
    · subst eq
      rw [write, update_self]
      cases xs.reverse.lookup key <;> simp
    · rw [write, update_of_ne eq]
      have differ : (key == wrote) = false := by simpa using eq
      cases xs.reverse.lookup key <;> simp [lookup, differ]

end FirstFailure
