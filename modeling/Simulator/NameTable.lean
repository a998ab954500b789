import Mathlib.Data.List.Induction
import Mathlib.Data.List.Nodup
import Mathlib.Logic.Function.Basic

/-!
# Tables of names in registration order

`Registered` says that the list of names and the map agree; `numbering` is the map
rebuilt from the list.
-/

namespace NameTable

open List Option Function

variable {α : Type*}

def Registered (names : List α) (byName : α → Option Nat) : Prop :=
  ∀ name number, byName name = some number ↔ names[number]? = some name

variable {names : List α} {byName : α → Option Nat}

theorem Registered.nodup (reg : Registered names byName) : names.Nodup := by
  rw [nodup_iff_getElem?_ne_getElem?]
  intro first second old lt equal
  have held : names[second]? = some names[second] := getElem?_eq_getElem lt
  have early := (reg _ first).mpr (equal.trans held)
  have late := (reg _ second).mpr held
  rw [early] at late
  have := some.inj late
  omega

theorem Registered.byName_eq {first second : α → Option Nat} (left : Registered names first)
    (right : Registered names second) : first = second := by
  funext name
  apply ext
  intro n
  exact (left name n).trans (right name n).symm

variable [DecidableEq α]

theorem Registered.append {name : α} (reg : Registered names byName) (fresh : byName name = none) :
    Registered (names ++ [name]) (update byName name (some names.length)) := by
  intro other n
  have old := reg other n
  by_cases eq : other = name
  · subst eq
    rw [update_self, some_inj]
    constructor
    · rintro rfl
      simp
    · intro held
      rw [getElem?_append] at held
      split at held
      · rw [fresh] at old
        exact absurd (old.mpr held) (by simp)
      · have spot := (List.getElem?_eq_some_iff.mp held).1
        rw [length_singleton] at spot
        omega
  · rw [update_of_ne eq, old]
    constructor
    · intro held
      rw [List.getElem?_append_left (List.getElem?_eq_some_iff.mp held).1]
      exact held
    · intro held
      rw [getElem?_append] at held
      split at held
      · exact held
      · have last := mem_of_getElem? held
        exact absurd (mem_singleton.mp last) eq

def numbering (names : List α) : α → Option Nat :=
  names.zipIdx.foldl (fun byName entry => Function.update byName entry.1 (some entry.2))
    fun _ => none

theorem numbering_concat (names : List α) (name : α) :
    numbering (names ++ [name]) = update (numbering names) name (some names.length) := by
  simp [numbering, zipIdx_append]

theorem registered_numbering (nodup : names.Nodup) : Registered names (numbering names) := by
  induction names using reverseRecOn with
  | nil =>
    intro name n
    simp [numbering]
  | append_singleton names name ih =>
    rw [nodup_append] at nodup
    have prior := ih nodup.1
    rw [numbering_concat]
    apply prior.append
    cases hit : numbering names name with
    | none => rfl
    | some n =>
      have mem := mem_of_getElem? ((prior _ _).mp hit)
      exact absurd rfl (nodup.2.2 name mem name (by simp))

end NameTable
