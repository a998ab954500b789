import Mathlib.Data.List.Nodup
import Mathlib.Data.Set.Insert
import Simulator.TransitionRuns

/-!
# Exclusive claims

Only a free key can be claimed, and its holder gives it back or leaves it taken.
-/

namespace ExclusiveClaims

open List Option Function

variable {W K : Type*}

structure Claims (W K : Type*) where
  keys : Set K
  holder : W → Option K
  finished : List K

inductive Act (W K : Type*)
  | claim (w : W) (key : K)
  | release (w : W)
  | finish (w : W)
  | vanish (w : W)

namespace Claims

def start : Claims W K :=
  ⟨∅, fun _ => none, []⟩

structure Exclusive (c : Claims W K) : Prop where
  held : ∀ w key, c.holder w = some key → key ∈ c.keys
  alone : ∀ v w key, c.holder v = some key → c.holder w = some key → v = w
  taken : ∀ key ∈ c.finished, key ∈ c.keys
  settled : ∀ key ∈ c.finished, ∀ w, c.holder w ≠ some key
  once : c.finished.Nodup

theorem exclusive_start : (start : Claims W K).Exclusive :=
  ⟨by simp [start], by simp [start], by simp [start], by simp [start], by simp [start]⟩

variable [DecidableEq W]

open Classical in
noncomputable def step (c : Claims W K) : Act W K → Option (Claims W K)
  | .claim w key =>
    if key ∉ c.keys then
      some { c with
        keys := insert key c.keys
        holder := Function.update c.holder w (some key) }
    else none
  | .release w =>
    (c.holder w).map fun key => { c with
      keys := c.keys \ {key}
      holder := Function.update c.holder w none }
  | .finish w =>
    (c.holder w).map fun key => { c with
      holder := Function.update c.holder w none
      finished := c.finished ++ [key] }
  | .vanish w => some { c with holder := Function.update c.holder w none }

variable {c : Claims W K} {w : W} {key : K}

theorem holder_of_update_none {v : W} (holds : update c.holder w none v = some key) :
    v ≠ w ∧ c.holder v = some key := by
  by_cases eq : v = w
  · subst eq
    simp at holds
  · rw [update_of_ne eq] at holds
    exact ⟨eq, holds⟩

section

variable (exclusive : c.Exclusive)
include exclusive

theorem Exclusive.claim (w : W) (free : key ∉ c.keys) :
    Exclusive { c with
      keys := insert key c.keys
      holder := update c.holder w (some key) } := by
  -- whatever is held afterwards was held before, or is the new key
  have cases_holder : ∀ v other, update c.holder w (some key) v = some other →
      (v = w ∧ other = key) ∨ (c.holder v = some other ∧ other ≠ key) := by
    intro v other holds
    by_cases eq : v = w
    · subst eq
      simp only [update_self, some.injEq] at holds
      exact .inl ⟨rfl, holds.symm⟩
    · rw [update_of_ne eq] at holds
      refine .inr ⟨holds, ?_⟩
      rintro rfl
      exact free (exclusive.held _ _ holds)
  constructor
  · intro v other holds
    rcases cases_holder v other holds with ⟨_, rfl⟩ | ⟨old, _⟩
    · exact Set.mem_insert _ _
    · exact Set.mem_insert_of_mem _ (exclusive.held _ _ old)
  · intro v u other first second
    rcases cases_holder v other first with ⟨rfl, rfl⟩ | ⟨old, differs⟩
    · rcases cases_holder u other second with ⟨rfl, _⟩ | ⟨_, differs⟩
      · rfl
      · exact absurd rfl differs
    · rcases cases_holder u other second with ⟨_, rfl⟩ | ⟨after, _⟩
      · exact absurd rfl differs
      · exact exclusive.alone _ _ _ old after
  · intro other mem
    exact Set.mem_insert_of_mem _ (exclusive.taken _ mem)
  · intro other mem v holds
    rcases cases_holder v other holds with ⟨_, rfl⟩ | ⟨old, _⟩
    · exact free (exclusive.taken _ mem)
    · exact exclusive.settled _ mem _ old
  · exact exclusive.once

theorem Exclusive.vanish (w : W) :
    Exclusive { c with holder := update c.holder w none } := by
  constructor
  · intro v key holds
    exact exclusive.held _ _ (holder_of_update_none holds).2
  · intro v u key first second
    exact exclusive.alone _ _ _ (holder_of_update_none first).2 (holder_of_update_none second).2
  · exact exclusive.taken
  · intro key mem v holds
    exact exclusive.settled _ mem _ (holder_of_update_none holds).2
  · exact exclusive.once

theorem Exclusive.release (holds : c.holder w = some key) :
    Exclusive { c with
      keys := c.keys \ {key}
      holder := update c.holder w none } := by
  have gone := exclusive.vanish w
  refine ⟨?_, gone.alone, ?_, gone.settled, gone.once⟩
  · intro v other after
    obtain ⟨differs, old⟩ := holder_of_update_none after
    refine ⟨exclusive.held _ _ old, ?_⟩
    rintro rfl
    exact differs (exclusive.alone _ _ _ old holds)
  · intro other mem
    refine ⟨exclusive.taken _ mem, ?_⟩
    rintro rfl
    exact exclusive.settled _ mem _ holds

theorem Exclusive.finish (holds : c.holder w = some key) :
    Exclusive { c with
      holder := update c.holder w none
      finished := c.finished ++ [key] } := by
  have gone := exclusive.vanish w
  refine ⟨gone.held, gone.alone, ?_, ?_, ?_⟩
  · intro other mem
    rcases mem_append.mp mem with prior | new
    · exact exclusive.taken _ prior
    · rw [mem_singleton.mp new]
      exact exclusive.held _ _ holds
  · intro other mem v after
    rcases mem_append.mp mem with prior | new
    · exact gone.settled _ prior _ after
    · obtain ⟨differs, old⟩ := holder_of_update_none after
      rw [mem_singleton.mp new] at old
      exact differs (exclusive.alone _ _ _ old holds)
  · have notYet : key ∉ c.finished := fun mem => exclusive.settled _ mem _ holds
    exact nodup_append.mpr ⟨exclusive.once, nodup_singleton _,
      fun a first b second eq => notYet (by rwa [← mem_singleton.mp second, ← eq])⟩

end

theorem exclusive_of_reachable {ok : Claims W K → Act W K → Prop}
    (reachable : Transition.Reachable step ok start c) : c.Exclusive := by
  refine reachable.invariant exclusive_start ?_
  intro c act next exclusive _ stepped
  cases act with
  | claim w key =>
    rw [step] at stepped
    split at stepped
    · rename_i free
      cases stepped
      exact exclusive.claim w free
    · cases stepped
  | release w =>
    obtain ⟨key, holds, rfl⟩ := map_eq_some_iff.mp stepped
    exact exclusive.release holds
  | finish w =>
    obtain ⟨key, holds, rfl⟩ := map_eq_some_iff.mp stepped
    exact exclusive.finish holds
  | vanish w =>
    cases stepped
    exact exclusive.vanish w

end Claims

end ExclusiveClaims
