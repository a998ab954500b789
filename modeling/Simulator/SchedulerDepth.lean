import Simulator.SchedulerConstruction

/-!
# The levels are a shortest schedule

The number of a level is the length of the longest chain of conflicts that ends in it.
-/

namespace Simulator

open List

variable {G : GoTypes} {systems : List (System G)}

theorem exists_of_level_le {high low i : Nat}
    (leveled : (systemLevels systems)[i]? = some (high + 1)) (below : low ≤ high) :
    ∃ j : Nat, (systemLevels systems)[j]? = some (low + 1) := by
  induction high generalizing i with
  | zero =>
    obtain rfl : low = 0 := by omega
    exact ⟨i, leveled⟩
  | succ high ih =>
    by_cases eq : low = high + 1
    · subst eq
      exact ⟨i, leveled⟩
    · obtain ⟨j, a, b, _, _, _, _, lower⟩ := exists_right_below leveled
      exact ih lower (by omega)

theorem foldl_max_eq_or_mem (levels : List Nat) (start : Nat) :
    levels.foldl max start = start ∨ levels.foldl max start ∈ levels := by
  induction levels generalizing start with
  | nil => exact .inl rfl
  | cons level rest ih =>
    rw [foldl_cons]
    rcases ih (max start level) with eq | inRest
    · rw [eq]
      rcases max_choice start level with first | second
      · exact .inl first
      · rw [second]
        exact .inr mem_cons_self
    · exact .inr (mem_cons_of_mem _ inRest)

theorem exists_inLevel {n : Nat} (lt : n < (systemLevels systems).foldl max 0) :
    ∃ i, InLevel (dependencyLevels systems) i n := by
  rcases foldl_max_eq_or_mem (systemLevels systems) 0 with zero | attained
  · omega
  · obtain ⟨i, held, highest⟩ := mem_iff_getElem.mp attained
    obtain ⟨top, topEq⟩ : ∃ top, (systemLevels systems).foldl max 0 = top + 1 :=
      Nat.exists_eq_succ_of_ne_zero (by omega)
    have leveled : (systemLevels systems)[i]? = some (top + 1) := by
      rw [getElem?_eq_getElem held, highest, topEq]
    obtain ⟨j, lower⟩ := exists_of_level_le leveled (show n ≤ top by omega)
    exact ⟨j, inLevel_dependencyLevels.mpr lower⟩

theorem level_listed {level : List Nat} (mem : level ∈ dependencyLevels systems) :
    level ≠ [] ∧ level.Pairwise (· < ·) ∧ ∀ i ∈ level, i < systems.length := by
  obtain ⟨n, lt, rfl⟩ := mem_level_iff.mp mem
  refine ⟨?_, pairwise_lt_range.filter _, ?_⟩
  · obtain ⟨i, placed⟩ := exists_inLevel lt
    have leveled := inLevel_dependencyLevels.mp placed
    have held := (List.getElem?_eq_some_iff.mp leveled).1
    rw [length_systemLevels] at held
    exact ne_nil_of_mem (mem_filter.mpr ⟨mem_range.mpr held, by simpa using leveled⟩)
  · intro i held
    exact mem_range.mp (mem_of_mem_filter held)

theorem existsUnique_inLevel {i : Nat} (lt : i < systems.length) :
    ∃! n, InLevel (dependencyLevels systems) i n := by
  obtain ⟨n, leveled, _⟩ := exists_systemLevel lt
  refine ⟨n, inLevel_dependencyLevels.mpr leveled, ?_⟩
  intro other also
  have eq := (inLevel_dependencyLevels.mp also).symm.trans leveled
  simpa using eq

theorem dependencyLevels_schedule (systems : List (System G)) : (∀ i, i < systems.length →
        ∃! number, InLevel (dependencyLevels systems) i number) ∧
      (∀ level ∈ dependencyLevels systems, level ≠ [] ∧
        level.Pairwise (· < ·) ∧ ∀ i ∈ level, i < systems.length) ∧
      (∀ i j a b low high, i < j → systems[i]? = some a →
        systems[j]? = some b → conflicts a b = true → InLevel (dependencyLevels systems) i low →
        InLevel (dependencyLevels systems) j high → low < high) ∧
      (∀ level ∈ dependencyLevels systems, ∀ i ∈ level, ∀ j ∈ level, i ≠ j →
        ∀ a b, systems[i]? = some a → systems[j]? = some b → conflicts a b = false) ∧
      ∀ j number, InLevel (dependencyLevels systems) j number → Chain systems j (number + 1) ∧
          ∀ count, Chain systems j count → count ≤ number + 1 := by
  refine ⟨fun i => existsUnique_inLevel, fun level => level_listed, ?_, ?_, ?_⟩
  · intro i j a b low high prior first second conflict inLow inHigh
    have grows := systemLevels_lt prior first second conflict
      (inLevel_dependencyLevels.mp inLow) (inLevel_dependencyLevels.mp inHigh)
    omega
  · intro level mem i inFirst j inSecond ne a b first second
    exact not_conflicts_of_level mem inFirst inSecond ne first second
  · intro j number placed
    have leveled := inLevel_dependencyLevels.mp placed
    exact ⟨chain_of_level leveled, fun count chain => chain.le_level leveled⟩

end Simulator
