import Simulator.RegistryKeys

/-!
# The latest version of a model

`compareVersion` is the lexicographic order of infinite sequences of numbers.
-/

namespace Simulator

open List Option

def versionNumbers (version : String) : Lex (Nat → Nat) :=
  toLex (componentInt (version.toList.splitOn '.'))

theorem componentInt_of_length_le {parts : List (List Char)} {i : Nat}
    (beyond : parts.length ≤ i) : componentInt parts i = 0 := by
  rw [componentInt, getElem?_eq_none beyond]

theorem compareComponents_range' (a b : List (List Char)) (n : Nat) :
    ∀ start, (∀ j < start, componentInt a j = componentInt b j) →
      (compareComponents a b (range' start n) = -1 ∧
          toLex (componentInt a) < toLex (componentInt b)) ∨
        (compareComponents a b (range' start n) = 1 ∧
          toLex (componentInt b) < toLex (componentInt a)) ∨
        (compareComponents a b (range' start n) = 0 ∧
          ∀ j < start + n, componentInt a j = componentInt b j) := by
  induction n with
  | zero =>
    intro start eq
    exact .inr (.inr ⟨rfl, eq⟩)
  | succ n ih =>
    intro start eq
    rw [range'_succ, compareComponents]
    split
    · rename_i less
      exact .inl ⟨rfl, start, eq, less⟩
    · rename_i notLess
      split
      · rename_i greater
        exact .inr (.inl ⟨rfl, start, fun j old => (eq j old).symm, greater⟩)
      · rename_i notGreater
        have equal : componentInt a start = componentInt b start := by omega
        have further := ih (start + 1) fun j old => by
          rcases Nat.lt_succ_iff_lt_or_eq.mp old with old | rfl
          · exact eq j old
          · exact equal
        rwa [Nat.add_assoc, Nat.add_comm 1 n] at further

theorem compareVersion_cases (a b : String) :
    (compareVersion a b = -1 ∧ versionNumbers a < versionNumbers b) ∨
      (compareVersion a b = 1 ∧ versionNumbers b < versionNumbers a) ∨
      (compareVersion a b = 0 ∧ versionNumbers a = versionNumbers b) := by
  unfold compareVersion versionNumbers
  simp only [range_eq_range']
  rcases compareComponents_range' (a.toList.splitOn '.')
      (b.toList.splitOn '.') _ 0 (fun j old => absurd old j.not_lt_zero)
    with less | greater | ⟨zero, eq⟩
  · exact .inl less
  · exact .inr (.inl greater)
  · refine .inr (.inr ⟨zero, ?_⟩)
    congr 1
    funext j
    by_cases lt : j < max (a.toList.splitOn '.').length (b.toList.splitOn '.').length
    · exact eq j (by omega)
    · rw [componentInt_of_length_le (by omega), componentInt_of_length_le (by omega)]

variable {a b : String}

theorem compareVersion_of_lt (less : versionNumbers a < versionNumbers b) :
    compareVersion a b = -1 := by
  rcases compareVersion_cases a b with ⟨res, -⟩ | ⟨-, greater⟩ | ⟨-, eq⟩
  · exact res
  · exact absurd greater less.asymm
  · exact absurd eq less.ne

theorem compareVersion_of_gt (greater : versionNumbers b < versionNumbers a) :
    compareVersion a b = 1 := by
  rcases compareVersion_cases a b with ⟨-, less⟩ | ⟨res, -⟩ | ⟨-, eq⟩
  · exact absurd less greater.asymm
  · exact res
  · exact absurd eq greater.ne'

theorem compareVersion_of_eq (eq : versionNumbers a = versionNumbers b) :
    compareVersion a b = 0 := by
  rcases compareVersion_cases a b with ⟨-, less⟩ | ⟨-, greater⟩ | ⟨res, -⟩
  · exact absurd eq less.ne
  · exact absurd eq greater.ne'
  · exact res

theorem compareVersion_nonpos_iff (a b : String) :
    compareVersion a b ≤ 0 ↔ versionNumbers a ≤ versionNumbers b := by
  rcases lt_trichotomy (versionNumbers a) (versionNumbers b) with less | eq | greater
  · simp [compareVersion_of_lt less, less.le]
  · simp [compareVersion_of_eq eq, eq]
  · simpa [compareVersion_of_gt greater] using greater

theorem compareVersion_swap (a b : String) : compareVersion b a = -compareVersion a b := by
  rcases lt_trichotomy (versionNumbers a) (versionNumbers b) with less | eq | greater
  · rw [compareVersion_of_lt less, compareVersion_of_gt less]
    rfl
  · rw [compareVersion_of_eq eq, compareVersion_of_eq eq.symm]
    rfl
  · rw [compareVersion_of_gt greater, compareVersion_of_lt greater]

structure ComparesTotally (compare : String → String → Int) : Prop where
  sign : ∀ a b, compare a b = -1 ∨ compare a b = 0 ∨ compare a b = 1
  antisymm : ∀ a b, compare b a = -compare a b
  trans : ∀ a b c, compare a b ≤ 0 → compare b c ≤ 0 → compare a c ≤ 0
  total : ∀ a b, compare a b ≤ 0 ∨ compare b a ≤ 0

theorem comparesTotally_compareVersion : ComparesTotally compareVersion where
  sign := by
    intro a b
    have cases := compareVersion_cases a b
    omega
  antisymm := compareVersion_swap
  trans := by
    intro a b c first second
    rw [compareVersion_nonpos_iff] at first second ⊢
    exact first.trans second
  total := by
    intro a b
    rw [compareVersion_nonpos_iff, compareVersion_nonpos_iff]
    exact le_total _ _

namespace Registry

variable {M : Type} {calls : List (Registration M)} {call : Registration M}

theorem isSome_latest (mem : call ∈ calls) :
    ((registerAll calls).latest.lookup call.info.id).isSome = true := by
  induction calls using reverseRecOn with
  | nil => cases mem
  | append_singleton calls last ih =>
    rw [registerAll_append_singleton]
    apply isSome_latest_registerInfo
    rcases mem_append.mp mem with prior | now
    · exact .inl (ih prior)
    · exact .inr (by rw [mem_singleton.mp now])

theorem le_latest {id ver : String} (latest : (registerAll calls).latest.lookup id = some ver) :
    ∀ call ∈ calls, call.info.id = id → versionNumbers call.info.version ≤ versionNumbers ver := by
  induction calls using reverseRecOn generalizing ver with
  | nil => exact nofun
  | append_singleton calls last ih =>
    rw [registerAll_append_singleton] at latest
    intro call mem named
    rw [mem_append, mem_singleton] at mem
    rcases latest_registerInfo (registerAll calls) last.info last.factory id
      with ⟨-, notLower, new⟩ | ⟨greater, kept⟩
    · rw [new, some.injEq] at latest
      subst latest
      rcases mem with prior | rfl
      · obtain ⟨cur, known⟩ := isSome_iff_exists.mp (isSome_latest prior)
        rw [named] at known
        have above := notLower cur known
        rw [compareVersion_swap, Int.neg_nonneg, compareVersion_nonpos_iff] at above
        exact (ih known call prior named).trans above
      · exact le_rfl
    · rw [kept] at latest
      rcases mem with prior | rfl
      · exact ih latest call prior named
      · obtain ⟨cur, known, lower⟩ := greater named.symm
        cases latest.symm.trans known
        exact (compareVersion_nonpos_iff _ _).mp lower.le

theorem exists_get (mem : call ∈ calls) :
    ∃ x, (registerAll calls).get call.info.id = some x := by
  obtain ⟨ver, latest⟩ := isSome_iff_exists.mp (isSome_latest mem)
  exact ⟨_, by rw [get, latest]; rfl⟩

theorem latest_of_get (plain : AllPlain calls)
    {id : String} {x : RegistryEntry M} (hit : (registerAll calls).get id = some x) :
    (registerAll calls).latest.lookup id = some x.info.version := by
  rw [get, map_eq_some_iff] at hit
  obtain ⟨ver, latest, rfl⟩ := hit
  obtain ⟨call, last⟩ := isSome_iff_exists.mp (isSome_lastCall_iff.mpr (latest_registerAll latest))
  rw [latest, ← getVersion, getVersion_registerAll plain, last]
  exact congrArg some (lastCall_eq_some last).2.2.symm

theorem AllPlain.perm {others : List (Registration M)}
    (plain : AllPlain calls) (perm : calls.Perm others) : AllPlain others :=
  fun call mem => plain call (perm.mem_iff.mpr mem)

theorem get_greatest :
    ComparesTotally compareVersion ∧ ∀ calls others : List (Registration M), AllPlain calls →
        calls.Perm others → ∀ call ∈ calls,
          ∃ entry, (registerAll calls).get call.info.id = some entry ∧
            (∀ other ∈ calls, other.info.id = call.info.id →
              compareVersion other.info.version entry.info.version ≤ 0) ∧
            ∃ second, (registerAll others).get call.info.id = some second ∧
              compareVersion entry.info.version second.info.version = 0 := by
  refine ⟨comparesTotally_compareVersion, ?_⟩
  intro calls others plain perm call mem
  obtain ⟨entry, hit⟩ := exists_get mem
  obtain ⟨second, foundSecond⟩ := exists_get (perm.mem_iff.mp mem)
  have latest := latest_of_get plain hit
  have latestSecond := latest_of_get (plain.perm perm) foundSecond
  refine ⟨entry, hit, ?_, second, foundSecond, ?_⟩
  · intro other listed named
    exact (compareVersion_nonpos_iff _ _).mpr (le_latest latest other listed named)
  -- Each of the two versions is registered in both orders.
  · obtain ⟨first, firstListed, firstPair⟩ := mem_map.mp (latest_registerAll latest)
    obtain ⟨other, otherListed, otherPair⟩ := mem_map.mp (latest_registerAll latestSecond)
    simp only [pair, Prod.mk.injEq] at firstPair otherPair
    apply compareVersion_of_eq
    apply le_antisymm
    · rw [← firstPair.2]
      exact le_latest latestSecond first (perm.mem_iff.mp firstListed) firstPair.1
    · rw [← otherPair.2]
      exact le_latest latest other (perm.mem_iff.mpr otherListed) otherPair.1

theorem get_greatest_lexical :
    AllPlain [plainCall "m" "1.10.0", plainCall "m" "1.9.0"] ∧
      ∃ entry, (registerAll [plainCall "m" "1.10.0", plainCall "m" "1.9.0"]).get "m" = some entry ∧
        compareVersion "1.9.0" entry.info.version ≤ 0 ∧
        ∃ second, (registerAll [plainCall "m" "1.9.0",
            plainCall "m" "1.10.0"]).get "m" = some second ∧
          compareVersion entry.info.version second.info.version = 0 := by
  have plain : AllPlain [plainCall "m" "1.10.0", plainCall "m" "1.9.0"] := by
    decide
  obtain ⟨entry, hit, greatest, swapped⟩ := get_greatest.2 _ _ plain
    (List.Perm.swap _ _ _) (plainCall "m" "1.10.0") (by simp)
  exact ⟨plain, entry, hit, greatest (plainCall "m" "1.9.0") (by simp) rfl, swapped⟩

end Registry

end Simulator
