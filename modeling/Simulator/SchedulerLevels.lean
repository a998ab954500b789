import Simulator.Scheduler

/-!
# Levels and shards

Every system is in one level, and two systems of one level never conflict.
-/

namespace Simulator

open List Option

variable {G : GoTypes}

theorem intersectsWrite_iff {writes other : List ComponentID} :
    intersectsWrite writes other = true ↔ ∃ id ∈ writes, id ∈ other := by
  simp [intersectsWrite]

variable {a b : System G} {given : List (System G × Nat)} {systems : List (System G)} {i : Nat}

theorem conflicts_iff :
    conflicts a b = true ↔ (∃ id ∈ a.writes, id ∈ b.reads ∨ id ∈ b.writes) ∨
        ∃ id ∈ b.writes, id ∈ a.reads ∨ id ∈ a.writes := by
  simp only [conflicts, Bool.or_eq_true, intersectsWrite_iff]
  constructor
  · rintro ((⟨id, left, right⟩ | ⟨id, left, right⟩) | ⟨id, left, right⟩)
    · exact .inl ⟨id, left, .inl right⟩
    · exact .inl ⟨id, left, .inr right⟩
    · exact .inr ⟨id, left, .inl right⟩
  · rintro (⟨id, left, read | wrote⟩ | ⟨id, left, read | wrote⟩)
    · exact .inl (.inl ⟨id, left, read⟩)
    · exact .inl (.inr ⟨id, left, wrote⟩)
    · exact .inr ⟨id, left, read⟩
    · exact .inl (.inr ⟨id, wrote, left⟩)

theorem conflicts_comm (a b : System G) : conflicts a b = conflicts b a := by
  rw [Bool.eq_iff_iff, conflicts_iff, conflicts_iff, or_comm]

variable {sys : System G} {level j : Nat}

theorem le_blockingLevel {prior : System G}
    (mem : (prior, level) ∈ given) (conflict : conflicts sys prior = true) :
    level ≤ blockingLevel sys given := by
  induction given with
  | nil => cases mem
  | cons head rest ih =>
    obtain ⟨other, otherLevel⟩ := head
    rw [blockingLevel]
    rcases mem_cons.mp mem with eq | mem
    · cases eq
      split
      · exact le_rfl
      · rename_i lower
        simp only [conflict, true_and, not_lt] at lower
        exact lower
    · have bound := ih mem
      split
      · omega
      · exact bound

theorem map_fst_assignLevels (systems : List (System G)) (given : List (System G × Nat)) :
    (assignLevels systems given).reverse.map Prod.fst = given.reverse.map Prod.fst ++ systems := by
  induction systems generalizing given with
  | nil => simp [assignLevels]
  | cons sys systems ih =>
    rw [assignLevels, ih]
    simp

theorem pairwise_assignLevels (systems : List (System G))
    (increasing : given.Pairwise fun later prior =>
      conflicts later.1 prior.1 = true → prior.2 < later.2) :
    (assignLevels systems given).Pairwise fun later prior =>
      conflicts later.1 prior.1 = true → prior.2 < later.2 := by
  induction systems generalizing given with
  | nil => exact increasing
  | cons sys systems ih =>
    refine ih (pairwise_cons.mpr ⟨?_, increasing⟩)
    intro prior mem conflict
    exact Nat.lt_succ_of_le (le_blockingLevel mem conflict)

theorem pos_of_mem_assignLevels (systems : List (System G)) (pos : ∀ x ∈ given, 0 < x.2) :
    ∀ x ∈ assignLevels systems given, 0 < x.2 := by
  induction systems generalizing given with
  | nil => exact pos
  | cons sys systems ih =>
    refine ih fun x mem => ?_
    rcases mem_cons.mp mem with rfl | mem
    · exact Nat.succ_pos _
    · exact pos x mem

theorem length_systemLevels (systems : List (System G)) :
    (systemLevels systems).length = systems.length := by
  have names := congrArg length (map_fst_assignLevels systems [])
  simpa [systemLevels] using names

theorem getElem?_assigned (held : systems[i]? = some sys)
    (leveled : (systemLevels systems)[i]? = some level) :
    (assignLevels systems []).reverse[i]? = some (sys, level) := by
  rw [systemLevels, getElem?_map] at leveled
  obtain ⟨⟨other, _⟩, hit, rfl⟩ := map_eq_some_iff.mp leveled
  have names := map_fst_assignLevels systems []
  rw [reverse_nil, map_nil, nil_append] at names
  rw [← names, getElem?_map, hit] at held
  cases held
  exact hit

theorem systemLevels_lt {x y : Nat} (prior : i < j) (first : systems[i]? = some a)
    (second : systems[j]? = some b) (conflict : conflicts a b = true)
    (firstLevel : (systemLevels systems)[i]? = some x)
    (secondLevel : (systemLevels systems)[j]? = some y) : x < y := by
  have increasing := pairwise_reverse.mpr (pairwise_assignLevels systems List.Pairwise.nil)
  have left := getElem?_assigned first firstLevel
  have right := getElem?_assigned second secondLevel
  obtain ⟨leftInside, leftEq⟩ := List.getElem?_eq_some_iff.mp left
  obtain ⟨rightInside, rightEq⟩ := List.getElem?_eq_some_iff.mp right
  have ordered := pairwise_iff_getElem.mp increasing i j leftInside rightInside prior
  rw [leftEq, rightEq] at ordered
  exact ordered (by rw [conflicts_comm]; exact conflict)

theorem exists_systemLevel (lt : i < systems.length) :
    ∃ level, (systemLevels systems)[i]? = some (level + 1) ∧
      level < (systemLevels systems).foldl max 0 := by
  have held : i < (systemLevels systems).length := by
    rw [length_systemLevels]
    exact lt
  have mem : (systemLevels systems)[i] ∈ systemLevels systems := getElem_mem held
  have pos : 0 < (systemLevels systems)[i] := by
    obtain ⟨x, inAssigned, levelEq⟩ := mem_map.mp mem
    rw [← levelEq]
    exact pos_of_mem_assignLevels systems (by simp) x (mem_reverse.mp inAssigned)
  have bound : (systemLevels systems)[i] ≤
      (systemLevels systems).foldl max 0 := SparseIndex.le_foldl_max mem
  refine ⟨(systemLevels systems)[i] - 1, ?_, by omega⟩
  rw [Nat.sub_add_cancel pos]
  exact getElem?_eq_getElem held

variable {level : List Nat}

theorem mem_level_iff :
    level ∈ dependencyLevels systems ↔ ∃ n < (systemLevels systems).foldl max 0,
        level = (List.range systems.length).filter fun i =>
          (systemLevels systems)[i]? = some (n + 1) := by
  simp only [dependencyLevels, List.mem_map, List.mem_range, eq_comm]

theorem flatten_dependencyLevels_perm (systems : List (System G)) :
    (range systems.length).Perm (dependencyLevels systems).flatten := by
  refine (perm_ext_iff_of_nodup nodup_range ?_).mpr fun i => ?_
  · refine nodup_flatten.mpr ⟨?_, ?_⟩
    · intro level mem
      obtain ⟨n, _, rfl⟩ := mem_level_iff.mp mem
      exact nodup_range.filter _
    · rw [dependencyLevels, pairwise_map]
      refine nodup_range.imp fun {first second} ne => ?_
      intro i inFirst inSecond
      simp only [mem_filter, decide_eq_true_eq] at inFirst inSecond
      rw [inFirst.2] at inSecond
      have eq := some.inj inSecond.2
      omega
  · rw [mem_range, mem_flatten]
    constructor
    · intro lt
      obtain ⟨n, leveled, bound⟩ := exists_systemLevel lt
      refine ⟨_, mem_level_iff.mpr ⟨n, bound, rfl⟩, ?_⟩
      simpa using ⟨lt, leveled⟩
    · rintro ⟨level, mem, inLevel⟩
      obtain ⟨n, _, rfl⟩ := mem_level_iff.mp mem
      exact mem_range.mp (mem_of_mem_filter inLevel)

theorem not_conflicts_of_level (mem : level ∈ dependencyLevels systems) (inFirst : i ∈ level)
    (inSecond : j ∈ level) (ne : i ≠ j)
    (first : systems[i]? = some a) (second : systems[j]? = some b) : conflicts a b = false := by
  obtain ⟨n, _, rfl⟩ := mem_level_iff.mp mem
  simp only [mem_filter, decide_eq_true_eq] at inFirst inSecond
  by_contra conflict
  rw [Bool.not_eq_false] at conflict
  rcases Nat.lt_or_gt_of_ne ne with prior | later
  · exact lt_irrefl _ (systemLevels_lt prior first second conflict inFirst.2 inSecond.2)
  · rw [conflicts_comm] at conflict
    exact lt_irrefl _ (systemLevels_lt later second first conflict inSecond.2 inFirst.2)

theorem pairwise_flatten_dependencyLevels (systems : List (System G)) :
    (dependencyLevels systems).flatten.Pairwise fun i j => i < j ∨
      ∀ a b, systems[i]? = some a → systems[j]? = some b → conflicts a b = false := by
  refine pairwise_flatten.mpr ⟨?_, ?_⟩
  · intro level mem
    obtain ⟨n, _, rfl⟩ := mem_level_iff.mp mem
    exact (pairwise_lt_range.filter _).imp Or.inl
  · rw [dependencyLevels, pairwise_map]
    refine pairwise_lt_range.imp fun {low high} lower => ?_
    intro i inLow j inHigh
    simp only [mem_filter, decide_eq_true_eq] at inLow inHigh
    rcases Nat.lt_trichotomy i j with prior | rfl | later
    · exact .inl prior
    · rw [inLow.2] at inHigh
      have eq := some.inj inHigh.2
      omega
    · right
      intro a b first second
      by_contra conflict
      rw [Bool.not_eq_false, conflicts_comm] at conflict
      have := systemLevels_lt later second first conflict inHigh.2 inLow.2
      omega

theorem flatten_pieces (es : List EntityID) (chunk pieces : Nat) : ((range pieces).map fun i =>
      if i * chunk ≥ es.length then []
      else (es.take (min (i * chunk + chunk) es.length)).drop
        (i * chunk)).flatten = es.take (pieces * chunk) := by
  induction pieces with
  | zero => simp
  | succ pieces ih =>
    rw [range_succ, map_append, flatten_append, ih, Nat.succ_mul]
    simp only [map_cons, map_nil, flatten_cons, flatten_nil, append_nil]
    have piece : (if pieces * chunk ≥ es.length then []
        else (es.take (min (pieces * chunk + chunk) es.length)).drop (pieces * chunk)) =
        (es.take (pieces * chunk + chunk)).drop (pieces * chunk) := by
      split
      · symm
        apply drop_eq_nil_of_le
        rw [length_take]
        omega
      · rw [← take_eq_take_min]
    rw [piece]
    have start : es.take (pieces * chunk) = (es.take (pieces * chunk + chunk)).take
          (pieces * chunk) := by
      rw [take_take]
      congr 1
      omega
    rw [start, take_append_drop]

theorem flatten_partition {es : List EntityID} (nonempty : es ≠ []) (workers : Int) :
    (partition es workers).flatten = es := by
  unfold partition
  split
  · simp
  · rename_i several
    have pos : 0 < es.length := length_pos_iff.mpr nonempty
    rw [flatten_pieces]
    apply take_of_length_le
    have capped : 0 < min workers.toNat es.length := by omega
    rw [Nat.mul_comm]
    have covers := Nat.lt_mul_div_succ (es.length + min workers.toNat es.length - 1) capped
    rw [Nat.mul_comm, Nat.succ_mul] at covers
    omega

/-- The shards `runSystem` launches. -/
def shardsOf (workers : Int) (sys : System G) (entities : List EntityID) : List (List EntityID) :=
  if entities = [] then []
  else partition entities (if sys.serial then 1 else workers)

theorem flatten_shardsOf (workers : Int) (sys : System G) (es : List EntityID) :
    (shardsOf workers sys es).flatten = es := by
  unfold shardsOf
  split
  · rename_i empty
    simp [empty]
  · rename_i nonempty
    exact flatten_partition nonempty _

end Simulator
