import Simulator.SchedulerLevels

/-!
# Building the scheduler of a system model

`New` builds the executor before it calls `Initialize`.
-/

namespace Simulator

open List

variable {G : GoTypes}

/-- A chain of `count` systems in declared order, each in conflict with the
next one, the last at position `last`. -/
inductive Chain (systems : List (System G)) : Nat → Nat → Prop
  | single {i : Nat} (inside : i < systems.length) : Chain systems i 1
  | extend {i j count : Nat} {a b : System G} (shorter : Chain systems j count) (earlier : j < i)
      (first : systems[j]? = some a) (second : systems[i]? = some b)
      (conflict : conflicts a b = true) : Chain systems i (count + 1)

def InLevel (levels : List (List Nat)) (i number : Nat) : Prop :=
  ∃ level, levels[number]? = some level ∧ i ∈ level

structure Reflects (levels : List (List Nat)) (systems : List (System G)) :
    Prop where
  levels_eq : levels = dependencyLevels systems
  ordered : ∀ (i j x y : Nat) (a b : System G), i < j →
    systems[i]? = some a → systems[j]? = some b → conflicts a b = true →
    InLevel levels i x → InLevel levels j y → x < y
  required : ∀ i number, InLevel levels i (number + 1) →
    ∃ (j : Nat) (a b : System G), j < i ∧ systems[j]? = some a ∧
      systems[i]? = some b ∧ conflicts a b = true ∧ InLevel levels j number

variable {sys : System G} {systems : List (System G)} {level : Nat}

theorem exists_of_blockingLevel {assigned : List (System G × Nat)}
    (blocked : 0 < blockingLevel sys assigned) :
    ∃ earlier, (earlier, blockingLevel sys assigned) ∈ assigned ∧ conflicts sys earlier = true := by
  induction assigned with
  | nil => simp [blockingLevel] at blocked
  | cons head rest ih =>
    obtain ⟨other, level⟩ := head
    rw [blockingLevel] at blocked ⊢
    split
    · rename_i higher
      exact ⟨other, mem_cons_self, higher.1⟩
    · rename_i lower
      rw [if_neg lower] at blocked
      obtain ⟨earlier, member, conflict⟩ := ih blocked
      exact ⟨earlier, mem_cons_of_mem _ member, conflict⟩

theorem assignLevels_concat (systems : List (System G)) (sys : System G)
    (assigned : List (System G × Nat)) :
    assignLevels (systems ++ [sys]) assigned =
      (sys, blockingLevel sys (assignLevels systems assigned) + 1) ::
        assignLevels systems assigned := by
  induction systems generalizing assigned with
  | nil => rfl
  | cons head rest ih =>
    rw [cons_append, assignLevels, assignLevels]
    exact ih _

theorem systemLevels_concat (systems : List (System G)) (sys : System G) :
    systemLevels (systems ++ [sys]) = systemLevels systems ++
      [blockingLevel sys (assignLevels systems []) + 1] := by
  rw [systemLevels, assignLevels_concat]
  simp [systemLevels]

theorem exists_getElem?_of_mem_assigned (member : (sys, level) ∈ assignLevels systems []) :
    ∃ i : Nat, systems[i]? = some sys ∧ (systemLevels systems)[i]? = some level := by
  obtain ⟨i, held⟩ := mem_iff_getElem?.mp (mem_reverse.mpr member)
  have names := map_fst_assignLevels systems []
  rw [reverse_nil, map_nil, nil_append] at names
  refine ⟨i, ?_, ?_⟩
  · rw [← names, getElem?_map, held]
    rfl
  · rw [systemLevels, getElem?_map, held]
    rfl

theorem exists_right_below {i : Nat} (leveled : (systemLevels systems)[i]? = some (level + 2)) :
    ∃ (j : Nat) (a b : System G), j < i ∧ systems[j]? = some a ∧
      systems[i]? = some b ∧ conflicts a b = true ∧
      (systemLevels systems)[j]? = some (level + 1) := by
  induction systems using reverseRecOn with
  | nil => simp [systemLevels, assignLevels] at leveled
  | append_singleton systems sys ih =>
    rw [systemLevels_concat] at leveled ⊢
    have lengthEq := length_systemLevels systems
    rcases Nat.lt_or_ge i systems.length with inner | last
    · rw [getElem?_append_left (by omega)] at leveled
      obtain ⟨j, a, b, earlier, first, second, conflict, below⟩ := ih leveled
      refine ⟨j, a, b, earlier, ?_, ?_, conflict, ?_⟩
      · rw [getElem?_append_left (by omega)]
        exact first
      · rw [getElem?_append_left inner]
        exact second
      · rw [getElem?_append_left (by omega)]
        exact below
    · have inside := (List.getElem?_eq_some_iff.mp leveled).1
      rw [length_append, length_singleton, lengthEq] at inside
      have atEnd : i = systems.length := by omega
      subst atEnd
      rw [← lengthEq, getElem?_concat_length, Option.some.injEq] at leveled
      obtain ⟨earlier, member, conflict⟩ := exists_of_blockingLevel (show 0 < blockingLevel sys
          (assignLevels systems []) by omega)
      obtain ⟨j, held, heldLevel⟩ := exists_getElem?_of_mem_assigned member
      have jInside := (List.getElem?_eq_some_iff.mp held).1
      refine ⟨j, earlier, sys, jInside, ?_, ?_, ?_, ?_⟩
      · rw [getElem?_append_left jInside]
        exact held
      · exact getElem?_concat_length
      · rw [conflicts_comm]
        exact conflict
      · rw [getElem?_append_left (by omega), heldLevel]
        congr 1
        omega

namespace Chain

variable {systems : List (System G)} {i count level : Nat}

section

variable (chain : Chain systems i count)
include chain

theorem le_level (leveled : (systemLevels systems)[i]? = some level) : count ≤ level := by
  induction chain generalizing level with
  | single inside =>
    obtain ⟨number, found, _⟩ := exists_systemLevel inside
    rw [leveled] at found
    cases found
    omega
  | @extend i j count a b shorter earlier first second conflict ih =>
    have jInside := (List.getElem?_eq_some_iff.mp first).1
    obtain ⟨number, found, _⟩ := exists_systemLevel jInside
    have shorterLe := ih found
    have := systemLevels_lt earlier first second conflict found leveled
    omega

theorem pos : 0 < count := by
  cases chain <;> omega

theorem inside : i < systems.length := by
  cases chain with
  | single inside => exact inside
  | extend _ _ _ second _ => exact (List.getElem?_eq_some_iff.mp second).1

theorem shorten {fewer : Nat}
    (positive : 0 < fewer) (le : fewer ≤ count) : Chain systems i fewer := by
  induction chain generalizing fewer with
  | single inside =>
    have : fewer = 1 := by omega
    subst this
    exact .single inside
  | extend shorter earlier first second conflict ih =>
    obtain ⟨rest, rfl⟩ := Nat.exists_eq_add_one_of_ne_zero (show fewer ≠ 0 by omega)
    rcases Nat.eq_zero_or_pos rest with rfl | more
    · exact .single (List.getElem?_eq_some_iff.mp second).1
    · exact .extend (ih more (by omega)) earlier first second conflict

end

end Chain

variable {systems : List (System G)} {i : Nat} {level : Nat}

theorem chain_of_level (leveled : (systemLevels systems)[i]? = some level) :
    Chain systems i level := by
  induction level generalizing i with
  | zero =>
    have inside := (List.getElem?_eq_some_iff.mp leveled).1
    rw [length_systemLevels] at inside
    obtain ⟨number, found, _⟩ := exists_systemLevel inside
    rw [leveled] at found
    cases found
  | succ level ih =>
    cases level with
    | zero =>
      have inside := (List.getElem?_eq_some_iff.mp leveled).1
      rw [length_systemLevels] at inside
      exact .single inside
    | succ level =>
      obtain ⟨j, a, b, earlier, first, second, conflict, below⟩ := exists_right_below leveled
      exact .extend (ih below) earlier first second conflict

theorem chain_iff (leveled : (systemLevels systems)[i]? = some level) (count : Nat) :
    Chain systems i count ↔ 0 < count ∧ count ≤ level := by
  constructor
  · intro chain
    exact ⟨chain.pos, chain.le_level leveled⟩
  · rintro ⟨positive, le⟩
    exact (chain_of_level leveled).shorten positive le

theorem inLevel_dependencyLevels {number : Nat} : InLevel (dependencyLevels systems) i number ↔
      (systemLevels systems)[i]? = some (number + 1) := by
  constructor
  · rintro ⟨level, held, member⟩
    rw [dependencyLevels, getElem?_map] at held
    obtain ⟨found, ranged, rfl⟩ := Option.map_eq_some_iff.mp held
    have numberEq : found = number := by
      have := (List.getElem?_eq_some_iff.mp ranged).2
      simpa using this.symm
    subst numberEq
    simpa using (mem_filter.mp member).2
  · intro leveled
    have inside := (List.getElem?_eq_some_iff.mp leveled).1
    rw [length_systemLevels] at inside
    obtain ⟨other, found, bound⟩ := exists_systemLevel inside
    rw [leveled] at found
    cases found
    refine ⟨(range systems.length).filter fun i =>
      (systemLevels systems)[i]? = some (number + 1), ?_, ?_⟩
    · rw [dependencyLevels, getElem?_map, getElem?_range bound]
      rfl
    · simpa using ⟨inside, leveled⟩

theorem dependencyLevels_eq_iff {first second : List (System G)}
    (sameLength : first.length = second.length) :
    dependencyLevels first = dependencyLevels second ↔
      ∀ i count, Chain first i count ↔ Chain second i count := by
  constructor
  · intro same i count
    by_cases inside : i < first.length
    · obtain ⟨number, leveled, _⟩ := exists_systemLevel inside
      have inSecond : InLevel (dependencyLevels second) i number := by
        rw [← same]
        exact inLevel_dependencyLevels.mpr leveled
      rw [chain_iff leveled, chain_iff (inLevel_dependencyLevels.mp inSecond)]
    · constructor
      · intro chain
        exact (inside chain.inside).elim
      · intro chain
        rw [sameLength] at inside
        exact (inside chain.inside).elim
  · intro sameChains
    have levelsEq : systemLevels first = systemLevels second := by
      apply ext_getElem?
      intro i
      by_cases inside : i < first.length
      · obtain ⟨x, firstLevel, _⟩ := exists_systemLevel inside
        obtain ⟨y, secondLevel, _⟩ := exists_systemLevel (show i < second.length by omega)
        have up := ((sameChains i (x + 1)).mp (chain_of_level firstLevel)).le_level secondLevel
        have down := ((sameChains i (y + 1)).mpr (chain_of_level secondLevel)).le_level firstLevel
        have : x = y := by omega
        rw [firstLevel, secondLevel, this]
      · rw [getElem?_eq_none (by rw [length_systemLevels]; omega),
          getElem?_eq_none (by rw [length_systemLevels]; omega)]
    unfold dependencyLevels
    rw [levelsEq, sameLength]

theorem reflects_dependencyLevels (systems : List (System G)) :
    Reflects (dependencyLevels systems) systems where
  levels_eq := rfl
  ordered := by
    intro i j x y a b earlier first second conflict atFirst atSecond
    have := systemLevels_lt earlier first second conflict (inLevel_dependencyLevels.mp atFirst)
      (inLevel_dependencyLevels.mp atSecond)
    omega
  required := by
    intro i number above
    obtain ⟨j, a, b, earlier, first, second, conflict, below⟩ :=
      exists_right_below (inLevel_dependencyLevels.mp above)
    exact ⟨j, a, b, earlier, first, second, conflict, inLevel_dependencyLevels.mpr below⟩

/-- `SystemModel`.  The systems are objects that read the fields of the model
whenever they are asked for their declarations.  `setUp` is `Initialize`; an
error leaves nothing behind, since `New` then returns no simulation. -/
structure SystemModel (G : GoTypes) (M : Type) where
  modelID : String
  modelVersion : String
  systems : M → List (M → System G)
  setUp : M → World G → Except String (M × World G)

/-- The `scheduler` as it is built: the systems and the levels computed from
their declarations at that time. -/
structure BuiltScheduler (G : GoTypes) (M : Type) where
  workers : Int
  systems : List (M → System G)
  levels : List (List Nat)

def declared {M : Type} (systems : List (M → System G)) (fields : M) : List (System G) :=
  systems.map fun sys => sys fields

def newScheduler {M : Type} (fields : M) (systems : List (M → System G))
    (workers : Int) : BuiltScheduler G M where
  workers := workers
  systems := systems
  levels := dependencyLevels (declared systems fields)

/-- The fields of `Config` that `New` uses. -/
structure SimulationConfig where
  id : String
  seed : UInt64
  mode : Mode
  workers : Int

/-- The errors of `New` -/
inductive NewError
  | badMode
  | failed (detail : String)
deriving DecidableEq

/-- `newExecutor` for a model that is a `SystemModel` and no `EventModel`;
`gomaxprocs` is `runtime.GOMAXPROCS(0)`. -/
def newExecutor {M : Type} (gomaxprocs : Int) (cfg : SimulationConfig)
    (model : SystemModel G M) (fields : M) : Except NewError (BuiltScheduler G M) :=
  match cfg.mode with
  | .tick => .ok (newScheduler fields (model.systems fields)
      (if cfg.workers ≤ 0 then gomaxprocs else cfg.workers))
  | .event => .error .badMode

/-- A `Simulation` of a system model, as `New` returns it. -/
structure SystemSimulation (G : GoTypes) (M : Type) where
  fields : M
  world : World G
  scheduler : BuiltScheduler G M

/-- `New` -/
def newSimulation {M : Type} (gomaxprocs : Int) (cfg : SimulationConfig)
    (model : SystemModel G M) (fields : M) : Except NewError (SystemSimulation G M) :=
  match newExecutor gomaxprocs cfg model fields with
  | .error cause => .error cause
  | .ok scheduler =>
    match model.setUp fields (.new ⟨cfg.id, model.modelID,
        model.modelVersion, cfg.seed, cfg.mode⟩) with
    | .error detail => .error (.failed detail)
    | .ok (after, world) => .ok ⟨after, world, scheduler⟩

theorem scheduler_of_newSimulation {M : Type} {gomaxprocs : Int}
    {cfg : SimulationConfig} {model : SystemModel G M} {fields : M} {sim : SystemSimulation G M}
    (built : newSimulation gomaxprocs cfg model fields = .ok sim) :
    sim.scheduler.systems = model.systems fields ∧ sim.scheduler.levels =
        dependencyLevels (declared (model.systems fields) fields) := by
  unfold newSimulation newExecutor at built
  split at built
  · cases built
  · rename_i scheduler executor
    split at executor
    · cases executor
      split at built
      · cases built
      · cases built
        exact ⟨rfl, rfl⟩
    · cases executor

theorem levels_reflect_iff {M : Type} (gomaxprocs : Int)
    (cfg : SimulationConfig) (model : SystemModel G M) (fields : M) {sim : SystemSimulation G M}
    (built : newSimulation gomaxprocs cfg model fields = .ok sim) :
    Reflects sim.scheduler.levels (declared sim.scheduler.systems sim.fields) ↔
      ∀ i count, Chain (declared (model.systems fields) fields) i count ↔
        Chain (declared (model.systems fields) sim.fields) i count := by
  obtain ⟨systemsEq, levelsEq⟩ := scheduler_of_newSimulation built
  rw [systemsEq, levelsEq, ← dependencyLevels_eq_iff (by simp [declared])]
  constructor
  · intro reflects
    exact reflects.levels_eq
  · intro same
    rw [same]
    exact reflects_dependencyLevels _

/-- Two systems that write one component each.  `Initialize` registers the
components; before it both identifiers are zero. -/
def twoWriters : SystemModel flagTypes (ComponentID × ComponentID) where
  modelID := "writers"
  modelVersion := "1"
  systems _ := [fun ids => ⟨[], [ids.1], false, fun _ => .halt none⟩,
      fun ids => ⟨[], [ids.2], false, fun _ => .halt none⟩]
  setUp _ w :=
    let first := w.components.register "first"
    let second := first.2.register "second"
    .ok ((first.1, second.1), { w with components := second.2 })

def sharedWriters : SystemModel flagTypes (ComponentID × ComponentID) where
  modelID := "writers"
  modelVersion := "1"
  systems _ := [fun ids => ⟨[], [ids.1], false, fun _ => .halt none⟩,
      fun ids => ⟨[], [ids.1], false, fun _ => .halt none⟩]
  setUp := twoWriters.setUp

theorem levels_reflect_iff_sharedWriters :
    ∃ sim, newSimulation 2 ⟨"s", 7, .tick, 0⟩ sharedWriters (0, 0) = .ok sim ∧
      Reflects sim.scheduler.levels (declared sim.scheduler.systems sim.fields) := by
  obtain ⟨sim, built, fieldsEq⟩ : ∃ sim, newSimulation 2 ⟨"s", 7, .tick, 0⟩ sharedWriters (0, 0) =
        .ok sim ∧ sim.fields = (0, 1) := ⟨_, rfl, rfl⟩
  refine ⟨sim, built, (levels_reflect_iff _ _ _ _ built).mpr ?_⟩
  intro i count
  rw [fieldsEq]
  rfl

theorem independent_writers_serialized :
    ∃ sim, newSimulation 2 ⟨"s", 7, .tick, 0⟩ twoWriters (0, 0) = .ok sim ∧ sim.fields = (0, 1) ∧
      sim.scheduler.levels = [[0], [1]] ∧
      dependencyLevels (declared sim.scheduler.systems sim.fields) = [[0, 1]] :=
  ⟨_, rfl, rfl, rfl, rfl⟩

end Simulator
