import Simulator.Resumption

/-!
# The ecosystem model

Energies are components and kinds are tags; the cursor and the counts of the last tick
are fields of the model value.
-/

namespace Simulator

open Requests List Option World Code Program ModelProgram Float64

structure Energy where
  e : Int

inductive EcosystemTy
  | energy
deriving DecidableEq

abbrev ecosystemTypes (codec : JsonCodec Energy) : GoTypes :=
  componentTypes EcosystemTy (fun _ => Energy) (fun _ => "ecosystem.Energy")
    (fun _ => by decide) (fun _ => codec)

namespace Ecosystem

structure Config where
  plants : Int
  animals : Int
  maxAnimals : Int

def Config.withDefaults (c : Config) : Config where
  plants := if c.plants ≤ 0 then 40 else c.plants
  animals := if c.animals ≤ 0 then 6 else c.animals
  maxAnimals := if c.maxAnimals ≤ 0 then 15 else c.maxAnimals

end Ecosystem

/-- `Ecosystem`; its field `energyCol` is the column of `energyID` -/
structure Ecosystem where
  cfg : Ecosystem.Config
  energyID : ComponentID
  animalTag : Tag
  plantTag : Tag
  plantCursor : Nat
  animalCount : Int
  plantCount : Int
  totalEnergy : Int

namespace Ecosystem

/-- A new value after `Configure`. -/
def configure (c : Config) : Ecosystem where
  cfg := c.withDefaults
  energyID := 0
  animalTag := 0
  plantTag := 0
  plantCursor := 0
  animalCount := 0
  plantCount := 0
  totalEnergy := 0

variable {codec : JsonCodec Energy}

/-- `energyCol.Get` -/
def energy (m : Ecosystem) (e : EntityID) : Code (ecosystemTypes codec) (Option Energy) :=
  Code.get (G := ecosystemTypes codec) (some .energy) m.energyID e

/-- `energyCol.Set` -/
def setEnergy (m : Ecosystem) (e : EntityID) (v : Energy) : Code (ecosystemTypes codec) Unit :=
  Code.set (G := ecosystemTypes codec) (some .energy) m.energyID e v

/-- The entries that `energyCol.Each` visits -/
def energies (m : Ecosystem) : Code (ecosystemTypes codec) (List (EntityID × Energy)) :=
  Code.each (G := ecosystemTypes codec) (some .energy) m.energyID

/-- A loop of `Initialize`: entities of one kind, with an energy of `least`
and a random part below `spread`. -/
def seed (m : Ecosystem) (tag : Tag) (least : Int) (spread : UInt64)
    (count : Int) (stream : RNG) : Code (ecosystemTypes codec) RNG :=
  Program.iterate (fun stream => do
    let e ← Code.create
    Code.addTag e tag
    let drawn ← Code.ofExcept (RNG.uint64n stream spread)
    m.setEnergy e ⟨least + drawn.1.toNat⟩
    return drawn.2) count.toNat stream

/-- `Initialize` -/
def setUp (m : Ecosystem) (seedValue : UInt64) : Code (ecosystemTypes codec) Ecosystem := do
  let m :=
    if m.cfg.plants = 0 then { m with cfg := m.cfg.withDefaults } else m
  let energyID ← Code.registerComponent (some .energy) "eco.energy"
  let animalTag ← Code.registerTag "animal"
  let plantTag ← Code.registerTag "plant"
  let m := { m with
    energyID := energyID
    animalTag := animalTag
    plantTag := plantTag }
  let stream ← m.seed plantTag 3 3 m.cfg.plants (.deriveU64 seedValue 1)
  let _ ← m.seed animalTag 4 4 m.cfg.animals stream
  return m

/-- `plantIDs` and `animalIDs`: the live entities with a tag -/
def tagged (tag : Tag) : Code (ecosystemTypes codec) (List EntityID) := do
  let ids ← Code.ids
  ids.foldlM (fun out e => do
    if ← Code.hasTag e tag then return out ++ [e] else return out) []

def grow (m : Ecosystem) (p : EntityID) : Code (ecosystemTypes codec) Unit := do
  let v := (← m.energy p).getD ⟨0⟩
  if v.e < 8 then m.setEnergy p ⟨v.e + 1⟩ else return ()

def bite (m : Ecosystem) (p : EntityID) : Code (ecosystemTypes codec) Int := do
  match ← m.energy p with
  | none => return 0
  | some pv =>
    if pv.e > 0 then
      m.setEnergy p ⟨pv.e - 1⟩
      return 3
    else
      return 0

def graze (m : Ecosystem) (plants : List EntityID) (cursor : Nat)
    (a : EntityID) : Code (ecosystemTypes codec) Nat := do
  let v := (← m.energy a).getD ⟨0⟩
  match plants[cursor % plants.length]? with
  | none =>
    m.setEnergy a ⟨v.e - 1⟩
    return cursor
  | some p =>
    let gained ← m.bite p
    m.setEnergy a ⟨v.e - 1 + gained⟩
    return cursor + 1

def reproduce (m : Ecosystem) (canReproduce : Bool) (dead : List EntityID)
    (a : EntityID) : Code (ecosystemTypes codec) (List EntityID) := do
  let v := (← m.energy a).getD ⟨0⟩
  if v.e ≤ 0 then
    return dead ++ [a]
  else if canReproduce ∧ v.e ≥ 10 then
    m.setEnergy a ⟨v.e - 5⟩
    let child ← Code.create
    Code.addTag child m.animalTag
    m.setEnergy child ⟨5⟩
    return dead
  else
    return dead

def wither (m : Ecosystem) (dead : List EntityID) (p : EntityID) :
    Code (ecosystemTypes codec) (List EntityID) := do
  match ← m.energy p with
  | none => return dead
  | some v => if v.e ≤ 0 then return dead ++ [p] else return dead

def bury (m : Ecosystem) (e : EntityID) : Code (ecosystemTypes codec) Unit := do
  let _ ← Code.destroy e
  Code.removeEntityTags e
  let _ ← Code.remove (G := ecosystemTypes codec) (some .energy) m.energyID e

/-- The end of `Step`: the counts of the tick. -/
def census (m : Ecosystem) : Code (ecosystemTypes codec) Ecosystem := do
  let animals ← tagged m.animalTag
  let plants ← tagged m.plantTag
  let entries ← m.energies
  return { m with
    animalCount := animals.length
    plantCount := plants.length
    totalEnergy := entries.foldl (fun total entry => total + entry.2.e) 0 }

def step (m : Ecosystem) : Code (ecosystemTypes codec) Ecosystem := do
  let plants ← tagged m.plantTag
  plants.foldlM (fun _ p => m.grow p) ()
  let animals ← tagged m.animalTag
  let cursor ← animals.foldlM (m.graze plants) m.plantCursor
  let m := { m with plantCursor := cursor }
  let canReproduce := decide ((animals.length : Int) < m.cfg.maxAnimals)
  let dead ← animals.foldlM (m.reproduce canReproduce) []
  let dead ← plants.foldlM m.wither dead
  dead.foldlM (fun _ e => m.bury e) ()
  m.census

def metrics (m : Ecosystem) : List (String × Float64) :=
  [("animals", .ofInt m.animalCount), ("plants", .ofInt m.plantCount),
    ("total_energy", .ofInt m.totalEnergy)]

def program (codec : JsonCodec Energy) (c : Config) :
    ModelProgram (ecosystemTypes codec) where
  Fields := Ecosystem
  setUp := (configure c).setUp
  step := Code.tickStep step
  metrics := metrics
  config := none

def layout (codec : JsonCodec Energy) : Layout (ecosystemTypes codec) :=
  [("eco.energy", some .energy)]

section Rules

variable {m : Ecosystem}

theorem ensures_tagged (tag : Tag) : (tagged tag).Within (layout codec) := by
  refine .request_bind trivial fun ids => ?_
  refine .foldlM (fun out e _ => ?_) ids trivial
  refine .request_bind trivial fun has => ?_
  split <;> trivial

theorem inLayout (wired : m.energyID = 0) : (layout codec)[m.energyID]?.map Prod.snd =
      some (some EcosystemTy.energy) := by
  rw [wired]
  rfl

theorem ensures_seed (wired : m.energyID = 0) (tag : Tag) (least : Int)
    (spread : UInt64) (count : Int) (stream : RNG) : (m.seed tag least spread count stream).Within (layout codec) := by
  refine .iterate (fun stream _ => ?_) _ trivial
  refine .request_bind trivial fun e => ?_
  refine .request_bind trivial fun _ => ?_
  refine .seq ?_ fun drawn => ?_
  · exact ensures_ofExcept fun _ _ => trivial
  · exact .request_bind (inLayout wired) fun _ => trivial

section Columns

variable {ok : Operation (ecosystemTypes codec) → Prop}
  (columns : ∀ op, ok (.column (some .energy) m.energyID op))
include columns

theorem ensures_grow (p : EntityID) : (m.grow p).Ensures ok fun _ => True := by
  refine .request_bind (columns _) fun hit => ?_
  dsimp only
  split
  · exact .request (columns _) fun _ => trivial
  · trivial

theorem ensures_graze (plants : List EntityID) (cursor : Nat) (a : EntityID) :
    (m.graze plants cursor a).Ensures ok fun _ => True := by
  refine .request_bind (columns _) fun hit => ?_
  dsimp only
  split
  · exact .request_bind (columns _) fun _ => trivial
  · refine .seq ?_ fun gained => ?_
    · refine .request_bind (columns _) fun plant => ?_
      cases plant with
      | none => trivial
      | some pv =>
        dsimp only
        split
        · exact .request_bind (columns _) fun _ => trivial
        · trivial
    · exact .request_bind (columns _) fun _ => trivial

end Columns

theorem ensures_reproduce (wired : m.energyID = 0) (canReproduce : Bool)
    (dead : List EntityID) (a : EntityID) : (m.reproduce canReproduce dead a).Within (layout codec) := by
  refine .request_bind (inLayout wired) fun hit => ?_
  dsimp only
  split
  · trivial
  · split
    · refine .request_bind (inLayout wired) fun _ => ?_
      refine .request_bind trivial fun child => ?_
      refine .request_bind trivial fun _ => ?_
      exact .request_bind (inLayout wired) fun _ => trivial
    · trivial

theorem ensures_wither (wired : m.energyID = 0) (dead : List EntityID) (p : EntityID) :
    (m.wither dead p).Within (layout codec) := by
  refine .request_bind (inLayout wired) fun hit => ?_
  cases hit with
  | none => trivial
  | some v =>
    dsimp only
    split <;> trivial

theorem ensures_bury (wired : m.energyID = 0) (e : EntityID) :
    (m.bury e).Within (layout codec) := by
  refine .request_bind trivial fun _ => ?_
  refine .request_bind trivial fun _ => ?_
  exact .request_bind (inLayout wired) fun _ => trivial

theorem ensures_step (m : Ecosystem) (wired : m.energyID = 0) :
    (tickStep step m).Ensures (Operation.Within (layout codec))
      fun after => ∃ cursor animals plants total, after = { m with
        plantCursor := cursor
        animalCount := animals
        plantCount := plants
        totalEnergy := total } := by
  refine ensures_tickStep trivial ?_
  refine .seq (ensures_tagged _) fun plants => ?_
  refine .seq ?_ fun _ => ?_
  · exact .foldlM (fun _ p _ => ensures_grow (fun _ => inLayout wired) p) plants trivial
  refine .seq (ensures_tagged _) fun animals => ?_
  refine .seq ?_ fun cursor => ?_
  · refine .foldlM (fun cursor a _ => ?_) animals trivial
    exact ensures_graze (fun _ => inLayout wired) plants cursor a
  refine .seq ?_ fun dead => ?_
  · refine .foldlM (fun dead a _ => ?_) animals trivial
    exact ensures_reproduce wired _ dead a
  refine .seq ?_ fun dead => ?_
  · refine .foldlM (fun dead p _ => ?_) plants trivial
    exact ensures_wither wired dead p
  refine .seq ?_ fun _ => ?_
  · refine .foldlM (fun _ e _ => ?_) dead trivial
    exact ensures_bury wired e
  refine .seq (ensures_tagged _) fun animals => ?_
  refine .seq (ensures_tagged _) fun plants => ?_
  refine .request_bind (inLayout wired) fun entries => ?_
  exact ⟨_, _, _, _, rfl⟩

end Rules

theorem setUp_laid {sort : SortSlice (Event (ecosystemTypes codec))}
    {metadata : Metadata} {seedValue : UInt64} {c : Config} {m : Ecosystem}
    {w : World (ecosystemTypes codec)} (ran : (new metadata).runCode sort
      ((configure c).setUp seedValue) = some (m, w)) :
    w.Laid metadata (layout codec) ∧ m.energyID = 0 ∧
      m.animalCount = 0 ∧ m.plantCount = 0 ∧ m.totalEnergy = 0 := by
  obtain ⟨mid, laid, rest⟩ := (laid_new metadata).runCode_registerComponent not_mem_nil ran
  refine laid.runCode (fun after => after.energyID = 0 ∧
    after.animalCount = 0 ∧ after.plantCount = 0 ∧ after.totalEnergy = 0) ?_ rest
  refine .request_bind trivial fun animalTag => ?_
  refine .request_bind trivial fun plantTag => ?_
  refine .seq ?_ fun stream => ?_
  · exact ensures_seed rfl _ _ _ _ _
  refine .seq ?_ fun _ => ?_
  · exact ensures_seed rfl _ _ _ _ _
  refine ⟨rfl, ?_⟩
  dsimp only
  split <;> exact ⟨rfl, rfl, rfl⟩

theorem orderly (codec : JsonCodec Energy) (c : Config) :
    (program codec c).Orderly (layout codec) fun m => m.energyID = 0 where
  setUp ran := by
    obtain ⟨laid, wired, _⟩ := setUp_laid ran
    exact ⟨laid, wired⟩
  step m wired := by
    refine .mono (ensures_step m wired) ?_
    rintro _ ⟨_, _, _, _, rfl⟩
    exact wired
  config _ hit := by cases hit

def population (w : World (ecosystemTypes codec)) (tag : Tag) : List EntityID :=
  w.entities.ids.filter fun e => w.tagStore.has e tag

section Runs

variable {sort : SortSlice (Event (ecosystemTypes codec))} {w : World (ecosystemTypes codec)}

theorem runCode_hasTag (e : EntityID) (tag : Tag) :
    w.runCode sort (hasTag e tag) = some (w.tagStore.has e tag, w) :=
  rfl

theorem runCode_tagged (tag : Tag) :
    w.runCode sort (tagged tag) = some (population w tag, w) := by
  have collects : ∀ ids out : List EntityID, w.runCode sort (ids.foldlM (fun out e => do
        if ← hasTag e tag then return out ++ [e] else return out) out) =
        some (out ++ ids.filter fun e => w.tagStore.has e tag, w) := by
    intro ids
    induction ids with
    | nil => intro out; simp
    | cons e ids ih =>
      intro out
      rw [foldlM_cons, runCode_bind, runCode_bind, runCode_hasTag]
      cases has : w.tagStore.has e tag with
      | true | false => simp [ih, has]
  exact collects w.entities.ids []

theorem population_eq {first second : World (ecosystemTypes codec)}
    (es : first.entities = second.entities) (tags : first.tagStore = second.tagStore) (tag : Tag) :
    population first tag = population second tag := by
  rw [population, population, es, tags]

variable {m : Ecosystem} {final : World (ecosystemTypes codec)} {c : Config} {metadata : Metadata}
  {entries : List (EntityID × Energy)} {after : World (ecosystemTypes codec)} {running : Bool}

theorem population_energies (ran : w.runCode sort m.energies = some (entries, after))
    (tag : Tag) : population after tag = population w tag := by
  simp only [World.runCode, energies, Code.each, Program.request, Program.run,
    World.run, World.runColumn] at ran
  split at ran
  · cases ran
  · rename_i reply mid answered
    split at answered
    · cases answered
    · cases answered
      split at ran
      · cases ran
        exact population_eq rfl rfl tag
      · cases ran

theorem counts_of_census {after : Ecosystem} (ran : w.runCode sort m.census = some (after, final)) :
    after.animalCount = (population final m.animalTag).length ∧
      after.plantCount = (population final m.plantTag).length := by
  rw [census, runCode_bind, runCode_tagged, bind_some,
    runCode_bind, runCode_tagged, bind_some] at ran
  obtain ⟨entries, last, visited, ends⟩ := runCode_bind_eq_some ran
  cases ends
  rw [population_energies visited, population_energies visited]
  exact ⟨rfl, rfl⟩

theorem counts_of_step {after : Ecosystem}
    (ran : w.runCode sort (tickStep step m) = some (after, final)) :
    after.animalCount = (population final m.animalTag).length ∧
      after.plantCount = (population final m.plantTag).length := by
  obtain ⟨res, last, worked, went⟩ := runCode_bind_eq_some ran
  cases went
  obtain ⟨plants, _, _, worked⟩ := runCode_bind_eq_some worked
  obtain ⟨_, _, _, worked⟩ := runCode_bind_eq_some worked
  obtain ⟨animals, _, _, worked⟩ := runCode_bind_eq_some worked
  obtain ⟨cursor, _, _, worked⟩ := runCode_bind_eq_some worked
  obtain ⟨dead, _, _, worked⟩ := runCode_bind_eq_some worked
  obtain ⟨dead, _, _, worked⟩ := runCode_bind_eq_some worked
  obtain ⟨_, _, _, counted⟩ := runCode_bind_eq_some worked
  have counts := counts_of_census counted
  exact counts

structure Extinct (m : Ecosystem) (w : World (ecosystemTypes codec)) :
    Prop where
  animals : population w m.animalTag = []
  plants : population w m.plantTag = []

theorem runCode_step_extinct (extinct : m.Extinct w) :
    w.runCode sort (tickStep step m) = (w.runCode sort m.energies).bind fun ended =>
        some ({ m with
            animalCount := 0
            plantCount := 0
            totalEnergy := ended.1.foldl (fun total x => total + x.2.e) 0 },
          { ended.2 with clock := ended.2.clock.advance }) := by
  have works : w.runCode sort m.step = (w.runCode sort m.energies).bind fun ended =>
        some ({ m with
            animalCount := 0
            plantCount := 0
            totalEnergy := ended.1.foldl (fun total x => total + x.2.e) 0 }, ended.2) := by
    simp only [step, census, runCode_bind, runCode_tagged,
      bind_some, extinct.animals, extinct.plants, foldlM_nil, runCode_pure]
    rfl
  rw [tickStep, runCode_bind, works, bind_assoc]
  rfl

theorem Extinct.energies (extinct : m.Extinct w)
    (ran : w.runCode sort m.energies = some (entries, after)) :
    m.Extinct { after with clock := after.clock.advance } :=
  ⟨(population_energies ran _).trans extinct.animals,
    (population_energies ran _).trans extinct.plants⟩

theorem advance_extinct (n : Nat) (extinct : m.Extinct w) :
    (program codec c).advance sort (n + 1) ⟨running, w, m⟩ =
      (w.runCode sort m.energies).bind fun ended =>
        (program codec c).advance sort n ⟨running, { ended.2 with clock := ended.2.clock.advance },
            { m with
              animalCount := 0
              plantCount := 0
              totalEnergy := ended.1.foldl (fun total x => total + x.2.e) 0 }⟩ := by
  refine (advance_succ n (runCode_step_extinct extinct)).trans ?_
  exact bind_assoc _ _ _

theorem same_of_extinct (cursor n : Nat) (wired : m.energyID = 0)
    (laid : w.Laid metadata (layout codec)) (extinct : m.Extinct w) : (program codec c).Same
      ((program codec c).advance sort n ⟨running, w, { m with plantCursor := cursor }⟩)
      ((program codec c).advance sort n ⟨running, w, m⟩) := by
  induction n generalizing m w with
  | zero => exact .some ⟨rfl, .refl laid.sound⟩
  | succ n ih =>
    have moved : Extinct { m with plantCursor := cursor } w := ⟨extinct.animals, extinct.plants⟩
    rw [advance_extinct n extinct, advance_extinct n moved]
    -- the energies are read from the same column in both runs
    have reads : (energies { m with plantCursor := cursor } :
        Code (ecosystemTypes codec) _) = m.energies := rfl
    rw [reads]
    cases visited : w.runCode sort m.energies with
    | none => exact .none
    | some ended =>
      have ran : w.runCode sort (tickStep step m) = _ := runCode_step_extinct extinct
      rw [visited] at ran
      obtain ⟨stepped, _⟩ := laid.runCode _ (ensures_step m wired) ran
      have remains := extinct.energies visited
      exact ih (m := { m with
        animalCount := 0
        plantCount := 0
        totalEnergy := ended.1.foldl (fun total x => total + x.2.e) 0 }) wired stepped
        ⟨remains.animals, remains.plants⟩

theorem extinct_of_counts {j : Nat} {last : Ecosystem}
    (wired : m.energyID = 0) (laid : w.Laid metadata (layout codec)) (ran : w.runCode sort
      (iterate (tickStep step) (j + 1) m) = some (last, final))
    (noAnimals : last.animalCount = 0) (noPlants : last.plantCount = 0) : last.Extinct final := by
  have wiredAfter : (iterate (tickStep step) j m).Ensures
      (Operation.Within (layout codec)) fun after : Ecosystem => after.energyID = 0 :=
    Program.Ensures.iterate (fun current wired => by
      refine .mono (ensures_step current wired) ?_
      rintro _ ⟨_, _, _, _, rfl⟩
      exact wired) j wired
  rw [runCode, run_iterate_add] at ran
  obtain ⟨⟨before, middle⟩, former, ran⟩ := bind_eq_some_iff.mp ran
  obtain ⟨middleLaid, wiredBefore⟩ := laid.runCode _ wiredAfter former
  obtain ⟨_, _, stepped, ended⟩ := runCode_bind_eq_some ran
  cases ended
  obtain ⟨animals, plants⟩ := counts_of_step stepped
  obtain ⟨_, _, _, _, _, rfl⟩ := middleLaid.runCode _ (ensures_step before wiredBefore) stepped
  rw [noAnimals] at animals
  rw [noPlants] at plants
  exact ⟨length_eq_zero_iff.mp (by exact_mod_cast animals.symm),
    length_eq_zero_iff.mp (by exact_mod_cast plants.symm)⟩

theorem indifferent_iff {k : Nat} {fresh paused : (program codec c).Sim}
    (made : (program codec c).new sort metadata = some fresh)
    (ran : (program codec c).advance sort k fresh = some paused) :
    (∀ n, (program codec c).Indifferent sort n paused fresh.model) ↔
      paused.model.animalCount = 0 ∧ paused.model.plantCount = 0 ∧
        paused.model.totalEnergy = 0 := by
  obtain ⟨⟨m, w⟩, setUp, rfl⟩ := map_eq_some_iff.mp made
  obtain ⟨⟨last, final⟩, steps, rfl⟩ := map_eq_some_iff.mp ran
  obtain ⟨laid, wired, noAnimals, noPlants, noEnergy⟩ := setUp_laid setUp
  have changes : (iterate (program codec c).step k m).Ensures
      (Operation.Within (layout codec)) (fun after : Ecosystem =>
        ∃ cursor animals plants total, after = { m with
          plantCursor := cursor
          animalCount := animals
          plantCount := plants
          totalEnergy := total }) := by
    refine .iterate ?_ k ⟨_, _, _, _, rfl⟩
    rintro _ ⟨_, _, _, _, rfl⟩
    exact .mono (ensures_step _ wired) fun _ changed =>
      changed
  obtain ⟨finalLaid, frame⟩ := laid.runCode _ changes steps
  have wiredLast : last.energyID = 0 := by
    obtain ⟨_, _, _, _, rfl⟩ := frame
    exact wired
  constructor
  · intro indifferent
    have same : metrics m = metrics last := (indifferent 0).metrics_eq
    simp only [metrics, noAnimals, noPlants, noEnergy, cons.injEq,
      Prod.mk.injEq, true_and, and_true] at same
    obtain ⟨animalsEq, plantsEq, totalEq⟩ := same
    exact ⟨ofInt_eq_ofInt_zero_iff.mp animalsEq.symm, ofInt_eq_ofInt_zero_iff.mp plantsEq.symm,
      ofInt_eq_ofInt_zero_iff.mp totalEq.symm⟩
  · rintro ⟨noAnimalsLeft, noPlantsLeft, noEnergyLeft⟩ n
    cases k with
    | zero =>
      cases steps
      exact indifferent_self finalLaid.sound n
    | succ j =>
      have extinct := extinct_of_counts wired laid steps noAnimalsLeft noPlantsLeft
      -- only the cursor differs from what `Initialize` left
      have fields : m = { last with plantCursor := m.plantCursor } := by
        obtain ⟨cursor, animals, plants, total, rfl⟩ := frame
        dsimp only at noAnimalsLeft noPlantsLeft noEnergyLeft
        rw [noAnimalsLeft.trans noAnimals.symm, noPlantsLeft.trans noPlants.symm,
          noEnergyLeft.trans noEnergy.symm]
        rfl
      have rewound : (program codec c).Same ((program codec c).advance sort n
            ⟨false, final, { last with plantCursor := m.plantCursor }⟩)
          ((program codec c).advance sort n ⟨false, final, last⟩) :=
        same_of_extinct m.plantCursor n wiredLast finalLaid extinct
      rw [← fields] at rewound
      exact rewound

end Runs

end Ecosystem

end Simulator
