import Simulator.WorldRestore

/-!
# When a failed restore leaves the world alone

`Harmless` says that everything `Restore` writes before it fails is already there.
-/

namespace Simulator

open SparseIndex FirstFailure ComponentStore EntityManager

variable {G : GoTypes}

def EntityManager.Canonical (m : EntityManager) : Prop :=
  m.sparse = rebuild m.versions.length m.keys ∧ m.count = m.dense.length

theorem EntityManager.Consistent.canonical {m : EntityManager}
    (valid : m.Consistent) : m.Canonical := by
  have back := valid.restore_snapshot
  unfold restore at back
  split at back
  · have eq := Option.some.inj back
    exact ⟨(congrArg sparse eq).symm, (congrArg count eq).symm⟩
  · cases back

theorem EntityManager.eq_restored_iff {m back : EntityManager}
    {s : EntityManagerState} (new : restore s = some back) :
    m = back ↔ s = m.snapshot ∧ m.Canonical := by
  constructor
  · rintro rfl
    refine ⟨(snapshot_of_restore new).symm, ?_⟩
    unfold restore at new
    split at new
    · have eq := Option.some.inj new
      rw [← eq]
      exact ⟨rfl, rfl⟩
    · cases new
  · rintro ⟨rfl, sparseEq, countEq⟩
    unfold restore at new
    split at new
    · cases new
      exact EntityManager.ext rfl sparseEq rfl rfl rfl countEq
    · cases new

structure Column.SameContents {α : Type} (first second : Column α) :
    Prop where
  dense : first.dense = second.dense
  data : first.data = second.data
  allocated : first.allocated = second.allocated
  place : ∀ e, first.place e = second.place e

inductive SameBinding :
    Option (BoundColumn G) → Option (BoundColumn G) → Prop
  | unbound : SameBinding none none
  | bound {t : G.Ty} {first second : Column (G.Value t)} : Column.SameContents first second →
        SameBinding (some ⟨t, first⟩) (some ⟨t, second⟩)

theorem SameBinding.refl (binding : Option (BoundColumn G)) : SameBinding binding binding := by
  cases binding with
  | none => exact .unbound
  | some col =>
    obtain ⟨t, col⟩ := col
    exact .bound ⟨rfl, rfl, rfl, fun _ => rfl⟩

namespace World

structure Unchanged (before after : World G) : Prop where
  entities : before.entities = after.entities
  names : before.components.names = after.components.names
  columns : ∀ id, SameBinding (before.components.cols id) (after.components.cols id)
  tags : before.tags = after.tags
  tagStore : before.tagStore = after.tagStore
  resources : ∀ t, before.resources.getResource t = after.resources.getResource t
  clock : before.clock = after.clock
  events : before.events = after.events
  metadata : before.metadata = after.metadata

theorem unchanged_iff {old after : World G} : Unchanged old after ↔
    old.entities = after.entities ∧ old.components.names = after.components.names ∧
      (∀ id, SameBinding (old.components.cols id) (after.components.cols id)) ∧
      (old.tags = after.tags ∧ old.tagStore = after.tagStore) ∧
      (∀ t, old.resources.getResource t = after.resources.getResource t) ∧
      old.clock = after.clock ∧ old.events = after.events ∧ old.metadata = after.metadata :=
  ⟨fun ⟨es, names, columns, tags, tagStore, resources, clock, events, metadata⟩ =>
      ⟨es, names, columns, ⟨tags, tagStore⟩, resources, clock, events, metadata⟩,
    fun ⟨es, names, columns, ⟨tags, tagStore⟩, resources, clock, events, metadata⟩ =>
      ⟨es, names, columns, tags, tagStore, resources, clock, events, metadata⟩⟩

theorem Unchanged.refl (w : World G) : Unchanged w w :=
  ⟨rfl, rfl, fun _ => .refl _, rfl, rfl, fun _ => rfl, rfl, rfl, rfl⟩

def EntitiesAgree (w : World G) (s : Snapshot) : Prop :=
  s.entities = w.entities.snapshot ∧ w.entities.Canonical

def ColumnsAgree (w : World G) (s : Snapshot) : Prop :=
  ∀ id column, (loaded (ComponentStore.restoreOne w.components.byName w.components.cols)
      s.components).reverse.lookup id = some column →
    SameBinding (w.components.cols id) (some column)

def TagsAgree (w : World G) (s : Snapshot) : Prop :=
  (s.tags.names = w.tags.names ∧ w.tags.byName = NameTable.numbering w.tags.names) ∧
  s.tags.sets = w.tagStore.sets

def ResourcesAgree (w : World G) (s : Snapshot) : Prop :=
  ∀ t, w.resources.getResource t = (loaded (ResourceRegistry.restoreOne w.resources.types)
      s.resources).reverse.dlookup t

def ClockAgrees (w : World G) (s : Snapshot) : Prop :=
  s.tick = w.clock.tick ∧ s.time = w.clock.time

def EventsAgree (w : World G) (s : Snapshot) : Prop :=
  (loaded (EventQueue.loadEvent w.payloadTypes) s.events.events).foldl
      (BinaryHeap.push eventLess) [] = w.events.heap ∧
    s.events.nextID = w.events.next ∧ s.events.seq = w.events.seq

def MetadataAgrees (w : World G) (s : Snapshot) : Prop :=
  s.simulationID = w.metadata.simulationID ∧ s.mode = w.metadata.mode.toText

def componentsFail (w : World G) (s : Snapshot) : Bool :=
  (failure (ComponentStore.restoreOne w.components.byName w.components.cols) s.components).isSome

def resourcesFail (w : World G) (s : Snapshot) : Bool :=
  (failure (ResourceRegistry.restoreOne w.resources.types) s.resources).isSome

def eventsFail (w : World G) (s : Snapshot) : Bool :=
  (failure (EventQueue.loadEvent w.payloadTypes) s.events.events).isSome

def Harmless (hash : Snapshot → String) (w : World G) (s : Snapshot) : Prop :=
  (∃ cause, w.accepts hash s = .error cause) ∨
  EntitiesAgree w s ∧ ColumnsAgree w s ∧
    (w.componentsFail s = true ∨ TagsAgree w s ∧ ResourcesAgree w s ∧
      (w.resourcesFail s = true ∨ ClockAgrees w s ∧ EventsAgree w s ∧
        (w.eventsFail s = true ∨ MetadataAgrees w s)))

section

variable (w : World G) (s : Snapshot)
include w s

theorem columns_restored_iff :
    (∀ id, SameBinding (w.components.cols id) ((w.components.restore s.components).1.cols id)) ↔
      ColumnsAgree w s := by
  have wrote : ∀ id, (w.components.restore s.components).1.cols id =
      ((loaded (restoreOne w.components.byName
        w.components.cols) s.components).reverse.lookup id).or (w.components.cols id) := by
    intro id
    rw [← foldl_write]
    simp only [ComponentStore.restore, ComponentStore.restoreFrom_eq]
  constructor
  · intro eq id col last
    have binding := eq id
    rw [wrote, last] at binding
    exact binding
  · intro agree id
    rw [wrote]
    cases last : (loaded (restoreOne w.components.byName
        w.components.cols) s.components).reverse.lookup id with
    | none => exact .refl _
    | some col => exact agree id col last

theorem tags_restored_iff : (w.tags = TagRegistry.restore s.tags.names ∧
        w.tagStore = TagStore.restore s.tags.sets) ↔ TagsAgree w s := by
  unfold TagsAgree
  constructor
  · rintro ⟨tagsEq, storeEq⟩
    rw [tagsEq, storeEq]
    exact ⟨⟨rfl, rfl⟩, rfl⟩
  · rintro ⟨⟨namesEq, byNameEq⟩, setsEq⟩
    refine ⟨TagRegistry.ext namesEq.symm ?_, TagStore.ext setsEq.symm⟩
    rw [byNameEq, ← namesEq]
    rfl

theorem resources_unchanged_iff : (∀ t, w.resources.getResource t =
        (w.resources.restore s.resources).1.getResource t) ↔
      ResourcesAgree w s := by
  unfold ResourcesAgree
  have wrote : ∀ t, (w.resources.restore s.resources).1.getResource t =
      (loaded (ResourceRegistry.restoreOne w.resources.types) s.resources).reverse.dlookup t := by
    intro t
    simp only [ResourceRegistry.restore, ResourceRegistry.getResource,
      ResourceRegistry.restoreFrom_eq_loaded, ResourceRegistry.lookup_foldl_insert]
    simp
  simp only [wrote]

theorem events_restored_iff :
    w.events = (EventQueue.restore w.payloadTypes s.events).1 ↔
      EventsAgree w s := by
  unfold EventsAgree EventQueue.restore
  rw [EventQueue.restoreFrom_eq_loaded]
  obtain ⟨nextEq, seqEq⟩ := EventQueue.counters_foldl_pushRaw
    (loaded (EventQueue.loadEvent w.payloadTypes) s.events.events)
    { EventQueue.new with next := s.events.nextID, seq := s.events.seq }
  have heapEq := EventQueue.heap_foldl_pushRaw
    (loaded (EventQueue.loadEvent w.payloadTypes) s.events.events)
    { EventQueue.new with next := s.events.nextID, seq := s.events.seq }
  constructor
  · intro eq
    refine ⟨?_, ?_, ?_⟩
    · rw [eq]
      exact heapEq.symm
    · rw [eq]
      exact nextEq.symm
    · rw [eq]
      exact seqEq.symm
  · rintro ⟨heap, next, seq⟩
    apply EventQueue.ext
    · exact heap.symm.trans heapEq.symm
    · exact next.symm.trans nextEq.symm
    · exact seq.symm.trans seqEq.symm

theorem componentsFail_eq :
    w.componentsFail s = (w.components.restore s.components).2.isSome := by
  simp only [componentsFail, ComponentStore.restore, ComponentStore.restoreFrom_eq]

theorem resourcesFail_eq :
    w.resourcesFail s = (w.resources.restore s.resources).2.isSome := by
  simp only [resourcesFail, ResourceRegistry.restore, ResourceRegistry.restoreFrom_eq_loaded]

theorem eventsFail_eq :
    w.eventsFail s = (EventQueue.restore w.payloadTypes s.events).2.isSome := by
  simp only [eventsFail, EventQueue.restore, EventQueue.restoreFrom_eq_loaded]

end

theorem unchanged_restoreComponents_iff {w : World G} {s : Snapshot}
    {mode : Mode} (modeOk : modeFromString s.mode = .ok mode) {entities : EntityManager}
    (replaced : EntityManager.restore s.entities = some entities) :
    Unchanged w (({ w with entities := entities } : World G).restoreComponents s mode).1 ↔
      EntitiesAgree w s ∧ ColumnsAgree w s ∧
        (w.componentsFail s = true ∨ TagsAgree w s ∧ ResourcesAgree w s ∧
          (w.resourcesFail s = true ∨ ClockAgrees w s ∧ EventsAgree w s ∧
            (w.eventsFail s = true ∨ MetadataAgrees w s))) := by
  have entitiesIff := EntityManager.eq_restored_iff (m := w.entities) replaced
  have namesEq : (w.components.restore s.components).1.names = w.components.names := rfl
  have columnsIff := columns_restored_iff w s
  have tagsIff := tags_restored_iff w s
  have resourcesIff := resources_unchanged_iff w s
  have eventsIff := events_restored_iff w s
  have clockIff : w.clock = Clock.set s.tick s.time ↔ ClockAgrees w s := by
    unfold ClockAgrees Clock.set
    rw [Clock.ext_iff, eq_comm, eq_comm (a := w.clock.time)]
  have metadataIff : w.metadata = { w.metadata with
      simulationID := s.simulationID, mode := mode } ↔
        MetadataAgrees w s := by
    have modeIff : s.mode = w.metadata.mode.toText ↔ w.metadata.mode = mode := by
      constructor
      · intro same
        rw [same, modeFromString_toText] at modeOk
        exact Except.ok.inj modeOk
      · intro same
        rw [same]
        unfold modeFromString at modeOk
        split at modeOk
        · cases modeOk; assumption
        · split at modeOk
          · cases modeOk; assumption
          · cases modeOk
    unfold MetadataAgrees
    rw [Metadata.ext_iff, modeIff]
    simp [eq_comm]
  rw [EntitiesAgree, componentsFail_eq, resourcesFail_eq, eventsFail_eq,
    ← entitiesIff, ← columnsIff]
  rcases restoreComponents_cases { w with entities := entities } s mode with
    ⟨cause, failed, ended⟩ | ⟨components, cause, failed, ended⟩ |
    ⟨components, resources, cause, failed, ended⟩ | ⟨components, resources, events, ended⟩
  · simp only at failed
    rw [ended, failed, unchanged_iff]
    simp [namesEq]
  · simp only at failed components
    rw [ended, failed, components, unchanged_iff]
    simp [namesEq, tagsIff, resourcesIff]
  · simp only at failed components resources
    rw [ended, failed, components, resources, unchanged_iff]
    simp [namesEq, tagsIff, resourcesIff, clockIff, eventsIff]
  · simp only at components resources events
    rw [ended, components, resources, events, unchanged_iff, overwrite]
    simp [namesEq, tagsIff, resourcesIff, clockIff, eventsIff, metadataIff]

theorem unchanged_restore_iff {hash : Snapshot → String}
    {w after : World G} {s : Snapshot} {outcome : Option WorldError}
    (restored : w.restore hash s = some (after, outcome)) :
    Unchanged w after ↔ Harmless hash w s := by
  unfold Harmless
  rcases restore_cases restored with ⟨cause, rejected, rfl, _⟩ |
      ⟨mode, entities, accepted, replaced, rest⟩
  · exact ⟨fun _ => .inl ⟨cause, rejected⟩, fun _ => .refl _⟩
  · have modeOk := (accepts_eq_ok_iff.mp accepted).2.2.2.2
    have stages := unchanged_restoreComponents_iff (w := w) modeOk replaced
    rw [rest] at stages
    rw [stages, accepted]
    constructor
    · exact .inr
    · rintro (⟨cause, impossible⟩ | agree)
      · cases impossible
      · exact agree

end World

/-- The errors of `Simulation.Restore`. -/
inductive RestoreError
  | alreadyRunning
  | world (cause : WorldError)
  | modelConfig (detail : String)
deriving DecidableEq

def RestoreError.message : RestoreError → String
  | .alreadyRunning => "simulation: already running"
  | .world cause => cause.message
  | .modelConfig detail => "simulation: restore model config: " ++ detail

/-- What `Simulation.Restore` reads and writes: whether the state is running,
the world and the model's own fields. -/
structure RestorableSimulation (G : GoTypes) (M : Type) where
  running : Bool
  world : World G
  model : M

/-- `Simulation.Restore`.  A model that keeps its configuration in snapshots
brings its `RestoreConfig`. -/
def RestorableSimulation.restore {M : Type} (hash : Snapshot → String)
    (restoreConfig : Option (Json → M → M × Option String))
    (sim : RestorableSimulation G M) (s : Snapshot) :
    Option (RestorableSimulation G M × Option RestoreError) :=
  if sim.running then
    some (sim, some .alreadyRunning)
  else
    match sim.world.restore hash s with
    | none => none
    | some (world, some cause) =>
      some ({ sim with world := world }, some (.world cause))
    | some (world, none) =>
      match restoreConfig, s.modelConfig with
      | some load, some config =>
        match load config sim.model with
        | (model, some detail) =>
          some ({ sim with world := world, model := model }, some (.modelConfig detail))
        | (model, none) =>
          some ({ sim with world := world, model := model }, none)
      | _, _ => some ({ sim with world := world }, none)

theorem RestorableSimulation.world_restored {M : Type} {hash : Snapshot → String}
    {restoreConfig : Option (Json → M → M × Option String)}
    {sim after : RestorableSimulation G M} {s : Snapshot}
    {out : Option RestoreError} (idle : sim.running = false)
    (back : sim.restore hash restoreConfig s = some (after, out)) :
    ∃ cause, sim.world.restore hash s = some (after.world, cause) := by
  unfold restore at back
  rw [if_neg (by simp [idle])] at back
  split at back
  · cases back
  · rename_i world cause ended
    cases back
    exact ⟨some cause, ended⟩
  · rename_i world ended
    split at back
    · split at back <;>
      · cases back
        exact ⟨none, ended⟩
    · cases back
      exact ⟨none, ended⟩

theorem failed_restore_unchanged_iff (hash : Snapshot → String) :
    (∀ (w after : World G) (s : Snapshot) (cause : WorldError),
      w.restore hash s = some (after, some cause) →
        (World.Unchanged w after ↔ World.Harmless hash w s)) ∧
    ∀ (M : Type) (restoreConfig : Option (Json → M → M × Option String))
      (sim after : RestorableSimulation G M) (s : Snapshot) (cause : RestoreError),
      sim.restore hash restoreConfig s = some (after, some cause) →
        (World.Unchanged sim.world after.world ↔
          sim.running = true ∨ World.Harmless hash sim.world s) := by
  refine ⟨fun w after s cause back =>
    World.unchanged_restore_iff back, ?_⟩
  intro M restoreConfig sim after s cause back
  cases busy : sim.running with
  | true =>
    rw [RestorableSimulation.restore, if_pos busy] at back
    cases back
    exact ⟨fun _ => .inl rfl, fun _ => .refl _⟩
  | false =>
    obtain ⟨_, ended⟩ := RestorableSimulation.world_restored busy back
    simp [World.unchanged_restore_iff ended]

def ghostSnapshot : Snapshot :=
  (World.new (World.sampleMetadata "a") : World flagTypes).capture
    [⟨"ghost", [], some .null⟩] [] ⟨[], 0, 0⟩

theorem failed_restore_drops_entities :
    ∃ after, (World.sampleWorld "a" (World.sampleSetup ++ World.sampleRun)).restore
          (fun _ => "") ghostSnapshot = some (after, some (.component (.unknown "ghost"))) ∧
      ¬ World.Unchanged (World.sampleWorld "a" (World.sampleSetup ++ World.sampleRun))
        after := by
  refine ⟨_, rfl, fun eq => ?_⟩
  have lengthEq := congrArg (fun m => m.dense.length) eq.entities
  exact absurd lengthEq (by decide)

theorem failed_restore_keeps_empty :
    ∃ after, (World.new (World.sampleMetadata "a") : World flagTypes).restore
          (fun _ => "") ghostSnapshot = some (after, some (.component (.unknown "ghost"))) ∧
      World.Unchanged (World.new (World.sampleMetadata "a")) after := by
  refine ⟨_, rfl, ?_⟩
  refine ((failed_restore_unchanged_iff (fun _ => "")).1 _ _ ghostSnapshot
    (.component (.unknown "ghost")) rfl).mpr (.inr ⟨?_, ?_, .inl rfl⟩)
  · exact ⟨rfl, consistent_new.canonical⟩
  · intro id col last
    cases last

end Simulator
