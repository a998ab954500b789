import Simulator.WorldOperations

/-!
# What a restore does to a world

Which parts each failing stage has already replaced, and what success leaves.
-/

namespace Simulator

open List ComponentStore Snapshot

variable {G : GoTypes}

theorem modeFromString_toText (mode : Mode) : modeFromString mode.toText = .ok mode := by
  cases mode <;> decide

namespace Snapshot

variable {hash : Snapshot → String} {s : Snapshot}

theorem computeChecksum_eq_ok
    {checksum : String} (computed : s.computeChecksum hash = .ok checksum) :
    checksum = hash { s with checksum := "" } ∧ ∀ time ∈ s.times, time.isFinite = true := by
  unfold computeChecksum at computed
  split at computed
  · cases computed
  · rename_i missing
    cases computed
    refine ⟨rfl, fun time mem => ?_⟩
    have finite := find?_eq_none.mp missing time mem
    simpa using finite

theorem validate_eq_ok (schema : s.schemaVersion = snapshotSchemaVersion)
    (engine : s.engineVersion = currentEngineVersion)
    (checksum : s.checksum = hash { s with checksum := "" })
    (finite : ∀ time ∈ s.times, time.isFinite = true) : s.validate hash = .ok () := by
  have computed : s.computeChecksum hash = .ok s.checksum := by
    unfold computeChecksum
    rw [find?_eq_none.mpr (by simpa using finite), checksum]
  unfold validate
  rw [if_neg (not_not.mpr schema), if_neg (not_not.mpr engine), computed]
  simp

end Snapshot

namespace World

structure CapturedBy (order : MapOrder G.Any) (w : World G) (s : Snapshot) :
    Prop where
  schemaVersion : s.schemaVersion = snapshotSchemaVersion
  engineVersion : s.engineVersion = currentEngineVersion
  simulationID : s.simulationID = w.metadata.simulationID
  modelID : s.modelID = w.metadata.modelID
  modelVersion : s.modelVersion = w.metadata.modelVersion
  seed : s.seed = w.metadata.seed
  mode : s.mode = w.metadata.mode.toText
  tick : s.tick = w.clock.tick
  time : s.time = w.clock.time
  entities : s.entities = w.entities.snapshot
  components : w.components.snapshot = .ok s.components
  tagNames : s.tags.names = w.tags.snapshot
  tagSets : s.tags.sets = w.tagStore.snapshot
  resources : w.resources.snapshot order = .ok s.resources
  events : w.events.snapshot w.payloadTypes = .ok s.events

variable {order : MapOrder G.Any} {w : World G} {s : Snapshot} {hash : Snapshot → String}
  {after : World G}

theorem CapturedBy.withConfig (took : CapturedBy order w s)
    (modelConfig : RawMessage) (checksum : String) :
    CapturedBy order w
      { s with modelConfig := modelConfig, checksum := checksum } :=
  ⟨took.schemaVersion, took.engineVersion, took.simulationID,
    took.modelID, took.modelVersion, took.seed, took.mode,
    took.tick, took.time, took.entities, took.components,
    took.tagNames, took.tagSets, took.resources, took.events⟩

theorem snapshot_eq_ok (took : w.snapshot hash order = .ok s) :
    CapturedBy order w s ∧ s.modelConfig = none ∧ s.checksum = hash { s with checksum := "" } ∧
      ∀ time ∈ s.times, time.isFinite = true := by
  unfold snapshot at took
  split at took
  · cases took
  · rename_i comps componentsOk
    split at took
    · cases took
    · rename_i resources resourcesOk
      split at took
      · cases took
      · rename_i es eventsOk
        unfold withChecksum at took
        split at took
        · cases took
        · rename_i checksum computed
          cases took
          obtain ⟨checksumEq, finite⟩ := computeChecksum_eq_ok computed
          exact ⟨⟨rfl, rfl, rfl, rfl, rfl, rfl, rfl, rfl, rfl, rfl,
            componentsOk, rfl, rfl, resourcesOk, eventsOk⟩, rfl, checksumEq, finite⟩

theorem snapshot_of_captured (took : CapturedBy order w s) (noConfig : s.modelConfig = none)
    (checksum : s.checksum = hash { s with checksum := "" })
    (finite : ∀ time ∈ s.times, time.isFinite = true) : w.snapshot hash order = .ok s := by
  have cleared : w.capture s.components s.resources s.events =
      { s with checksum := "" } := by
    apply Snapshot.ext
    · exact took.schemaVersion.symm
    · exact took.engineVersion.symm
    · rfl
    · exact took.simulationID.symm
    · exact took.modelID.symm
    · exact took.modelVersion.symm
    · exact took.seed.symm
    · exact took.mode.symm
    · exact took.tick.symm
    · exact took.time.symm
    · exact took.entities.symm
    · rfl
    · exact TagSnapshot.ext took.tagNames.symm took.tagSets.symm
    · rfl
    · exact noConfig.symm
    · rfl
  have computed : ({ s with checksum := "" } : Snapshot).computeChecksum hash = .ok s.checksum := by
    unfold computeChecksum
    rw [find?_eq_none.mpr (by simpa [times] using finite), checksum]
  simp only [snapshot, took.components, took.resources,
    took.events, cleared, withChecksum, computed]

theorem timed_of_captured (took : CapturedBy order w s)
    (finite : ∀ time ∈ s.times, time.isFinite = true) : ∀ e ∈ w.events.heap, Timed e := by
  obtain ⟨all, _⟩ := EventQueue.snapshot_eq_ok took.events
  intro e mem
  have related := all.flip
  obtain ⟨es, inEvents, taken⟩ := exists_of_mem_right related mem
  have eventEq := (EventQueue.snapshotEvent_eq_ok taken).2
  have timeEq : es.time = e.time := congrArg Event.time eventEq
  apply Float64.not_isNaN_of_isFinite
  rw [← timeEq]
  exact finite _ (mem_cons_of_mem _ (mem_map_of_mem inEvents))

variable {mode : Mode} {out : Option WorldError}

theorem accepts_eq_ok_iff :
    w.accepts hash s = .ok mode ↔ s.validate hash = .ok () ∧ s.modelID = w.metadata.modelID ∧
        s.modelVersion = w.metadata.modelVersion ∧
        s.seed = w.metadata.seed ∧ modeFromString s.mode = .ok mode := by
  unfold accepts
  cases valid : s.validate hash with
  | error cause => simp
  | ok _ =>
    by_cases model : s.modelID ≠ w.metadata.modelID ∨ s.modelVersion ≠ w.metadata.modelVersion
    · simp only [if_pos model]
      constructor
      · intro no
        cases no
      · rintro ⟨_, sameID, sameVersion, _⟩
        exact absurd sameVersion (model.resolve_left (by simpa using sameID))
    · have eq := not_or.mp model
      rw [not_not, not_not] at eq
      by_cases seed : s.seed = w.metadata.seed
      · simp [eq.1, eq.2, seed]
      · simp [eq.1, eq.2, seed]

theorem restore_cases (restored : w.restore hash s = some (after, out)) :
    (∃ cause, w.accepts hash s = .error cause ∧ after = w ∧ out = some cause) ∨
      ∃ mode entities, w.accepts hash s = .ok mode ∧
        EntityManager.restore s.entities = some entities ∧
        ({ w with entities := entities } : World G).restoreComponents s mode = (after, out) := by
  unfold restore at restored
  split at restored
  · rename_i cause rejected
    cases restored
    exact .inl ⟨cause, rejected, rfl, rfl⟩
  · rename_i mode accepted
    split at restored
    · cases restored
    · rename_i entities replaced
      exact .inr ⟨mode, entities, accepted, replaced, Option.some.inj restored⟩

def overwrite (w : World G) (s : Snapshot) (mode : Mode) : World G :=
  { w with
    components := (w.components.restore s.components).1
    tags := .restore s.tags.names
    tagStore := .restore s.tags.sets
    resources := (w.resources.restore s.resources).1
    clock := .set s.tick s.time
    events := (EventQueue.restore w.payloadTypes s.events).1
    metadata := { w.metadata with
      simulationID := s.simulationID
      mode := mode }
    revision := w.revision + 1 }

theorem restoreComponents_cases (w : World G) (s : Snapshot) (mode : Mode) :
    (∃ cause, (w.components.restore s.components).2 = some cause ∧ w.restoreComponents s mode =
        ({ w with components := (w.components.restore s.components).1 }, some (.component cause))) ∨
    ((w.components.restore s.components).2 = none ∧
      ∃ cause, (w.resources.restore s.resources).2 = some cause ∧ w.restoreComponents s mode =
        ({ w with
            components := (w.components.restore s.components).1
            tags := .restore s.tags.names
            tagStore := .restore s.tags.sets
            resources := (w.resources.restore s.resources).1 },
          some (.resource cause))) ∨
    ((w.components.restore s.components).2 = none ∧ (w.resources.restore s.resources).2 = none ∧
      ∃ cause, (EventQueue.restore w.payloadTypes s.events).2 = some cause ∧
      w.restoreComponents s mode =
        ({ w with
            components := (w.components.restore s.components).1
            tags := .restore s.tags.names
            tagStore := .restore s.tags.sets
            resources := (w.resources.restore s.resources).1
            clock := .set s.tick s.time
            events := (EventQueue.restore w.payloadTypes s.events).1 },
          some (.payload cause))) ∨
    ((w.components.restore s.components).2 = none ∧ (w.resources.restore s.resources).2 = none ∧
      (EventQueue.restore w.payloadTypes s.events).2 = none ∧
      w.restoreComponents s mode = (w.overwrite s mode, none)) := by
  unfold restoreComponents overwrite
  cases first : w.components.restore s.components with
  | mk components componentOutcome =>
    cases componentOutcome with
    | some cause => exact .inl ⟨cause, rfl, rfl⟩
    | none =>
      right
      cases second : w.resources.restore s.resources with
      | mk resources resourceOutcome =>
        cases resourceOutcome with
        | some cause =>
          exact .inl ⟨rfl, cause, rfl, by simp only [restoreResources, second]⟩
        | none =>
          right
          cases third : EventQueue.restore w.payloadTypes s.events with
          | mk events eventOutcome =>
            cases eventOutcome with
            | some cause =>
              exact .inl ⟨rfl, rfl, cause, rfl, by
                simp only [restoreResources, second, restoreEvents, third]⟩
            | none =>
              exact .inr ⟨rfl, rfl, rfl, by
                simp only [restoreResources, second, restoreEvents, third]⟩

theorem restore_eq_success (restored : w.restore hash s = some (after, none)) :
    ∃ mode entities, w.accepts hash s = .ok mode ∧
      EntityManager.restore s.entities = some entities ∧
      (w.components.restore s.components).2 = none ∧ (w.resources.restore s.resources).2 = none ∧
      (EventQueue.restore w.payloadTypes s.events).2 = none ∧
      after = ({ w with entities := entities } : World G).overwrite s mode := by
  rcases restore_cases restored with ⟨cause, _, _, impossible⟩ |
      ⟨mode, entities, accepted, replaced, rest⟩
  · cases impossible
  · refine ⟨mode, entities, accepted, replaced, ?_⟩
    rcases restoreComponents_cases { w with entities := entities } s mode with
      ⟨cause, _, failed⟩ | ⟨_, cause, _, failed⟩ | ⟨_, _, cause, _, failed⟩ |
      ⟨components, resources, events, ended⟩
    · rw [failed] at rest; cases rest
    · rw [failed] at rest; cases rest
    · rw [failed] at rest; cases rest
    · rw [ended] at rest
      cases rest
      exact ⟨components, resources, events, rfl⟩

theorem restore_of_stages {entities : EntityManager} (accepted : w.accepts hash s = .ok mode)
    (replaced : EntityManager.restore s.entities = some entities)
    (components : (w.components.restore s.components).2 = none)
    (resources : (w.resources.restore s.resources).2 = none)
    (events : (EventQueue.restore w.payloadTypes s.events).2 = none) :
    w.restore hash s = some (({ w with entities := entities } : World G).overwrite s mode,
        none) := by
  simp only [restore, accepted, replaced]
  congr 1
  rcases restoreComponents_cases { w with entities := entities } s mode with
    ⟨cause, failed, _⟩ | ⟨_, cause, failed, _⟩ | ⟨_, _, cause, failed, _⟩ | ⟨_, _, _, ended⟩
  · rw [components] at failed; cases failed
  · rw [resources] at failed; cases failed
  · rw [events] at failed; cases failed
  · exact ended

theorem restoreComponents_parts (w : World G) (s : Snapshot) (mode : Mode) :
    (w.restoreComponents s mode).1.entities = w.entities ∧
      (w.restoreComponents s mode).1.components = (w.components.restore s.components).1 ∧
      ((w.restoreComponents s mode).1.tags = w.tags ∨ (w.restoreComponents s mode).1.tags =
          .restore s.tags.names) := by
  rcases restoreComponents_cases w s mode with
    ⟨cause, _, ended⟩ | ⟨_, cause, _, ended⟩ | ⟨_, _, cause, _, ended⟩ |
    ⟨_, _, _, ended⟩ <;> rw [ended]
  · exact ⟨rfl, rfl, .inl rfl⟩
  · exact ⟨rfl, rfl, .inr rfl⟩
  · exact ⟨rfl, rfl, .inr rfl⟩
  · exact ⟨rfl, rfl, .inr rfl⟩

theorem Sound.restore {origin : World G}
    (sound : w.Sound) (originSound : origin.Sound) (captured : CapturedBy order origin s)
    (restored : w.restore hash s = some (after, out)) : after.Sound := by
  rcases restore_cases restored with ⟨_, _, rfl, _⟩ | ⟨mode, entities, _, replaced, rest⟩
  · exact sound
  obtain ⟨entitiesEq, componentsEq, tagsEq⟩ :=
    restoreComponents_parts { w with entities := entities } s mode
  rw [rest] at entitiesEq componentsEq tagsEq
  simp only at entitiesEq componentsEq tagsEq
  refine ⟨?_, ?_, ?_⟩
  · intro small
    rw [entitiesEq] at small ⊢
    have same := EntityManager.snapshot_of_restore replaced
    rw [captured.entities] at same replaced
    have versionsEq : entities.versions = origin.entities.versions :=
      congrArg EntityManagerState.versions same
    rw [versionsEq] at small
    have consistent := originSound.entities small
    rw [consistent.restore_snapshot] at replaced
    cases replaced
    exact consistent
  · intro id column held
    rw [componentsEq] at held
    refine restoreFrom_keeps ?_ sound.columns id column held
    intro snap member t fresh decoded
    obtain ⟨_, _, source, bound, denseEq⟩ := entities_of_snapshot captured.components member
    apply Column.consistent_of_restoreJSON _ decoded
    rw [denseEq]
    exact SparseIndex.Indexes.nodup (originSound.columns _ _ bound)
  · rcases tagsEq with same | restoredTags
    · rw [same]
      exact sound.tags
    · rw [restoredTags, captured.tagNames, originSound.tags.restore_snapshot]
      exact originSound.tags

theorem Reachable.sound {sort : SortSlice (Event G)}
    (reachable : Reachable hash sort w) : w.Sound := by
  induction reachable with
  | new metadata => exact sound_new metadata
  | run _ ran ih => exact ih.run ran
  | restore modelConfig checksum _ _ took back ih originIh =>
    obtain ⟨parts, _⟩ := snapshot_eq_ok took
    exact ih.restore originIh (parts.withConfig _ _) back

end World

end Simulator
