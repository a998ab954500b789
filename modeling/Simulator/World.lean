import Simulator.ComponentStore
import Simulator.EventQueue
import Simulator.Resources
import Simulator.Tags

/-!
# The world, its snapshots and their restore

`World.restore` overwrites the parts one after the other, so an error in the middle leaves
some replaced.  The hash of the canonical JSON form is a parameter.
-/

namespace Simulator

/-- `model.Mode` -/
inductive Mode
  | tick
  | event
deriving DecidableEq, Repr

/-- `Mode.String` -/
def Mode.toText : Mode → String
  | .tick => "tick"
  | .event => "event"

/-- `Metadata` of a running simulation -/
@[ext]
structure Metadata where
  simulationID : String
  modelID : String
  modelVersion : String
  seed : UInt64
  mode : Mode
deriving DecidableEq

@[ext]
structure Clock where
  tick : UInt64
  time : Float64
deriving DecidableEq

namespace Clock

/-- `NewClock` -/
def new : Clock :=
  ⟨0, .zero⟩

def advance (c : Clock) : Clock :=
  { c with tick := c.tick + 1 }

def advanceTime (c : Clock) (t : Float64) : Clock :=
  { c with time := t }

def set (tick : UInt64) (t : Float64) : Clock :=
  ⟨tick, t⟩

end Clock

/-- `World`.  Every payload type is registered under its own name. -/
structure World (G : GoTypes) where
  entities : EntityManager
  components : ComponentStore G
  resources : ResourceRegistry G
  tags : TagRegistry
  tagStore : TagStore
  events : EventQueue G
  clock : Clock
  randomSeed : UInt64
  metadata : Metadata
  revision : UInt64
  payloadTypes : String → Option G.Ty
  payloadNamed : ∀ name t, payloadTypes name = some t → G.typeName t = name

@[ext]
structure TagSnapshot where
  names : List String
  sets : EntityID → Option (List UInt64)

@[ext]
structure Snapshot where
  schemaVersion : Int
  engineVersion : String
  checksum : String
  simulationID : String
  modelID : String
  modelVersion : String
  seed : UInt64
  mode : String
  tick : UInt64
  time : Float64
  entities : EntityManagerState
  components : List ComponentSnapshot
  tags : TagSnapshot
  resources : List ResourceSnapshot
  modelConfig : RawMessage
  events : EventQueueState

/-- `EngineVersion` -/
def currentEngineVersion : String :=
  "0.1.0"

def snapshotSchemaVersion : Int :=
  1

/-- The errors of `Snapshot` and `Restore`. -/
inductive WorldError
  | schemaVersion (found : Int)
  | engineVersion (found : String)
  | encode (detail : String)
  | checksumMismatch
  | modelMismatch (snapID snapVersion worldID worldVersion : String)
  | seedMismatch (snap world : UInt64)
  | unknownMode (found : String)
  | component (cause : ComponentError)
  | resource (cause : ResourceError)
  | payload (cause : PayloadError)
deriving DecidableEq

def WorldError.message : WorldError → String
  | .schemaVersion found =>
    "simulation: snapshot schema version " ++ toString found ++
      " unsupported (want " ++ toString snapshotSchemaVersion ++ ")"
  | .engineVersion found =>
    "simulation: snapshot engine version " ++ found.quote ++
      " unsupported (want " ++ currentEngineVersion.quote ++ ")"
  | .encode detail => detail
  | .checksumMismatch => "simulation: snapshot checksum mismatch (corrupted)"
  | .modelMismatch snapID snapVersion worldID worldVersion =>
    "simulation: snapshot model " ++ snapID ++ "@" ++ snapVersion ++
      " does not match world model " ++ worldID ++ "@" ++ worldVersion
  | .seedMismatch snap world =>
    "simulation: snapshot seed " ++ toString snap ++ " does not match world seed " ++ toString world
  | .unknownMode found =>
    "simulation: snapshot has unknown mode " ++ found.quote
  | .component cause => cause.message
  | .resource cause => cause.message
  | .payload cause => cause.message

namespace Snapshot

def times (s : Snapshot) : List Float64 :=
  s.time :: s.events.events.map EventSnapshot.time

/-- `computeChecksum`, with the hash of the encoded clone as a parameter -/
def computeChecksum (hash : Snapshot → String) (s : Snapshot) : Except String String :=
  match s.times.find? fun time => !time.isFinite with
  | some time =>
    .error ("json: unsupported value: " ++ time.unsupportedText)
  | none => .ok (hash { s with checksum := "" })

def validate (hash : Snapshot → String) (s : Snapshot) : Except WorldError Unit :=
  if s.schemaVersion ≠ snapshotSchemaVersion then
    .error (.schemaVersion s.schemaVersion)
  else if s.engineVersion ≠ currentEngineVersion then
    .error (.engineVersion s.engineVersion)
  else
    match s.computeChecksum hash with
    | .error detail => .error (.encode detail)
    | .ok want =>
      if s.checksum ≠ want then .error .checksumMismatch else .ok ()

def withChecksum (hash : Snapshot → String) (s : Snapshot) : Except WorldError Snapshot :=
  match s.computeChecksum hash with
  | .error detail => .error (.encode detail)
  | .ok checksum => .ok { s with checksum := checksum }

end Snapshot

def modeFromString (text : String) : Except WorldError Mode :=
  if text = "tick" then .ok .tick
  else if text = "event" then .ok .event
  else .error (.unknownMode text)

namespace World

variable {G : GoTypes}

theorem none_named (name : String) (t : G.Ty) (no : none = some t) : G.typeName t = name := by
  cases no

/-- `NewWorld`, with the provenance `New` records -/
def new (metadata : Metadata) : World G where
  entities := .new
  components := .new
  resources := .new
  tags := .new
  tagStore := .new
  events := .new
  clock := .new
  randomSeed := metadata.seed
  metadata := metadata
  revision := 0
  payloadTypes := fun _ => none
  payloadNamed := none_named

def registerPayloadType (w : World G) (t : G.Ty) : World G :=
  { w with
    payloadTypes := Function.update w.payloadTypes (G.typeName t) (some t)
    payloadNamed := by
      intro name other found
      by_cases same : name = G.typeName t
      · subst same
        rw [Function.update_self] at found
        rw [Option.some.inj found]
      · rw [Function.update_of_ne same] at found
        exact w.payloadNamed name other found }

def capture (w : World G) (components : List ComponentSnapshot)
    (resources : List ResourceSnapshot) (events : EventQueueState) :
    Snapshot where
  schemaVersion := snapshotSchemaVersion
  engineVersion := currentEngineVersion
  checksum := ""
  simulationID := w.metadata.simulationID
  modelID := w.metadata.modelID
  modelVersion := w.metadata.modelVersion
  seed := w.metadata.seed
  mode := w.metadata.mode.toText
  tick := w.clock.tick
  time := w.clock.time
  entities := w.entities.snapshot
  components := components
  tags := ⟨w.tags.snapshot, w.tagStore.snapshot⟩
  resources := resources
  modelConfig := none
  events := events

def snapshot (hash : Snapshot → String) (order : MapOrder G.Any)
    (w : World G) : Except WorldError Snapshot :=
  match w.components.snapshot with
  | .error cause => .error (.component cause)
  | .ok components =>
    match w.resources.snapshot order with
    | .error cause => .error (.resource cause)
    | .ok resources =>
      match w.events.snapshot w.payloadTypes with
      | .error detail => .error (.encode detail)
      | .ok events => (w.capture components resources events).withChecksum hash

/-- The checks of `Restore` before it writes anything. -/
def accepts (hash : Snapshot → String) (w : World G) (s : Snapshot) : Except WorldError Mode :=
  match s.validate hash with
  | .error cause => .error cause
  | .ok () =>
    if s.modelID ≠ w.metadata.modelID ∨ s.modelVersion ≠ w.metadata.modelVersion
    then
      .error (.modelMismatch s.modelID s.modelVersion w.metadata.modelID w.metadata.modelVersion)
    else if s.seed ≠ w.metadata.seed then
      .error (.seedMismatch s.seed w.metadata.seed)
    else
      modeFromString s.mode

/-- The end of `Restore`: events, provenance and revision. -/
def restoreEvents (w : World G) (s : Snapshot) (mode : Mode) : World G × Option WorldError :=
  match EventQueue.restore w.payloadTypes s.events with
  | (events, some cause) => ({ w with events := events }, some (.payload cause))
  | (events, none) =>
    ({ w with
        events := events
        metadata := { w.metadata with
          simulationID := s.simulationID
          mode := mode }
        revision := w.revision + 1 }, none)

/-- `Restore` from the resources on. -/
def restoreResources (w : World G) (s : Snapshot) (mode : Mode) : World G × Option WorldError :=
  match w.resources.restore s.resources with
  | (resources, some cause) =>
    ({ w with resources := resources }, some (.resource cause))
  | (resources, none) =>
    { w with
      resources := resources
      clock := .set s.tick s.time }.restoreEvents s mode

/-- `Restore` from the components on. -/
def restoreComponents (w : World G) (s : Snapshot) (mode : Mode) : World G × Option WorldError :=
  match w.components.restore s.components with
  | (components, some cause) =>
    ({ w with components := components }, some (.component cause))
  | (components, none) =>
    { w with
      components := components
      tags := .restore s.tags.names
      tagStore := .restore s.tags.sets }.restoreResources s mode

/-- `Restore`.  `none` is the panic of the entity manager on a malformed
snapshot; otherwise the world afterwards and the error returned. -/
def restore (hash : Snapshot → String) (w : World G) (s : Snapshot) :
    Option (World G × Option WorldError) :=
  match w.accepts hash s with
  | .error cause => some (w, some cause)
  | .ok mode =>
    match EntityManager.restore s.entities with
    | none => none
    | some entities =>
      some ({ w with entities := entities }.restoreComponents s mode)

end World

end Simulator
