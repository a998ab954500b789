import Simulator.Resumption
import Simulator.SnapshotDocuments

/-!
# Snapshots in the database

The checksum covers raw messages with their keys in the order they were written in.
-/

namespace Simulator

open Json List Snapshot

namespace Snapshot

def rawMessages (s : Snapshot) : List Json :=
  s.components.map (fun c => c.values.getD .null) ++
    s.resources.map (fun r => r.value.getD .null) ++
    s.events.events.filterMap EventSnapshot.payload ++ s.modelConfig.toList

def hashWith (format : JsonFormat) (digest : Json → String) (s : Snapshot) : String :=
  digest (s.document format)

end Snapshot

namespace Persistence

structure SnapshotInfo where
  id : String
  simulationID : String
  schemaVersion : Int
  engineVersion : String
  data : Json
  checksum : String

inductive InsertError
  | duplicateKey (id : String)
  | missingSimulation (id : String)
deriving DecidableEq

/-- The table `snapshots`, with the simulations it may refer to. -/
structure Snapshots where
  rows : List SnapshotInfo
  simulations : List String
  keys : (rows.map SnapshotInfo.id).Nodup

namespace Snapshots

def saveSnapshot (table : Snapshots) (info : SnapshotInfo) : Except InsertError Snapshots :=
  if taken : info.id ∈ table.rows.map SnapshotInfo.id then
    .error (.duplicateKey info.id)
  else if info.simulationID ∉ table.simulations then
    .error (.missingSimulation info.simulationID)
  else
    .ok { table with
      rows := info :: table.rows
      keys := List.nodup_cons.mpr ⟨taken, table.keys⟩ }

/-- `GetSnapshot`, with the column that holds the documents -/
def getSnapshot (column : DocumentColumn) (table : Snapshots) (id : String) : Option SnapshotInfo :=
  (table.rows.find? fun info => info.id = id).map fun info =>
    { info with data := column.stored info.data }

theorem getSnapshot_saved {column : DocumentColumn} {table after : Snapshots}
    {info : SnapshotInfo} (saved : table.saveSnapshot info = .ok after) :
    after.getSnapshot column info.id = some { info with data := column.stored info.data } := by
  unfold saveSnapshot at saved
  split at saved
  · cases saved
  · split at saved
    · cases saved
    · cases saved
      simp [getSnapshot]

end Snapshots

end Persistence

/-- The errors of `Manager.Snapshot` once the simulation is found. -/
inductive PersistError
  | snapshot (cause : SnapshotError)
  | encode (detail : String)
  | store (cause : Persistence.InsertError)

namespace ModelProgram

variable {G : GoTypes} {model : ModelProgram G}

/-- `Manager.Snapshot` of a simulation, with the ID `newID` returns -/
def saveSnapshot (format : JsonFormat) (digest : Json → String)
    (order : MapOrder G.Any) (newID id : String) (sim : model.Sim) (table : Persistence.Snapshots) :
    Except PersistError (Snapshot × Persistence.Snapshots) :=
  match snapshot (Snapshot.hashWith format digest) order sim with
  | .error cause => .error (.snapshot cause)
  | .ok snap =>
    match snap.marshal format with
    | .error detail => .error (.encode detail)
    | .ok data =>
      match table.saveSnapshot ⟨newID, id, snap.schemaVersion.bmod (2 ^ 32), snap.engineVersion,
            data, snap.checksum⟩ with
      | .error cause => .error (.store cause)
      | .ok table => .ok (snap, table)

end ModelProgram

variable {α : Type} {xs : List α}

theorem Json.slice_eq_iff {write other : α → Json} :
    slice write xs = slice other xs ↔ ∀ x ∈ xs, write x = other x := by
  cases xs with
  | nil => simp [slice]
  | cons x rest =>
    simp only [slice, Json.array.injEq, ← map_cons, map_inj_left]

theorem Json.slice_map {β : Type} {write : β → Json} {f : α → β} :
    slice write (xs.map f) = slice (fun x => write (f x)) xs := by
  cases xs with
  | nil => rfl
  | cons element rest => simp [slice]

namespace Snapshot

variable {column : DocumentColumn} (format : JsonFormat)

theorem struct_component_stored_iff {c : ComponentSnapshot} :
    struct (c.stored column).members = struct c.members ↔
      column.stored (c.values.getD .null) = c.values.getD .null := by
  simp [struct, present, ComponentSnapshot.members, ComponentSnapshot.stored]

theorem struct_resource_stored_iff {r : ResourceSnapshot} :
    struct (r.stored column).members = struct r.members ↔
      column.stored (r.value.getD .null) = r.value.getD .null := by
  simp [struct, present, ResourceSnapshot.members, ResourceSnapshot.stored]

theorem struct_event_stored_iff {e : EventSnapshot} :
    struct ((e.stored column).members format) = struct (e.members format) ↔
      ∀ raw, e.payload = some raw → column.stored raw = raw := by
  cases payload : e.payload <;>
    simp [struct, present, EventSnapshot.members, EventSnapshot.stored, payload]

theorem struct_events_stored_iff {q : EventQueueState} :
    struct ((q.stored column).members format) = struct (q.members format) ↔
      ∀ e ∈ q.events, ∀ raw, e.payload = some raw → column.stored raw = raw := by
  simp [struct, present, EventQueueState.members, EventQueueState.stored,
    ← struct_event_stored_iff format]

theorem document_stored_eq_iff {s : Snapshot} :
    (s.stored column).document format = s.document format ↔
      ∀ raw ∈ s.rawMessages, column.stored raw = raw := by
  have config : (∀ raw, s.modelConfig = some raw → column.stored raw = raw) ↔
      s.modelConfig.map column.stored = s.modelConfig := by
    cases s.modelConfig <;> simp
  have parts : (s.stored column).document format = s.document format ↔ (∀ c ∈ s.components,
          struct (c.stored column).members = struct c.members) ∧ (∀ r ∈ s.resources,
          struct (r.stored column).members = struct r.members) ∧
        s.modelConfig.map column.stored = s.modelConfig ∧
        struct ((s.events.stored column).members format) = struct (s.events.members format) := by
    rw [← Json.slice_eq_iff, ← map_inj_left]
    change Json.object (present _) = Json.object (present _) ↔ _
    rw [Json.object.injEq]
    cases raw : s.modelConfig <;> by_cases empty : s.checksum = "" <;>
      simp [present, members, stored, Json.slice_map, raw, empty]
  rw [parts, ← config]
  simp only [struct_component_stored_iff, struct_resource_stored_iff,
    struct_events_stored_iff, rawMessages, forall_mem_append,
    forall_mem_map, mem_filterMap, Option.mem_toList]
  constructor
  · rintro ⟨comps, resources, modelConfig, payloads⟩
    refine ⟨⟨⟨comps, resources⟩, ?_⟩, modelConfig⟩
    rintro raw ⟨e, mem, payload⟩
    exact payloads e mem raw payload
  · rintro ⟨⟨⟨comps, resources⟩, payloads⟩, modelConfig⟩
    exact ⟨comps, resources, modelConfig, fun e mem raw payload => payloads raw ⟨e, mem, payload⟩⟩

@[simp]
theorem times_stored (s : Snapshot) : (s.stored column).times = s.times := by
  simp [times, stored, EventQueueState.stored, EventSnapshot.stored, Function.comp_def]

variable {format} {digest : Json → String} {s : Snapshot}

theorem validate_stored (schema : s.schemaVersion = snapshotSchemaVersion)
    (engine : s.engineVersion = currentEngineVersion) (checksum : s.checksum =
      hashWith format digest { s with checksum := "" })
    (finite : ∀ time ∈ s.times, time.isFinite = true) :
    (s.stored column).validate (hashWith format digest) =
      if digest (({ s with checksum := "" }).document format) =
          digest ((({ s with checksum := "" }).stored column).document format)
      then .ok () else .error .checksumMismatch := by
  have computed : (s.stored column).computeChecksum (hashWith format digest) =
      .ok (digest ((({ s with checksum := "" }).stored column).document format)) := by
    unfold computeChecksum
    rw [times_stored, find?_eq_none.mpr (by simpa using finite)]
    rfl
  have schemaKept : ¬ (s.stored column).schemaVersion ≠
      snapshotSchemaVersion := not_not.mpr schema
  have engineKept : ¬ (s.stored column).engineVersion ≠
      currentEngineVersion := not_not.mpr engine
  have checksumKept : (s.stored column).checksum =
      digest (({ s with checksum := "" }).document format) := checksum
  unfold validate
  rw [if_neg schemaKept, if_neg engineKept, computed]
  simp only [checksumKept]
  exact ite_not _ _ _

end Snapshot

namespace ModelProgram

variable {G : GoTypes} {model : ModelProgram G} {format : JsonFormat} {digest : Json → String}
  {order : MapOrder G.Any} {newID id : String} {sim : model.Sim}
  {table after : Persistence.Snapshots} {s : Snapshot} {column : DocumentColumn}

theorem saveSnapshot_eq_ok (saved : saveSnapshot format digest order newID id sim table =
      .ok (s, after)) :
    snapshot (hashWith format digest) order sim = .ok s ∧
      ∃ info, after.getSnapshot column newID = some info ∧
        unmarshal format info.data = some (s.stored column) := by
  unfold saveSnapshot at saved
  split at saved
  · cases saved
  · rename_i snap taken
    split at saved
    · cases saved
    · rename_i data enc
      split at saved
      · cases saved
      · rename_i inserted stored
        cases saved
        obtain ⟨_, _, finite, _⟩ := snapshot_eq_ok taken
        refine ⟨taken, _, Persistence.Snapshots.getSnapshot_saved stored, ?_⟩
        unfold marshal at enc
        rw [find?_eq_none.mpr (by simpa using finite)] at enc
        cases enc
        exact unmarshal_stored column format finite

theorem persisted_valid_iff (saved : saveSnapshot format digest order newID id sim table =
      .ok (s, after)) (distinct :
      digest (({ s with checksum := "" }).document format) =
        digest ((({ s with checksum := "" }).stored column).document format) →
      (({ s with checksum := "" }).stored column).document format =
        ({ s with checksum := "" }).document format) :
    ∃ info read, after.getSnapshot column newID = some info ∧
      Snapshot.unmarshal format info.data = some read ∧
      (read.validate (Snapshot.hashWith format digest) = .ok () ↔
        ∀ raw ∈ s.rawMessages, column.stored raw = raw) := by
  obtain ⟨taken, info, hit, dec⟩ := saveSnapshot_eq_ok saved
  obtain ⟨parts, checksum, finite, _⟩ := snapshot_eq_ok taken
  refine ⟨info, s.stored column, hit, dec, ?_⟩
  have unchanged : (({ s with checksum := "" }).stored column).document format =
      ({ s with checksum := "" }).document format ↔
        ∀ raw ∈ s.rawMessages, column.stored raw = raw :=
    document_stored_eq_iff format
  rw [validate_stored parts.schemaVersion parts.engineVersion checksum finite]
  constructor
  · intro valid
    split at valid
    · rename_i eq
      exact unchanged.mp (distinct eq)
    · cases valid
  · intro kept
    rw [if_pos (congrArg digest (unchanged.mpr kept).symm)]

end ModelProgram

/-- The order of keys in a `JSONB` value: shorter keys first, keys of one
length by their bytes. -/
def jsonb : DocumentColumn where
  arrange := List.insertionSort fun first second =>
    first.1.utf8ByteSize < second.1.utf8ByteSize ∨
      first.1.utf8ByteSize = second.1.utf8ByteSize ∧ first.1 ≤ second.1
  perm := List.perm_insertionSort _

def bitFormat : JsonFormat where
  formatFloat x := x.bits.toNat.repr
  parseFloat text := (parseUint UInt64.size text).map fun n => ⟨.ofNat n⟩
  parse_format x _ := by simp [parseUint_repr x.bits.toNat_lt_size]
  keys sets := ((List.range UInt64.size).map fun n => ⟨.ofNat n⟩).filter fun e => (sets e).isSome
  keys_nodup sets := by
    refine ((List.nodup_map_iff_inj_on List.nodup_range).mpr ?_).filter _
    intro m inside n alsoInside same
    have values : (UInt64.ofNat m).toNat = (UInt64.ofNat n).toNat :=
      congrArg (fun e : EntityID => e.value.toNat) same
    rwa [UInt64.toNat_ofNat_of_lt' (List.mem_range.mp inside),
      UInt64.toNat_ofNat_of_lt' (List.mem_range.mp alsoInside)] at values
  mem_keys sets e := by
    have listed : e ∈ (List.range UInt64.size).map fun n =>
        (⟨.ofNat n⟩ : EntityID) :=
      List.mem_map.mpr ⟨e.value.toNat, List.mem_range.mpr e.value.toNat_lt_size, by simp⟩
    rw [List.mem_filter, and_iff_right listed]

namespace ModelProgram

def configured (config : Json) : ModelProgram flagTypes where
  Fields := Unit
  setUp _ := .ret ()
  step _ := .ret ()
  metrics _ := []
  config := some
    { snapshotConfig := fun _ => ⟨FlagTy.message, config⟩
      restoreConfig := fun _ fields => (fields, none) }

def configuredSim (config : Json) : (configured config).Sim :=
  ⟨false, .new ⟨"sim", "orders", "1.0.0", 7, .tick⟩, ()⟩

def emptyTable : Persistence.Snapshots :=
  ⟨[], ["sim"], List.nodup_nil⟩

def sorted : Json :=
  .object [("id", .number "2"), ("total", .number "1")]

def declared : Json :=
  .object [("total", .number "1"), ("id", .number "2")]

theorem persisted_valid_iff_sorted :
    ∃ s after info read, saveSnapshot bitFormat (fun _ => "digest") (World.keptOrder _) "snapshot"
          "sim" (configuredSim sorted) emptyTable = .ok (s, after) ∧
      after.getSnapshot jsonb "snapshot" = some info ∧
      Snapshot.unmarshal bitFormat info.data = some read ∧
      read.validate (Snapshot.hashWith bitFormat fun _ => "digest") = .ok () := by
  obtain ⟨s, after, saved, messages⟩ : ∃ s after,
      saveSnapshot bitFormat (fun _ => "digest") (World.keptOrder _) "snapshot"
          "sim" (configuredSim sorted) emptyTable = .ok (s, after) ∧ s.rawMessages = [sorted] :=
    ⟨_, _, rfl, rfl⟩
  have kept : ∀ raw ∈ s.rawMessages, jsonb.stored raw = raw := by
    rw [messages]
    intro raw mem
    rw [mem_singleton.mp mem]
    rfl
  have eq : (({ s with checksum := "" }).stored jsonb).document bitFormat =
      ({ s with checksum := "" }).document bitFormat :=
    (document_stored_eq_iff _).mpr kept
  obtain ⟨info, read, hit, dec, valid⟩ := persisted_valid_iff saved fun _ => eq
  exact ⟨s, after, info, read, saved, hit, dec, valid.mpr kept⟩

theorem persisted_declared_rejected :
    jsonb.stored declared = sorted ∧
    ∀ (format : JsonFormat) (digest : Json → String), ∃ s after info read,
      saveSnapshot format digest (World.keptOrder _) "snapshot" "sim"
          (configuredSim declared) emptyTable = .ok (s, after) ∧ s.modelConfig = some declared ∧
      after.getSnapshot jsonb "snapshot" = some info ∧
      Snapshot.unmarshal format info.data = some read ∧
      read = { s with modelConfig := some sorted } ∧
      ({ s with checksum := "" }).document format ≠
        ({ read with checksum := "" }).document format ∧
      (digest (({ s with checksum := "" }).document format) ≠
          digest (({ read with checksum := "" }).document format) →
        read.validate (Snapshot.hashWith format digest) = .error .checksumMismatch) := by
  refine ⟨rfl, fun format digest => ?_⟩
  obtain ⟨s, after, saved, messages, rest⟩ : ∃ s after,
      saveSnapshot format digest (World.keptOrder _) "snapshot" "sim"
          (configuredSim declared) emptyTable = .ok (s, after) ∧ s.rawMessages = [declared] ∧
        s.modelConfig = some declared ∧ s.stored jsonb = { s with modelConfig := some sorted } :=
    ⟨_, _, rfl, rfl, rfl, rfl⟩
  obtain ⟨config, eq⟩ := rest
  obtain ⟨taken, info, hit, dec⟩ := saveSnapshot_eq_ok saved
  obtain ⟨parts, checksum, finite, _⟩ := snapshot_eq_ok taken
  refine ⟨s, after, info, s.stored jsonb, saved, config, hit, dec, eq, ?_, ?_⟩
  · intro equal
    have kept := (document_stored_eq_iff format).mp equal.symm
      declared (by rw [show rawMessages { s with checksum := "" } = [declared] from messages]; simp)
    have reordered : sorted = declared := kept
    simp [sorted, declared] at reordered
  · intro apart
    rw [validate_stored parts.schemaVersion parts.engineVersion checksum finite]
    exact if_neg apart

end ModelProgram

end Simulator
