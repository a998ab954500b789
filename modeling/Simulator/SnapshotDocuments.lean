import Simulator.JsonDocuments
import Simulator.World

/-!
# The JSON form of snapshots

The four raw messages of a snapshot come back rearranged, everything else as it was.
-/

namespace Simulator

open Json List Option

/-- What the encoder does with a `float64` and with a map: the text of a finite
number and the number read from a text, and the order of the keys. -/
structure JsonFormat where
  formatFloat : Float64 → String
  parseFloat : String → Option Float64
  parse_format : ∀ x : Float64, x.isFinite = true → parseFloat (formatFloat x) = some x
  keys : (EntityID → Option (List UInt64)) → List EntityID
  keys_nodup : ∀ sets, (keys sets).Nodup
  mem_keys : ∀ sets e, e ∈ keys sets ↔ (sets e).isSome = true

namespace EntityID

def marshalJSON (e : EntityID) : Json :=
  .string e.value.toNat.repr

/-- `strconv.ParseUint(s, 10, 64)` of an identifier -/
def parse (text : String) : Option EntityID :=
  (parseUint UInt64.size text).map fun n => ⟨.ofNat n⟩

/-- `UnmarshalJSON`; `null` reads as the empty string, which is no number -/
def unmarshalJSON : Json → Option EntityID
  | .string text => parse text
  | _ => none

@[simp]
theorem parse_repr (e : EntityID) : parse e.value.toNat.repr = some e := by
  simp [parse, parseUint_repr e.value.toNat_lt_size]

@[simp]
theorem unmarshalJSON_marshalJSON (e : EntityID) : unmarshalJSON e.marshalJSON = some e :=
  parse_repr e

@[simp]
theorem stored_marshalJSON (col : DocumentColumn) (e : EntityID) :
    col.stored e.marshalJSON = e.marshalJSON :=
  col.stored_string _

end EntityID

namespace EntityManagerState

/-- The fields of `entityManagerState`. -/
def members (s : EntityManagerState) : List (String × Option Json) :=
  [("dense", some (slice EntityID.marshalJSON s.dense)), ("next", some (ofNat s.next.toNat)),
    ("free", some (slice (fun n => ofNat n.toNat) s.free)),
    ("versions", some (slice (fun n => ofNat n.toNat) s.versions))]

def unmarshal : Json → Option EntityManagerState :=
  readStruct fun fields => do
    let dense ← readMember fields "dense" [] (readSlice EntityID.unmarshalJSON)
    let next ← readMember fields "next" 0 readUInt32
    let free ← readMember fields "free" [] (readSlice readUInt32)
    let versions ← readMember fields "versions" [] (readSlice readUInt32)
    return ⟨dense, next, free, versions⟩

theorem unmarshal_stored (col : DocumentColumn) (s : EntityManagerState) :
    unmarshal (col.stored (struct s.members)) = some s := by
  have named : WellNamed (s.members.map Prod.fst) := by
    simp only [members, map]
    decide
  simp only [unmarshal, readStruct_stored, readMember_stored named]
  simp [members, lookup, readSlice_slice_self]

end EntityManagerState

namespace ComponentSnapshot

/-- The fields of `componentSnapshot`. -/
def members (s : ComponentSnapshot) : List (String × Option Json) :=
  [("name", some (.string s.name)), ("entities", some (slice EntityID.marshalJSON s.entities)),
    ("values", some (s.values.getD .null))]

def unmarshal : Json → Option ComponentSnapshot :=
  readStruct fun fields => do
    let name ← readMember fields "name" "" readString
    let entities ← readMember fields "entities" [] (readSlice EntityID.unmarshalJSON)
    let values ← readMember fields "values" none readRaw
    return ⟨name, entities, values⟩

def stored (column : DocumentColumn) (s : ComponentSnapshot) : ComponentSnapshot :=
  { s with values := some (column.stored (s.values.getD .null)) }

theorem unmarshal_stored (col : DocumentColumn) (s : ComponentSnapshot) :
    unmarshal (col.stored (struct s.members)) = some (s.stored col) := by
  have named : WellNamed (s.members.map Prod.fst) := by
    simp only [members, map]
    decide
  simp only [unmarshal, readStruct_stored, readMember_stored named]
  simp [members, lookup, readSlice_slice_self, readRaw, stored]

end ComponentSnapshot

namespace TagSnapshot

def marshalSets (format : JsonFormat) (sets : EntityID → Option (List UInt64)) : Json :=
  .object <| (format.keys sets).map fun e =>
    (e.value.toNat.repr, slice (fun word => ofNat word.toNat) ((sets e).getD []))

def readEntry (field : String × Json) : Option (EntityID × List UInt64) := do
  let entity ← EntityID.parse field.1
  let words ← readSlice readUInt64 field.2
  return (entity, words)

def unmarshalSets : Json → Option (EntityID → Option (List UInt64))
  | .null => some fun _ => none
  | .object fields =>
    (fields.mapM readEntry).map fun entries e => entries.reverse.lookup e
  | _ => none

/-- The fields of `tagSnapshot`. -/
def members (format : JsonFormat) (s : TagSnapshot) : List (String × Option Json) :=
  [("names", some (slice Json.string s.names)), ("sets", some (marshalSets format s.sets))]

def unmarshal : Json → Option TagSnapshot :=
  readStruct fun fields => do
    let names ← readMember fields "names" [] (readSlice readString)
    let sets ← readMember fields "sets" (fun _ => none) unmarshalSets
    return ⟨names, sets⟩

theorem unmarshalSets_stored (col : DocumentColumn) (format : JsonFormat)
    (sets : EntityID → Option (List UInt64)) :
    unmarshalSets (col.stored (marshalSets format sets)) = some sets := by
  have perm := col.perm (col.storedFields ((format.keys sets).map fun e =>
    (e.value.toNat.repr, slice (fun word => ofNat word.toNat) ((sets e).getD []))))
  rw [DocumentColumn.storedFields_eq_map, List.map_map] at perm
  have reads : ∀ e ∈ format.keys sets, readEntry (e.value.toNat.repr, col.stored
        (slice (fun word => ofNat word.toNat) ((sets e).getD []))) =
      some (e, (sets e).getD []) := by
    intro e _
    simp [readEntry, readSlice_slice_self]
  obtain ⟨entries, read, eq⟩ := mapM_eq_some_of_perm perm reads
  have nodup : (entries.reverse.map Prod.fst).Nodup := by
    rw [((entries.reverse_perm.trans eq).map Prod.fst).nodup_iff]
    simpa [Function.comp_def] using format.keys_nodup sets
  rw [marshalSets, DocumentColumn.stored, unmarshalSets,
    DocumentColumn.storedFields_eq_map, List.map_map, read]
  simp only [map_some, some.injEq]
  funext e
  apply ext
  intro words
  rw [lookup_eq_some_iff_mem nodup, mem_reverse, eq.mem_iff]
  simp only [List.mem_map, Prod.mk.injEq, format.mem_keys]
  constructor
  · rintro ⟨other, held, rfl, rfl⟩
    obtain ⟨words, hit⟩ := isSome_iff_exists.mp held
    simp [hit]
  · intro hit
    exact ⟨e, by simp [hit], rfl, by simp [hit]⟩

theorem unmarshal_stored (col : DocumentColumn) (format : JsonFormat) (s : TagSnapshot) :
    unmarshal (col.stored (struct (s.members format))) = some s := by
  have named : WellNamed ((s.members format).map Prod.fst) := by
    simp only [members, map]
    decide
  simp only [unmarshal, readStruct_stored, readMember_stored named]
  simp [members, lookup, readSlice_slice_self readString_string, unmarshalSets_stored]

end TagSnapshot

namespace ResourceSnapshot

/-- The fields of `resourceSnapshot`. -/
def members (s : ResourceSnapshot) : List (String × Option Json) :=
  [("type", some (.string s.type)), ("value", some (s.value.getD .null))]

def unmarshal : Json → Option ResourceSnapshot :=
  readStruct fun fields => do
    let type ← readMember fields "type" "" readString
    let value ← readMember fields "value" none readRaw
    return ⟨type, value⟩

def stored (column : DocumentColumn) (s : ResourceSnapshot) : ResourceSnapshot :=
  { s with value := some (column.stored (s.value.getD .null)) }

theorem unmarshal_stored (col : DocumentColumn) (s : ResourceSnapshot) :
    unmarshal (col.stored (struct s.members)) = some (s.stored col) := by
  have named : WellNamed (s.members.map Prod.fst) := by
    simp only [members, map]
    decide
  simp only [unmarshal, readStruct_stored, readMember_stored named]
  simp [members, lookup, readRaw, stored]

end ResourceSnapshot

/-- Decode a `float64`. -/
def JsonFormat.readFloat (format : JsonFormat) : Json → Option Float64
  | .null => some .zero
  | .number text => format.parseFloat text
  | _ => none

@[simp]
theorem JsonFormat.readFloat_formatFloat (format : JsonFormat) {x : Float64}
    (finite : x.isFinite = true) : format.readFloat (.number (format.formatFloat x)) = some x :=
  format.parse_format x finite

namespace EventSnapshot

/-- The fields of `eventSnapshot`; an event without a payload omits it. -/
def members (format : JsonFormat) (s : EventSnapshot) : List (String × Option Json) :=
  [("id", some (ofNat s.id.toNat)), ("type", some (.string s.type)),
    ("time", some (.number (format.formatFloat s.time))), ("priority", some (ofInt s.priority)),
    ("seq", some (ofNat s.seq.toNat)), ("source", some s.source.marshalJSON),
    ("target", some s.target.marshalJSON), ("payload", s.payload)]

def unmarshal (format : JsonFormat) : Json → Option EventSnapshot :=
  readStruct fun fields => do
    let id ← readMember fields "id" 0 readUInt64
    let type ← readMember fields "type" "" readString
    let time ← readMember fields "time" .zero format.readFloat
    let priority ← readMember fields "priority" 0 readInt
    let seq ← readMember fields "seq" 0 readUInt64
    let source ← readMember fields "source" ⟨0⟩ EntityID.unmarshalJSON
    let target ← readMember fields "target" ⟨0⟩ EntityID.unmarshalJSON
    let payload ← readMember fields "payload" none readRaw
    return ⟨id, type, time, priority, seq, source, target, payload⟩

def stored (column : DocumentColumn) (s : EventSnapshot) : EventSnapshot :=
  { s with payload := s.payload.map column.stored }

theorem unmarshal_stored (col : DocumentColumn) (format : JsonFormat)
    {s : EventSnapshot} (finite : s.time.isFinite = true) :
    unmarshal format (col.stored (struct (s.members format))) = some (s.stored col) := by
  have named : WellNamed ((s.members format).map Prod.fst) := by
    simp only [members, map]
    decide
  simp only [unmarshal, readStruct_stored, readMember_stored named]
  cases payload : s.payload with
  | none => simp [members, lookup, finite, payload, stored]
  | some v => simp [members, lookup, finite, payload, stored, readRaw]

end EventSnapshot

namespace EventQueueState

/-- The fields of `eventQueueState`; the list of events is never nil. -/
def members (format : JsonFormat) (s : EventQueueState) : List (String × Option Json) :=
  [("events", some (.array (s.events.map fun e => struct (e.members format)))),
    ("next_id", some (ofNat s.nextID.toNat)), ("seq", some (ofNat s.seq.toNat))]

def unmarshal (format : JsonFormat) : Json → Option EventQueueState :=
  readStruct fun fields => do
    let events ← readMember fields "events" [] (readSlice (EventSnapshot.unmarshal format))
    let nextID ← readMember fields "next_id" 0 readUInt64
    let seq ← readMember fields "seq" 0 readUInt64
    return ⟨events, nextID, seq⟩

def stored (column : DocumentColumn) (s : EventQueueState) : EventQueueState :=
  { s with events := s.events.map (EventSnapshot.stored column) }

theorem unmarshal_stored (col : DocumentColumn) (format : JsonFormat)
    {s : EventQueueState} (finite : ∀ e ∈ s.events, e.time.isFinite = true) :
    unmarshal format (col.stored (struct (s.members format))) = some (s.stored col) := by
  have named : WellNamed ((s.members format).map Prod.fst) := by
    simp only [members, map]
    decide
  have es := mapM_map_eq_some fun e mem =>
    EventSnapshot.unmarshal_stored col format (finite e mem)
  simp only [unmarshal, readStruct_stored, readMember_stored named]
  simp [members, lookup, readSlice, es, stored, Function.comp_def]

end EventQueueState

namespace Snapshot

/-- The fields of `Snapshot`, in the order of the struct. -/
def members (format : JsonFormat) (s : Snapshot) : List (String × Option Json) :=
  [("schema_version", some (ofInt s.schemaVersion)),
    ("engine_version", some (.string s.engineVersion)),
    ("checksum", if s.checksum = "" then none else some (.string s.checksum)),
    ("simulation_id", some (.string s.simulationID)), ("model_id", some (.string s.modelID)),
    ("model_version", some (.string s.modelVersion)),
    ("seed", some (ofNat s.seed.toNat)), ("mode", some (.string s.mode)),
    ("tick", some (ofNat s.tick.toNat)), ("time", some (.number (format.formatFloat s.time))),
    ("entities", some (struct s.entities.members)),
    ("components", some (slice (fun c => struct c.members) s.components)),
    ("tags", some (struct (s.tags.members format))),
    ("resources", some (.array (s.resources.map fun r => struct r.members))),
    ("model_config", s.modelConfig), ("events", some (struct (s.events.members format)))]

def document (format : JsonFormat) (s : Snapshot) : Json :=
  struct (s.members format)

/-- `json.Marshal` of a snapshot -/
def marshal (format : JsonFormat) (s : Snapshot) : Except String Json :=
  match s.times.find? fun time => !time.isFinite with
  | some time =>
    .error ("json: unsupported value: " ++ time.unsupportedText)
  | none => .ok (s.document format)

/-- `json.Unmarshal` into a snapshot; `none` is a decoding error -/
def unmarshal (format : JsonFormat) : Json → Option Snapshot :=
  readStruct fun fields => do
    let schemaVersion ← readMember fields "schema_version" 0 readInt
    let engineVersion ← readMember fields "engine_version" "" readString
    let checksum ← readMember fields "checksum" "" readString
    let simulationID ← readMember fields "simulation_id" "" readString
    let modelID ← readMember fields "model_id" "" readString
    let modelVersion ← readMember fields "model_version" "" readString
    let seed ← readMember fields "seed" 0 readUInt64
    let mode ← readMember fields "mode" "" readString
    let tick ← readMember fields "tick" 0 readUInt64
    let time ← readMember fields "time" .zero format.readFloat
    let entities ← readMember fields "entities" ⟨[], 0, [], []⟩ EntityManagerState.unmarshal
    let components ← readMember fields "components" [] (readSlice ComponentSnapshot.unmarshal)
    let tags ← readMember fields "tags" ⟨[], fun _ => none⟩ TagSnapshot.unmarshal
    let resources ← readMember fields "resources" [] (readSlice ResourceSnapshot.unmarshal)
    let modelConfig ← readMember fields "model_config" none readRaw
    let events ← readMember fields "events" ⟨[], 0, 0⟩ (EventQueueState.unmarshal format)
    return ⟨schemaVersion, engineVersion, checksum, simulationID, modelID,
      modelVersion, seed, mode, tick, time, entities, components, tags,
      resources, modelConfig, events⟩

def stored (column : DocumentColumn) (s : Snapshot) : Snapshot :=
  { s with
    components := s.components.map (ComponentSnapshot.stored column)
    resources := s.resources.map (ResourceSnapshot.stored column)
    modelConfig := s.modelConfig.map column.stored
    events := s.events.stored column }

theorem members_wellNamed (format : JsonFormat) (s : Snapshot) :
    WellNamed ((s.members format).map Prod.fst) := by
  simp only [members, map]
  decide +kernel

theorem unmarshal_stored (col : DocumentColumn) (format : JsonFormat)
    {s : Snapshot} (finite : ∀ time ∈ s.times, time.isFinite = true) :
    unmarshal format (col.stored (s.document format)) = some (s.stored col) := by
  have es := EventQueueState.unmarshal_stored col format
    (s := s.events) fun e mem => finite e.time (by simp [times]; tauto)
  have clock : s.time.isFinite = true := finite s.time (by simp [times])
  have comps := readSlice_slice fun c (_ : c ∈ s.components) =>
    ComponentSnapshot.unmarshal_stored col c
  have resources : readSlice ResourceSnapshot.unmarshal
      (.array (s.resources.map (col.stored ∘ fun r => struct r.members))) =
        some (s.resources.map (ResourceSnapshot.stored col)) :=
    mapM_map_eq_some fun r _ => ResourceSnapshot.unmarshal_stored col r
  have checksum : readMember (col.arrange (col.storedFields
      (present (s.members format)))) "checksum" "" readString = some s.checksum := by
    rw [readMember_stored (s.members_wellNamed format)]
    simp only [members, lookup, String.reduceBEq, join_some]
    by_cases empty : s.checksum = ""
    · rw [if_pos empty, empty]
    · rw [if_neg empty]
      exact congrArg readString (col.stored_string s.checksum)
  have config : readMember (col.arrange (col.storedFields
      (present (s.members format)))) "model_config" none readRaw =
        some (s.modelConfig.map col.stored) := by
    rw [readMember_stored (s.members_wellNamed format)]
    simp only [members, lookup, String.reduceBEq, join_some]
    cases s.modelConfig <;> rfl
  simp only [unmarshal, document, readStruct_stored, checksum, config]
  simp only [readMember_stored (s.members_wellNamed format)]
  simp only [members, lookup, String.reduceBEq, join_some,
    DocumentColumn.stored_ofInt, DocumentColumn.stored_ofNat,
    DocumentColumn.stored_string, DocumentColumn.stored_number,
    DocumentColumn.stored_slice, DocumentColumn.stored_array, List.map_map,
    readInt_ofInt, readString_string, readUInt64_ofNat, format.readFloat_formatFloat clock,
    EntityManagerState.unmarshal_stored, comps, TagSnapshot.unmarshal_stored, resources, es]
  rfl

end Snapshot

end Simulator
