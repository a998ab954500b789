import Simulator.ModelCode

/-!
# The worlds of a model

`Laid` describes the worlds of a model by the names and types it registered.
-/

namespace Simulator

open Requests List Option Code

variable {G : GoTypes} {α β : Type}

/-- `json.Marshal` and `json.Unmarshal` for one type. -/
structure JsonCodec (α : Type) where
  marshal : α → Except String Json
  unmarshal : Json → Except String α
  roundTrips : ∀ value document, marshal value = .ok document → unmarshal document = .ok value

abbrev componentTypes (Ty : Type) [DecidableEq Ty] (Value : Ty → Type)
    (typeName : Ty → String) (named : ∀ t, typeName t ≠ "")
    (codec : ∀ t, JsonCodec (Value t)) : GoTypes where
  Ty := Option Ty
  Value
    | some t => Value t
    | none => Json
  typeName
    | some t => typeName t
    | none => "json.RawMessage"
  typeName_ne
    | some t => named t
    | none => (by decide : "json.RawMessage" ≠ "")
  marshal {t} value :=
    match t, value with
    | some t, value => (codec t).marshal value
    | none, document => .ok document
  unmarshal
    | some t, document => (codec t).unmarshal document
    | none, document => .ok document
  rawMessage := none
  ofRaw document := document

theorem componentTypes_roundTrips {Ty : Type} [DecidableEq Ty]
    {Value : Ty → Type} {typeName : Ty → String}
    (named : ∀ t, typeName t ≠ "") {codec : ∀ t, JsonCodec (Value t)} (t : Option Ty)
    (v : (componentTypes Ty Value typeName named codec).Value t) :
    GoTypes.RoundTrips v := by
  intro doc enc
  cases t with
  | some t => exact (codec t).roundTrips v doc enc
  | none => cases enc; rfl

namespace World

/-- Run code of a model; `none` is a panic or a returned error. -/
def runCode (sortSlice : SortSlice (Event G)) (code : Code G α)
    (w : World G) : Option (α × World G) :=
  code.run (fun op w => w.run sortSlice op) w

variable {sortSlice : SortSlice (Event G)}

theorem runCode_bind (code : Code G α) (next : α → Code G β) (w : World G) :
    w.runCode sortSlice (code >>= next) = (w.runCode sortSlice code).bind fun ended =>
        ended.2.runCode sortSlice (next ended.1) :=
  Program.run_bind code next w

@[simp]
theorem runCode_pure (res : α) (w : World G) :
    w.runCode sortSlice (pure res : Code G α) = some (res, w) :=
  rfl

theorem runCode_bind_eq_some {code : Code G α} {next : α → Code G β} {w after : World G} {res : β}
    (ran : w.runCode sortSlice (code >>= next) = some (res, after)) :
    ∃ v mid, w.runCode sortSlice code = some (v, mid) ∧
      mid.runCode sortSlice (next v) = some (res, after) := by
  rw [runCode_bind] at ran
  obtain ⟨⟨v, mid⟩, first, rest⟩ := bind_eq_some_iff.mp ran
  exact ⟨v, mid, first, rest⟩

end World

abbrev Layout (G : GoTypes) :=
  List (String × G.Ty)

def Operation.Within (layout : Layout G) : Operation G → Prop
  | .registerComponent _ => False
  | .columnOf _ _ => False
  | .column t id _ => layout[id]?.map Prod.snd = some t
  | .setResource _ _ => False
  | .push e => e.payload = none
  | .registerPayloadType _ => False
  | _ => True

abbrev Code.Within (layout : Layout G) (code : Code G α) : Prop :=
  code.Ensures (Operation.Within layout) fun _ => True

namespace World

theorem mem_heap_of_run {sortSlice : SortSlice (Event G)}
    {op : Operation G} {reply : Reply G} {w after : World G} {e : Event G}
    (ran : w.run sortSlice op = some (reply, after)) (mem : e ∈ after.events.heap) :
    e ∈ w.events.heap ∨ ∃ pushed, op = .push pushed ∧ e = (w.events.push pushed).1 := by
  cases op with
  | push pushed =>
    cases ran
    rcases mem_cons.mp ((w.events.perm_push pushed).mem_iff.mp mem) with eq | old
    · exact .inr ⟨pushed, rfl, eq⟩
    · exact .inl old
  | pop =>
    cases ran
    cases popped : w.events.pop with
    | mk top rest =>
      rw [popped] at mem
      cases top with
      | none =>
        rw [(EventQueue.pop_of_empty popped).2] at mem
        exact .inl mem
      | some ev =>
        exact .inl ((EventQueue.perm_pop popped).mem_iff.mpr (mem_cons_of_mem ev mem))
  | create =>
    obtain ⟨_, _, _, rfl, rfl⟩ := create_of_run ran
    exact .inl mem
  | columnOf =>
    obtain ⟨_, _, rfl, rfl⟩ := columnOf_of_run ran
    exact .inl mem
  | column =>
    obtain ⟨_, _, rfl, rfl⟩ := column_of_run ran
    exact .inl mem
  | registerPayloadType =>
    cases ran
    exact .inl mem
  | destroy | alive | ids | len | registerComponent | componentName
  | entitiesOf | setResource | getResource | registerTag | tagName | addTag
  | removeTag | hasTag | removeEntityTags | peek | peekAll | queueLen | tick
  | time | advance | advanceTime =>
    cases ran
    exact .inl mem

structure Laid (metadata : Metadata) (layout : Layout G) (w : World G) :
    Prop where
  sound : w.Sound
  metadata_eq : w.metadata = metadata
  names : w.components.names = layout.map Prod.fst
  columnTypes : ∀ id : Nat, (w.components.cols id).map Sigma.fst = layout[id]?.map Prod.snd
  resources : w.resources = .new
  payloadTypes : w.payloadTypes = fun _ => none
  payloads : ∀ e ∈ w.events.heap, e.payload = none

theorem laid_new (metadata : Metadata) : (new metadata : World G).Laid metadata [] where
  sound := sound_new metadata
  metadata_eq := rfl
  names := rfl
  columnTypes _ := rfl
  resources := rfl
  payloadTypes := rfl
  payloads _ mem := absurd mem not_mem_nil

namespace Laid

variable {metadata : Metadata} {layout : Layout G} {w after : World G}
  {sortSlice : SortSlice (Event G)} {t : G.Ty} {name : String}

theorem columnTypes_bind (laid : w.Laid metadata layout)
    {id : ComponentID} (inLayout : layout[id]?.map Prod.snd = some t)
    (col : Column (G.Value t)) (other : Nat) :
    ((w.components.bind t id col).cols other).map Sigma.fst = layout[other]?.map Prod.snd := by
  by_cases eq : other = id
  · subst eq
    rw [ComponentStore.cols_bind_self, inLayout]
    rfl
  · rw [ComponentStore.cols_bind_of_ne _ _ _ eq]
    exact laid.columnTypes other

theorem run {op : Operation G} {reply : Reply G}
    (laid : w.Laid metadata layout) (within : op.Within layout)
    (ran : w.run sortSlice op = some (reply, after)) : after.Laid metadata layout := by
  have sound := laid.sound.run ran
  have payloads : ∀ e ∈ after.events.heap, e.payload = none := by
    intro e mem
    rcases mem_heap_of_run ran mem with old | ⟨pushed, rfl, rfl⟩
    · exact laid.payloads e old
    · exact within
  obtain ⟨_, metadata_eq, names, columnTypes, resources, payloadTypes, _⟩ := id laid
  cases op with
  | registerComponent | columnOf | setResource | registerPayloadType =>
    exact within.elim
  | create =>
    obtain ⟨_, _, _, rfl, rfl⟩ := create_of_run ran
    exact ⟨sound, metadata_eq, names, columnTypes, resources, payloadTypes, payloads⟩
  | column t id op =>
    obtain ⟨_, _, rfl, rfl⟩ := column_of_run ran
    exact ⟨sound, metadata_eq, names, laid.columnTypes_bind within _,
      resources, payloadTypes, payloads⟩
  | destroy | alive | ids | len | componentName | entitiesOf | getResource
  | registerTag | tagName | addTag | removeTag | hasTag | removeEntityTags
  | push | pop | peek | peekAll | queueLen | tick | time | advance
  | advanceTime =>
    cases ran
    exact ⟨sound, metadata_eq, names, columnTypes, resources, payloadTypes, payloads⟩

variable {res : α}

section

variable (laid : w.Laid metadata layout)
include laid

theorem runCode {code : Code G α} (post : α → Prop)
    (ensures : code.Ensures (Operation.Within layout) post)
    (ran : w.runCode sortSlice code = some (res, after)) :
    after.Laid metadata layout ∧ post res :=
  ensures.run (Laid metadata layout) (fun _ _ _ _ within held ran => held.run within ran) laid ran

theorem runCode_eventStep {M : Type} {F : FloatOps}
    {handleEvent : M → Event G → Code G M} {m res : M} {ev : Event G} {rest : EventQueue G}
    (popped : w.events.pop = (some ev, rest)) (post : M → Prop)
    (ensures : (handleEvent m ev).Ensures (Operation.Within layout) post)
    (ran : w.runCode sortSlice (eventStep F handleEvent m) = some (res, after)) :
    after.Laid metadata layout ∧ post res := by
  obtain ⟨found, middle, pops, continued⟩ := runCode_bind_eq_some ran
  have answered : w.run sortSlice .pop = some (.event (some ev), { w with events := rest }) := by
    simp only [World.run, popped]
  simp only [World.runCode, pop, Program.request, Program.run, answered,
    eventReply, some.injEq, Prod.mk.injEq] at pops
  obtain ⟨rfl, rfl⟩ := pops
  have within : (Operation.pop : Operation G).Within layout := trivial
  have stillLaid := laid.run within answered
  refine stillLaid.runCode post ?_ continued
  refine .request_bind trivial fun now => ?_
  split
  · trivial
  · exact .request_bind trivial fun _ => ensures

section

variable (fresh : name ∉ layout.map Prod.fst)
include fresh

theorem byName_eq_none : w.components.byName name = none := by
  cases known : w.components.byName name with
  | none => rfl
  | some id =>
    have held := (w.components.registered name id).mp known
    rw [laid.names] at held
    exact absurd (mem_of_getElem? held) fresh

theorem runCode_register (t : G.Ty) :
    w.runCode sortSlice (registerComponent t name) = some (layout.length, { w with
        components := (w.components.append name
          (laid.byName_eq_none fresh)).bind t layout.length .empty }) := by
  have unknown := laid.byName_eq_none fresh
  have size : w.components.names.length = layout.length := by
    simp [laid.names]
  have unbound : w.components.cols layout.length = none := by
    have types := laid.columnTypes layout.length
    simpa using types
  have opened : (w.components.append name unknown).columnOf t layout.length = some .empty :=
    ComponentStore.columnOf_unbound unbound t
  simp only [World.runCode, registerComponent, Program.request, bind,
    Program.bind, Program.run, World.run,
    ComponentStore.register_of_fresh unknown, indexReply, size, opened, doneReply]
  rfl

theorem registerComponent {id : ComponentID}
    (ran : w.runCode sortSlice (registerComponent t name) = some (id, after)) :
    id = layout.length ∧ after.Laid metadata (layout ++ [(name, t)]) := by
  have unknown := laid.byName_eq_none fresh
  rw [laid.runCode_register fresh] at ran
  cases ran
  refine ⟨rfl, ?_, laid.metadata_eq, ?_, fun other => ?_, laid.resources,
    laid.payloadTypes, laid.payloads⟩
  · have registered := laid.sound.register name
    rw [ComponentStore.register_of_fresh unknown] at registered
    exact registered.bind t layout.length Column.consistent_empty
  · simp [ComponentStore.bind, ComponentStore.append, laid.names]
  · by_cases same : other = layout.length
    · subst same
      simp
    · rw [ComponentStore.cols_bind_of_ne _ _ _ same]
      refine (laid.columnTypes other).trans ?_
      rcases Nat.lt_or_gt_of_ne same with inside | outside
      · rw [getElem?_append_left inside]
      · rw [getElem?_eq_none (by omega), getElem?_eq_none (by simp; omega)]

theorem runCode_registerComponent {next : ComponentID → Code G α}
    (ran : w.runCode sortSlice (Code.registerComponent t name >>= next) = some (res, after)) :
    ∃ mid : World G, mid.Laid metadata (layout ++ [(name, t)]) ∧
      mid.runCode sortSlice (next layout.length) = some (res, after) := by
  obtain ⟨id, mid, first, rest⟩ := runCode_bind_eq_some ran
  obtain ⟨rfl, stillLaid⟩ := laid.registerComponent fresh first
  exact ⟨mid, stillLaid, rest⟩

end

theorem twin {target : World G} (other : target.Laid metadata layout) : Twin w target where
  modelID := by rw [laid.metadata_eq, other.metadata_eq]
  modelVersion := by rw [laid.metadata_eq, other.metadata_eq]
  seed := by rw [laid.metadata_eq, other.metadata_eq]
  names := by rw [laid.names, other.names]
  columnTypes id := by rw [laid.columnTypes, other.columnTypes]
  noFurther id bound := by
    rw [← isSome_map (f := Sigma.fst), laid.columnTypes id] at bound
    rw [laid.names]
    simpa using bound
  resourceTypes := by rw [laid.resources, other.resources]
  payloadTypes := by rw [laid.payloadTypes, other.payloadTypes]

theorem roundTripping (roundTrips : ∀ (t : G.Ty) (v : G.Value t),
      GoTypes.RoundTrips v) : w.RoundTripping where
  components _ _ _ v _ := roundTrips _ v
  resources item _ := roundTrips _ item.2
  resourceNames := by
    rw [laid.resources]
    intro t held
    exact absurd held (AList.notMem_empty t)
  payloads e queued := by
    rw [laid.payloads e queued]
    trivial

end

end Laid

end World

end Simulator
