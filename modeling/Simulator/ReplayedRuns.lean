import Simulator.RecordPermanence

/-!
# What `Replay` rebuilds

A request without configuration is stored as `null`, which `Replay` passes to
`Configure`.
-/

namespace Simulator

open Option Except

/-- The calls of `Configure` that `instantiate` makes. -/
def ModelMethods.calls {G : GoTypes} {M : Type} (methods : ModelMethods G M)
    (m : M) (config : String) : List String :=
  if config = "" then []
  else
    match methods.configure m with
    | none => []
    | some _ => [config]

/-- What `instantiate` hands to `New`, with the entry of the model and the
calls of `Configure` before. -/
@[ext]
structure Construction (M : Type) where
  entry : RegistryEntry M
  calls : List String
  model : M
  config : Config

structure Constructs {G : GoTypes} {M : Type} (methods : ModelMethods G M)
    (r : Registry M) (newID : String) (req : CreateRequest)
    (c : Construction M) : Prop where
  entry : requestEntry r req.modelID req.modelVersion = .ok c.entry
  model : ∃ made, c.entry.factory = some made ∧ methods.configured made req.config = .ok c.model ∧
    c.calls = methods.calls made req.config
  mode : requestMode req.mode (methods.mode c.model) = .ok c.config.mode
  config : c.config = req.toConfig (if req.simulationID = "" then newID else req.simulationID)
    c.config.mode

section

variable {G : GoTypes} {M : Type} {methods : ModelMethods G M} {r : Registry M} {newID : String}
  {req : CreateRequest}

theorem Constructs.unique {c other : Construction M} (first : Constructs methods r newID req c)
    (second : Constructs methods r newID req other) : c = other := by
  obtain ⟨entry, ⟨made, factory, set, calls⟩, mode, config⟩ := first
  obtain ⟨entry', ⟨made', factory', configured', calls'⟩, mode', config'⟩ := second
  have sameEntry : c.entry = other.entry := by
    rw [entry] at entry'
    exact ok.inj entry'
  have sameMade : made = made' := by
    rw [sameEntry, factory'] at factory
    exact (some.inj factory).symm
  subst sameMade
  have sameModel : c.model = other.model := by
    rw [set] at configured'
    exact ok.inj configured'
  have sameMode : c.config.mode = other.config.mode := by
    rw [sameModel, mode'] at mode
    exact (ok.inj mode).symm
  have sameConfig : c.config = other.config := by
    rw [config, sameMode, ← config']
  exact Construction.ext sameEntry (calls.trans calls'.symm) sameModel sameConfig

theorem instantiate_eq_ok_iff {upsert : ModelInfo → Option String} {resolved : Resolved G M} :
    instantiate methods r upsert newID req = .ok resolved ↔
      req.seed.toNat < 2 ^ 63 ∧ ∃ c, Constructs methods r newID req c ∧
        upsert c.entry.info = none ∧ resolved.entry = c.entry ∧ resolved.mode = c.config.mode ∧
        methods.new c.config c.model = .ok resolved.simulation := by
  constructor
  · intro instantiated
    unfold instantiate at instantiated
    split at instantiated
    · cases instantiated
    · rename_i small
      refine ⟨Nat.lt_of_not_le small, ?_⟩
      split at instantiated
      · cases instantiated
      · rename_i entry asked
        split at instantiated
        · cases instantiated
        · rename_i made factory
          split at instantiated
          · cases instantiated
          · rename_i stored
            split at instantiated
            · cases instantiated
            · rename_i m set
              split at instantiated
              · cases instantiated
              · rename_i mode requestedMode
                simp only at instantiated
                split at instantiated
                · cases instantiated
                · rename_i simulation built
                  cases instantiated
                  exact ⟨⟨entry, methods.calls made req.config, m, _⟩,
                    ⟨asked, ⟨made, factory, set, rfl⟩, requestedMode, rfl⟩, stored, rfl, rfl, built⟩
  · rintro ⟨small, c, ⟨entry, ⟨made, factory, set, _⟩, mode, config⟩,
      stored, sameEntry, sameMode, built⟩
    rw [config] at built
    rw [instantiate, if_neg (Nat.not_le.mpr small)]
    simp only [entry, factory, stored, set, mode, built]
    rw [← sameEntry, ← sameMode]

end

namespace Runner

section

variable {G : GoTypes} {M : Type}

def ReadsValue (host : Host G M) : Prop :=
  ∀ made configure text, host.methods.configure made = some configure →
    host.valid text = true → configure (host.column text) = configure text

/-- The same entry of the registry, the same calls of `Configure` up to the
text of the value, the same model afterwards, and the same `Config`. -/
structure SameRun (host : Host G M) (first second : Construction M) :
    Prop where
  entry : second.entry = first.entry
  calls : second.calls = first.calls.map host.column
  model : second.model = first.model
  config : second.config = first.config

/-- The entry that the request names is found again under its own ID and
version, and the model has no `Configure` if the request has no
configuration. -/
def Replayable (host : Host G M) (req : CreateRequest) : Prop :=
  ∃ entry made, requestEntry host.registry req.modelID req.modelVersion = .ok entry ∧
    entry.factory = some made ∧ (entry.info.version = "" →
      host.registry.latest.lookup entry.info.id = some "") ∧
    (req.config = "" → host.methods.configure made = none)

variable {host : Host G M} {made : M} {req : CreateRequest} {config : String} {rc : RunConfig}
  {r : Registry M} {entry : RegistryEntry M}

theorem config_of_marshal {stored : RunConfig} (enc : rc.marshal host = .ok stored) :
    host.valid stored.model = true ∧ stored = { rc with
        model := if rc.model = "" then "null" else rc.model } ∧
      rc.maxTime.isFinite = true := by
  unfold RunConfig.marshal at enc
  split at enc
  · cases enc
  · rename_i finite
    have isFinite : rc.maxTime.isFinite = true := by simpa using finite
    split at enc
    · rename_i empty
      cases enc
      exact ⟨host.valid_null, by simp [empty], isFinite⟩
    · rename_i message
      split at enc
      · rename_i valid
        cases enc
        exact ⟨valid, by simp [message], isFinite⟩
      · cases enc

theorem marshal_of_valid (valid : host.valid rc.model = true)
    (finite : rc.maxTime.isFinite = true) : rc.marshal host = .ok rc := by
  have message : rc.model ≠ "" := by
    intro empty
    rw [empty, host.valid_empty] at valid
    cases valid
  simp [RunConfig.marshal, finite, message, valid]

theorem requestMode_toText (mode own : Mode) : requestMode mode.toText own = .ok mode := by
  cases mode <;> rfl

theorem exists_filed {id ver : String}
    (asked : requestEntry r id ver = .ok entry) (factory : entry.factory = some made) :
    ∃ name, r.entries.lookup name = some entry := by
  unfold requestEntry at asked
  split at asked
  · cases asked
  · rename_i latest hit
    split at asked
    · cases asked
      obtain ⟨cur, _, eq⟩ := map_eq_some_iff.mp hit
      refine ⟨Registry.key id cur, ?_⟩
      cases looked : r.entries.lookup (Registry.key id cur) with
      | none =>
        rw [looked, getD_none] at eq
        rw [← eq] at factory
        cases factory
      | some held =>
        rw [looked, getD_some] at eq
        rw [eq]
    · split at asked
      · rename_i held looked
        cases asked
        exact ⟨_, looked⟩
      · cases asked

theorem requestEntry_own_iff (reg : r.Registered) {name : String}
    (hit : r.entries.lookup name = some entry) (factory : entry.factory = some made) :
    requestEntry r entry.info.id entry.info.version = .ok entry ↔
      (entry.info.version = "" → r.latest.lookup entry.info.id = some "") := by
  obtain ⟨filed, known⟩ := reg.filed hit
  obtain ⟨cur, isLatest⟩ := isSome_iff_exists.mp known
  rw [filed] at hit
  unfold requestEntry Registry.get Registry.getVersion
  rw [isLatest, map_some]
  by_cases unnamed : entry.info.version = ""
  · simp only [unnamed, if_true, forall_const, ok.injEq, some.injEq]
    constructor
    · intro eq
      cases looked : r.entries.lookup (Registry.key entry.info.id cur) with
      | none =>
        rw [looked, getD_none] at eq
        rw [← eq] at factory
        cases factory
      | some held =>
        rw [looked, getD_some] at eq
        obtain ⟨sameKey, _⟩ := reg.filed looked
        rw [eq, unnamed] at sameKey
        exact Registry.eq_empty_of_key_eq sameKey
    · intro empty
      rw [unnamed] at hit
      rw [empty, hit, getD_some]
  · simp [unnamed, hit]

theorem instantiate_eq_ok {upsert : Option String}
    {newID : String} {live : LiveSim G} {info : SimulationInfo}
    (built : instantiate host upsert newID req = .ok (live, info)) :
    ∃ resolved config, Simulator.instantiate host.methods host.registry (fun _ => upsert)
        newID req = .ok resolved ∧ (runConfigOf req resolved).marshal host = .ok config ∧
      live = ⟨resolved.simulation, .new resolved.simulation.initial⟩ ∧ info.config = config ∧
      info.id = if req.simulationID = "" then newID
        else req.simulationID := by
  unfold instantiate at built
  split at built
  · cases built
  · rename_i resolved ok
    split at built
    · cases built
    · rename_i config enc
      cases built
      exact ⟨resolved, config, ok, enc, rfl, rfl, rfl⟩

theorem create_eq_ok {faults : Manager.CreateFaults}
    {newID : String} {now : Nat} {m after : Manager G} {row : SimulationInfo}
    (created : m.create host faults newID now req = (.ok row, after)) :
    ∃ live info, instantiate host faults.upsert newID req = .ok (live, info) ∧
      row.id = info.id ∧ row.config = info.config.reread host ∧ after.heap = m.heap ++ [live] := by
  unfold Manager.create at created
  split at created
  · cases created
  · rename_i live info built
    split at created
    · cases created
    · rename_i stored inserted
      unfold Manager.createSimulation at inserted
      split at inserted
      · cases inserted
      · cases inserted
      · cases inserted
        cases created
        exact ⟨live, info, built, rfl, rfl, rfl⟩

def message (config : String) : String :=
  if config = "" then "null" else config

theorem column_message_ne (valid : host.valid (message config) = true) :
    host.column (message config) ≠ "" := by
  intro empty
  have validAgain := host.valid_column _ valid
  rw [empty, host.valid_empty] at validAgain
  cases validAgain

theorem configured_message (reads : ReadsValue host) (valid : host.valid (message config) = true)
    (unconfigured : config = "" → host.methods.configure made = none) :
    host.methods.configured made (host.column (message config)) =
      host.methods.configured made config := by
  rw [ModelMethods.configured, if_neg (column_message_ne valid)]
  cases configure : host.methods.configure made with
  | none => simp [ModelMethods.configured, configure]
  | some configureWith =>
    have given : config ≠ "" := by
      intro empty
      rw [unconfigured empty] at configure
      cases configure
    rw [message, if_neg given] at valid ⊢
    simp only [ModelMethods.configured, if_neg given, configure]
    exact reads made configureWith config configure valid

theorem calls_message_iff (valid : host.valid (message config) = true) :
    host.methods.calls made (host.column (message config)) =
        (host.methods.calls made config).map host.column ↔
      (config = "" → host.methods.configure made = none) := by
  rw [ModelMethods.calls, if_neg (column_message_ne valid)]
  unfold ModelMethods.calls
  cases configure : host.methods.configure made with
  | none => simp
  | some configureWith =>
    by_cases empty : config = ""
    · simp [empty]
    · simp [empty, message]

theorem constructs_again_iff (reg : host.registry.Registered) (reads : ReadsValue host)
    {newID id : String} (other : String) {first : Construction M}
    (constructed : Constructs host.methods host.registry newID req first)
    (valid : host.valid (message req.config) = true) (named : id ≠ "")
    (sameID : id = if req.simulationID = "" then newID
      else req.simulationID) :
    (∃ second, Constructs host.methods host.registry other
        (RunConfig.request ⟨first.entry.info.id, first.entry.info.version,
          req.seed, first.config.mode.toText, req.maxTicks, req.maxTime,
          req.workers, host.column (message req.config)⟩ id) second ∧
      SameRun host first second) ↔ Replayable host req := by
  obtain ⟨made, factory, set, calls⟩ := constructed.model
  obtain ⟨name, hit⟩ := exists_filed constructed.entry factory
  constructor
  · rintro ⟨second, again, eq⟩
    obtain ⟨madeAgain, factoryAgain, _, callsAgain⟩ := again.model
    have own := again.entry
    rw [eq.entry] at own factoryAgain
    rw [factory, some.injEq] at factoryAgain
    subst factoryAgain
    refine ⟨first.entry, made, constructed.entry, factory,
      (requestEntry_own_iff reg hit factory).mp own, ?_⟩
    apply (calls_message_iff valid).mp
    rw [← calls, ← eq.calls]
    exact callsAgain.symm
  · rintro ⟨entry, _, asked, factoryAgain, own, unconfigured⟩
    rw [constructed.entry, ok.injEq] at asked
    subst asked
    rw [factory, some.injEq] at factoryAgain
    subst factoryAgain
    refine ⟨⟨first.entry, first.calls.map host.column, first.model,
      first.config⟩, ⟨?_, ⟨made, factory, ?_, ?_⟩, ?_, ?_⟩, rfl, rfl, rfl, rfl⟩
    · exact (requestEntry_own_iff reg hit factory).mpr own
    · rw [← set]
      exact configured_message reads valid unconfigured
    · rw [calls]
      exact ((calls_message_iff valid).mpr unconfigured).symm
    · exact requestMode_toText _ _
    · -- everything but the ID is copied, and the ID is not empty
      simp only [RunConfig.request, named, if_false]
      rw [sameID]
      exact constructed.config

/-- From the stored record, `Replay` gets the simulation that `Create` built
for the request, by the same construction, and keeps its configuration. -/
def Rebuilds (host : Host G M) (newID other : String) (req : CreateRequest)
    (row : SimulationInfo) (live : LiveSim G) : Prop :=
  ∃ first second info, Constructs host.methods host.registry newID req first ∧
    Constructs host.methods host.registry other (row.config.request row.id) second ∧
    SameRun host first second ∧ instantiate host none other (row.config.request row.id) =
      .ok (live, info) ∧ info.config = row.config

theorem replay_rebuilds_iff (host : Host G M)
    (registered : host.registry.Registered) (reads : ReadsValue host)
    (faults : Manager.CreateFaults) (random other : Option (Fin 8 → UInt8))
    (now : Nat) (req : CreateRequest) (m after : Manager G) (row : SimulationInfo)
    (created : m.create host faults (newID random) now req = (.ok row, after)) :
    (∃ live, after.heap[m.heap.length]? = some live ∧
      Rebuilds host (newID random) (newID other) req row live) ↔
        Replayable host req := by
  obtain ⟨live, info, instantiated, sameID, config, heap⟩ := create_eq_ok created
  obtain ⟨resolved, stored, ok, enc, liveEq, storedEq, infoID⟩ := instantiate_eq_ok instantiated
  obtain ⟨small, first, constructed, _, entryEq, modeEq, built⟩ := instantiate_eq_ok_iff.mp ok
  obtain ⟨valid, storedFields, finite⟩ := config_of_marshal enc
  have validMessage : host.valid (message req.config) = true := by
    rw [storedFields] at valid
    exact valid
  have named : row.id ≠ "" := by
    rw [sameID, infoID]
    split
    · exact newID_ne_empty random
    · assumption
  have configEq : row.config = ⟨first.entry.info.id,
      first.entry.info.version, req.seed, first.config.mode.toText,
      req.maxTicks, req.maxTime, req.workers, host.column (message req.config)⟩ := by
    rw [config, storedEq, storedFields, runConfigOf, entryEq, modeEq]
    rfl
  have again := constructs_again_iff registered reads (newID other)
    constructed validMessage named (sameID.trans infoID)
  rw [← configEq] at again
  rw [← again]
  constructor
  · rintro ⟨_, _, firstAgain, second, _, constructedFirst, constructedAgain, eq, _, _⟩
    rw [← constructed.unique constructedFirst] at eq
    exact ⟨second, constructedAgain, eq⟩
  · rintro ⟨second, constructedAgain, eq⟩
    have acceptedAgain : Simulator.instantiate host.methods host.registry
        (fun _ => none) (newID other) (row.config.request row.id) =
          .ok ⟨second.entry, second.config.mode, resolved.simulation⟩ := by
      apply instantiate_eq_ok_iff.mpr
      refine ⟨?_, second, constructedAgain, rfl, rfl, rfl, ?_⟩
      · rw [configEq]
        exact small
      · rw [eq.config, eq.model]
        exact built
    have marshalledAgain : (runConfigOf (row.config.request row.id)
        (⟨second.entry, second.config.mode, resolved.simulation⟩ :
          Resolved G M)).marshal host = .ok row.config := by
      rw [eq.entry, eq.config, configEq]
      exact marshal_of_valid (host.valid_column _ validMessage) finite
    have instantiatedAgain : ∃ fresh,
        instantiate host none (newID other) (row.config.request row.id) =
          .ok (live, fresh) ∧ fresh.config = row.config := by
      rw [instantiate, acceptedAgain, liveEq]
      simp only [marshalledAgain]
      exact ⟨_, rfl, rfl⟩
    obtain ⟨fresh, replayed, kept⟩ := instantiatedAgain
    refine ⟨live, ?_, first, second, fresh, constructed, constructedAgain, eq, replayed, kept⟩
    rw [heap]
    simp

end

/-- A model with one field, the number of entities it starts with.  As in
`CounterWorld`, `Configure` sets the field to what the document says, which is
zero for `null`. -/
def tallyMethods : ModelMethods flagTypes Nat where
  modelID _ := "tally"
  modelVersion _ := "1.0.0"
  mode _ := .tick
  configure _ := some fun text =>
    if text = "null" then .ok 0 else .ok text.length
  newExecutor _ _ := some ⟨Unit, tickExecutor (.halt none), fun _ => ()⟩
  setUp m w := .ok (m, (List.range m).foldl (fun w _ => { w with
      entities := (w.entities.create.map (·.2)).getD w.entities }) w)

def tallyHost : Host flagTypes Nat where
  methods := tallyMethods
  registry := Registry.new.registerInfo ⟨"tally", "Tally", "1.0.0", "", "tick"⟩ (some 1)
  valid := fun text => text ≠ ""
  valid_null := by decide
  valid_empty := by decide
  format := fun _ => "NaN"
  column := id
  column_null := id_eq "null"
  valid_column := fun _ valid => valid

def tallyRequest (config : String) : CreateRequest :=
  ⟨⟨"s", "tally", "1.0.0", 7, "tick", 10, Float64.zero, 1, config⟩, "u"⟩

def tallyManager (config : String) : Manager flagTypes :=
  (Manager.create tallyHost ⟨none, none⟩ (newID none) 0 (tallyRequest config)
    (.new fun _ => none)).2

theorem replay_rebuilds_iff_configured : (tallyRequest "12").config ≠ "" ∧ ∃ row live,
      (tallyManager "12").heap[0]? = some live ∧
        Rebuilds tallyHost (newID none) (newID none) (tallyRequest "12") row
          live :=
  ⟨by decide, _, (replay_rebuilds_iff tallyHost (.register .new _ _)
    (fun _ _ _ _ _ => rfl) ⟨none, none⟩ none none 0 (tallyRequest "12")
    (.new fun _ => none) (tallyManager "12") _ rfl).mpr ⟨_, _, rfl, rfl, by decide, by decide⟩⟩

def startingEntities (m : Manager flagTypes) : List Int :=
  m.heap.map fun live => live.built.initial.1.entities.len

theorem replay_configures_with_null :
    startingEntities (tallyManager "") = [1] ∧
      ((tallyManager "").replay tallyHost none none (newID none) "s").1 = none ∧
      startingEntities ((tallyManager "").replay tallyHost none none (newID none) "s").2 = [1, 0] :=
  ⟨rfl, rfl, rfl⟩

end Runner

end Simulator
