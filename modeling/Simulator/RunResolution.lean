import Simulator.Executors
import Simulator.ModelRegistry
import Simulator.SchedulerConstruction

/-!
# From a request to a simulation

The worker goes on without a version or mode that does not exist, the manager rejects it.
-/

namespace Simulator

structure Config extends SimulationConfig where
  maxTicks : UInt64
  maxTime : Float64

def Config.runConfig (cfg : Config) : RunConfig :=
  ⟨cfg.mode, cfg.maxTicks, cfg.maxTime⟩

structure BuiltExecutor (G : GoTypes) (M : Type) where
  Extra : Type
  executor : Executor (World G × Extra)
  extra : M → Extra

/-- The methods of models whose values have type `M`.  `configure` is missing
where a model is no `ConfigurableModel`, and `newExecutor` is missing a result
where it returns `ErrBadMode`; `setUp` is `Initialize`. -/
structure ModelMethods (G : GoTypes) (M : Type) where
  modelID : M → String
  modelVersion : M → String
  mode : M → Mode
  configure : M → Option (String → Except String M)
  newExecutor : Config → M → Option (BuiltExecutor G M)
  setUp : M → World G → Except String (M × World G)

/-- What `New` returns: an executor and an initialized world. -/
structure BuiltSimulation (G : GoTypes) where
  Extra : Type
  executor : Executor (World G × Extra)
  initial : World G × Extra
  cfg : Config

def NewError.message : NewError → String
  | .badMode => "simulation: model does not support configured mode"
  | .failed detail => detail

namespace ModelMethods

variable {G : GoTypes} {M : Type}

def new (methods : ModelMethods G M) (cfg : Config) (m : M) : Except NewError (BuiltSimulation G) :=
  match methods.newExecutor cfg m with
  | none => .error .badMode
  | some built =>
    match methods.setUp m (.new ⟨cfg.id, methods.modelID m,
        methods.modelVersion m, cfg.seed, cfg.mode⟩) with
    | .error detail => .error (.failed detail)
    | .ok (after, world) =>
      .ok ⟨built.Extra, built.executor, (world, built.extra after), cfg⟩

/-- The call of `Configure`, for a configuration that is not empty and a model
that has one. -/
def configured (methods : ModelMethods G M) (m : M) (config : String) : Except String M :=
  if config = "" then .ok m
  else
    match methods.configure m with
    | none => .ok m
    | some configure => configure config

end ModelMethods

structure RunJobPayload where
  simulationID : String
  modelID : String
  modelVersion : String
  seed : UInt64
  mode : String
  maxTicks : UInt64
  maxTime : Float64
  workers : Int
  config : String

structure CreateRequest extends RunJobPayload where
  ownerID : String

structure Resolved (G : GoTypes) (M : Type) where
  entry : RegistryEntry M
  mode : Mode
  simulation : BuiltSimulation G

def RunJobPayload.toConfig (p : RunJobPayload) (id : String) (mode : Mode) : Config :=
  ⟨⟨id, p.seed, mode, p.workers⟩, p.maxTicks, p.maxTime⟩

section

variable {G : GoTypes} {M : Type} (methods : ModelMethods G M) (r : Registry M)

/-- The mode of `RunJob`: that of the model, unless the payload says tick or
event. -/
def jobMode (requested : String) (own : Mode) : Mode :=
  if requested = "tick" then .tick
  else if requested = "event" then .event
  else own

/-- The entry of `RunJob`: the latest one, unless the version the payload
names is found. -/
def jobEntry (p : RunJobPayload) (latest : RegistryEntry M) : RegistryEntry M :=
  if p.modelVersion = "" then latest
  else (r.getVersion p.modelID p.modelVersion).getD latest

/-- `RunJob` from the decoded payload to the call of `Run`. -/
def prepareJob (p : RunJobPayload) : Except String (Resolved G M) :=
  match r.get p.modelID with
  | none => .error ("workers: unknown model " ++ p.modelID.quote)
  | some latest =>
    let entry := jobEntry r p latest
    match entry.factory with
    | none => .error ("workers: model " ++ p.modelID.quote ++ " has no factory")
    | some made =>
      match methods.configured made p.config with
      | .error detail => .error ("workers: configure: " ++ detail)
      | .ok m =>
        let mode := jobMode p.mode (methods.mode m)
        match methods.new (p.toConfig p.simulationID mode) m with
        | .error cause => .error ("workers: init simulation: " ++ cause.message)
        | .ok simulation => .ok ⟨entry, mode, simulation⟩

/-- The mode of `instantiate`. -/
def requestMode (requested : String) (own : Mode) : Except String Mode :=
  if requested = "" then .ok own
  else if requested = "tick" then .ok .tick
  else if requested = "event" then .ok .event
  else .error ("runner: invalid mode " ++ requested.quote)

/-- The entry of `instantiate`. -/
def requestEntry (modelID modelVersion : String) : Except String (RegistryEntry M) :=
  match r.get modelID with
  | none => .error ("runner: unknown model " ++ modelID.quote)
  | some latest =>
    if modelVersion = "" then .ok latest
    else
      match r.getVersion modelID modelVersion with
      | some entry => .ok entry
      | none => .error ("runner: unknown model version " ++ modelID ++ "@" ++ modelVersion)

/-- `Manager.instantiate`.  `upsert` is `UpsertModel` of the store with the
error it returns, and `newID` what the function of that name would return. -/
def instantiate (upsert : ModelInfo → Option String) (newID : String)
    (req : CreateRequest) : Except String (Resolved G M) :=
  if 2 ^ 63 ≤ req.seed.toNat then
    .error ("runner: seed " ++ toString req.seed.toNat ++
      " exceeds int64 range (PostgreSQL BIGINT); use a seed < 2^63")
  else
    match requestEntry r req.modelID req.modelVersion with
    | .error detail => .error detail
    | .ok entry =>
      match entry.factory with
      | none => .error ("runner: model " ++ entry.info.id ++ "@" ++
          entry.info.version ++ " has no factory")
      | some made =>
        match upsert entry.info with
        | some detail => .error ("runner: persist model: " ++ detail)
        | none =>
          match methods.configured made req.config with
          | .error detail => .error ("runner: configure model: " ++ detail)
          | .ok m =>
            match requestMode req.mode (methods.mode m) with
            | .error detail => .error detail
            | .ok mode =>
              let id := if req.simulationID = "" then newID
                else req.simulationID
              match methods.new (req.toConfig id mode) m with
              | .error cause => .error ("runner: init simulation: " ++ cause.message)
              | .ok simulation => .ok ⟨entry, mode, simulation⟩

def Agree (p : RunJobPayload) :
    Except String (Resolved G M) → Except String (Resolved G M) → Prop
  | .error _, .error _ => True
  | .ok first, .ok second =>
    first.entry = second.entry ∧ first.mode = second.mode ∧ (p.modelVersion ≠ "" →
        r.getVersion p.modelID p.modelVersion = some first.entry)
  | _, _ => False

def NamesKnown (p : RunJobPayload) : Prop :=
  (p.modelVersion = "" ∨ (r.getVersion p.modelID p.modelVersion).isSome = true) ∧
    (p.mode = "" ∨ p.mode = "tick" ∨ p.mode = "event")

def CanRun (p : RunJobPayload) : Prop :=
  ∃ latest made m simulation, r.get p.modelID = some latest ∧
    (jobEntry r p latest).factory = some made ∧ methods.configured made p.config = .ok m ∧
    methods.new (p.toConfig p.simulationID (jobMode p.mode (methods.mode m))) m = .ok simulation

variable {methods r} {p : RunJobPayload}

theorem prepareJob_of_canRun (canRun : CanRun methods r p) :
    ∃ resolved, prepareJob methods r p = .ok resolved := by
  obtain ⟨latest, made, m, simulation, known, factory, set, built⟩ := canRun
  simp [prepareJob, known, factory, set, built]

variable {resolved : Resolved G M}

theorem canRun_of_prepareJob (prepared : prepareJob methods r p = .ok resolved) :
    CanRun methods r p := by
  unfold prepareJob at prepared
  cases known : r.get p.modelID with
  | none => simp [known] at prepared
  | some latest =>
    cases factory : (jobEntry r p latest).factory with
    | none => simp [known, factory] at prepared
    | some made =>
      cases set : methods.configured made p.config with
      | error msg => simp [known, factory, set] at prepared
      | ok m =>
        cases built : methods.new (p.toConfig p.simulationID
            (jobMode p.mode (methods.mode m))) m with
        | error cause =>
          simp [known, factory, set, built] at prepared
        | ok simulation =>
          exact ⟨latest, made, m, simulation, known, factory, set, built⟩

section

variable (named : NamesKnown r p)
include named

theorem requestMode_of_named (own : Mode) :
    requestMode p.mode own = .ok (jobMode p.mode own) := by
  rcases named.2 with empty | tick | event
  · simp [requestMode, jobMode, empty]
  · simp [requestMode, jobMode, tick]
  · simp [requestMode, jobMode, event]

theorem requestEntry_of_named {latest : RegistryEntry M} (known : r.get p.modelID = some latest) :
    requestEntry r p.modelID p.modelVersion = .ok (jobEntry r p latest) := by
  rcases named.1 with empty | hit
  · simp [requestEntry, jobEntry, known, empty]
  · obtain ⟨x, ver⟩ := Option.isSome_iff_exists.mp hit
    by_cases empty : p.modelVersion = ""
    · simp [requestEntry, jobEntry, known, empty]
    · simp [requestEntry, jobEntry, known, ver, empty]

theorem getVersion_of_named (latest : RegistryEntry M) (given : p.modelVersion ≠ "") :
    r.getVersion p.modelID p.modelVersion = some (jobEntry r p latest) := by
  rcases named.1 with empty | hit
  · exact absurd empty given
  · obtain ⟨x, ver⟩ := Option.isSome_iff_exists.mp hit
    simp [jobEntry, ver, given]

theorem agree_of_named (seedFits : p.seed.toNat < 2 ^ 63) (ownerID : String) :
    Agree r p (prepareJob methods r p)
      (instantiate methods r (fun _ => none) p.simulationID ⟨p, ownerID⟩) := by
  have seedOk : ¬ 2 ^ 63 ≤ p.seed.toNat := by omega
  unfold prepareJob instantiate
  rw [if_neg seedOk]
  cases known : r.get p.modelID with
  | none => simp [requestEntry, known, Agree]
  | some latest =>
    rw [requestEntry_of_named named known]
    cases factory : (jobEntry r p latest).factory with
    | none => simp [factory, Agree]
    | some made =>
      cases set : methods.configured made p.config with
      | error msg => simp [factory, set, Agree]
      | ok m =>
        have ver := getVersion_of_named named latest
        cases built : methods.new (p.toConfig p.simulationID
            (jobMode p.mode (methods.mode m))) m with
        | error cause =>
          simp [factory, set, requestMode_of_named named, built, Agree]
        | ok simulation =>
          simpa [factory, set, requestMode_of_named named, built, Agree] using ver

end

theorem version_of_requestEntry {modelID modelVersion : String} {x : RegistryEntry M}
    (hit : requestEntry r modelID modelVersion = .ok x) :
    modelVersion = "" ∨ (r.getVersion modelID modelVersion).isSome = true := by
  unfold requestEntry at hit
  split at hit
  · cases hit
  · split at hit
    · exact .inl ‹_›
    · split at hit
      · rename_i held
        exact .inr (by rw [held]; rfl)
      · cases hit

theorem mode_of_requestMode {asked : String} {own mode : Mode}
    (ok : requestMode asked own = .ok mode) :
    asked = "" ∨ asked = "tick" ∨ asked = "event" := by
  unfold requestMode at ok
  split at ok
  · exact .inl ‹_›
  · split at ok
    · exact .inr (.inl ‹_›)
    · split at ok
      · exact .inr (.inr ‹_›)
      · cases ok

theorem named_of_instantiate {upsert : ModelInfo → Option String} {newID ownerID : String}
    (accepted : instantiate methods r upsert newID ⟨p, ownerID⟩ =
      .ok resolved) : NamesKnown r p := by
  unfold instantiate at accepted
  split at accepted
  · cases accepted
  · cases hit : requestEntry r p.modelID p.modelVersion with
    | error msg => simp [hit] at accepted
    | ok x =>
      refine ⟨version_of_requestEntry hit, ?_⟩
      cases factory : x.factory with
      | none => simp [hit, factory] at accepted
      | some made =>
        cases stored : upsert x.info with
        | some msg => simp [hit, factory, stored] at accepted
        | none =>
          cases set : methods.configured made p.config with
          | error msg =>
            simp [hit, factory, stored, set] at accepted
          | ok m =>
            cases chosen : requestMode p.mode (methods.mode m) with
            | error msg =>
              simp [hit, factory, stored, set, chosen] at accepted
            | ok mode => exact mode_of_requestMode chosen

theorem paths_agree_iff (methods : ModelMethods G M) (r : Registry M)
    (p : RunJobPayload) (ownerID : String) (seedFits : p.seed.toNat < 2 ^ 63) :
    Agree r p (prepareJob methods r p)
        (instantiate methods r (fun _ => none) p.simulationID ⟨p, ownerID⟩) ↔
      NamesKnown r p ∨ ¬ CanRun methods r p := by
  constructor
  · intro agree
    by_cases named : NamesKnown r p
    · exact .inl named
    · refine .inr ?_
      intro canRun
      obtain ⟨resolved, prepared⟩ := prepareJob_of_canRun canRun
      rw [prepared] at agree
      cases accepted : instantiate methods r (fun _ => none) p.simulationID ⟨p, ownerID⟩ with
      | error msg =>
        rw [accepted] at agree
        exact agree
      | ok other => exact named (named_of_instantiate accepted)
  · rintro (named | cannotRun)
    · exact agree_of_named named seedFits ownerID
    · by_cases named : NamesKnown r p
      · exact agree_of_named named seedFits ownerID
      · cases prepared : prepareJob methods r p with
        | ok resolved => exact absurd (canRun_of_prepareJob prepared) cannotRun
        | error msg =>
          cases accepted : instantiate methods r (fun _ => none) p.simulationID ⟨p, ownerID⟩ with
          | error other => trivial
          | ok other => exact absurd (named_of_instantiate accepted) named

end

def idleMethods : ModelMethods flagTypes Unit where
  modelID _ := "idle"
  modelVersion _ := "1.0.0"
  mode _ := .tick
  configure _ := none
  newExecutor cfg _ :=
    match cfg.mode with
    | .tick => some ⟨Unit, tickExecutor (.halt none), id⟩
    | .event => none
  setUp m w := .ok (m, w)

def idleRegistry : Registry Unit :=
  Registry.new.registerInfo ⟨"idle", "Idle", "1.0.0", "", "tick"⟩ (some ())

def idlePayload (version mode : String) : RunJobPayload :=
  ⟨"s", "idle", version, 7, mode, 10, Float64.zero, 1, ""⟩

theorem paths_agree_iff_named :
    Agree idleRegistry (idlePayload "1.0.0" "tick")
      (prepareJob idleMethods idleRegistry (idlePayload "1.0.0" "tick"))
      (instantiate idleMethods idleRegistry (fun _ => none) "s" ⟨idlePayload "1.0.0" "tick", ""⟩) :=
  (paths_agree_iff idleMethods idleRegistry (idlePayload "1.0.0" "tick") ""
    (by decide)).mpr (.inl ⟨.inr rfl, .inr (.inl rfl)⟩)

theorem worker_runs_other_version : (∃ resolved,
      prepareJob idleMethods idleRegistry (idlePayload "2.0.0" "tick") =
        .ok resolved ∧ resolved.entry.info.version = "1.0.0") ∧
      instantiate idleMethods idleRegistry (fun _ => none) "s" ⟨idlePayload "2.0.0" "tick", ""⟩ =
        .error "runner: unknown model version idle@2.0.0" ∧ (∃ resolved,
      prepareJob idleMethods idleRegistry (idlePayload "" "evnt") =
        .ok resolved ∧ resolved.mode = .tick) ∧
      instantiate idleMethods idleRegistry (fun _ => none) "s" ⟨idlePayload "" "evnt", ""⟩ =
        .error ("runner: invalid mode " ++ "evnt".quote) :=
  ⟨⟨_, rfl, rfl⟩, rfl, ⟨_, rfl, rfl⟩, rfl⟩

end Simulator
