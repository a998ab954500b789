import Simulator.RunResolution

/-!
# The simulation manager

Simulations are kept on a heap and the map holds their addresses.  The operations are
given as they run without interference.
-/

namespace Simulator

open Function

/-- A `Simulation`, with the executor that `New` built for it. -/
structure LiveSim (G : GoTypes) where
  built : BuiltSimulation G
  sim : Sim built.executor

namespace LiveSim

variable {G : GoTypes}

def state (live : LiveSim G) : State :=
  live.sim.control.state

def start (live : LiveSim G) : Except LifecycleError (LiveSim G) :=
  (live.sim.begin (defaultLimit live.built.cfg.runConfig)).map (⟨_, ·⟩)

def pause (live : LiveSim G) : Except LifecycleError (LiveSim G) :=
  live.sim.pause.map (⟨_, ·⟩)

def resume (live : LiveSim G) : Except LifecycleError (LiveSim G) :=
  live.sim.resume.map (⟨_, ·⟩)

def stop (live : LiveSim G) : Except LifecycleError (LiveSim G) :=
  live.sim.stop.map (⟨_, ·⟩)

end LiveSim

/-- `hex.EncodeToString` -/
def encodeToString (bytes : List UInt8) : String :=
  String.ofList (bytes.flatMap fun byte =>
    [Nat.digitChar (byte.toNat / 16), Nat.digitChar (byte.toNat % 16)])

namespace Runner

/-- `newID`, of the eight bytes that `rand.Read` gives. -/
def newID (random : Option (Fin 8 → UInt8)) : String :=
  match random with
  | none => "8"
  | some bytes => encodeToString (List.ofFn bytes)

theorem newID_ne_empty (rand : Option (Fin 8 → UInt8)) : newID rand ≠ "" := by
  cases rand with
  | none => decide
  | some bytes =>
    intro empty
    have lengths := congrArg String.length empty
    simp [newID, encodeToString, List.ofFn_succ] at lengths

/-- `ErrNotFound` -/
def notFound : String :=
  "runner: simulation not found"

def statusOf : State → String
  | .running => "running"
  | .paused => "paused"
  | .completed => "completed"
  | .failed => "failed"
  | .stopped => "stopped"
  | .idle => "created"

/-- `runConfig`.  The same fields stand for the JSON document it is encoded
as; an empty message is encoded as `null`. -/
structure RunConfig where
  modelID : String
  modelVersion : String
  seed : UInt64
  mode : String
  maxTicks : UInt64
  maxTime : Float64
  workers : Int
  model : String
deriving DecidableEq

/-- `SimulationInfo`.  A time is the zero value or a time stamp of the
database. -/
structure SimulationInfo where
  id : String
  modelID : String
  modelVersion : String
  seed : Int
  mode : String
  status : String
  config : RunConfig
  ownerID : Option String
  createdAt : Option Nat
deriving DecidableEq

/-- `managed`, with the address of the simulation. -/
structure Managed where
  sim : Nat
  info : SimulationInfo
deriving DecidableEq

/-- What the manager is given: the models and their registry, from the
standard library `json.Valid` and the text of a number that cannot be encoded,
and from the database the text that a JSON value has when it is read back. -/
structure Host (G : GoTypes) (M : Type) where
  methods : ModelMethods G M
  registry : Registry M
  valid : String → Bool
  valid_null : valid "null" = true
  valid_empty : valid "" = false
  format : Float64 → String
  column : String → String
  column_null : column "null" = "null"
  valid_column : ∀ text, valid text = true → valid (column text) = true

/-- `json.Marshal` of a `runConfig` -/
def RunConfig.marshal {G : GoTypes} {M : Type} (host : Host G M)
    (rc : RunConfig) : Except String RunConfig :=
  if rc.maxTime.isFinite = false then
    .error ("json: unsupported value: " ++ host.format rc.maxTime)
  else if rc.model = "" then .ok { rc with model := "null" }
  else if host.valid rc.model then .ok rc
  else .error "json: error calling MarshalJSON for type json.RawMessage"

/-- The document that comes back from the column `config`. -/
def RunConfig.reread {G : GoTypes} {M : Type} (host : Host G M) (rc : RunConfig) : RunConfig :=
  { rc with model := host.column rc.model }

/-- The request that `Replay` makes of a stored configuration. -/
def RunConfig.request (rc : RunConfig) (id : String) : CreateRequest :=
  ⟨⟨id, rc.modelID, rc.modelVersion, rc.seed, rc.mode, rc.maxTicks,
    rc.maxTime, rc.workers, rc.model⟩, ""⟩

def ownerPtr (s : String) : Option String :=
  if s = "" then none else some s

section

variable {G : GoTypes} {M : Type}

/-- The configuration `instantiate` keeps for later. -/
def runConfigOf (req : CreateRequest) (resolved : Resolved G M) : RunConfig :=
  ⟨resolved.entry.info.id, resolved.entry.info.version, req.seed,
    resolved.mode.toText, req.maxTicks, req.maxTime, req.workers, req.config⟩

/-- `Manager.instantiate` from the request to the record.  `upsert` is the
error of `UpsertModel`, and `newID` what the function of that name returns. -/
def instantiate (host : Host G M) (upsert : Option String) (newID : String)
    (req : CreateRequest) : Except String (LiveSim G × SimulationInfo) :=
  match Simulator.instantiate host.methods host.registry (fun _ => upsert) newID req with
  | .error detail => .error detail
  | .ok resolved =>
    match (runConfigOf req resolved).marshal host with
    | .error detail => .error detail
    | .ok config =>
      .ok (⟨resolved.simulation, .new resolved.simulation.initial⟩,
        { id := if req.simulationID = "" then newID
            else req.simulationID
          modelID := resolved.entry.info.id
          modelVersion := resolved.entry.info.version
          seed := req.seed.toNat
          mode := resolved.mode.toText
          status := "created"
          config := config
          ownerID := ownerPtr req.ownerID
          createdAt := none })

end

/-- `Manager` with its store: the map, the rows of the table `simulations`,
and the simulations made so far.  The map only holds addresses of
simulations. -/
structure Manager (G : GoTypes) where
  sims : String → Option Managed
  rows : String → Option SimulationInfo
  heap : List (LiveSim G)
  linked : ∀ id mg, sims id = some mg → mg.sim < heap.length

namespace Manager

variable {G : GoTypes} {M : Type}

/-- `NewManager`, on a store that may hold records already. -/
def new (rows : String → Option SimulationInfo) : Manager G where
  sims := fun _ => none
  rows := rows
  heap := []
  linked := by simp

/-- `State` of the simulation at an address. -/
def state (m : Manager G) (address : Nat) : State :=
  (m.heap[address]?).elim .idle LiveSim.state

def alloc (m : Manager G) (live : LiveSim G) : Manager G where
  sims := m.sims
  rows := m.rows
  heap := m.heap ++ [live]
  linked := by
    intro id mg found
    have := m.linked id mg found
    rw [List.length_append]
    omega

def setSim (m : Manager G) (address : Nat) (live : LiveSim G) :
    Manager G where
  sims := m.sims
  rows := m.rows
  heap := m.heap.set address live
  linked := by
    intro id mg found
    rw [List.length_set]
    exact m.linked id mg found

def operate (m : Manager G) (address : Nat) (f : LiveSim G → Except LifecycleError (LiveSim G)) :
    Except LifecycleError (Manager G) :=
  match m.heap[address]? with
  | none => .error .notRunning
  | some live => (f live).map (m.setSim address)

/-- `m.sims[id] = mg` -/
def put (m : Manager G) (id : String) (mg : Managed)
    (made : mg.sim < m.heap.length) : Manager G where
  sims := Function.update m.sims id (some mg)
  rows := m.rows
  heap := m.heap
  linked := by
    intro other held found
    by_cases same : other = id
    · rw [same, Function.update_self, Option.some.injEq] at found
      rw [← found]
      exact made
    · rw [Function.update_of_ne same] at found
      exact m.linked other held found

/-- `delete(m.sims, id)` -/
def remove (m : Manager G) (id : String) : Manager G where
  sims := Function.update m.sims id none
  rows := m.rows
  heap := m.heap
  linked := by
    intro other held found
    by_cases same : other = id
    · rw [same, Function.update_self] at found
      cases found
    · rw [Function.update_of_ne same] at found
      exact m.linked other held found

def setRow (m : Manager G) (id : String) (row : Option SimulationInfo) :
    Manager G where
  sims := m.sims
  rows := Function.update m.rows id row
  heap := m.heap
  linked := m.linked

/-- The row that `CreateSimulation` of the store adds at the time `now` and
reads back.  The ID is the primary key of the table. -/
def createSimulation (host : Host G M) (m : Manager G)
    (fails : Option String) (now : Nat) (info : SimulationInfo) : Except String SimulationInfo :=
  match fails, m.rows info.id with
  | some detail, _ => .error detail
  | none, some _ => .error "duplicate key value violates unique constraint simulations_pkey"
  | none, none => .ok
      { info with
        config := info.config.reread host
        createdAt := some now }

/-- `DeleteSimulation` of the store -/
def deleteSimulation (m : Manager G) (fails : Option String) (id : String) :
    Except String (Manager G) :=
  match fails with
  | some detail => .error detail
  | none => .ok (m.setRow id none)

/-- `updateStatus`: an error of the store is dropped. -/
def updateStatus (m : Manager G) (fails : Option String) (id status : String) : Manager G :=
  match fails, m.rows id with
  | none, some row => m.setRow id (some { row with status := status })
  | _, _ => m

def lookup (m : Manager G) (id : String) : Except String Managed :=
  match m.sims id with
  | none => .error notFound
  | some mg => .ok mg

def get (m : Manager G) (id : String) : Option SimulationInfo :=
  (m.sims id).map fun mg =>
    { mg.info with status := statusOf (m.state mg.sim) }

/-- The errors of the store that `Create` may meet. -/
structure CreateFaults where
  upsert : Option String
  insert : Option String

def create (host : Host G M) (faults : CreateFaults) (newID : String)
    (now : Nat) (req : CreateRequest) (m : Manager G) : Except String SimulationInfo × Manager G :=
  match instantiate host faults.upsert newID req with
  | .error detail => (.error detail, m)
  | .ok (live, info) =>
    match createSimulation host m faults.insert now info with
    | .error detail =>
      (.error ("runner: persist simulation: " ++ detail), m.alloc live)
    | .ok row =>
      (.ok row, ((m.alloc live).setRow row.id (some row)).put row.id
        ⟨m.heap.length, row⟩ (by simp [setRow, alloc]))

def delete (fails : Option String) (id : String) (m : Manager G) : Option String × Manager G :=
  match m.lookup id with
  | .error detail => (some detail, m)
  | .ok mg =>
    if m.state mg.sim = .running ∨ m.state mg.sim = .paused then
      (some "runner: cannot delete a running simulation", m)
    else
      -- nothing is going, so `Stop` returns `ErrNotRunning`, which is
      -- passed by
      let stopped := (m.operate mg.sim LiveSim.stop).toOption.getD m
      let removed := stopped.remove id
      match removed.deleteSimulation fails id with
      | .error detail =>
        (some ("runner: delete simulation: " ++ detail), removed)
      | .ok after => (none, after)

/-- `Replay`.  The goroutine it starts at the end is not part of the call. -/
def replay (host : Host G M) (upsert update : Option String)
    (newID id : String) (m : Manager G) : Option String × Manager G :=
  match m.lookup id with
  | .error detail => (some detail, m)
  | .ok mg =>
    let stopped := (m.operate mg.sim LiveSim.stop).toOption.getD m
    match instantiate host upsert newID (mg.info.config.request id) with
    | .error detail => (some detail, stopped)
    | .ok (live, info) =>
      let made := stopped.alloc live
      let placed := made.put id ⟨stopped.heap.length, info⟩ (by simp [made, alloc])
      match placed.operate stopped.heap.length LiveSim.start with
      | .error cause => (some cause.message, placed)
      | .ok started => (none, started.updateStatus update id "running")

/-- `Start`.  The goroutine it starts at the end is not part of the call. -/
def start (update : Option String) (id : String) (m : Manager G) : Option String × Manager G :=
  match m.lookup id with
  | .error detail => (some detail, m)
  | .ok mg =>
    match m.operate mg.sim LiveSim.start with
    | .error cause => (some cause.message, m)
    | .ok started => (none, started.updateStatus update id "running")

def control (update : Option String) (id status : String)
    (f : LiveSim G → Except LifecycleError (LiveSim G)) (m : Manager G) :
    Option String × Manager G :=
  match m.lookup id with
  | .error detail => (some detail, m)
  | .ok mg =>
    match m.operate mg.sim f with
    | .error cause => (some cause.message, m)
    | .ok after => (none, after.updateStatus update id status)

def pause (update : Option String) (id : String) : Manager G → Option String × Manager G :=
  control update id "paused" LiveSim.pause

def resume (update : Option String) (id : String) : Manager G → Option String × Manager G :=
  control update id "running" LiveSim.resume

def stop (update : Option String) (id : String) : Manager G → Option String × Manager G :=
  control update id "stopped" LiveSim.stop

/-- A method of a simulation that takes more than one hold of its mutex:
`Step`, `Snapshot` or `Restore`, or what its own goroutines do. -/
abbrev Work (G : GoTypes) : Type 1 :=
  LiveSim G → Option String × LiveSim G

def perform (m : Manager G) (address : Nat) (work : Work G) : Option String × Manager G :=
  match m.heap[address]? with
  | none => (none, m)
  | some live => ((work live).1, m.setSim address (work live).2)

def step (work : Work G) (update : Option String) (id : String)
    (m : Manager G) : Option String × Manager G :=
  match m.lookup id with
  | .error detail => (some detail, m)
  | .ok mg =>
    match m.perform mg.sim work with
    | (some detail, after) => (some detail, after)
    | (none, after) =>
      (none, after.updateStatus update id (statusOf (after.state mg.sim)))

/-- `Snapshot`; `save` is the error of `SaveSnapshot`. -/
def snapshot (work : Work G) (save : Option String) (id : String)
    (m : Manager G) : Option String × Manager G :=
  match m.lookup id with
  | .error detail => (some detail, m)
  | .ok mg =>
    match m.perform mg.sim work with
    | (some detail, after) => (some detail, after)
    | (none, after) => (save, after)

def restore (work : Work G) (id : String) (m : Manager G) : Option String × Manager G :=
  match m.lookup id with
  | .error detail => (some detail, m)
  | .ok mg => m.perform mg.sim work

/-- The end of `watch`: the status of the simulation is written. -/
def report (update : Option String) (id : String) (mg : Managed) (m : Manager G) : Manager G :=
  m.updateStatus update id (statusOf (m.state mg.sim))

section Frame

variable (m : Manager G)

@[simp]
theorem sims_setRow (id : String) (row : Option SimulationInfo) : (m.setRow id row).sims = m.sims :=
  rfl

@[simp]
theorem rows_setRow (id : String) (row : Option SimulationInfo) :
    (m.setRow id row).rows = update m.rows id row :=
  rfl

@[simp]
theorem sims_put (id : String) (mg : Managed) (made : mg.sim < m.heap.length) :
    (m.put id mg made).sims = update m.sims id (some mg) :=
  rfl

@[simp]
theorem sims_remove (id : String) : (m.remove id).sims = update m.sims id none :=
  rfl

theorem updateStatus_frame (fails : Option String) (id status : String) :
    (m.updateStatus fails id status).sims = m.sims ∧
      (m.updateStatus fails id status).heap = m.heap ∧
      ∀ other, ((m.updateStatus fails id status).rows other).isSome = (m.rows other).isSome := by
  unfold updateStatus
  split
  · rename_i row hit
    refine ⟨rfl, rfl, ?_⟩
    intro other
    by_cases eq : other = id
    · simp [setRow, eq, hit]
    · simp [setRow, update_of_ne eq]
  · exact ⟨rfl, rfl, fun _ => rfl⟩

theorem operate_eq_ok {m after : Manager G} {addr : Nat}
    {f : LiveSim G → Except LifecycleError (LiveSim G)} (operated : m.operate addr f = .ok after) :
    ∃ live next, m.heap[addr]? = some live ∧ f live = .ok next ∧ after = m.setSim addr next := by
  unfold operate at operated
  split at operated
  · cases operated
  · rename_i live hit
    cases worked : f live with
    | error cause =>
      rw [worked] at operated
      cases operated
    | ok next =>
      rw [worked] at operated
      cases operated
      exact ⟨live, next, hit, worked, rfl⟩

theorem perform_frame (addr : Nat) (work : Work G) : (m.perform addr work).2.sims = m.sims ∧
      (m.perform addr work).2.rows = m.rows := by
  unfold perform
  split
  · exact ⟨rfl, rfl⟩
  · exact ⟨rfl, rfl⟩

end Frame

end Manager

end Runner

end Simulator
