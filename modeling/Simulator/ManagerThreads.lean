import Simulator.ManagerFailures
import Simulator.TransitionRuns

/-!
# Requests in flight

A method of the manager is a sequence of separately locked steps; a `Point` says where a
request has got to, with its local variables.
-/

namespace Simulator

namespace LiveSim

variable {G : GoTypes}

abbrev Choose (G : GoTypes) : Type 1 :=
  ∀ live : LiveSim G, Action live.built.executor

def act (live : LiveSim G) (choose : Choose G) : Option (LiveSim G) :=
  (live.sim.step (choose live)).map (⟨live.built, ·⟩)

end LiveSim

namespace Runner

structure Claims where
  userID : String
  role : String
deriving DecidableEq

/-- `owns`; without authentication there are no claims. -/
def owns (claims : Option Claims) (info : SimulationInfo) : Bool :=
  match claims with
  | none => true
  | some claims =>
    claims.role = "ADMIN" || info.ownerID == some claims.userID

/-- The request of `createSimulation`: its owner is the authenticated user. -/
def ownedBy (claims : Option Claims) (req : CreateRequest) : CreateRequest :=
  match claims with
  | none => req
  | some claims => { req with ownerID := claims.userID }

inductive Lifecycle
  | start
  | pause
  | resume
  | stop
deriving DecidableEq

namespace Lifecycle

def run {G : GoTypes} : Lifecycle → LiveSim G → Except LifecycleError (LiveSim G)
  | .start => LiveSim.start
  | .pause => LiveSim.pause
  | .resume => LiveSim.resume
  | .stop => LiveSim.stop

def status : Lifecycle → String
  | .start => "running"
  | .pause => "paused"
  | .resume => "running"
  | .stop => "stopped"

end Lifecycle

inductive Method
  | step
  | snapshot
  | restore
deriving DecidableEq

namespace Method

variable {W : Type} {E : Executor W}

def enters (caller : Nat) : Method → Action E → Bool
  | .step, .callStep k => k = caller
  | .snapshot, .callSnapshot k => k = caller
  | .restore, .callRestore k _ => k = caller
  | _, _ => false

def inside (caller : Nat) : Method → Action E → Bool
  | .step, .enterStep k => k = caller
  | .step, .advanceStep k _ _ => k = caller
  | .snapshot, .readWorld k => k = caller
  | .restore, .writeWorld k => k = caller
  | _, _ => false

def leaves (caller : Nat) : Method → Action E → Bool
  | .step, .leaveStep k => k = caller
  | .snapshot, .leaveSnapshot k => k = caller
  | .restore, .leaveRestore k => k = caller
  | _, _ => false

/-- The call is a `Step` that is about to return without an error. -/
def succeeds : Method → Call E → Bool
  | .step, .stepped (.returned _) => true
  | _, _ => false

end Method

/-- What a goroutine has been asked to do.  `read` stands for the handlers
that only look at a simulation, and `watch` for the goroutine that `Start` and
`Replay` leave behind. -/
inductive Task
  | create (req : CreateRequest) (random : Option (Fin 8 → UInt8)) (now : Nat)
  | lifecycle (op : Lifecycle) (id : String)
  | method (f : Method) (id : String)
  | read (id : String)
  | delete (id : String)
  | replay (id : String) (random : Option (Fin 8 → UInt8))
  | watch (id : String)

namespace Task

def id : Task → String
  | .create req random _ =>
    if req.simulationID = "" then newID random else req.simulationID
  | .lifecycle _ id => id
  | .method _ id => id
  | .read id => id
  | .delete id => id
  | .replay id _ => id
  | .watch id => id

/-- The task is a route below `/simulations/{id}`. -/
def isHandler : Task → Bool
  | .create _ _ _ => false
  | .watch _ => false
  | _ => true

end Task

/-- Where a task is, after: `entered` its beginning, `admitted` the ownership
middleware, `found` the lookup, `built` `instantiate`, `stored` the insertion
of the row, `placed` the change of the map, `applied` the lifecycle operation,
`working` the state check of a method, `stepped` the end of `Step`, `read` the
reading of the state, `notRunning` and `notPaused` the two tests of `Delete`,
`halted` the call of `Stop`, `removed` the removal from the map, `waiting` the
reading of the channel in `Wait`, `waited` its end. -/
inductive Point
  | entered
  | admitted
  | found (mg : Managed)
  | built (mg : Managed)
  | stored (mg : Managed)
  | placed (mg : Managed)
  | applied
  | working (mg : Managed)
  | stepped (mg : Managed)
  | read (status : String)
  | notRunning (mg : Managed)
  | notPaused (mg : Managed)
  | halted (mg : Managed)
  | removed
  | waiting (mg : Managed) (session : Nat)
  | waited (mg : Managed)

structure Request where
  claims : Option Claims
  task : Task
  point : Point

structure Input (G : GoTypes) where
  fault : Option String
  spawn : Nat
  work : LiveSim.Choose G

/-- The manager after a step, where the task is then, and whether it leaves a
`watch` behind. -/
structure Outcome (G : GoTypes) where
  manager : Manager G
  point : Option Point
  watched : Bool

namespace Outcome

variable {G : GoTypes}

def goesOn (m : Manager G) (point : Point) : Outcome G :=
  ⟨m, some point, false⟩

def returns (m : Manager G) : Outcome G :=
  ⟨m, none, false⟩

/-- Return and leave a `watch` behind. -/
def leavesWatch (m : Manager G) : Outcome G :=
  ⟨m, none, true⟩

end Outcome

namespace Manager

variable {G : GoTypes} {M : Type}

def act (m : Manager G) (address : Nat) (choose : LiveSim.Choose G) : Option (Manager G) :=
  match m.heap[address]? with
  | none => none
  | some live => (live.act choose).map (m.setSim address)

/-- The session whose channel `Wait` takes. -/
def doneOf (m : Manager G) (address : Nat) : Option Nat :=
  (m.heap[address]?).bind (·.sim.done)

def isClosed (m : Manager G) (address session : Nat) : Bool :=
  match m.heap[address]? with
  | none => false
  | some live =>
    match (live.sim.loops session).point with
    | .closed _ => true
    | _ => false

def look (m : Manager G) (id : String) : Outcome G :=
  match m.lookup id with
  | .error _ => .returns m
  | .ok mg => .goesOn m (.found mg)

/-- `ownership`: an ID without a simulation passes. -/
def ownership (m : Manager G) (claims : Option Claims) (id : String) : Outcome G :=
  match m.get id with
  | none => .goesOn m .admitted
  | some info =>
    if owns claims info then .goesOn m .admitted else .returns m

/-- The steps of `createSimulation` and `Create`. -/
def createNext (host : Host G M) (m : Manager G) (claims : Option Claims)
    (req : CreateRequest) (random : Option (Fin 8 → UInt8)) (now : Nat)
    (input : Input G) : Point → Option (Outcome G)
  | .entered =>
    match instantiate host input.fault (newID random) (ownedBy claims req) with
    | .error _ => some (.returns m)
    | .ok (live, info) =>
      some (.goesOn (m.alloc live) (.built ⟨m.heap.length, info⟩))
  | .built mg =>
    match m.createSimulation host input.fault now mg.info with
    | .error _ => some (.returns m)
    | .ok row =>
      some (.goesOn (m.setRow row.id (some row)) (.stored ⟨mg.sim, row⟩))
  | .stored mg =>
    if made : mg.sim < m.heap.length then
      some (.returns (m.put mg.info.id mg made))
    else none
  | _ => none

/-- The steps of `Start` and of `control`. -/
def lifecycleNext (m : Manager G) (op : Lifecycle) (id : String)
    (input : Input G) : Point → Option (Outcome G)
  | .admitted => some (m.look id)
  | .found mg =>
    match m.operate mg.sim op.run with
    | .error _ => some (.returns m)
    | .ok after => some (.goesOn after .applied)
  | .applied =>
    let written := m.updateStatus input.fault id op.status
    match op with
    | .start => some (.leavesWatch written)
    | _ => some (.returns written)
  | _ => none

/-- The steps of `Step`, `Snapshot` and `Restore`.  The move made in the
simulation must be one of the caller's, who is the goroutine `t`. -/
def methodNext (m : Manager G) (t : Nat) (f : Method) (id : String)
    (input : Input G) : Point → Option (Outcome G)
  | .admitted => some (m.look id)
  | .found mg =>
    match m.heap[mg.sim]? with
    | none => none
    | some live =>
      if f.enters t (input.work live) then
        match live.act input.work with
        | none => some (.returns m)
        | some next =>
          some (.goesOn (m.setSim mg.sim next) (.working mg))
      else none
  | .working mg =>
    match m.heap[mg.sim]? with
    | none => none
    | some live =>
      if f.inside t (input.work live) then
        (live.act input.work).map fun next =>
          .goesOn (m.setSim mg.sim next) (.working mg)
      else if f.leaves t (input.work live) then
        (live.act input.work).map fun next =>
          if f.succeeds (live.sim.calls t) then
            .goesOn (m.setSim mg.sim next) (.stepped mg)
          else .returns (m.setSim mg.sim next)
      else none
  | .stepped mg => some (.goesOn m (.read (statusOf (m.state mg.sim))))
  | .read status => some (.returns (m.updateStatus input.fault id status))
  | _ => none

/-- The steps of `Get`, `State`, `Metrics` and the handlers of events and of
the stream, which reads again until the client is gone. -/
def readNext (m : Manager G) (id : String) (input : Input G) :
    Point → Option (Outcome G)
  | .admitted => some (m.look id)
  | .found mg =>
    match input.fault with
    | none => some (.goesOn m (.found mg))
    | some _ => some (.returns m)
  | _ => none

/-- The steps of `Delete`. -/
def deleteNext (m : Manager G) (id : String) (input : Input G) :
    Point → Option (Outcome G)
  | .admitted => some (m.look id)
  | .found mg =>
    if m.state mg.sim = .running then some (.returns m)
    else some (.goesOn m (.notRunning mg))
  | .notRunning mg =>
    if m.state mg.sim = .paused then some (.returns m)
    else some (.goesOn m (.notPaused mg))
  | .notPaused mg => some (.goesOn (m.halted mg.sim) (.halted mg))
  | .halted _ => some (.goesOn (m.remove id) .removed)
  | .removed =>
    match m.deleteSimulation input.fault id with
    | .error _ => some (.returns m)
    | .ok after => some (.returns after)
  | _ => none

/-- The steps of `Replay`. -/
def replayNext (host : Host G M) (m : Manager G) (id : String)
    (random : Option (Fin 8 → UInt8)) (input : Input G) :
    Point → Option (Outcome G)
  | .admitted => some (m.look id)
  | .found mg => some (.goesOn (m.halted mg.sim) (.halted mg))
  | .halted mg =>
    match instantiate host input.fault (newID random) (mg.info.config.request id) with
    | .error _ => some (.returns m)
    | .ok (live, info) =>
      some (.goesOn (m.alloc live) (.built ⟨m.heap.length, info⟩))
  | .built mg =>
    if made : mg.sim < m.heap.length then
      some (.goesOn (m.put id mg made) (.placed mg))
    else none
  | .placed mg =>
    match m.operate mg.sim LiveSim.start with
    | .error _ => some (.returns m)
    | .ok after => some (.goesOn after .applied)
  | .applied =>
    some (.leavesWatch (m.updateStatus input.fault id "running"))
  | _ => none

/-- The steps of `watch`. -/
def watchNext (m : Manager G) (id : String) (input : Input G) :
    Point → Option (Outcome G)
  | .entered => some (m.look id)
  | .found mg =>
    match m.doneOf mg.sim with
    | none => some (.goesOn m (.waited mg))
    | some session => some (.goesOn m (.waiting mg session))
  | .waiting mg session =>
    if m.isClosed mg.sim session then some (.goesOn m (.waited mg))
    else none
  | .waited mg => some (.goesOn m (.read (statusOf (m.state mg.sim))))
  | .read status => some (.returns (m.updateStatus input.fault id status))
  | _ => none

end Manager

section

variable {G : GoTypes} {M : Type}

/-- The next step of the goroutine `t`. -/
def Request.next (host : Host G M) (t : Nat) (m : Manager G)
    (r : Request) (input : Input G) : Option (Outcome G) :=
  match r.task, r.point with
  | .create req random now, point =>
    m.createNext host r.claims req random now input point
  | .watch id, point => m.watchNext id input point
  | task, .entered => some (m.ownership r.claims task.id)
  | .lifecycle op id, point => m.lifecycleNext op id input point
  | .method f id, point => m.methodNext t f id input point
  | .read id, point => m.readNext id input point
  | .delete id, point => m.deleteNext id input point
  | .replay id random, point => m.replayNext host id random input point

/-- The manager with the requests in flight.  `deleted` notes for which IDs
`Delete` has returned without an error since they were created; no move reads
it. -/
structure Server (G : GoTypes) where
  manager : Manager G
  threads : Nat → Option Request
  deleted : String → Bool

inductive Move (G : GoTypes)
  | call (t : Nat) (claims : Option Claims) (task : Task)
  | advance (t : Nat) (input : Input G)
  | loop (address session : Nat) (choose : ∀ live : LiveSim G, LoopAction live.built.executor)
  | watcher (address session : Nat)

namespace Server

def new (m : Manager G) : Server G :=
  ⟨m, fun _ => none, fun _ => false⟩

def note (deleted : String → Bool) (r : Request) (input : Input G) : String → Bool :=
  match r.task, r.point, input.fault with
  | .delete id, .removed, none => Function.update deleted id true
  | .create _ _ _, .stored mg, _ => Function.update deleted mg.info.id false
  | _, _, _ => deleted

def settle (s : Server G) (t : Nat) (r : Request) (input : Input G)
    (outcome : Outcome G) : Option (Server G) :=
  let threads := Function.update s.threads t
    (outcome.point.map fun point => { r with point := point })
  let deleted := note s.deleted r input
  if outcome.watched then
    if threads input.spawn = none then
      some ⟨outcome.manager, Function.update threads input.spawn
        (some ⟨none, .watch r.task.id, .entered⟩), deleted⟩
    else none
  else some ⟨outcome.manager, threads, deleted⟩

def step (host : Host G M) (s : Server G) : Move G → Option (Server G)
  | .call t claims task =>
    match s.threads t, task with
    | some _, _ => none
    | none, .watch _ => none
    | none, task => some { s with
        threads := Function.update s.threads t (some ⟨claims, task, .entered⟩) }
  | .advance t input =>
    match s.threads t with
    | none => none
    | some r => (r.next host t s.manager input).bind (s.settle t r input)
  | .loop address session choose =>
    (s.manager.act address fun live => .loop session (choose live)).map
      fun m => { s with manager := m }
  | .watcher address session =>
    (s.manager.act address fun _ => .watch session).map fun m => { s with manager := m }

/-- A step without failures that leaves its `watch` in slot 9. -/
def plain (t : Nat) : Move flagTypes :=
  .advance t ⟨none, 9, fun _ => .stop⟩

/-- The user creates the simulation `s`. -/
def creation : List (Move flagTypes) :=
  [.call 0 none (.create ⟨idlePayload "1.0.0" "tick", "u"⟩ none 0), plain 0, plain 0, plain 0]

def blank : Server flagTypes :=
  .new (.new fun _ => none)

end Server

end

end Runner

end Simulator
