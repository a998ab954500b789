import Mathlib.Logic.Function.Basic

/-!
# The simulation runtime

`Sim.step` makes one move of one goroutine: what happens under one hold of the mutex, or
one access to the world.  Sessions and callers are numbered.
-/

namespace Simulator

inductive State
  | idle
  | running
  | paused
  | stopped
  | completed
  | failed
deriving DecidableEq

/-- `ErrAlreadyRunning` and `ErrNotRunning` -/
inductive LifecycleError
  | alreadyRunning
  | notRunning
deriving DecidableEq

def LifecycleError.message : LifecycleError → String
  | .alreadyRunning => "simulation: already running"
  | .notRunning => "simulation: not running"

/-- How `exec.step` ends: with no error and whether there is more to do, with
an error, or with a panic. -/
inductive StepOutcome
  | returned (more : Bool)
  | error (detail : String)
  | panicked (detail : String)
deriving DecidableEq

/-- `executor`.  A step in progress is a frame; one choice of its goroutines
leads to another frame or to the end of the step.  The flag tells whether the
context of the step is done. -/
structure Executor (W : Type) where
  Frame : Type
  Choice : Type
  start : W → Frame
  advance : Bool → W → Frame → Choice → Option (W × (Frame ⊕ StepOutcome))

inductive LimitAnswer
  | yes
  | no
  | panics (detail : String)
deriving DecidableEq

structure Limit (W : Type) where
  may : W → UInt64 → LimitAnswer → Bool
  answers : ∀ w steps, ∃ answer, may w steps answer = true

namespace Limit

variable {W : Type}

def unlimited : Limit W where
  may := fun _ _ answer => answer == .no
  answers := fun _ _ => ⟨.no, rfl⟩

/-- The limit of `RunN` -/
def atSteps (n : UInt64) : Limit W where
  may := fun _ steps answer => answer == if n ≤ steps then .yes else .no
  answers := fun _ steps => ⟨if n ≤ steps then .yes else .no, by simp⟩

def onWorld (test : W → Bool) : Limit W where
  may := fun w _ answer => answer == if test w then .yes else .no
  answers := fun w _ => ⟨if test w then .yes else .no, by simp⟩

/-- The predicate of `RunUntil`, about which nothing is known -/
def predicate : Limit W where
  may := fun _ _ _ => true
  answers := fun _ _ => ⟨.yes, rfl⟩

end Limit

variable {W : Type}

/-- Where a run loop is: `head` is before its state check, also after a wake
from `cond.Wait`; `checked` is between the check and the limit; `exiting` to
`closed` are the deferred finalizer, with the error of the run. -/
inductive LoopPoint (Frame : Type)
  | absent
  | begun
  | head
  | parked
  | checked
  | limitReached
  | stepping (frame : Frame)
  | stepped (outcome : StepOutcome)
  | interrupted
  | failing (detail : String)
  | drained
  | exiting (runErr : Option String)
  | finalized (runErr : Option String)
  | released (runErr : Option String)
  | closed (runErr : Option String)

inductive Watcher
  | absent
  | waiting
  | returned
deriving DecidableEq

structure SessionLog where
  executed : Nat
  stepFailed : Bool
  ranOut : Bool
  halted : Bool
deriving DecidableEq

structure Loop (E : Executor W) where
  point : LoopPoint E.Frame
  limit : Limit W
  cancelled : Bool
  watcher : Watcher
  log : SessionLog

/-- A call of `Step`, `Snapshot` or `Restore` in flight.  A snapshot has seen
the world at some moments; a restore has writes left to make. -/
inductive Call (E : Executor W)
  | idle
  | stepChecked
  | stepping (frame : E.Frame)
  | stepped (outcome : StepOutcome)
  | snapshotting (seen : List W)
  | restoring (writes : List (W → W))

structure Control where
  state : State
  err : Option String
  steps : UInt64
  cancel : Option Nat

/-- `Simulation` with its goroutines.  `cancel` and `done` name the session
whose cancel function and channel the fields hold. -/
structure Sim (E : Executor W) where
  world : W
  control : Control
  done : Option Nat
  sessions : Nat
  loops : Nat → Loop E
  calls : Nat → Call E

inductive LoopAction (E : Executor W)
  | register
  | look
  | ask (answer : LimitAnswer)
  | advance (choice : E.Choice)
  | handle
  | settle
  | finalize
  | release
  | close

inductive Action (E : Executor W)
  | start (limit : Limit W)
  | pause
  | resume
  | stop
  | cancelContext (session : Nat)
  | loop (session : Nat) (action : LoopAction E)
  | watch (session : Nat)
  | callStep (caller : Nat)
  | enterStep (caller : Nat)
  | advanceStep (caller : Nat) (cancelled : Bool) (choice : E.Choice)
  | leaveStep (caller : Nat)
  | callSnapshot (caller : Nat)
  | readWorld (caller : Nat)
  | leaveSnapshot (caller : Nat)
  | callRestore (caller : Nat) (writes : List (W → W))
  | writeWorld (caller : Nat)
  | leaveRestore (caller : Nat)

def panicText (detail : String) : String :=
  "simulation: model panic: " ++ detail

namespace LoopPoint

variable {Frame : Type}

def isOpen : LoopPoint Frame → Bool
  | .absent => false
  | .closed _ => false
  | _ => true

def isActive : LoopPoint Frame → Bool
  | .checked => true
  | .stepping _ => true
  | _ => false

def isStepping : LoopPoint Frame → Bool
  | .stepping _ => true
  | _ => false

def isReleased : LoopPoint Frame → Bool
  | .released _ => true
  | .closed _ => true
  | _ => false

/-- `cond.Broadcast` -/
def wake : LoopPoint Frame → LoopPoint Frame
  | .parked => .head
  | point => point

end LoopPoint

namespace Loop

variable {E : Executor W}

def wake (loop : Loop E) : Loop E :=
  { loop with point := loop.point.wake }

def absent : Loop E :=
  ⟨.absent, .unlimited, false, .absent, ⟨0, false, false, false⟩⟩

/-- Note that `Stop` was called or the context was cancelled from outside. -/
def halt (loop : Loop E) : Loop E :=
  { loop with log := { loop.log with halted := true } }

end Loop

namespace Call

variable {E : Executor W}

/-- A call of `Step` between its check and the end of `exec.step`. -/
def inStep : Call E → Bool
  | .stepChecked => true
  | .stepping _ => true
  | _ => false

def isStepping : Call E → Bool
  | .stepping _ => true
  | _ => false

/-- A call of `Snapshot` or `Restore` past its check. -/
def touches : Call E → Bool
  | .snapshotting _ => true
  | .restoring _ => true
  | _ => false

def isRestoring : Call E → Bool
  | .restoring _ => true
  | _ => false

end Call

def State.isGoing : State → Bool
  | .running => true
  | .paused => true
  | _ => false

def State.halt (state : State) : State :=
  if state.isGoing then .stopped else state

def State.complete : State → State
  | .running => .completed
  | state => state

namespace Loop

variable {E : Executor W}

/-- One move of the loop of session `i`: the guarded fields, the world, the
loop, and whether parked loops are woken. -/
def step (i : Nat) (c : Control) (w : W) (loop : Loop E) :
    LoopAction E → Option (Control × W × Loop E × Bool)
  | .register =>
    match loop.point with
    | .begun => some ({ c with cancel := some i }, w,
        { loop with point := .head, watcher := .waiting }, false)
    | _ => none
  | .look =>
    match loop.point with
    | .head =>
      match c.state with
      | .paused => some (c, w, { loop with point := .parked }, false)
      | .running => some (c, w, { loop with point := .checked }, false)
      | _ => some (c, w, { loop with point := .exiting none }, false)
    | _ => none
  | .ask answer =>
    match loop.point with
    | .checked =>
      if loop.limit.may w c.steps answer then
        match answer with
        | .yes => some (c, w, { loop with point := .limitReached }, false)
        | .no => some (c, w,
            { loop with point := .stepping (E.start w) }, false)
        | .panics detail => some (c, w, { loop with point := .exiting (some (panicText detail)) },
            false)
      else none
    | _ => none
  | .advance choice =>
    match loop.point with
    | .stepping frame =>
      match E.advance loop.cancelled w frame choice with
      | some (w', .inl frame') => some (c, w',
          { loop with point := .stepping frame' }, false)
      | some (w', .inr outcome) => some (c, w',
          { loop with
            point := .stepped outcome
            log := { loop.log with
              executed := if outcome = .returned true then
                loop.log.executed + 1 else loop.log.executed } }, false)
      | none => none
    | _ => none
  | .handle =>
    match loop.point with
    | .stepped (.error detail) =>
      if loop.cancelled then
        some (c, w, { loop with point := .interrupted }, false)
      else
        some (c, w, { loop with
          point := .failing detail
          log := { loop.log with stepFailed := true } }, false)
    | .stepped (.panicked detail) =>
      some (c, w, { loop with
        point := .exiting (some (panicText detail))
        log := { loop.log with stepFailed := true } }, false)
    | .stepped (.returned false) =>
      some (c, w, { loop with point := .drained }, false)
    | .stepped (.returned true) =>
      some ({ c with steps := c.steps + 1 }, w,
        { loop with point := .head }, false)
    | _ => none
  | .settle =>
    match loop.point with
    | .limitReached | .drained =>
      some ({ c with state := c.state.complete }, w,
        { loop with
          point := .exiting none
          log := { loop.log with ranOut := true } }, false)
    | .interrupted =>
      some ({ c with state := c.state.halt }, w,
        { loop with point := .exiting none }, c.state.isGoing)
    | .failing detail =>
      some ({ c with state := .failed, err := some detail }, w,
        { loop with point := .exiting (some detail) }, true)
    | _ => none
  | .finalize =>
    match loop.point with
    | .exiting (some detail) =>
      some ({ c with
          state := .failed, err := some detail, cancel := none }, w,
        { loop with point := .finalized (some detail) }, true)
    | .exiting none =>
      some ({ c with state := c.state.complete, cancel := none }, w,
        { loop with point := .finalized none }, false)
    | _ => none
  | .release =>
    match loop.point with
    | .finalized runErr => some (c, w,
        { loop with point := .released runErr, cancelled := true }, false)
    | _ => none
  | .close =>
    match loop.point with
    | .released runErr => some (c, w,
        { loop with point := .closed runErr }, false)
    | _ => none

end Loop

namespace Sim

variable {E : Executor W}

/-- `New`: an idle simulation over an initialized world. -/
def new (w : W) : Sim E where
  world := w
  control := ⟨.idle, none, 0, none⟩
  done := none
  sessions := 0
  loops := fun _ => .absent
  calls := fun _ => .idle

/-- The session `begin` makes. -/
def begun (limit : Limit W) : Loop E :=
  ⟨.begun, limit, false, .absent, ⟨0, false, false, false⟩⟩

/-- `begin`, for `Start`, `Run`, `RunN` and `RunUntil` -/
def begin (limit : Limit W) (sim : Sim E) : Except LifecycleError (Sim E) :=
  if sim.control.state = .running then .error .alreadyRunning
  else .ok { sim with
    control := { sim.control with state := .running, err := none, steps := 0 }
    done := some sim.sessions
    sessions := sim.sessions + 1
    loops := Function.update sim.loops sim.sessions (begun limit) }

def pause (sim : Sim E) : Except LifecycleError (Sim E) :=
  if sim.control.state = .running then
    .ok { sim with control := { sim.control with state := .paused } }
  else .error .notRunning

def resume (sim : Sim E) : Except LifecycleError (Sim E) :=
  if sim.control.state = .paused then
    .ok { sim with
      control := { sim.control with state := .running }
      loops := fun i => (sim.loops i).wake }
  else .error .notRunning

/-- The loops after `Stop`: the run context of the registered session is
cancelled, and parked loops are woken. -/
def stopLoop (cancel : Option Nat) (i : Nat) (loop : Loop E) : Loop E :=
  { loop.halt.wake with cancelled := loop.cancelled || cancel == some i }

def stop (sim : Sim E) : Except LifecycleError (Sim E) :=
  if sim.control.state.isGoing then
    .ok { sim with
      control := { sim.control with state := .stopped }
      loops := fun i => stopLoop sim.control.cancel i (sim.loops i) }
  else .error .notRunning

/-- The state check of `Step`, `Snapshot` and `Restore` -/
def check (sim : Sim E) : Except LifecycleError Unit :=
  if sim.control.state = .running then .error .alreadyRunning else .ok ()

def cancelContext (sim : Sim E) (i : Nat) : Option (Sim E) :=
  if (sim.loops i).point.isOpen then
    some { sim with
      loops := Function.update sim.loops i { (sim.loops i).halt with cancelled := true } }
  else none

def wakeAll (sim : Sim E) (woken : Bool) (j : Nat) : Loop E :=
  if woken then (sim.loops j).wake else sim.loops j

def loopStep (sim : Sim E) (i : Nat) (action : LoopAction E) : Option (Sim E) :=
  ((sim.loops i).step i sim.control sim.world action).map
    fun (control, world, loop, woken) =>
      { sim with
        control := control
        world := world
        loops := Function.update (sim.wakeAll woken) i loop }

def watch (sim : Sim E) (i : Nat) : Option (Sim E) :=
  if (sim.loops i).watcher = .waiting ∧ (sim.loops i).cancelled = true then
    let loops := sim.wakeAll sim.control.state.isGoing
    some { sim with
      control := { sim.control with state := sim.control.state.halt }
      loops := Function.update loops i { loops i with watcher := .returned } }
  else none

def setCall (sim : Sim E) (k : Nat) (call : Call E) : Sim E :=
  { sim with calls := Function.update sim.calls k call }

def enter (sim : Sim E) (k : Nat) (call : Call E) : Option (Sim E) :=
  match sim.calls k, sim.check with
  | .idle, .ok () => some (sim.setCall k call)
  | _, _ => none

/-- `exec.step` within a call of `Step` -/
def advanceStep (sim : Sim E) (k : Nat) (cancelled : Bool) (choice : E.Choice) : Option (Sim E) :=
  match sim.calls k with
  | .stepping frame =>
    match E.advance cancelled sim.world frame choice with
    | some (w, .inl next) =>
      some { sim.setCall k (.stepping next) with world := w }
    | some (w, .inr outcome) =>
      some { sim.setCall k (.stepped outcome) with world := w }
    | none => none
  | _ => none

/-- The end of `Step`.  A panic passes through it to the caller. -/
def leaveStep (sim : Sim E) (k : Nat) : Option (Sim E) :=
  match sim.calls k with
  | .stepped (.error detail) =>
    some { sim.setCall k .idle with
      control := { sim.control with state := .failed, err := some detail } }
  | .stepped (.returned _) =>
    some { sim.setCall k .idle with
      control := { sim.control with steps := sim.control.steps + 1 } }
  | .stepped (.panicked _) => some (sim.setCall k .idle)
  | _ => none

def step (sim : Sim E) : Action E → Option (Sim E)
  | .start limit => (sim.begin limit).toOption
  | .pause => sim.pause.toOption
  | .resume => sim.resume.toOption
  | .stop => sim.stop.toOption
  | .cancelContext i => sim.cancelContext i
  | .loop i action => sim.loopStep i action
  | .watch i => sim.watch i
  | .callStep k => sim.enter k .stepChecked
  | .enterStep k =>
    match sim.calls k with
    | .stepChecked => some (sim.setCall k (.stepping (E.start sim.world)))
    | _ => none
  | .advanceStep k cancelled choice => sim.advanceStep k cancelled choice
  | .leaveStep k => sim.leaveStep k
  | .callSnapshot k => sim.enter k (.snapshotting [])
  | .readWorld k =>
    match sim.calls k with
    | .snapshotting seen =>
      some (sim.setCall k (.snapshotting (sim.world :: seen)))
    | _ => none
  | .leaveSnapshot k =>
    match sim.calls k with
    | .snapshotting _ => some (sim.setCall k .idle)
    | _ => none
  | .callRestore k writes => sim.enter k (.restoring writes)
  | .writeWorld k =>
    match sim.calls k with
    | .restoring (write :: rest) =>
      some { sim.setCall k (.restoring rest) with
        world := write sim.world }
    | _ => none
  | .leaveRestore k =>
    match sim.calls k with
    | .restoring _ => some (sim.setCall k .idle)
    | _ => none

end Sim

end Simulator
