import Simulator.Scheduler
import Simulator.SimulationRuntime
import Simulator.WorldOperations

/-!
# Executors

The functions of a model are processes whose atomic actions are its accesses to the
world and to its fields.
-/

namespace Simulator

open Interleaving

variable {G : GoTypes} {M : Type}

inductive StepFault
  | error (detail : String)
  | panic (detail : String)
deriving DecidableEq

def StepFault.outcome : StepFault → StepOutcome
  | .error detail => .error detail
  | .panic detail => .panicked detail

/-- `Clock.Advance` on the clock of a world -/
def World.tick (w : World G) : World G :=
  { w with clock := w.clock.advance }

/-- `tickExecutor`, for a model with this `Step` -/
def tickExecutor (body : Process (World G × M) (Option StepFault)) :
    Executor (World G × M) where
  Frame := Process (World G × M) (Option StepFault)
  Choice := Unit
  start := fun _ => body
  advance := fun _ (w, model) frame _ =>
    match frame with
    | .act effect rest => some (effect (w, model), .inl (rest (w, model)))
    | .halt none => some ((w.tick, model), .inr (.returned true))
    | .halt (some fault) => some ((w, model), .inr fault.outcome)

/-- The error of an event whose time has passed; `format` is the verb `%f`.
-/
def pastEventText (format : Float64 → String) (ev : Event G) (clock : Float64) : String :=
  "simulation: event " ++ ev.type.quote ++ " at time " ++ format ev.time ++
    " scheduled in the past (clock " ++ format clock ++ ")"

/-- `eventExecutor`, for a model with this `HandleEvent`.  The frame is
`none` until the event is popped. -/
def eventExecutor (format : Float64 → String)
    (handleEvent : Event G → Process (World G × M) (Option StepFault)) :
    Executor (World G × M) where
  Frame := Option (Process (World G × M) (Option StepFault))
  Choice := Unit
  start := fun _ => none
  advance := fun _ (w, model) frame _ =>
    match frame with
    | none =>
      match w.events.pop with
      | (none, _) => some ((w, model), .inr (.returned false))
      | (some ev, queue) =>
        if ev.time.less w.clock.time then
          some (({ w with events := queue }, model),
            .inr (.error (pastEventText format ev w.clock.time)))
        else
          some (({ w with
              events := queue
              clock := w.clock.advanceTime ev.time }, model),
            .inl (some (handleEvent ev)))
    | some (.act effect rest) =>
      some (effect (w, model), .inl (some (rest (w, model))))
    | some (.halt none) => some ((w, model), .inr (.returned true))
    | some (.halt (some fault)) => some ((w, model), .inr fault.outcome)

/-- The number of workers `newExecutor` gives its scheduler -/
def schedulerWorkers (workers gomaxprocs : Int) : Int :=
  if workers ≤ 0 then gomaxprocs else workers

/-- `systemTickExecutor`.  It runs on the world and the cache of its
scheduler. -/
def systemTickExecutor (s : Scheduler G) :
    Executor (World G × (Nat → EntitySet)) where
  Frame := RunState G
  Choice := SchedulerMove
  start := fun (w, cache) => s.begin w cache
  advance := fun cancelled (w, cache) frame move =>
    match s.step cancelled { frame with world := w, cache := cache } move with
    | none => none
    | some next =>
      match next.result with
      | none => some ((next.world, next.cache), .inl next)
      | some (.ok ()) =>
        some ((next.world.tick, next.cache), .inr (.returned true))
      | some (.error error) =>
        some ((next.world, next.cache), .inr (.error error.message))

/-- The fields of `Config` that limit a run -/
structure RunConfig where
  mode : Mode
  maxTicks : UInt64
  maxTime : Float64

/-- The test of the event limit of `defaultLimit` -/
def timeReached (maxTime : Float64) (w : World G) : Bool :=
  match w.events.peek with
  | none => true
  | some ev => maxTime.less ev.time || maxTime.equal ev.time

def defaultLimit (cfg : RunConfig) : Limit (World G × M) :=
  match cfg.mode with
  | .tick => if 0 < cfg.maxTicks then .atSteps cfg.maxTicks else .unlimited
  | .event =>
    if Float64.zero.less cfg.maxTime then
      .onWorld fun (w, _) => timeReached cfg.maxTime w
    else .unlimited

/-- A `Step` that creates one entity. -/
def spawnStep : Process (World flagTypes × Unit) (Option StepFault) :=
  .act (fun (w, model) => ({ w with
      entities := w.entities.create.elim w.entities Prod.snd }, model))
    fun _ => .halt none

def spawner : Executor (World flagTypes × Unit) :=
  tickExecutor spawnStep

/-- `New` for that model -/
def spawnerNew : Sim spawner :=
  .new (.new (World.sampleMetadata "spawner"), ())

end Simulator
