import Simulator.CounterWorld
import Simulator.DistributedSystem
import Simulator.Economy
import Simulator.Ecosystem
import Simulator.LogisticsRuns
import Simulator.Queueing
import Simulator.Traffic

/-!
# Restored runs of the shipped models

`Resumable` says after which runs a restored simulation continues as if it had not been
interrupted.
-/

namespace Simulator

open ModelProgram

structure Environment where
  floats : FloatOps
  lightAlgorithms : String → Option Traffic.LightAlgorithm
  sortVehicles : SortSlice (EntityID × Vehicle)
  assignmentOrder : UInt64 → MapOrder (Σ _ : EntityID, EntityID)
  counterCodec : ∀ t, JsonCodec (CounterTy.Value t)
  trafficCodec : ∀ t, JsonCodec (TrafficTy.Value t)
  agentCodec : JsonCodec Agent
  energyCodec : JsonCodec Energy
  busyCodec : JsonCodec Busy
  serverCodec : JsonCodec SrvState
  logisticsCodec : ∀ t, JsonCodec (LogisticsTy.Value t)

/-- The models of `RegisterModels`, each with a configuration. -/
inductive ShippedModel
  | counter (c : CounterConfig)
  | traffic (c : Traffic.Config)
  | economy (c : Economy.Config)
  | ecosystem (c : Ecosystem.Config)
  | queueing (c : Queueing.Config)
  | distributedSystem (c : DistributedSystem.Config)
  | logistics (c : Logistics.Config)

namespace ShippedModel

/-- `Metadata().ID` -/
def modelID : ShippedModel → String
  | counter _ => "counter"
  | traffic _ => "traffic"
  | economy _ => "economy"
  | ecosystem _ => "ecosystem"
  | queueing _ => "queueing"
  | distributedSystem _ => "distributed-system"
  | logistics _ => "logistics"

/-- `Metadata().Mode` -/
def mode : ShippedModel → Mode
  | queueing _ | distributedSystem _ => .event
  | _ => .tick

/-- The metadata that `New` gives the world. -/
def metadata (model : ShippedModel) (simulationID : String) (seed : UInt64) : Metadata :=
  ⟨simulationID, model.modelID, "1.0.0", seed, model.mode⟩

variable (env : Environment)

def types : ShippedModel → GoTypes
  | counter _ => counterTypes env.counterCodec
  | traffic _ => trafficTypes env.trafficCodec
  | economy _ => economyTypes env.agentCodec
  | ecosystem _ => ecosystemTypes env.energyCodec
  | queueing _ => queueingTypes env.busyCodec
  | distributedSystem _ => distributedSystemTypes env.serverCodec
  | logistics _ => logisticsTypes env.logisticsCodec

def program : (model : ShippedModel) → ModelProgram (model.types env)
  | counter c => CounterWorld.program env.counterCodec c
  | traffic c => Traffic.program env.floats env.lightAlgorithms env.sortVehicles env.trafficCodec c
  | economy c => Economy.program env.floats env.agentCodec c
  | ecosystem c => Ecosystem.program env.energyCodec c
  | queueing c => Queueing.program env.floats env.busyCodec c
  | distributedSystem c =>
    DistributedSystem.program env.floats env.serverCodec c
  | logistics c =>
    Logistics.program env.assignmentOrder env.logisticsCodec c

/-- When the fields of the model, at a snapshot after `k` steps, are as good
as those that `Initialize` leaves: always for the counter, whose fields never
change; for traffic while no vehicle has arrived or been blocked; for the
ecosystem once nothing is alive, or before anything was counted; for the
distributed system while nothing is counted and the turn makes no difference;
and for the others only before the first step. -/
def Resumable (k : Nat) : (model : ShippedModel) →
    SortSlice (Event (model.types env)) → (model.program env).Sim → Prop
  | counter _, _, _ => True
  | traffic _, _, paused =>
    let m : Traffic := paused.model
    m.completed = 0 ∧ m.peakQueue = 0
  | economy _, _, _ => k = 0
  | ecosystem _, _, paused =>
    let m : Ecosystem := paused.model
    m.animalCount = 0 ∧ m.plantCount = 0 ∧ m.totalEnergy = 0
  | queueing _, _, _ => k = 0
  | distributedSystem c, sortSlice, paused =>
    let m : DistributedSystem := paused.model
    m.processed = 0 ∧ m.dropped = 0 ∧ ∀ n, (DistributedSystem.program env.floats env.serverCodec
        c).Indifferent sortSlice n paused { m with rr := 0 }
  | logistics _, _, _ => k = 0

def layout : (model : ShippedModel) → Layout (model.types env)
  | counter _ => CounterWorld.layout env.counterCodec
  | traffic _ => Traffic.layout env.trafficCodec
  | economy _ => Economy.layout env.agentCodec
  | ecosystem _ => Ecosystem.layout env.energyCodec
  | queueing _ => Queueing.layout env.busyCodec
  | distributedSystem _ => DistributedSystem.layout env.serverCodec
  | logistics _ => Logistics.layout env.logisticsCodec

theorem exists_orderly (model : ShippedModel) :
    ∃ Wired, (model.program env).Orderly (model.layout env) Wired := by
  cases model with
  | counter c => exact ⟨_, CounterWorld.orderly env.counterCodec c⟩
  | traffic c => exact ⟨_, Traffic.orderly env.floats env.lightAlgorithms
      env.sortVehicles env.trafficCodec c⟩
  | economy c => exact ⟨_, Economy.orderly env.agentCodec c⟩
  | ecosystem c => exact ⟨_, Ecosystem.orderly env.energyCodec c⟩
  | queueing c => exact ⟨_, Queueing.orderly env.busyCodec c⟩
  | distributedSystem c =>
    exact ⟨_, DistributedSystem.orderly env.serverCodec c⟩
  | logistics c => exact ⟨_, Logistics.orderly env.assignmentOrder env.logisticsCodec c⟩

variable {env}

theorem roundTrips (model : ShippedModel) (t : (model.types env).Ty)
    (v : (model.types env).Value t) : GoTypes.RoundTrips v := by
  cases model with
  | counter _ => exact componentTypes_roundTrips CounterTy.name_ne t v
  | traffic _ => exact componentTypes_roundTrips TrafficTy.name_ne t v
  | logistics _ =>
    exact componentTypes_roundTrips LogisticsTy.name_ne t v
  | economy _ | ecosystem _ | queueing _ | distributedSystem _ =>
    exact componentTypes_roundTrips (fun _ => by decide) t v

theorem indifferent_iff_resumable (model : ShippedModel)
    {sort : SortSlice (Event (model.types env))} {given : Metadata}
    {k : Nat} {fresh paused : (model.program env).Sim}
    (made : (model.program env).new sort given = some fresh)
    (ran : (model.program env).advance sort k fresh = some paused) :
    (∀ n, (model.program env).Indifferent sort n paused fresh.model) ↔
      model.Resumable env k sort paused := by
  cases model with
  | counter c =>
    exact iff_of_true (CounterWorld.indifferent made ran) trivial
  | traffic c => exact Traffic.indifferent_iff made ran
  | economy c => exact Economy.indifferent_iff made ran
  | ecosystem c => exact Ecosystem.indifferent_iff made ran
  | queueing c => exact Queueing.indifferent_iff made ran
  | distributedSystem c => exact DistributedSystem.indifferent_iff made ran
  | logistics c => exact Logistics.indifferent_iff made ran

def noCodec (α : Type) : JsonCodec α where
  marshal _ := .error "json: unsupported type"
  unmarshal _ := .error "json: cannot unmarshal"
  roundTrips _ _ encoded := nomatch encoded

/-- `Busy` as a JSON boolean. -/
def sampleBusyCodec : JsonCodec Busy where
  marshal busy := .ok (.bool busy.b)
  unmarshal
    | .bool b => .ok ⟨b⟩
    | _ => .error "json: cannot unmarshal"
  roundTrips _ _ encoded := by cases encoded; rfl

def sampleEnvironment : Environment where
  floats := ⟨fun x _ => x, fun x _ => x, fun x _ => x, fun x _ => x, fun _ => 0, fun _ => ""⟩
  lightAlgorithms _ := none
  sortVehicles _ vehicles := vehicles
  assignmentOrder _ := World.keptOrder _
  counterCodec _ := noCodec _
  trafficCodec _ := noCodec _
  agentCodec := noCodec _
  energyCodec := noCodec _
  busyCodec := sampleBusyCodec
  serverCodec := noCodec _
  logisticsCodec _ := noCodec _

def sampleQueue : ShippedModel :=
  queueing ⟨1, .zero, .zero, .zero⟩

end ShippedModel

end Simulator
