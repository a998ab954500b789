import Simulator.Resumption

/-!
# The traffic model

The measured outcomes are fields of the model value; `registered` gives the light
algorithms of other packages.
-/

namespace Simulator

open Requests Code

structure Light where
  green : Bool
  phase : Int
  queue : Int

structure Vehicle where
  edge : Nat
  pos : Int
  wait : Int
  speed : Int

inductive TrafficTy
  | vehicle
  | light
deriving DecidableEq

namespace TrafficTy

def Value : TrafficTy → Type
  | vehicle => Vehicle
  | light => Light

def name : TrafficTy → String
  | vehicle => "traffic.Vehicle"
  | light => "traffic.Light"

theorem name_ne (t : TrafficTy) : t.name ≠ "" := by
  cases t <;> decide

end TrafficTy

abbrev trafficTypes (codec : ∀ t, JsonCodec (TrafficTy.Value t)) : GoTypes :=
  componentTypes TrafficTy TrafficTy.Value TrafficTy.name TrafficTy.name_ne codec

namespace Traffic

/-- `LightAlgorithm`, by its `Decide` -/
abbrev LightAlgorithm :=
  Light → Int → Light

/-- `Fixed.Decide` -/
def fixed (greenTicks redTicks : Int) : LightAlgorithm :=
  fun l _ =>
    let phase := (l.phase + 1).tmod (greenTicks + redTicks)
    { l with phase := phase, green := phase < greenTicks }

/-- `Adaptive.Decide` -/
def adaptive (threshold maxRedTicks : Int) : LightAlgorithm :=
  fun l q =>
    if q ≥ threshold then { l with green := true, phase := 0 }
    else if l.green then { l with green := false, phase := 0 }
    else if q > 0 then
      if l.phase + 1 ≥ maxRedTicks then { l with green := true, phase := 0 }
      else { l with phase := l.phase + 1 }
    else l

structure Edge where
  origin : String
  target : String
  length : Int

/-- `Map`, with the IDs of its nodes -/
structure RoadMap where
  nodes : List String
  edges : List Edge
  route : List String

structure Config where
  map : RoadMap
  intersections : Int
  spacing : Int
  vehicles : Int
  algorithm : String
  greenTicks : Int
  redTicks : Int
  threshold : Int
  maxRedTicks : Int
  seedJitter : Float64

def Config.withDefaults (c : Config) : Config :=
  { c with
    vehicles := if c.vehicles ≤ 0 then 40 else c.vehicles
    algorithm := if c.algorithm = "" then "fixed" else c.algorithm
    greenTicks := if c.greenTicks ≤ 0 then 5 else c.greenTicks
    redTicks := if c.redTicks ≤ 0 then 5 else c.redTicks
    threshold := if c.threshold ≤ 0 then 2 else c.threshold
    maxRedTicks := if c.maxRedTicks ≤ 0 then 10 else c.maxRedTicks }

end Traffic

/-- `Traffic`.  `vehCol` and `lightCol` are the columns of the two
components; `edgeLen` lists the lengths of the edges of the route. -/
structure Traffic where
  cfg : Traffic.Config
  algorithm : Option Traffic.LightAlgorithm
  vehID : ComponentID
  lightID : ComponentID
  route : List String
  edgeLen : List Int
  nodeLight : String → Option EntityID
  rng : RNG
  completed : Int
  totalWait : Int
  peakQueue : Int

namespace Traffic

/-- A new value after `Configure`. -/
def configure (c : Config) : Traffic where
  cfg := c.withDefaults
  algorithm := none
  vehID := 0
  lightID := 0
  route := []
  edgeLen := []
  nodeLight := fun _ => none
  rng := ⟨0⟩
  completed := 0
  totalWait := 0
  peakQueue := 0

def lengthByEdge (edges : List Edge) (origin target : String) : Option Int :=
  (edges.reverse.find? fun edge =>
    edge.origin = origin ∧ edge.target = target).map Edge.length

/-- The route of `buildNetwork` -/
def routeOf (cfg : Config) : List String :=
  if cfg.map.nodes ≠ [] ∧ cfg.map.route ≠ [] then cfg.map.route
  else
    (List.range (if cfg.intersections ≤ 1 then 5 else cfg.intersections.toNat))
      |>.map fun i => "n" ++ toString i

/-- The edge lengths of `buildNetwork` -/
def edgeLenOf (cfg : Config) : List Int :=
  let route := routeOf cfg
  if cfg.map.nodes ≠ [] ∧ cfg.map.route ≠ [] then
    (route.zip route.tail).map fun ends =>
      (lengthByEdge cfg.map.edges ends.1 ends.2).getD cfg.spacing
  else
    route.tail.map fun _ => cfg.spacing

def resolveAlgorithm (registered : String → Option LightAlgorithm) (m : Traffic) : LightAlgorithm :=
  match m.algorithm with
  | some injected => injected
  | none =>
    match registered m.cfg.algorithm with
    | some found => found
    | none =>
      if m.cfg.algorithm = "adaptive" then
        adaptive m.cfg.threshold m.cfg.maxRedTicks
      else
        fixed m.cfg.greenTicks m.cfg.redTicks

variable {codec : ∀ t, JsonCodec (TrafficTy.Value t)}

/-- `lightCol.Get` and `lightCol.GetShard` -/
def light (m : Traffic) (e : EntityID) : Code (trafficTypes codec) (Option Light) :=
  Code.get (G := trafficTypes codec) (some .light) m.lightID e

/-- `lightCol.Set` -/
def setLight (m : Traffic) (e : EntityID) (lt : Light) : Code (trafficTypes codec) Unit :=
  Code.set (G := trafficTypes codec) (some .light) m.lightID e lt

/-- `vehCol.Set` -/
def setVehicle (m : Traffic) (e : EntityID) (v : Vehicle) : Code (trafficTypes codec) Unit :=
  Code.set (G := trafficTypes codec) (some .vehicle) m.vehID e v

/-- The entries that `vehCol.Each` visits -/
def vehicles (m : Traffic) : Code (trafficTypes codec) (List (EntityID × Vehicle)) :=
  Code.each (G := trafficTypes codec) (some .vehicle) m.vehID

def createLight (m : Traffic) (node : String) : Code (trafficTypes codec) Traffic := do
  let e ← Code.create
  m.setLight e ⟨true, 0, 0⟩
  return { m with nodeLight := Function.update m.nodeLight node (some e) }

/-- The vehicle with number `i`, and the stream after its draws. -/
def createVehicle (F : FloatOps) (m : Traffic) (rng : RNG) (i : Nat) :
    Code (trafficTypes codec) RNG := do
  let (jitter, rng) :=
    if Float64.zero.less m.cfg.seedJitter then
      let drawn := rng.float64 F
      (F.truncate (F.mul (F.mul drawn.1 m.cfg.seedJitter) (.ofInt (m.edgeLen[0]?.getD 0))), drawn.2)
    else (0, rng)
  let drawn ← Code.ofExcept (RNG.uint64n rng 3)
  let e ← Code.create
  m.setVehicle e ⟨0, -i - 1 - jitter, 0, 1 + drawn.1.toNat⟩
  return drawn.2

/-- `Initialize` -/
def setUp (F : FloatOps) (registered : String → Option LightAlgorithm)
    (m : Traffic) (seed : UInt64) : Code (trafficTypes codec) Traffic := do
  let m :=
    if m.cfg.vehicles = 0 then { m with cfg := m.cfg.withDefaults } else m
  let vehID ← Code.registerComponent (some .vehicle) "traffic.vehicle"
  let lightID ← Code.registerComponent (some .light) "traffic.light"
  let m := { m with
    vehID := vehID
    lightID := lightID
    nodeLight := fun _ => none
    route := routeOf m.cfg
    edgeLen := edgeLenOf m.cfg
    algorithm := some (m.resolveAlgorithm registered) }
  let m ← m.route.foldlM createLight m
  let rng ← (List.range m.cfg.vehicles.toNat).foldlM (m.createVehicle F) (RNG.deriveU64 seed 1)
  return { m with rng := rng }

/-- The body of the loop of `lightSystem.Run` -/
def switchLight (m : Traffic) (id : EntityID) : Code (trafficTypes codec) Unit := do
  match ← m.light id with
  | none => return ()
  | some lt =>
    match m.algorithm with
    | none => .fail "invalid memory address or nil pointer dereference"
    | some decide =>
      Code.setShard (G := trafficTypes codec) (some .light) m.lightID id
        ({ decide lt lt.queue with queue := 0 } : Light)

/-- `lightSystem.Run` -/
def runLights (shard : List EntityID) (m : Traffic) : Code (trafficTypes codec) Traffic := do
  shard.foldlM (fun _ id => m.switchLight id) ()
  return m

def lightGreen (m : Traffic) (node : String) : Code (trafficTypes codec) Bool :=
  match m.nodeLight node with
  | none => .ret true
  | some id => do
      match ← m.light id with
      | none => return true
      | some lt => return lt.green

def bumpQueue (m : Traffic) (node : String) : Code (trafficTypes codec) Unit :=
  match m.nodeLight node with
  | none => .ret ()
  | some id => do
      match ← m.light id with
      | none => return ()
      | some lt => m.setLight id { lt with queue := lt.queue + 1 }

/-- The occupied cells, `occ` -/
abbrev Occupancy :=
  Finset (Nat × Int)

/-- A vehicle on its way through a tick: what `advance` reports, and what it
changes. -/
structure Progress where
  blocked : Bool
  finished : Bool
  dest : String
  vehicle : Vehicle
  occ : Occupancy

def advance (m : Traffic) (v : Vehicle) (occ : Occupancy) : Code (trafficTypes codec) Progress :=
  let l := m.edgeLen[v.edge]?.getD 0
  match m.route[v.edge + 1]? with
  | none => .fail "index out of range"
  | some dest =>
    if v.pos < 0 then
      .ret ⟨false, false, dest, { v with pos := v.pos + 1 }, occ⟩
    else if v.pos = l then
      if v.edge + 2 = m.route.length then
        .ret ⟨false, true, dest, v, occ⟩
      else do
        let green ← m.lightGreen dest
        if !green || (v.edge + 1, 0) ∈ occ then
          return ⟨true, false, dest, v, occ⟩
        else
          return ⟨false, false, dest, { v with edge := v.edge + 1, pos := 0 },
            insert (v.edge + 1, 0) occ⟩
    else
      let t := v.pos + 1
      if (v.edge, t) ∈ occ then .ret ⟨true, false, dest, v, occ⟩
      else
        let left := occ.erase (v.edge, v.pos)
        .ret ⟨false, false, dest, { v with pos := t },
          if t < l then insert (v.edge, t) left else left⟩

def drive (m : Traffic) : Nat → Progress → Code (trafficTypes codec) Progress
  | 0, p => .ret p
  | cells + 1, p => do
      let p ← m.advance p.vehicle p.occ
      if p.blocked || p.finished then return p else drive m cells p

structure Tally where
  completed : Int
  totalWait : Int
  queueSum : Int
  occ : Occupancy

/-- The body of the loop over the vehicles in `movementSystem.Run` -/
def moveVehicle (m : Traffic) (tally : Tally)
    (item : EntityID × Vehicle) : Code (trafficTypes codec) Tally := do
  let p ← m.drive item.2.speed.toNat ⟨false, false, "", item.2, tally.occ⟩
  if p.finished then
    let _ ← Code.destroy item.1
    let _ ← Code.remove (G := trafficTypes codec) (some .vehicle) m.vehID item.1
    return { tally with
      completed := tally.completed + 1
      totalWait := tally.totalWait + p.vehicle.wait
      occ := p.occ }
  else if p.blocked then
    m.bumpQueue p.dest
    m.setVehicle item.1 { p.vehicle with wait := p.vehicle.wait + 1 }
    return { tally with queueSum := tally.queueSum + 1, occ := p.occ }
  else
    m.setVehicle item.1 p.vehicle
    return { tally with occ := p.occ }

def ahead (first second : EntityID × Vehicle) : Bool :=
  if first.2.edge ≠ second.2.edge then first.2.edge > second.2.edge
  else first.2.pos > second.2.pos

def occupied (m : Traffic) (items : List (EntityID × Vehicle)) : Occupancy :=
  ((items.map Prod.snd).filter fun v =>
    0 ≤ v.pos ∧ v.pos < m.edgeLen[v.edge]?.getD 0).map (fun v => (v.edge, v.pos)) |>.toFinset

/-- `movementSystem.Run` -/
def runMovement (sortVehicles : SortSlice (EntityID × Vehicle))
    (_shard : List EntityID) (m : Traffic) : Code (trafficTypes codec) Traffic := do
  let items := sortVehicles ahead (← m.vehicles)
  let tally ← items.foldlM m.moveVehicle ⟨0, 0, 0, m.occupied items⟩
  return { m with
    completed := m.completed + tally.completed
    totalWait := m.totalWait + tally.totalWait
    peakQueue :=
      if tally.queueSum > m.peakQueue then tally.queueSum else m.peakQueue }

def work (sortVehicles : SortSlice (EntityID × Vehicle)) (m : Traffic) :
    Code (trafficTypes codec) Traffic := do
  let m ← Code.runSystem [m.lightID] [m.lightID] runLights m
  Code.runSystem [m.vehID, m.lightID] [m.vehID, m.lightID] (runMovement sortVehicles) m

def metrics (F : FloatOps) (m : Traffic) : List (String × Float64) :=
  [("completed", .ofInt m.completed), ("throughput", .ofInt m.completed),
    ("avg_wait", F.div (.ofInt m.totalWait)
      (Float64.max ⟨0x3FF0000000000000⟩ (.ofInt m.completed))), ("peak_queue", .ofInt m.peakQueue)]

def program (F : FloatOps) (registered : String → Option LightAlgorithm)
    (sortVehicles : SortSlice (EntityID × Vehicle))
    (codec : ∀ t, JsonCodec (TrafficTy.Value t)) (c : Config) :
    ModelProgram (trafficTypes codec) where
  Fields := Traffic
  setUp := (configure c).setUp F registered
  step := Code.tickStep (work sortVehicles)
  metrics := metrics F
  config := none

def layout (codec : ∀ t, JsonCodec (TrafficTy.Value t)) : Layout (trafficTypes codec) :=
  [("traffic.vehicle", some .vehicle), ("traffic.light", some .light)]

structure Wired (m : Traffic) : Prop where
  vehID : m.vehID = 0
  lightID : m.lightID = 1

structure Measured (completed totalWait : Int) : Prop where
  nonneg : 0 ≤ completed
  noWait : completed = 0 → totalWait = 0

theorem Measured.add {done totalWait moreCompleted moreWait : Int}
    (old : Measured done totalWait) (more : Measured moreCompleted moreWait) :
    Measured (done + moreCompleted) (totalWait + moreWait) := by
  have nonneg := old.nonneg
  have moreNonneg := more.nonneg
  refine ⟨by omega, fun none => ?_⟩
  have first := old.noWait (by omega)
  have second := more.noWait (by omega)
  omega

section Rules

variable {m : Traffic}

theorem Wired.vehicleIn (wired : m.Wired) : (layout codec)[m.vehID]?.map Prod.snd =
      some (some TrafficTy.vehicle) := by
  rw [wired.vehID]
  rfl

theorem Wired.lightIn (wired : m.Wired) : (layout codec)[m.lightID]?.map Prod.snd =
      some (some TrafficTy.light) := by
  rw [wired.lightID]
  rfl

theorem ensures_switchLight {ok : Operation (trafficTypes codec) → Prop}
    (lights : ∀ op, ok (.column (some .light) m.lightID op)) (id : EntityID) :
    (m.switchLight id).Ensures ok fun _ => True := by
  refine .request_bind (lights _) fun hit => ?_
  cases hit with
  | none => trivial
  | some lt =>
    dsimp only
    split
    · trivial
    · exact ensures_setShard lights trivial

section

variable (wired : m.Wired)
include wired

theorem ensures_lightGreen (node : String) : (m.lightGreen node).Within (layout codec) := by
  unfold lightGreen
  split
  · trivial
  · refine .request_bind wired.lightIn fun hit => ?_
    cases hit <;> trivial

theorem ensures_bumpQueue (node : String) : (m.bumpQueue node).Within (layout codec) := by
  unfold bumpQueue
  split
  · trivial
  · refine .request_bind wired.lightIn fun hit => ?_
    cases hit with
    | none => trivial
    | some lt =>
      exact .request wired.lightIn fun _ => trivial

theorem ensures_advance (v : Vehicle) (occ : Occupancy) :
    (m.advance v occ).Within (layout codec) := by
  unfold advance
  dsimp only
  split
  · trivial
  split
  · trivial
  split
  · split
    · trivial
    · refine .seq (ensures_lightGreen wired _) fun green => ?_
      split <;> trivial
  split <;> trivial

theorem ensures_drive (cells : Nat) (p : Progress) : (m.drive cells p).Within (layout codec) := by
  induction cells generalizing p with
  | zero => trivial
  | succ cells ih =>
    refine .seq (ensures_advance wired _ _) fun moved => ?_
    split
    · trivial
    · exact ih moved

theorem ensures_moveVehicle (tally : Tally) (item : EntityID × Vehicle)
    (measured : Measured tally.completed tally.totalWait) :
    (m.moveVehicle tally item).Ensures (Operation.Within (layout codec))
      fun after => Measured after.completed after.totalWait := by
  refine .seq (ensures_drive wired _ _) fun p => ?_
  split
  · refine .request_bind trivial fun _ => ?_
    refine .request_bind wired.vehicleIn fun _ => ?_
    have nonneg := measured.nonneg
    exact ⟨by dsimp only; omega, fun none => by dsimp only at none; omega⟩
  split
  · refine .seq (ensures_bumpQueue wired _) fun _ => ?_
    exact .request_bind wired.vehicleIn fun _ => measured
  · exact .request_bind wired.vehicleIn fun _ => measured

end

def Remeasured (m after : Traffic) : Prop :=
  ∃ completed totalWait peakQueue, Measured completed totalWait ∧ after = { m with
      completed := completed
      totalWait := totalWait
      peakQueue := peakQueue }

theorem ensures_runMovement (wired : m.Wired) (measured : Measured m.completed m.totalWait)
    (sortVehicles : SortSlice (EntityID × Vehicle)) (shard : List EntityID) :
    (runMovement sortVehicles shard m).Ensures
      (Operation.Within (layout codec)) (Remeasured m) := by
  refine .request_bind wired.vehicleIn fun hit => ?_
  refine .bind (.foldlM (fun tally item held => ensures_moveVehicle wired tally item held) _
    ⟨le_rfl, fun _ => rfl⟩) fun tally held => ?_
  exact ⟨_, _, _, measured.add held, rfl⟩

theorem ensures_lightSystem {ok : Operation (trafficTypes codec) → Prop}
    (readsIDs : ok .ids) (readsColumns : ∀ id, ok (.entitiesOf id))
    (lights : ∀ op, ok (.column (some .light) m.lightID op)) :
    (runSystem [m.lightID] [m.lightID] runLights m).Ensures ok fun after => after = m := by
  refine ensures_runSystem readsIDs readsColumns rfl fun es => ?_
  refine .seq ?_ fun _ => rfl
  exact .foldlM (fun _ id _ => ensures_switchLight lights id) es trivial

theorem ensures_step (sortVehicles : SortSlice (EntityID × Vehicle)) (m : Traffic) (wired : m.Wired)
    (measured : Measured m.completed m.totalWait) : (tickStep (work sortVehicles) m).Ensures
      (Operation.Within (layout codec)) (Remeasured m) := by
  refine ensures_tickStep trivial ?_
  refine .bind (ensures_lightSystem trivial (fun _ => trivial) fun _ => wired.lightIn) ?_
  rintro _ rfl
  exact ensures_runSystem trivial (fun _ => trivial)
    ⟨_, _, _, measured, rfl⟩ (ensures_runMovement wired measured sortVehicles)

end Rules

variable {m : Traffic}

theorem Remeasured.kept {after : Traffic} (remeasured : Remeasured m after) (wired : m.Wired) :
    after.Wired ∧ Measured after.completed after.totalWait := by
  obtain ⟨_, _, _, measured, rfl⟩ := remeasured
  exact ⟨⟨wired.vehID, wired.lightID⟩, measured⟩

theorem Remeasured.trans {mid after : Traffic}
    (first : Remeasured m mid) (second : Remeasured mid after) : Remeasured m after := by
  obtain ⟨_, _, _, _, rfl⟩ := first
  obtain ⟨_, _, _, measured, rfl⟩ := second
  exact ⟨_, _, _, measured, rfl⟩

/-- The model after `Initialize`: its columns, and nothing measured yet. -/
structure Ready (m : Traffic) : Prop extends m.Wired where
  completed : m.completed = 0
  totalWait : m.totalWait = 0
  peakQueue : m.peakQueue = 0

theorem Ready.measured (ready : m.Ready) : Measured m.completed m.totalWait :=
  ⟨ready.completed.ge, fun _ => ready.totalWait⟩

theorem ensures_createLights (nodes : List String) (ready : m.Ready) :
    (nodes.foldlM createLight m).Ensures (Operation.Within (layout codec))
      Ready := by
  refine .foldlM (fun cur node kept => ?_) nodes ready
  refine .request_bind trivial fun e => ?_
  refine .request_bind kept.lightIn fun _ => ?_
  exact ⟨⟨kept.vehID, kept.lightID⟩, kept.completed, kept.totalWait, kept.peakQueue⟩

theorem ensures_createVehicle {F : FloatOps} (wired : m.Wired) (rng : RNG) (i : Nat) :
    (m.createVehicle F rng i).Within (layout codec) := by
  refine .seq ?_ fun drawn => ?_
  · exact ensures_ofExcept fun _ _ => trivial
  · refine .request_bind trivial fun e => ?_
    exact .request_bind wired.vehicleIn fun _ => trivial

section Runs

variable {F : FloatOps} {registered : String → Option LightAlgorithm}
  {sortVehicles : SortSlice (EntityID × Vehicle)}
  {sort : SortSlice (Event (trafficTypes codec))} {metadata : Metadata} {c : Config}

theorem setUp_laid {seed : UInt64} {m : Traffic} {w : World (trafficTypes codec)}
    (ran : (World.new metadata).runCode sort
      ((configure c).setUp F registered seed) = some (m, w)) :
    w.Laid metadata (layout codec) ∧ m.Ready := by
  obtain ⟨first, firstLaid, rest⟩ :=
    (World.laid_new metadata).runCode_registerComponent List.not_mem_nil ran
  obtain ⟨second, laid, rest⟩ := firstLaid.runCode_registerComponent (by simp) rest
  refine laid.runCode Ready ?_ rest
  refine .bind (ensures_createLights _ ?_) fun cur kept => ?_
  · refine ⟨⟨rfl, rfl⟩, ?_, ?_, ?_⟩
    all_goals
      dsimp only
      split <;> rfl
  · refine .seq ?_ fun rng => ?_
    · exact .foldlM (fun rng i _ => ensures_createVehicle kept.toWired rng i) _ trivial
    · exact ⟨⟨kept.vehID, kept.lightID⟩, kept.completed, kept.totalWait, kept.peakQueue⟩

theorem orderly (F : FloatOps) (registered : String → Option LightAlgorithm)
    (sortVehicles : SortSlice (EntityID × Vehicle))
    (codec : ∀ t, JsonCodec (TrafficTy.Value t)) (c : Config) :
    (program F registered sortVehicles codec c).Orderly (layout codec)
      fun m => m.Wired ∧ Measured m.completed m.totalWait where
  setUp ran := by
    obtain ⟨laid, ready⟩ := setUp_laid ran
    exact ⟨laid, ready.toWired, ready.measured⟩
  step m kept := Program.Ensures.mono (ensures_step sortVehicles m kept.1 kept.2)
    fun _ remeasured => remeasured.kept kept.1
  config _ found := by cases found

theorem indifferent_iff {k : Nat} {fresh paused : (program F registered sortVehicles codec c).Sim}
    (made : (program F registered sortVehicles codec c).new sort metadata = some fresh)
    (ran : (program F registered sortVehicles codec c).advance sort k fresh = some paused) :
    (∀ n, (program F registered sortVehicles codec c).Indifferent sort n paused fresh.model) ↔
      paused.model.completed = 0 ∧ paused.model.peakQueue = 0 := by
  obtain ⟨⟨m, w⟩, setUp, rfl⟩ := Option.map_eq_some_iff.mp made
  obtain ⟨⟨last, final⟩, steps, rfl⟩ := Option.map_eq_some_iff.mp ran
  obtain ⟨laid, ready⟩ := setUp_laid setUp
  have changes : (Program.iterate (program F registered sortVehicles codec
      c).step k m).Ensures (Operation.Within (layout codec)) (Remeasured m) := by
    refine .iterate (fun current kept => ?_) k ⟨_, _, _, ready.measured, rfl⟩
    obtain ⟨wired, measured⟩ := kept.kept ready.toWired
    exact .mono (ensures_step sortVehicles current wired measured) fun _ => kept.trans
  obtain ⟨finalLaid, completed, totalWait, peakQueue, measured, rfl⟩ := laid.runCode _ changes steps
  constructor
  · intro indifferent
    have same : metrics F m = metrics F { m with
        completed := completed
        totalWait := totalWait
        peakQueue := peakQueue } := (indifferent 0).metrics_eq
    simp only [metrics, ready.completed, ready.peakQueue, List.cons.injEq,
      Prod.mk.injEq, true_and] at same
    obtain ⟨completedEq, _, _, peakEq, _⟩ := same
    exact ⟨Float64.ofInt_eq_ofInt_zero_iff.mp completedEq.symm,
      Float64.ofInt_eq_ofInt_zero_iff.mp peakEq.symm⟩
  · rintro ⟨noTrip, noQueue⟩ n
    dsimp only at noTrip noQueue
    have noWait := measured.noWait noTrip
    have unchanged : m = { m with
        completed := completed
        totalWait := totalWait
        peakQueue := peakQueue } := by
      rw [noTrip.trans ready.completed.symm, noWait.trans ready.totalWait.symm,
        noQueue.trans ready.peakQueue.symm]
      rfl
    rw [← unchanged]
    exact ModelProgram.indifferent_self finalLaid.sound n

end Runs

end Traffic

end Simulator
