import Simulator.Resumption

/-!
# The logistics model

Which vehicle carries which order is a map in the model value, visited in an order given
by `orders` for each tick.
-/

namespace Simulator

open Requests Code

structure Inventory where
  units : Int

structure Capacity where
  max : Int
  load : Int

structure Order where
  remaining : Int

inductive LogisticsTy
  | inventory
  | capacity
  | order
deriving DecidableEq

namespace LogisticsTy

def Value : LogisticsTy → Type
  | inventory => Inventory
  | capacity => Capacity
  | order => Order

def name : LogisticsTy → String
  | inventory => "logistics.Inventory"
  | capacity => "logistics.Capacity"
  | order => "logistics.Order"

theorem name_ne (t : LogisticsTy) : t.name ≠ "" := by
  cases t <;> decide

end LogisticsTy

abbrev logisticsTypes (codec : ∀ t, JsonCodec (LogisticsTy.Value t)) : GoTypes :=
  componentTypes LogisticsTy LogisticsTy.Value LogisticsTy.name LogisticsTy.name_ne codec

namespace Logistics

structure Config where
  warehouses : Int
  vehicles : Int
  orders : Int

def Config.withDefaults (c : Config) : Config where
  warehouses := if c.warehouses ≤ 0 then 2 else c.warehouses
  vehicles := if c.vehicles ≤ 0 then 5 else c.vehicles
  orders := if c.orders ≤ 0 then 20 else c.orders

abbrev Assignments :=
  AList fun _ : EntityID => EntityID

end Logistics

/-- `Logistics`; `invCol`, `capCol` and `ordCol` are the columns of the three
components -/
structure Logistics where
  cfg : Logistics.Config
  invID : ComponentID
  capID : ComponentID
  ordID : ComponentID
  rng : RNG
  assignments : Logistics.Assignments
  delivered : Int

namespace Logistics

/-- A new value after `Configure`. -/
def configure (c : Config) : Logistics where
  cfg := c.withDefaults
  invID := 0
  capID := 0
  ordID := 0
  rng := ⟨0⟩
  assignments := ∅
  delivered := 0

variable {codec : ∀ t, JsonCodec (LogisticsTy.Value t)}

/-- `capCol.Get` -/
def capacity (m : Logistics) (v : EntityID) : Code (logisticsTypes codec) (Option Capacity) :=
  Code.get (G := logisticsTypes codec) (some .capacity) m.capID v

/-- `capCol.Set` -/
def setCapacity (m : Logistics) (v : EntityID) (c : Capacity) : Code (logisticsTypes codec) Unit :=
  Code.set (G := logisticsTypes codec) (some .capacity) m.capID v c

/-- `ordCol.Get` -/
def order (m : Logistics) (o : EntityID) : Code (logisticsTypes codec) (Option Order) :=
  Code.get (G := logisticsTypes codec) (some .order) m.ordID o

/-- `ordCol.Set` -/
def setOrder (m : Logistics) (o : EntityID) (ord : Order) : Code (logisticsTypes codec) Unit :=
  Code.set (G := logisticsTypes codec) (some .order) m.ordID o ord

/-- `Initialize` -/
def setUp (m : Logistics) (seed : UInt64) : Code (logisticsTypes codec) Logistics := do
  let m :=
    if m.cfg.vehicles = 0 then { m with cfg := m.cfg.withDefaults } else m
  let invID ← Code.registerComponent (some .inventory) "log.inventory"
  let capID ← Code.registerComponent (some .capacity) "log.capacity"
  let ordID ← Code.registerComponent (some .order) "log.order"
  let m := { m with
    invID := invID
    capID := capID
    ordID := ordID
    assignments := ∅ }
  Program.iterate (fun () => do
    let e ← Code.create
    Code.set (G := logisticsTypes codec) (some .inventory) invID e
      (⟨1000⟩ : Inventory)) m.cfg.warehouses.toNat ()
  Program.iterate (fun () => do
    let e ← Code.create
    m.setCapacity e ⟨3, 0⟩) m.cfg.vehicles.toNat ()
  let rng ← Program.iterate (fun rng => do
    let e ← Code.create
    let drawn ← Code.ofExcept (RNG.uint64n rng 5)
    m.setOrder e ⟨1 + drawn.1.toNat⟩
    return drawn.2) m.cfg.orders.toNat (RNG.deriveU64 seed 1)
  return { m with rng := rng }

/-- The loop of `freeVehicle` -/
def freeAmong (m : Logistics) :
    List EntityID → Code (logisticsTypes codec) (Option EntityID)
  | [] => .ret none
  | v :: rest =>
    if (m.assignments.lookup v).isSome then freeAmong m rest
    else do
      match ← m.capacity v with
      | some c =>
        if c.load < c.max then return some v else freeAmong m rest
      | none => freeAmong m rest

def freeVehicle (m : Logistics) : Code (logisticsTypes codec) (Option EntityID) := do
  m.freeAmong (← Code.entitiesOf m.capID)

/-- `assignmentsReverse`, whose callers only ask whether there is a vehicle -/
def assignmentsReverse (m : Logistics) (o : EntityID) : Bool :=
  m.assignments.entries.any fun entry => entry.2 = o

/-- The body of the loop of `assign` -/
def assignOne (m : Logistics) (o : EntityID) : Code (logisticsTypes codec) Logistics := do
  if m.assignmentsReverse o then return m
  else
    match ← m.freeVehicle with
    | none => return m
    | some v =>
      let c := (← m.capacity v).getD ⟨0, 0⟩
      m.setCapacity v { c with load := c.load + 1 }
      return { m with assignments := m.assignments.insert v o }

def assign (m : Logistics) : Code (logisticsTypes codec) Logistics := do
  (← Code.entitiesOf m.ordID).foldlM assignOne m

/-- The body of the loop of `deliver` -/
def deliverOne (m : Logistics) (entry : Σ _ : EntityID, EntityID) :
    Code (logisticsTypes codec) Logistics := do
  match ← m.order entry.2 with
  | none => return { m with assignments := m.assignments.erase entry.1 }
  | some ord =>
    if ord.remaining - 1 ≤ 0 then
      let _ ← Code.destroy entry.2
      let _ ← Code.remove (G := logisticsTypes codec) (some .order) m.ordID entry.2
      let c := (← m.capacity entry.1).getD ⟨0, 0⟩
      m.setCapacity entry.1 { c with load := c.load - 1 }
      return { m with
        delivered := m.delivered + 1
        assignments := m.assignments.erase entry.1 }
    else
      m.setOrder entry.2 ⟨ord.remaining - 1⟩
      return m

/-- `deliver`, visiting the map in the given order.  The loop deletes only
the entry it is at. -/
def deliver (visiting : MapOrder (Σ _ : EntityID, EntityID))
    (m : Logistics) : Code (logisticsTypes codec) Logistics :=
  (visiting.visit m.assignments.entries).foldlM deliverOne m

def step (orders : UInt64 → MapOrder (Σ _ : EntityID, EntityID))
    (m : Logistics) : Code (logisticsTypes codec) Logistics := do
  let m ← m.assign
  m.deliver (orders (← Code.tick))

def metrics (m : Logistics) : List (String × Float64) :=
  [("delivered", .ofInt m.delivered), ("orders", .ofInt m.cfg.orders),
    ("vehicles", .ofInt m.cfg.vehicles)]

def program (orders : UInt64 → MapOrder (Σ _ : EntityID, EntityID))
    (codec : ∀ t, JsonCodec (LogisticsTy.Value t)) (c : Config) :
    ModelProgram (logisticsTypes codec) where
  Fields := Logistics
  setUp := (configure c).setUp
  step := Code.tickStep (step orders)
  metrics := metrics
  config := none

def layout (codec : ∀ t, JsonCodec (LogisticsTy.Value t)) : Layout (logisticsTypes codec) :=
  [("log.inventory", some .inventory), ("log.capacity", some .capacity), ("log.order", some .order)]

structure Wired (m : Logistics) : Prop where
  capID : m.capID = 1
  ordID : m.ordID = 2

def Reassigned (m after : Logistics) : Prop :=
  ∃ assignments delivered, m.delivered ≤ delivered ∧ after = { m with
    assignments := assignments
    delivered := delivered }

theorem Reassigned.refl (m : Logistics) : Reassigned m m :=
  ⟨_, _, le_rfl, rfl⟩

theorem Reassigned.trans {m mid after : Logistics}
    (first : Reassigned m mid) (second : Reassigned mid after) : Reassigned m after := by
  obtain ⟨_, _, grown, rfl⟩ := first
  obtain ⟨_, _, furtherGrown, rfl⟩ := second
  exact ⟨_, _, grown.trans furtherGrown, rfl⟩

theorem Reassigned.wired {m after : Logistics}
    (reassigned : Reassigned m after) (wired : m.Wired) : after.Wired := by
  obtain ⟨_, _, _, rfl⟩ := reassigned
  exact ⟨wired.capID, wired.ordID⟩

section Rules

variable {m : Logistics}

section

variable (wired : m.Wired)
include wired

theorem Wired.capacityIn : (layout codec)[m.capID]?.map Prod.snd =
      some (some LogisticsTy.capacity) := by
  rw [wired.capID]
  rfl

theorem Wired.orderIn : (layout codec)[m.ordID]?.map Prod.snd = some (some LogisticsTy.order) := by
  rw [wired.ordID]
  rfl

theorem ensures_freeAmong (vehicles : List EntityID) :
    (m.freeAmong vehicles).Within (layout codec) := by
  induction vehicles with
  | nil => trivial
  | cons v rest ih =>
    unfold freeAmong
    split
    · exact ih
    · refine .request_bind wired.capacityIn fun hit => ?_
      cases hit with
      | none => exact ih
      | some c =>
        dsimp only
        split
        · trivial
        · exact ih

theorem ensures_assignOne (o : EntityID) :
    (m.assignOne o).Ensures (Operation.Within (layout codec)) (Reassigned m) := by
  unfold assignOne
  split
  · exact .refl m
  · refine .seq ?_ fun free => ?_
    · refine .request_bind trivial fun vehicles => ?_
      exact ensures_freeAmong wired vehicles
    · cases free with
      | none => exact .refl m
      | some v =>
        refine .request_bind wired.capacityIn fun c => ?_
        refine .request_bind wired.capacityIn fun _ => ?_
        exact ⟨_, _, le_rfl, rfl⟩

theorem ensures_deliverOne (x : Σ _ : EntityID, EntityID) :
    (m.deliverOne x).Ensures (Operation.Within (layout codec)) (Reassigned m) := by
  refine .request_bind wired.orderIn fun hit => ?_
  cases hit with
  | none => exact ⟨_, _, le_rfl, rfl⟩
  | some ord =>
    dsimp only
    split
    · refine .request_bind trivial fun _ => ?_
      refine .request_bind wired.orderIn fun _ => ?_
      refine .request_bind wired.capacityIn fun c => ?_
      refine .request_bind wired.capacityIn fun _ => ?_
      exact ⟨_, _, (Int.lt_succ _).le, rfl⟩
    · refine .request_bind wired.orderIn fun _ => ?_
      exact .refl m

theorem ensures_assign :
    m.assign.Ensures (Operation.Within (layout codec)) (Reassigned m) := by
  refine .request_bind trivial fun pending => ?_
  refine .foldlM (fun cur o kept => ?_) pending (.refl m)
  exact .mono (ensures_assignOne (kept.wired wired) o) fun _ => kept.trans

theorem ensures_deliver (visiting : MapOrder (Σ _ : EntityID, EntityID)) :
    (m.deliver visiting).Ensures (Operation.Within (layout codec)) (Reassigned m) := by
  refine .foldlM (fun cur x kept => ?_) _ (.refl m)
  exact .mono (ensures_deliverOne (kept.wired wired) x) fun _ => kept.trans

end

theorem ensures_step (orders : UInt64 → MapOrder (Σ _ : EntityID, EntityID))
    (m : Logistics) (wired : m.Wired) : (tickStep (step orders) m).Ensures
      (Operation.Within (layout codec)) (Reassigned m) := by
  refine ensures_tickStep trivial ?_
  refine .bind (ensures_assign wired) fun given kept => ?_
  refine .request_bind trivial fun tick => ?_
  exact .mono (ensures_deliver (kept.wired wired) _) fun _ => kept.trans

end Rules

theorem setUp_laid {sort : SortSlice (Event (logisticsTypes codec))}
    {metadata : Metadata} {seed : UInt64} {c : Config} {m : Logistics}
    {w : World (logisticsTypes codec)} (ran : (World.new metadata).runCode sort
      ((configure c).setUp seed) = some (m, w)) : w.Laid metadata (layout codec) ∧ m.Wired := by
  obtain ⟨first, firstLaid, rest⟩ :=
    (World.laid_new metadata).runCode_registerComponent List.not_mem_nil ran
  obtain ⟨second, secondLaid, rest⟩ := firstLaid.runCode_registerComponent (by simp) rest
  obtain ⟨third, laid, rest⟩ := secondLaid.runCode_registerComponent (by simp) rest
  refine laid.runCode Wired ?_ rest
  refine .seq ?_ fun _ => ?_
  · refine .iterate (fun _ _ => ?_) _ trivial
    refine .request_bind trivial fun e => ?_
    exact .request rfl fun _ => trivial
  refine .seq ?_ fun _ => ?_
  · refine .iterate (fun _ _ => ?_) _ trivial
    refine .request_bind trivial fun e => ?_
    exact .request rfl fun _ => trivial
  refine .seq ?_ fun rng => ⟨rfl, rfl⟩
  refine .iterate (fun rng _ => ?_) _ trivial
  refine .request_bind trivial fun e => ?_
  refine .seq ?_ fun drawn => ?_
  · exact ensures_ofExcept fun _ _ => trivial
  · exact .request_bind rfl fun _ => trivial

theorem orderly (orders : UInt64 → MapOrder (Σ _ : EntityID, EntityID))
    (codec : ∀ t, JsonCodec (LogisticsTy.Value t)) (c : Config) :
    (program orders codec c).Orderly (layout codec) Wired where
  setUp ran := setUp_laid ran
  step m wired := Program.Ensures.mono (ensures_step orders m wired) fun _ kept => kept.wired wired
  config _ hit := by cases hit

end Logistics

end Simulator
