import Simulator.Logistics
import Simulator.ModelRuns

/-!
# The assignments of the logistics model

The first vehicle is given the first order and keeps it while nothing is delivered.
-/

namespace Simulator

open Requests List Option World ComponentStore Code Program Column AList ModelProgram

variable {G : GoTypes} {t u : G.Ty}

theorem ComponentStore.bind_bind (s : ComponentStore G)
    (id : ComponentID) (first : Column (G.Value t)) (second : Column (G.Value u)) :
    (s.bind t id first).bind u id second = s.bind u id second := by
  simp only [bind, Function.update_idem]

theorem ComponentStore.bind_comm (s : ComponentStore G)
    {id other : ComponentID} (ne : id ≠ other) (first : Column (G.Value t))
    (second : Column (G.Value u)) :
    (s.bind t id first).bind u other second = (s.bind u other second).bind t id first := by
  simp only [bind, Function.update_comm ne]

namespace Logistics

variable {codec : ∀ t, JsonCodec (LogisticsTy.Value t)} {metadata : Metadata}
  {sort : SortSlice (Event (logisticsTypes codec))}
  {mayFail : Prop} {m : Logistics} {w : World (logisticsTypes codec)} {v o : EntityID} {load : Int}

/-- `capCol` -/
def capacities (m : Logistics) (w : World (logisticsTypes codec)) : Column Capacity :=
  World.column (G := logisticsTypes codec) w (some .capacity) m.capID

/-- `ordCol` -/
def pending (m : Logistics) (w : World (logisticsTypes codec)) : Column Order :=
  World.column (G := logisticsTypes codec) w (some .order) m.ordID

/-- What `freeVehicle` looks for. -/
def isFree (m : Logistics) (w : World (logisticsTypes codec)) (v : EntityID) : Bool :=
  (m.assignments.lookup v).isNone && ((m.capacities w).get v).any fun c => decide (c.load < c.max)

theorem runCode_freeAmong (laid : w.Laid metadata (layout codec))
    (wired : m.Wired) (vehicles : List EntityID) :
    w.runCode sort (m.freeAmong vehicles) = some (vehicles.find? (m.isFree w), w) := by
  induction vehicles with
  | nil => rfl
  | cons v rest ih =>
    unfold freeAmong
    have reads : w.runCode sort (m.capacity v) = some ((m.capacities w).get v, w) :=
      laid.runCode_get wired.capacityIn v
    rw [find?_cons]
    cases taken : m.assignments.lookup v with
    | some o => simp [isFree, taken, ih]
    | none =>
      rw [if_neg (by simp), runCode_bind, reads, bind_some]
      cases held : (m.capacities w).get v with
      | none => simp [isFree, taken, held, ih]
      | some c =>
        by_cases fits : c.load < c.max
        · simp [isFree, taken, held, fits]
        · simp [isFree, taken, held, fits, ih]

theorem Wired.columns_ne (wired : m.Wired) : m.ordID ≠ m.capID := by
  rw [wired.ordID, wired.capID]
  decide

/-- What `deliver` works on. -/
@[ext]
structure Depot where
  entities : EntityManager
  revision : UInt64
  capacities : Column Capacity
  orders : Column Order
  assignments : Assignments
  delivered : Int

namespace Depot

def of (m : Logistics) (w : World (logisticsTypes codec)) : Depot :=
  ⟨w.entities, w.revision, m.capacities w, m.pending w, m.assignments, m.delivered⟩

def model (d : Depot) (m : Logistics) : Logistics :=
  { m with
    assignments := d.assignments
    delivered := d.delivered }

def world (d : Depot) (w : World (logisticsTypes codec)) : World (logisticsTypes codec) :=
  { w with
    entities := d.entities
    revision := d.revision
    components := (w.components.bind (G := logisticsTypes codec) (some .capacity) 1
      d.capacities).bind (some .order) 2 d.orders }

def bump (changed : Bool) (revision : UInt64) : UInt64 :=
  if changed then revision + 1 else revision

def complete (d : Depot) (entry : Σ _ : EntityID, EntityID) : Depot :=
  let c := (d.capacities.get entry.1).getD ⟨0, 0⟩
  { entities := (d.entities.destroy entry.2).2
    revision := bump (!d.capacities.has entry.1) (bump (d.orders.remove entry.2).1
      (bump (d.entities.destroy entry.2).1 d.revision))
    capacities := d.capacities.set entry.1 { c with load := c.load - 1 }
    orders := (d.orders.remove entry.2).2
    assignments := d.assignments.erase entry.1
    delivered := d.delivered + 1 }

def carry (d : Depot) (entry : Σ _ : EntityID, EntityID) (ord : Order) : Depot :=
  { d with orders := d.orders.set entry.2 ⟨ord.remaining - 1⟩ }

/-- The body of the loop of `deliver` -/
def deliverOne (d : Depot) (entry : Σ _ : EntityID, EntityID) : Depot :=
  match d.orders.get entry.2 with
  | none => { d with assignments := d.assignments.erase entry.1 }
  | some ord => if ord.remaining - 1 ≤ 0 then d.complete entry else d.carry entry ord

theorem world_of (laid : w.Laid metadata (layout codec)) (wired : m.Wired) :
    (of m w).world w = w := by
  have capacities := laid.cols_eq wired.capacityIn
  have orders := laid.cols_eq wired.orderIn
  simp only [wired.capID, wired.ordID] at capacities orders
  simp only [world, of, Logistics.capacities, Logistics.pending, wired.capID, wired.ordID]
  rw [bind_bound capacities, bind_bound orders]

section Operations

variable (d : Depot)

theorem cols_capacities : (d.world w).components.cols 1 = some ⟨some .capacity, d.capacities⟩ :=
  (cols_bind_of_ne _ _ _ (by decide)).trans (cols_bind_self _ _ _ _)

theorem cols_orders : (d.world w).components.cols 2 = some ⟨some .order, d.orders⟩ :=
  cols_bind_self _ _ _ _

theorem bind_orders (orders : Column Order) :
    (d.world w).components.bind (G := logisticsTypes codec) (some .order) 2 orders =
      ({ d with orders := orders }.world w).components :=
  bind_bind _ _ _ _

theorem bind_capacities (capacities : Column Capacity) :
    (d.world w).components.bind (G := logisticsTypes codec) (some .capacity) 1 capacities =
      ({ d with capacities := capacities }.world w).components := by
  refine (bind_comm _ (by decide) _ _).trans ?_
  exact congrArg (fun s => bind s _ 2 _) (bind_bind _ _ _ _)

variable (wired : m.Wired)
include wired

theorem runCode_order (o : EntityID) :
    (d.world w).runCode sort (m.order o) = some (d.orders.get o, d.world w) := by
  unfold order
  rw [wired.ordID]
  exact runCode_get_of_bound d.cols_orders o

theorem runCode_setOrder (o : EntityID) (ord : Order) :
    (d.world w).runCode sort (m.setOrder o ord) = some ((), { d with
        orders := d.orders.set o ord
        revision := bump (!d.orders.has o) d.revision }.world w) := by
  unfold setOrder
  rw [wired.ordID]
  refine (runCode_set_of_bound d.cols_orders o ord).trans ?_
  exact congrArg (fun components => some ((), bumpIf { d.world w with components } _))
    (d.bind_orders _)

theorem runCode_remove (o : EntityID) : (d.world w).runCode sort
      (remove (G := logisticsTypes codec) (some .order) m.ordID o) =
    some ((d.orders.remove o).1, { d with
      orders := (d.orders.remove o).2
      revision := bump (d.orders.remove o).1 d.revision }.world w) := by
  rw [wired.ordID]
  refine (runCode_remove_of_bound d.cols_orders o).trans ?_
  exact congrArg (fun components => some (_, bumpIf { d.world w with components } _))
    (d.bind_orders _)

theorem runCode_capacity (v : EntityID) :
    (d.world w).runCode sort (m.capacity v) = some (d.capacities.get v, d.world w) := by
  unfold capacity
  rw [wired.capID]
  exact runCode_get_of_bound d.cols_capacities v

theorem runCode_setCapacity (v : EntityID) (c : Capacity) :
    (d.world w).runCode sort (m.setCapacity v c) = some ((), { d with
        capacities := d.capacities.set v c
        revision := bump (!d.capacities.has v) d.revision }.world w) := by
  unfold setCapacity
  rw [wired.capID]
  refine (runCode_set_of_bound d.cols_capacities v c).trans ?_
  exact congrArg (fun components => some ((), bumpIf { d.world w with components } _))
    (d.bind_capacities _)

theorem runCode_deliverOne (entry : Σ _ : EntityID, EntityID) :
    (d.world w).runCode sort ((d.model m).deliverOne entry) =
      some ((d.deliverOne entry).model m, (d.deliverOne entry).world w) := by
  have wired : (d.model m).Wired := ⟨wired.capID, wired.ordID⟩
  unfold Logistics.deliverOne deliverOne
  rw [runCode_bind, d.runCode_order wired, bind_some]
  cases found : d.orders.get entry.2 with
  | none => rfl
  | some ord =>
    dsimp only
    split
    · rw [runCode_bind, show (d.world w).runCode sort (destroy entry.2) =
        some ((d.entities.destroy entry.2).1, { d with
          entities := (d.entities.destroy entry.2).2
          revision := bump (d.entities.destroy entry.2).1 d.revision }.world w) from rfl,
        bind_some, runCode_bind, runCode_remove _ wired, bind_some,
        runCode_bind, runCode_capacity _ wired, bind_some,
        runCode_bind, runCode_setCapacity _ wired]
      rfl
    · rw [runCode_bind, runCode_setOrder _ wired, has_of_get found]
      rfl

end Operations

theorem of_world (d : Depot) (wired : m.Wired) : of (d.model m) (d.world w) = d := by
  have capacities : (d.model m).capacities (d.world w) = d.capacities := by
    rw [Logistics.capacities, show (d.model m).capID = 1 from wired.capID]
    exact column_of_bound d.cols_capacities
  have orders : (d.model m).pending (d.world w) = d.orders := by
    rw [Logistics.pending, show (d.model m).ordID = 2 from wired.ordID]
    exact column_of_bound d.cols_orders
  simp only [of, capacities, orders]
  rfl

theorem runCode_foldlM (wired : m.Wired) (visits : List (Σ _ : EntityID, EntityID)) (d : Depot) :
    (d.world w).runCode sort (visits.foldlM Logistics.deliverOne (d.model m)) =
      some ((visits.foldl deliverOne d).model m, (visits.foldl deliverOne d).world w) := by
  induction visits generalizing d with
  | nil => rfl
  | cons x rest ih =>
    rw [foldlM_cons, runCode_bind, d.runCode_deliverOne wired, bind_some]
    exact ih (d.deliverOne x)

theorem runCode_deliver (laid : w.Laid metadata (layout codec)) (wired : m.Wired)
    (order : MapOrder (Σ _ : EntityID, EntityID)) :
    w.runCode sort (m.deliver order) = some
      (((order.visit m.assignments.entries).foldl deliverOne (of m w)).model m,
        ((order.visit m.assignments.entries).foldl deliverOne (of m w)).world w) := by
  conv_lhs => rw [← world_of laid wired]
  exact runCode_foldlM wired _ (of m w)

structure Carrying (v o : EntityID) (d : Depot) : Prop where
  firstVehicle : d.capacities.entityIDs.head? = some v
  firstOrder : d.orders.entityIDs.head? = some o
  held : ∃ remaining, d.orders.get o = some ⟨remaining⟩
  assigned : d.assignments.lookup v = some o
  alone : ∀ other order, d.assignments.lookup other = some order →
    other ≠ v → other.key ≠ v.key ∧ order.key ≠ o.key

structure Tracked (v o : EntityID) (load least : Int) (d : Depot) : Prop where
  consistent : d.orders.Consistent
  loaded : d.capacities.get v = some ⟨3, load⟩
  count : least ≤ d.delivered
  carrying : d.delivered = 0 → d.Carrying v o

section Delivering

variable {d : Depot} {least : Int}

theorem Carrying.erase {other : EntityID} (carrying : d.Carrying v o) (ne : other ≠ v) :
    Carrying v o { d with assignments := d.assignments.erase other } := by
  obtain ⟨firstVehicle, firstOrder, held, given, alone⟩ := carrying
  refine ⟨firstVehicle, firstOrder, held, ?_, ?_⟩
  · exact (lookup_erase_ne ne.symm).trans given
  · intro vehicle order hit
    by_cases erased : vehicle = other
    · subst erased
      rw [lookup_erase] at hit
      cases hit
    · rw [lookup_erase_ne erased] at hit
      exact alone vehicle order hit

theorem Tracked.carry (tracked : d.Tracked v o load least) (x : Σ _ : EntityID, EntityID)
    (ord : Order) : (d.carry x ord).Tracked v o load least := by
  refine ⟨tracked.consistent.set _ _, tracked.loaded, tracked.count, fun none => ?_⟩
  obtain ⟨firstVehicle, firstOrder, ⟨remaining, hit⟩, given, alone⟩ := tracked.carrying none
  refine ⟨firstVehicle, head?_entityIDs_set firstOrder _ _, ?_, given, alone⟩
  by_cases eq : o.key = x.2.key
  · rw [get_congr eq]
    exact ⟨_, get_set_self _ x.2 _⟩
  · exact ⟨remaining, (get_set_of_ne eq _).trans hit⟩

section

variable (tracked : d.Tracked v o load least) (natural : 0 ≤ least)
include tracked natural

theorem Tracked.deliverOne_other {x : Σ _ : EntityID, EntityID}
    (apart : x.1.key ≠ v.key ∧ x.2.key ≠ o.key) :
    (d.deliverOne x).Tracked v o load least ∧ ∀ ord, d.orders.get o = some ord →
      (d.deliverOne x).orders.get o = some ord := by
  have ne : x.1 ≠ v := fun eq => apart.1 (by rw [eq])
  fun_cases d.deliverOne x
  · refine ⟨⟨tracked.consistent, tracked.loaded, tracked.count, fun none => ?_⟩, fun _ held => held⟩
    exact (tracked.carrying none).erase ne
  · refine ⟨⟨tracked.consistent.remove _, ?_, ?_, ?_⟩, fun ord held => ?_⟩
    · exact (get_set_of_ne apart.1.symm _).trans tracked.loaded
    · exact tracked.count.trans (Int.lt_succ _).le
    · have count := tracked.count
      simp only [complete]
      omega
    · exact tracked.consistent.get_remove_of_ne apart.2.symm held
  · exact ⟨tracked.carry _ _, fun ord held => (get_set_of_ne apart.2.symm _).trans held⟩

theorem Tracked.deliverOne_self {remaining : Int} (left : d.orders.get o = some ⟨remaining⟩) :
    (d.deliverOne ⟨v, o⟩).Tracked v o (if remaining - 1 ≤ 0 then load - 1 else load)
      (if remaining - 1 ≤ 0 then 1 else least) := by
  have count := tracked.count
  simp only [deliverOne, left]
  split
  · refine ⟨tracked.consistent.remove _, ?_, ?_, ?_⟩
    · simp only [complete, tracked.loaded]
      exact get_set_self _ v _
    · simp only [complete]
      omega
    · simp only [complete]
      omega
  · exact tracked.carry _ _

theorem Tracked.foldl {visits : List (Σ _ : EntityID, EntityID)}
    (others : ∀ x ∈ visits, x.1.key ≠ v.key ∧ x.2.key ≠ o.key) :
    (visits.foldl deliverOne d).Tracked v o load least ∧ ∀ ord, d.orders.get o = some ord →
      (visits.foldl deliverOne d).orders.get o = some ord := by
  induction visits generalizing d with
  | nil => exact ⟨tracked, fun _ held => held⟩
  | cons x visits ih =>
    obtain ⟨here, later⟩ := forall_mem_cons.mp others
    obtain ⟨next, kept⟩ := tracked.deliverOne_other natural here
    obtain ⟨last, keptLast⟩ := ih next later
    exact ⟨last, fun ord held => keptLast ord (kept ord held)⟩

end

theorem Carrying.split (carrying : d.Carrying v o)
    (visiting : MapOrder (Σ _ : EntityID, EntityID)) :
    ∃ old later : List (Σ _ : EntityID, EntityID),
      visiting.visit d.assignments.entries = old ++ ⟨v, o⟩ :: later ∧ ∀ x ∈ old ++ later,
        x.1.key ≠ v.key ∧ x.2.key ≠ o.key := by
  have perm := visiting.perm d.assignments.entries
  have here := AList.mem_lookup_iff.mp carrying.assigned
  obtain ⟨old, later, split⟩ := List.append_of_mem (perm.mem_iff.mpr here)
  refine ⟨old, later, split, ?_⟩
  intro x mem
  have distinct := (perm_nodupKeys perm).mpr d.assignments.nodupKeys
  rw [split, List.NodupKeys, List.keys, List.map_append, List.map_cons,
    nodup_middle, ← map_append] at distinct
  have listed : x ∈ d.assignments.entries := by
    rw [← perm.mem_iff, split]
    simp only [mem_append, mem_cons] at mem ⊢
    tauto
  refine carrying.alone x.1 x.2 (mem_lookup_iff.mpr listed) ?_
  intro eq
  exact (nodup_cons.mp distinct).1 (mem_map.mpr ⟨x, mem, eq⟩)

theorem Tracked.deliver {remaining : Int} (tracked : d.Tracked v o load 0) (none : d.delivered = 0)
    (left : d.orders.get o = some ⟨remaining⟩) (visiting : MapOrder (Σ _ : EntityID, EntityID)) :
    ((visiting.visit d.assignments.entries).foldl deliverOne d).Tracked v o
      (if remaining - 1 ≤ 0 then load - 1 else load) (if remaining - 1 ≤ 0 then 1 else 0) := by
  obtain ⟨old, later, split, others⟩ := (tracked.carrying none).split visiting
  rw [split, foldl_append, foldl_cons]
  obtain ⟨prior, kept⟩ := tracked.foldl le_rfl fun x mem => others x (mem_append_left later mem)
  refine ((prior.deliverOne_self le_rfl (kept _ left)).foldl (by split <;> decide) ?_).1
  exact fun x mem => others x (mem_append_right old mem)

end Delivering

end Depot

structure Tracked (metadata : Metadata) (v o : EntityID)
    (load least : Int) (m : Logistics)
    (w : World (logisticsTypes codec)) : Prop where
  laid : w.Laid metadata (layout codec)
  wired : m.Wired
  depot : (Depot.of m w).Tracked v o load least

section Assigning

variable {orders : Column Order} {least : Int} {order : EntityID}

theorem Tracked.assign {after : World (logisticsTypes codec)}
    {other : EntityID} {c : Capacity} (tracked : m.Tracked metadata v o load least w)
    (none : m.delivered = 0) (stillLaid : after.Laid metadata (layout codec))
    (wrote : w.Rewritten after (some .capacity) m.capID ((m.capacities w).set other c))
    (vehicle : other ∈ (m.capacities w).entityIDs) (free : m.assignments.lookup other = Option.none)
    (listed : order ∈ (m.pending w).entityIDs) (waiting : m.assignmentsReverse order = false) :
    Tracked metadata v o load least
      { m with assignments := m.assignments.insert other order } after := by
  obtain ⟨laid, wired, valid, loaded, count, carrying⟩ := tracked
  obtain ⟨firstVehicle, firstOrder, held, given, alone⟩ := carrying none
  have otherVehicle : other ≠ v := by
    rintro rfl
    cases free.symm.trans given
  have otherOrder : order ≠ o := by
    rintro rfl
    have x := AList.mem_lookup_iff.mp given
    simp only [assignmentsReverse, List.any_eq_false] at waiting
    exact waiting _ x (by simp)
  have vehicleKey : other.key ≠ v.key := fun eq => otherVehicle
    ((laid.consistent wired.capacityIn).eq_of_key_eq vehicle (List.mem_of_head? firstVehicle) eq)
  have orderKey : order.key ≠ o.key := fun eq => otherOrder
    (valid.eq_of_key_eq listed (mem_of_head? firstOrder) eq)
  have kept : m.pending after = m.pending w := wrote.others _ _ wired.columns_ne
  have changed : m.capacities after = (m.capacities w).set other c := wrote.self
  refine ⟨stillLaid, ⟨wired.capID, wired.ordID⟩, stillLaid.consistent wired.orderIn, ?_, count,
    fun _ => ?_⟩
  · exact (congrArg (·.get v) changed).trans ((get_set_of_ne vehicleKey.symm c).trans loaded)
  · refine ⟨?_, ?_, ?_, ?_, ?_⟩
    · exact (congrArg (·.entityIDs.head?) changed).trans (head?_entityIDs_set firstVehicle other c)
    · exact (congrArg (·.entityIDs.head?) kept).trans firstOrder
    · obtain ⟨remaining, hit⟩ := held
      exact ⟨remaining, (congrArg (·.get o) kept).trans hit⟩
    · exact (lookup_insert_ne otherVehicle.symm).trans given
    · intro vehicle' order' (hit : (m.assignments.insert other order).lookup vehicle' = _)
      by_cases new : vehicle' = other
      · subst new
        rw [lookup_insert] at hit
        cases hit
        exact fun _ => ⟨vehicleKey, orderKey⟩
      · rw [lookup_insert_ne new] at hit
        exact alone vehicle' order' hit

theorem leads_freeVehicle {β : Type} {post : β → World _ → Prop}
    {next : Option EntityID → Code (logisticsTypes codec) β}
    (laid : w.Laid metadata (layout codec)) (wired : m.Wired) (rest : w.Leads sort mayFail
      (next ((m.capacities w).entityIDs.find? (m.isFree w))) post) :
    w.Leads sort mayFail (m.freeVehicle >>= next) post := by
  have finds : w.runCode sort m.freeVehicle =
      some ((m.capacities w).entityIDs.find? (m.isFree w), w) := by
    rw [freeVehicle, runCode_bind, laid.runCode_entitiesOf wired.capacityIn, bind_some]
    exact runCode_freeAmong laid wired _
  exact meets_bind_of_run finds rest

theorem leads_assignOne (tracked : m.Tracked metadata v o load least w)
    (none : m.delivered = 0) (listed : order ∈ (m.pending w).entityIDs) :
    w.Leads sort mayFail (m.assignOne order) fun after final =>
      after.Tracked metadata v o load least final ∧ after.delivered = 0 ∧
        after.pending final = m.pending w := by
  unfold assignOne
  split
  · exact ⟨tracked, none, rfl⟩
  · rename_i waiting
    refine leads_freeVehicle tracked.laid tracked.wired ?_
    cases hit : (m.capacities w).entityIDs.find? (m.isFree w) with
    | none => exact ⟨tracked, none, rfl⟩
    | some other =>
      have free := find?_some hit
      simp only [isFree, Bool.and_eq_true, isNone_iff_eq_none] at free
      refine tracked.laid.leads_get tracked.wired.capacityIn ?_
      refine tracked.laid.leads_set tracked.wired.capacityIn ?_
      intro after stillLaid wrote
      refine ⟨tracked.assign none stillLaid wrote
        (mem_of_find?_eq_some hit) free.1 listed (by simpa using waiting), none, ?_⟩
      exact wrote.others _ _ tracked.wired.columns_ne

theorem leads_assignAll {listed : List EntityID} (tracked : m.Tracked metadata v o load least w)
    (none : m.delivered = 0) (inColumn : ∀ order ∈ listed, order ∈ (m.pending w).entityIDs) :
    w.Leads sort mayFail (listed.foldlM assignOne m)
      fun after final => after.Tracked metadata v o load least final ∧
        after.delivered = 0 ∧ after.pending final = m.pending w := by
  refine meets_foldlM ?_ ⟨tracked, none, rfl⟩
  rintro order mem cur mid ⟨tracked, none, eq⟩
  have still := inColumn order mem
  rw [← eq] at still ⊢
  exact leads_assignOne tracked none still

structure Waiting (metadata : Metadata) (v o : EntityID) (load : Int)
    (m : Logistics) (w : World (logisticsTypes codec)) : Prop where
  laid : w.Laid metadata (layout codec)
  wired : m.Wired
  loaded : (m.capacities w).get v = some ⟨3, load⟩
  room : load < 3
  firstVehicle : (m.capacities w).entityIDs.head? = some v
  firstOrder : (m.pending w).entityIDs.head? = some o
  held : ∃ remaining, (m.pending w).get o = some ⟨remaining⟩
  unassigned : m.assignments = ∅
  undelivered : m.delivered = 0

section

variable (waiting : m.Waiting metadata v o load w)
include waiting

theorem Waiting.find?_isFree : (m.capacities w).entityIDs.find? (m.isFree w) = some v := by
  obtain ⟨rest, vehicles⟩ := head?_eq_some_iff.mp waiting.firstVehicle
  have free : m.isFree w v = true := by
    simp [isFree, waiting.unassigned, waiting.loaded, waiting.room]
  rw [vehicles, find?_cons_of_pos free]

theorem leads_assignOne_of_waiting :
    w.Leads sort mayFail (m.assignOne o) fun after final =>
      after.Tracked metadata v o (load + 1) 0 final ∧
        after.delivered = 0 ∧ after.pending final = m.pending w := by
  have finds := waiting.find?_isFree
  obtain ⟨laid, wired, loaded, room, firstVehicle, firstOrder, held,
    unassigned, undelivered⟩ := waiting
  have unknown : m.assignmentsReverse o = false := by
    rw [assignmentsReverse, unassigned]
    rfl
  unfold assignOne
  rw [if_neg (by simp [unknown])]
  refine leads_freeVehicle laid wired ?_
  rw [finds]
  refine laid.leads_get wired.capacityIn ?_
  refine laid.leads_set wired.capacityIn ?_
  intro after stillLaid wrote
  have kept : m.pending after = m.pending w := wrote.others _ _ wired.columns_ne
  have changed : m.capacities after = (m.capacities w).set v ⟨3, load + 1⟩ := by
    refine wrote.self.trans ?_
    have reads : (w.column (some .capacity) m.capID).get v = some ⟨3, load⟩ := loaded
    rw [reads]
    rfl
  refine ⟨⟨stillLaid, ⟨wired.capID, wired.ordID⟩, stillLaid.consistent wired.orderIn, ?_, ?_,
    fun _ => ?_⟩, undelivered, kept⟩
  · exact (congrArg (·.get v) changed).trans (get_set_self _ v _)
  · exact undelivered.ge
  · refine ⟨?_, ?_, ?_, ?_, ?_⟩
    · exact (congrArg (·.entityIDs.head?) changed).trans (head?_entityIDs_set firstVehicle v _)
    · exact (congrArg (·.entityIDs.head?) kept).trans firstOrder
    · obtain ⟨remaining, hit⟩ := held
      exact ⟨remaining, (congrArg (·.get o) kept).trans hit⟩
    · exact lookup_insert m.assignments
    · intro other order (hit : (m.assignments.insert v o).lookup other = _) ne
      rw [lookup_insert_ne ne, unassigned, lookup_empty] at hit
      cases hit

theorem leads_assign_of_waiting :
    w.Leads sort mayFail m.assign fun after final =>
      after.Tracked metadata v o (load + 1) 0 final ∧
        after.delivered = 0 ∧ after.pending final = m.pending w := by
  refine waiting.laid.leads_entitiesOf waiting.wired.orderIn ?_
  obtain ⟨rest, ordersEq⟩ := head?_eq_some_iff.mp waiting.firstOrder
  change w.Leads sort mayFail ((m.pending w).entityIDs.foldlM assignOne m) _
  rw [ordersEq, foldlM_cons]
  refine (leads_assignOne_of_waiting waiting).bind ?_
  rintro cur mid ⟨tracked, none, eq⟩
  rw [← eq]
  refine leads_assignAll tracked none fun order mem => ?_
  rw [eq, ordersEq]
  exact mem_cons_of_mem o mem

end

theorem leads_assign (tracked : m.Tracked metadata v o load least w) (none : m.delivered = 0) :
    w.Leads sort mayFail m.assign fun after final =>
      after.Tracked metadata v o load least final ∧
        after.delivered = 0 ∧ after.pending final = m.pending w := by
  refine tracked.laid.leads_entitiesOf tracked.wired.orderIn ?_
  exact leads_assignAll tracked none fun _ mem => mem

end Assigning

variable {remaining : Int}

theorem leads_deliver (visiting : MapOrder (Σ _ : EntityID, EntityID))
    (tracked : m.Tracked metadata v o load 0 w) (none : m.delivered = 0)
    (left : (m.pending w).get o = some ⟨remaining⟩) :
    w.Leads sort mayFail (m.deliver visiting) (Tracked metadata v o
      (if remaining - 1 ≤ 0 then load - 1 else load) (if remaining - 1 ≤ 0 then 1 else 0)) := by
  have ran : w.runCode sort (m.deliver visiting) = _ :=
    Depot.runCode_deliver tracked.laid tracked.wired visiting
  obtain ⟨laid, _⟩ := tracked.laid.runCode _ (ensures_deliver tracked.wired visiting) ran
  refine meets_of_run_eq ran ⟨laid, ⟨tracked.wired.capID, tracked.wired.ordID⟩, ?_⟩
  rw [Depot.of_world _ tracked.wired]
  exact tracked.depot.deliver none left visiting

section Steps

variable {orders : UInt64 → MapOrder (Σ _ : EntityID, EntityID)}

variable {after : Logistics}

theorem leads_step (orders : UInt64 → MapOrder (Σ _ : EntityID, EntityID))
    (assigns : w.Leads sort mayFail m.assign fun after final =>
      after.Tracked metadata v o load 0 final ∧ after.delivered = 0 ∧
        after.pending final = m.pending w)
    (left : (m.pending w).get o = some ⟨remaining⟩) :
    w.Leads sort mayFail (tickStep (step orders) m)
      (Tracked metadata v o (if remaining - 1 ≤ 0 then load - 1 else load)
        (if remaining - 1 ≤ 0 then 1 else 0)) := by
  have works : w.Leads sort mayFail (step orders m)
      (Tracked metadata v o (if remaining - 1 ≤ 0 then load - 1 else load)
        (if remaining - 1 ≤ 0 then 1 else 0)) := by
    refine assigns.bind ?_
    rintro cur mid ⟨tracked, none, eq⟩
    refine meets_bind_of_run rfl ?_
    refine leads_deliver _ tracked none ?_
    rw [eq]
    exact left
  refine works.bind ?_
  intro after final tracked
  exact meets_bind_of_run rfl ⟨tracked.laid.advanced, tracked.wired, tracked.depot⟩

def Loaded (metadata : Metadata) (v o : EntityID) (m : Logistics)
    (w : World (logisticsTypes codec)) : Prop :=
  0 < m.delivered ∨ m.delivered = 0 ∧ m.Tracked metadata v o 1 0 w

theorem Tracked.loaded_of_step (tracked : m.Tracked metadata v o
      (if remaining - 1 ≤ 0 then 1 - 1 else 1)
      (if remaining - 1 ≤ 0 then 1 else 0) w) : m.Loaded metadata v o w := by
  split at tracked
  · exact .inl tracked.depot.count
  · rcases tracked.depot.count.lt_or_eq with some | none
    · exact .inl some
    · exact .inr ⟨none.symm, tracked⟩

variable {final : World (logisticsTypes codec)}

theorem Loaded.step
    (loaded : m.Loaded metadata v o w) (laid : w.Laid metadata (layout codec)) (wired : m.Wired)
    (ran : w.runCode sort (tickStep (step orders) m) =
      some (after, final)) : after.Loaded metadata v o final := by
  rcases loaded with some | ⟨none, tracked⟩
  · obtain ⟨_, _, _, grown, rfl⟩ := laid.runCode _ (ensures_step orders m wired) ran
    exact .inl (some.trans_le grown)
  · obtain ⟨remaining, left⟩ := (tracked.depot.carrying none).held
    have assigns : w.Leads sort False m.assign _ := leads_assign tracked none
    exact ((leads_step orders assigns left).of_run ran).loaded_of_step

theorem Waiting.step (waiting : m.Waiting metadata v o 0 w)
    (ran : w.runCode sort (tickStep (Logistics.step orders) m) =
      some (after, final)) : after.Loaded metadata v o final := by
  obtain ⟨remaining, left⟩ := waiting.held
  have assigns : w.Leads sort False m.assign _ := leads_assign_of_waiting waiting
  exact ((leads_step orders assigns left).of_run ran).loaded_of_step

theorem Waiting.iterate {k : Nat} {last : Logistics}
    (waiting : m.Waiting metadata v o 0 w) (ran : w.runCode sort (iterate
      (tickStep (Logistics.step orders)) (k + 1) m) = some (last, final)) :
    last.Loaded metadata v o final := by
  have run : w.Leads sort True (Program.iterate (Code.tickStep (Logistics.step orders)) (k + 1) m)
      fun last final => (final.Laid metadata (layout codec) ∧ last.Wired) ∧
        last.Loaded metadata v o final := by
    refine Program.meets_iterate_succ (fun cur mid =>
      (mid.Laid metadata (layout codec) ∧ cur.Wired) ∧
        (cur.Waiting metadata v o 0 mid ∨ cur.Loaded metadata v o mid)) ?_
      (fun _ _ held => ⟨held.1, .inr held.2⟩) k
      ⟨⟨waiting.laid, waiting.wired⟩, .inl waiting⟩
    rintro cur mid ⟨⟨laid, wired⟩, known⟩
    refine meets_of_run fun after final ran => ?_
    obtain ⟨stillLaid, reassigned⟩ := laid.runCode _ (ensures_step orders cur wired) ran
    refine ⟨⟨stillLaid, reassigned.wired wired⟩, ?_⟩
    rcases known with waiting | loaded
    · exact waiting.step ran
    · exact loaded.step laid wired ran
  exact (run.of_run ran).2

end Steps

section SetUp

theorem vehicles_pos (c : Config) : 0 < c.withDefaults.vehicles := by
  simp only [Config.withDefaults]
  split <;> omega

theorem orders_pos (c : Config) : 0 < c.withDefaults.orders := by
  simp only [Config.withDefaults]
  split <;> omega

/-- The columns while `Initialize` fills them. -/
structure Filling (metadata : Metadata)
    (vehicles : Column Capacity → Prop) (orders : Column Order → Prop)
    (w : World (logisticsTypes codec)) : Prop where
  laid : w.Laid metadata (layout codec)
  vehicles : vehicles (World.column (G := logisticsTypes codec) w (some .capacity) 1)
  orders : orders (World.column (G := logisticsTypes codec) w (some .order) 2)

section Loops

variable {vehicles : Column Capacity → Prop} {orders : Column Order → Prop}

theorem Filling.created {after : World (logisticsTypes codec)}
    (filling : Filling metadata vehicles orders w) (laid : after.Laid metadata (layout codec))
    (eq : after.components = w.components) : Filling metadata vehicles orders after := by
  have columns : ∀ t id, after.column t id = w.column t id :=
    fun t id => column_congr (by rw [eq]) t
  refine ⟨laid, ?_, ?_⟩
  · rw [columns]
    exact filling.vehicles
  · rw [columns]
    exact filling.orders

theorem leads_warehouses (n : Nat) (filling : Filling metadata vehicles orders w) :
    w.Leads sort True (iterate (fun () => do
      let e ← create
      set (G := logisticsTypes codec) (some .inventory) 0 e (⟨1000⟩ : Inventory)) n ())
      fun _ final => Filling metadata vehicles orders final := by
  refine meets_iterate ?_ n filling
  intro _ mid filling
  refine filling.laid.leads_create ?_
  intro e made createdLaid eq
  obtain ⟨_, fleet, book⟩ := filling.created createdLaid eq
  refine createdLaid.leads_set_last rfl ?_
  intro final finalLaid wrote
  refine ⟨finalLaid, ?_, ?_⟩
  · rw [wrote.others _ 1 (by decide)]
    exact fleet
  · rw [wrote.others _ 2 (by decide)]
    exact book

variable {n : Nat}

theorem leads_vehicles (pos : 0 < n) (filling : Filling metadata (· = .empty) orders w) :
    w.Leads sort True (iterate (fun () => do
      let e ← create
      set (G := logisticsTypes codec) (some .capacity) 1 e (⟨3, 0⟩ : Capacity)) n ())
      fun _ final => Filling metadata (Column.First (· = ⟨3, 0⟩)) orders
        final := by
  obtain ⟨k, rfl⟩ := Nat.exists_eq_add_one.mpr pos
  refine meets_iterate_succ (fun _ mid => Filling metadata
    (fun c => c = .empty ∨ c.First (· = ⟨3, 0⟩)) orders mid) ?_ ?_ k ?_
  · intro _ mid filling
    refine filling.laid.leads_create ?_
    intro e made createdLaid eq
    obtain ⟨_, fleet, book⟩ := filling.created createdLaid eq
    refine createdLaid.leads_set_last rfl ?_
    intro final finalLaid wrote
    refine ⟨finalLaid, ?_, ?_⟩
    · rw [wrote.self]
      exact first_set fleet rfl
    · rw [wrote.others _ 2 (by decide)]
      exact book
  · rintro _ mid ⟨laid, fleet, book⟩
    exact ⟨laid, .inr fleet, book⟩
  · exact ⟨filling.laid, .inl filling.vehicles, filling.orders⟩

theorem leads_orders (pos : 0 < n) (rng : RNG)
    (filling : Filling metadata vehicles (· = .empty) w) :
    w.Leads sort True (iterate (fun rng => do
      let e ← create
      let drawn ← ofExcept (RNG.uint64n rng 5)
      set (G := logisticsTypes codec) (some .order) 2 e (⟨1 + drawn.1.toNat⟩ : Order)
      return drawn.2) n rng)
      fun _ final => Filling metadata vehicles (Column.First fun _ => True)
        final := by
  obtain ⟨k, rfl⟩ := Nat.exists_eq_add_one.mpr pos
  refine meets_iterate_succ (fun _ mid => Filling metadata
    vehicles (fun c => c = .empty ∨ c.First fun _ => True) mid) ?_ ?_ k ?_
  · intro rng mid filling
    refine filling.laid.leads_create ?_
    intro e made createdLaid eq
    obtain ⟨_, fleet, book⟩ := filling.created createdLaid eq
    cases RNG.uint64n rng 5 with
    | error msg => exact trivial
    | ok drawn =>
      refine createdLaid.leads_set rfl ?_
      intro final finalLaid wrote
      refine ⟨finalLaid, ?_, ?_⟩
      · rw [wrote.others _ 1 (by decide)]
        exact fleet
      · rw [wrote.self]
        exact first_set book trivial
  · rintro _ mid ⟨laid, fleet, book⟩
    exact ⟨laid, fleet, .inr book⟩
  · exact ⟨filling.laid, filling.vehicles, .inl filling.orders⟩

end Loops

theorem leads_setUp (c : Config) (seed : UInt64) :
    (new metadata).Leads sort True ((configure c).setUp seed)
      fun m w => ∃ v o, m.Waiting metadata v o 0 w := by
  have set : ¬(configure c).cfg.vehicles = 0 := (vehicles_pos c).ne'
  unfold setUp
  rw [if_neg set]
  refine (laid_new metadata).leads_registerComponent not_mem_nil ?_
  intro first firstLaid _
  refine firstLaid.leads_registerComponent (by simp) ?_
  intro second secondLaid vehicleColumn
  refine secondLaid.leads_registerComponent (by simp) ?_
  intro third laid orderColumn
  have empty : Filling metadata (· = .empty) (· = .empty) third :=
    ⟨laid, (orderColumn.others _ 1 (by simp)).trans vehicleColumn.self, orderColumn.self⟩
  refine (leads_warehouses _ empty).bind ?_
  intro _ stocked filling
  have someVehicles : 0 < (configure c).cfg.vehicles.toNat := by
    have pos := vehicles_pos c
    simp only [configure]
    omega
  have someOrders : 0 < (configure c).cfg.orders.toNat := by
    have pos := orders_pos c
    simp only [configure]
    omega
  refine (leads_vehicles someVehicles filling).bind ?_
  intro _ manned filling
  refine (leads_orders someOrders _ filling).bind ?_
  rintro rng final ⟨laid, ⟨v, _, firstVehicle, loaded, rfl⟩, ⟨o, ord, firstOrder, hit, _⟩⟩
  exact ⟨v, o, laid, ⟨rfl, rfl⟩, loaded, by decide, firstVehicle,
    firstOrder, ⟨ord.remaining, hit⟩, rfl, rfl⟩

end SetUp

section Resumed

variable {orders : UInt64 → MapOrder (Σ _ : EntityID, EntityID)} {last : Logistics}

theorem Tracked.waiting (tracked : last.Tracked metadata v o 1 0 w)
    (none : last.delivered = 0) (wired : m.Wired)
    (unassigned : m.assignments = ∅) (undelivered : m.delivered = 0) :
    m.Waiting metadata v o 1 w := by
  obtain ⟨laid, lastWired, _, loaded, _, carrying⟩ := tracked
  obtain ⟨firstVehicle, firstOrder, held, _, _⟩ := carrying none
  have vehicles : m.capacities w = last.capacities w := by
    rw [capacities, capacities, wired.capID, lastWired.capID]
  have book : m.pending w = last.pending w := by
    rw [pending, pending, wired.ordID, lastWired.ordID]
  refine ⟨laid, wired, vehicles ▸ loaded, by decide, vehicles ▸ firstVehicle, book ▸ firstOrder,
    book ▸ held, unassigned, undelivered⟩

theorem Tracked.not_alike (tracked : last.Tracked metadata v o 1 0 w)
    (none : last.delivered = 0) (waiting : m.Waiting metadata v o 1 w) :
    ∃ resumed left continued right, w.runCode sort (tickStep (step orders) m) =
        some (resumed, left) ∧ w.runCode sort (tickStep (step orders) last) =
        some (continued, right) ∧ ¬World.Alike left right := by
  obtain ⟨remaining, hit⟩ := (tracked.depot.carrying none).held
  have again : (m.pending w).get o = some ⟨remaining⟩ := by
    rw [pending, waiting.wired.ordID, ← tracked.wired.ordID]
    exact hit
  have loads : w.Leads sort False m.assign _ := leads_assign_of_waiting waiting
  have keeps : w.Leads sort False last.assign _ := leads_assign tracked none
  obtain ⟨resumed, left, resumedRan, twice⟩ := (leads_step orders loads again).exists_run
  obtain ⟨continued, right, continuedRan, once⟩ := (leads_step orders keeps hit).exists_run
  refine ⟨resumed, left, continued, right, resumedRan, continuedRan, ?_⟩
  intro alike
  have leftColumn := twice.laid.cols_eq twice.wired.capacityIn
  have rightColumn := once.laid.cols_eq once.wired.capacityIn
  rw [twice.wired.capID, ← once.wired.capID] at leftColumn
  have sameLoad := alike.column_get leftColumn rightColumn v
  have loadedTwice : (resumed.capacities left).get v = _ := twice.depot.loaded
  rw [capacities, twice.wired.capID, ← once.wired.capID] at loadedTwice
  have loads := loadedTwice.symm.trans (sameLoad.trans once.depot.loaded)
  simp only [some.injEq, Capacity.mk.injEq, true_and] at loads
  split at loads <;> omega

end Resumed

theorem indifferent_iff {orders : UInt64 → MapOrder (Σ _ : EntityID, EntityID)} {c : Config}
    {k : Nat} {fresh paused : (program orders codec c).Sim}
    (made : (program orders codec c).new sort metadata = some fresh)
    (ran : (program orders codec c).advance sort k fresh = some paused) :
    (∀ n, (program orders codec c).Indifferent sort n paused fresh.model) ↔ k = 0 := by
  obtain ⟨⟨m, w⟩, setUp, rfl⟩ := map_eq_some_iff.mp made
  obtain ⟨⟨last, final⟩, steps, rfl⟩ := map_eq_some_iff.mp ran
  obtain ⟨v, o, waiting⟩ := (leads_setUp c metadata.seed).of_run setUp
  constructor
  · intro indifferent
    cases k with
    | zero => rfl
    | succ k =>
      exfalso
      have same : metrics m = metrics last := (indifferent 0).metrics_eq
      rcases waiting.iterate steps with counted | ⟨none, tracked⟩
      · simp only [metrics, waiting.undelivered, cons.injEq, Prod.mk.injEq, true_and] at same
        have zero := Float64.ofInt_eq_ofInt_zero_iff.mp same.1.symm
        omega
      · obtain ⟨resumed, left, continued, right, resumedRan, continuedRan,
          different⟩ := tracked.not_alike none (tracked.waiting none
            waiting.wired waiting.unassigned waiting.undelivered)
        have first : (program orders codec c).advance sort 1
            ⟨false, final, m⟩ = some ⟨false, left, resumed⟩ := advance_one resumedRan
        have second : (program orders codec c).advance sort 1
            ⟨false, final, last⟩ = some ⟨false, right, continued⟩ := advance_one continuedRan
        have outcome : (program orders codec c).Same (some ⟨false, left, resumed⟩)
            (some ⟨false, right, continued⟩) := by
          rw [← first, ← second]
          exact indifferent 1
        cases outcome with
        | some held => exact different held.2
  · rintro rfl n
    cases steps
    exact indifferent_self waiting.laid.sound n

end Logistics

end Simulator
