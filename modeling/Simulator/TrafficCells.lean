import Simulator.ShippedModels

/-!
# The cells of the road

Only the first cell of the route is entered without looking and without a mark.
-/

namespace Simulator.Traffic

open Requests

def cell (v : Vehicle) : Nat × Int :=
  (v.edge, v.pos)

def entrance : Nat × Int :=
  (0, 0)

section Road

variable {edgeLen : List Int} {occ : Occupancy} {v moved : Vehicle} {id : EntityID}
  {entries others : List (EntityID × Vehicle)} {taken : Set (Nat × Int)}

def OnRoad (edgeLen : List Int) (v : Vehicle) : Prop :=
  0 ≤ v.pos ∧ v.pos < edgeLen[v.edge]?.getD 0

structure Placed (edgeLen : List Int) (v : Vehicle) : Prop where
  behind : v.pos < 0 → v.edge = 0
  within : v.pos ≤ edgeLen[v.edge]?.getD 0

/-- A vehicle that moves while the others stand on the cells `taken`. -/
structure Driving (edgeLen : List Int) (taken : Set (Nat × Int)) (v : Vehicle) (occ : Occupancy) :
    Prop where
  placed : Placed edgeLen v
  alone : OnRoad edgeLen v → cell v ∉ taken
  marked : OnRoad edgeLen v → cell v ≠ entrance → cell v ∈ occ
  others : ∀ place ∈ taken, place ≠ entrance → place ∈ occ

namespace Driving

open Finset

variable (driving : Driving edgeLen taken v occ)
include driving

theorem wait (wait : Int) : Driving edgeLen taken { v with wait := wait } occ :=
  ⟨⟨driving.placed.behind, driving.placed.within⟩, driving.alone, driving.marked, driving.others⟩

theorem approach (behind : v.pos < 0) (roads : 0 ≤ edgeLen[v.edge]?.getD 0)
    (free : v.pos + 1 = 0 → entrance ∉ taken) :
    Driving edgeLen taken { v with pos := v.pos + 1 } occ := by
  have first := driving.placed.behind behind
  refine ⟨⟨fun _ => first, by dsimp only; omega⟩, ?_, ?_, driving.others⟩
  · rintro ⟨entered, _⟩
    have arrived : v.pos + 1 = 0 := by dsimp only at entered; omega
    rw [cell, first, arrived]
    exact free arrived
  · rintro ⟨entered, _⟩ apart
    have arrived : v.pos + 1 = 0 := by dsimp only at entered; omega
    refine absurd ?_ apart
    rw [cell, first, arrived]
    rfl

theorem cross (roads : 0 ≤ edgeLen[v.edge + 1]?.getD 0) (free : (v.edge + 1, 0) ∉ occ) :
    Driving edgeLen taken { v with edge := v.edge + 1, pos := 0 } (insert (v.edge + 1, 0) occ) := by
  have apart : ((v.edge + 1, 0) : Nat × Int) ≠ entrance := by
    simp [entrance]
  refine ⟨⟨fun behind => absurd behind (lt_irrefl 0), roads⟩, fun _ taken => ?_, fun _ _ => ?_, ?_⟩
  · exact free (driving.others _ taken apart)
  · exact mem_insert_self _ _
  · intro place mem other
    exact mem_insert_of_mem (driving.others place mem other)

theorem follow (onEdge : 0 ≤ v.pos) (short : v.pos ≠ edgeLen[v.edge]?.getD 0)
    (free : (v.edge, v.pos + 1) ∉ occ) :
    Driving edgeLen taken { v with pos := v.pos + 1 } (if v.pos + 1 < edgeLen[v.edge]?.getD 0
        then insert (v.edge, v.pos + 1) (occ.erase (v.edge, v.pos))
        else occ.erase (v.edge, v.pos)) := by
  have within := driving.placed.within
  have onRoad : OnRoad edgeLen v := ⟨onEdge, by omega⟩
  have kept : ∀ place ∈ taken, place ≠ entrance → place ∈ occ.erase (v.edge, v.pos) := by
    intro place mem apart
    refine mem_erase.mpr ⟨?_, driving.others place mem apart⟩
    rintro rfl
    exact driving.alone onRoad mem
  have apart : ((v.edge, v.pos + 1) : Nat × Int) ≠ entrance := by
    simp only [entrance, ne_eq, Prod.mk.injEq]
    omega
  refine ⟨⟨fun behind => ?_, by dsimp only; omega⟩, fun _ mem => ?_, ?_, ?_⟩
  · dsimp only at behind
    omega
  · exact free (driving.others _ mem apart)
  · rintro ⟨_, more⟩ _
    rw [if_pos more]
    exact mem_insert_self _ _
  · intro place mem other
    split
    · exact mem_insert_of_mem (kept place mem other)
    · exact kept place mem other

end Driving

def Apart (edgeLen : List Int) (first second : EntityID × Vehicle) : Prop :=
  OnRoad edgeLen first.2 → OnRoad edgeLen second.2 → cell first.2 ≠ cell second.2

instance : Std.Symm (Apart edgeLen) :=
  ⟨fun _ _ apart second first same => apart first second same.symm⟩

structure Spread (edgeLen : List Int) (entries : List (EntityID × Vehicle)) : Prop where
  placed : ∀ entry ∈ entries, Placed edgeLen entry.2
  apart : entries.Pairwise (Apart edgeLen)

structure Held (edgeLen : List Int) (occ : Occupancy) (entries : List (EntityID × Vehicle)) :
    Prop extends Spread edgeLen entries where
  marked : ∀ entry ∈ entries, OnRoad edgeLen entry.2 → cell entry.2 ≠ entrance → cell entry.2 ∈ occ

def cells (edgeLen : List Int) (entries : List (EntityID × Vehicle)) : Set (Nat × Int) :=
  { place | ∃ entry ∈ entries, OnRoad edgeLen entry.2 ∧ cell entry.2 = place }

namespace Held

theorem perm {reordered : List (EntityID × Vehicle)} (held : Held edgeLen occ entries)
    (eq : entries.Perm reordered) : Held edgeLen occ reordered where
  placed x mem := held.placed x (eq.mem_iff.mpr mem)
  apart := eq.pairwise held.apart fun apart => Std.Symm.symm _ _ apart
  marked x mem := held.marked x (eq.mem_iff.mpr mem)

theorem driving (held : Held edgeLen occ ((id, v) :: others)) :
    Driving edgeLen (cells edgeLen others) v occ where
  placed := held.placed _ List.mem_cons_self
  alone onRoad := by
    rintro ⟨x, mem, otherOnRoad, eq⟩
    exact (List.pairwise_cons.mp held.apart).1 x mem onRoad otherOnRoad eq.symm
  marked := held.marked _ List.mem_cons_self
  others := by
    rintro _ ⟨x, mem, onRoad, rfl⟩
    exact held.marked x (List.mem_cons_of_mem _ mem) onRoad

end Held

theorem Driving.held {after : Occupancy} (driving : Driving edgeLen (cells edgeLen others) moved after)
    (old : Held edgeLen occ ((id, v) :: others)) : Held edgeLen after ((id, moved) :: others) where
  placed x mem := by
    rcases List.mem_cons.mp mem with rfl | mem
    · exact driving.placed
    · exact old.placed x (List.mem_cons_of_mem _ mem)
  apart := by
    refine List.pairwise_cons.mpr ⟨?_, (List.pairwise_cons.mp old.apart).2⟩
    intro x mem onRoad otherOnRoad eq
    exact driving.alone onRoad ⟨x, mem, otherOnRoad, eq.symm⟩
  marked x mem onRoad elsewhere := by
    rcases List.mem_cons.mp mem with rfl | mem
    · exact driving.marked onRoad elsewhere
    · exact driving.others _ ⟨x, mem, onRoad, rfl⟩ elsewhere

theorem Held.tail (held : Held edgeLen occ ((id, v) :: others)) : Held edgeLen occ others where
  placed x mem := held.placed x (List.mem_cons_of_mem _ mem)
  apart := (List.pairwise_cons.mp held.apart).2
  marked x mem := held.marked x (List.mem_cons_of_mem _ mem)

end Road

variable {codec : ∀ t, JsonCodec (TrafficTy.Value t)} {metadata : Metadata}
  {sortSlice : SortSlice (Event (trafficTypes codec))} {m : Traffic}
  {w : World (trafficTypes codec)}

/-- `vehCol` -/
def traffic (m : Traffic) (w : World (trafficTypes codec)) : Column Vehicle :=
  World.column (G := trafficTypes codec) w (some .vehicle) m.vehID

theorem Wired.columns_ne (wired : m.Wired) : m.vehID ≠ m.lightID := by
  rw [wired.vehID, wired.lightID]
  decide

section Driving

variable {taken : Set (Nat × Int)} (laid : w.Laid metadata (layout codec)) (wired : m.Wired)
include laid wired

theorem leads_lightGreen (node : String) :
    w.Leads sortSlice True (m.lightGreen node) fun _ after => after = w := by
  unfold lightGreen
  split
  · rfl
  · refine laid.leads_get wired.lightIn ?_
    split <;> rfl

variable (roads : ∀ e : Nat, 0 ≤ m.edgeLen[e]?.getD 0)
include roads

theorem leads_advance {v : Vehicle} {occ : Occupancy}
    (driving : Driving m.edgeLen taken v occ) (free : v.pos + 1 = 0 → entrance ∉ taken) :
    w.Leads sortSlice True (m.advance v occ) fun p after => after = w ∧
      Driving m.edgeLen taken p.vehicle p.occ ∧
        (p.vehicle.pos < 0 → p.vehicle.pos = v.pos + 1) := by
  unfold advance
  dsimp only
  split
  · trivial
  split
  · rename_i behind
    exact ⟨rfl, driving.approach behind (roads _) free, fun _ => rfl⟩
  rename_i entered
  split
  · split
    · exact ⟨rfl, driving, fun behind => absurd behind entered⟩
    · refine (leads_lightGreen laid wired _).bind ?_
      rintro green _ rfl
      split
      · exact ⟨rfl, driving, fun behind => absurd behind entered⟩
      · rename_i passes
        have clear : (v.edge + 1, 0) ∉ occ := fun marked => passes (by simp [marked])
        exact ⟨rfl, driving.cross (roads _) clear, fun behind => absurd behind (lt_irrefl 0)⟩
  · split
    · exact ⟨rfl, driving, fun behind => absurd behind entered⟩
    · rename_i short clear
      exact ⟨rfl, driving.follow (not_lt.mp entered) short clear, fun _ => rfl⟩

theorem leads_drive (cells : Nat) {p : Progress} (driving : Driving m.edgeLen taken p.vehicle p.occ)
    (free : p.vehicle.pos < 0 → 0 ≤ p.vehicle.pos + cells → entrance ∉ taken) :
    w.Leads sortSlice True (m.drive cells p) fun p after => after = w ∧
      Driving m.edgeLen taken p.vehicle p.occ := by
  induction cells generalizing p with
  | zero => exact ⟨rfl, driving⟩
  | succ cells ih =>
    unfold drive
    refine (leads_advance laid wired roads driving fun arrives => ?_).bind ?_
    · exact free (by omega) (by omega)
    · rintro moved _ ⟨rfl, driving, nearer⟩
      split
      · exact ⟨rfl, driving⟩
      · refine ih driving fun behind arrives => ?_
        have approached := nearer behind
        exact free (by omega) (by omega)

end Driving

/-- What holds while the vehicles move, before `rest` have. -/
structure Moving (metadata : Metadata) (m : Traffic) (rest : List (EntityID × Vehicle))
    (occ : Occupancy) (w : World (trafficTypes codec)) : Prop where
  laid : w.Laid metadata (layout codec)
  held : Held m.edgeLen occ (m.traffic w).each
  unmoved : ∀ item ∈ rest, item ∈ (m.traffic w).each
  once : (rest.map Prod.fst).Nodup

def Enters (v : Vehicle) : Prop :=
  v.pos < 0 ∧ 0 ≤ v.pos + v.speed

def EntranceFree (m : Traffic) (w : World (trafficTypes codec)) : Prop :=
  ∀ entry ∈ (m.traffic w).each, cell entry.2 ≠ entrance

variable {rest : List (EntityID × Vehicle)} {item : EntityID × Vehicle} {tally : Tally}

theorem Moving.tail {after : World (trafficTypes codec)} {occ occAfter : Occupancy}
    {others entries : List (EntityID × Vehicle)} (moving : Moving metadata m (item :: rest) occ w)
    (laid : after.Laid metadata (layout codec)) (split : (m.traffic w).each.Perm (item :: others))
    (changed : (m.traffic after).each.Perm entries) (held : Held m.edgeLen occAfter entries)
    (kept : ∀ x ∈ others, x ∈ entries) : Moving metadata m rest occAfter after where
  laid := laid
  held := held.perm changed.symm
  unmoved other mem := by
    have ne : other ≠ item := by
      rintro rfl
      exact (List.nodup_cons.mp moving.once).1 (List.mem_map_of_mem mem)
    have listed := split.mem_iff.mp (moving.unmoved other (List.mem_cons_of_mem _ mem))
    rcases List.mem_cons.mp listed with eq | listed
    · exact absurd eq ne
    · exact changed.mem_iff.mpr (kept other listed)
  once := (List.nodup_cons.mp moving.once).2

theorem leads_bumpQueue (laid : w.Laid metadata (layout codec)) (wired : m.Wired) (node : String) :
    w.Leads sortSlice True (m.bumpQueue node) fun _ after => after.Laid metadata (layout codec) ∧
      m.traffic after = m.traffic w := by
  unfold bumpQueue
  split
  · exact ⟨laid, rfl⟩
  · refine laid.leads_get wired.lightIn ?_
    split
    · exact ⟨laid, rfl⟩
    · refine laid.leads_set_last wired.lightIn fun after stillLaid wrote => ?_
      exact ⟨stillLaid, wrote.others _ _ wired.columns_ne⟩

theorem leads_moveVehicle (wired : m.Wired) (roads : ∀ e : Nat, 0 ≤ m.edgeLen[e]?.getD 0)
    (moving : Moving metadata m (item :: rest) tally.occ w)
    (free : Enters item.2 → m.EntranceFree w) :
    w.Leads sortSlice True (m.moveVehicle tally item) fun after final =>
      Moving metadata m rest after.occ final := by
  obtain ⟨others, split, new, removed⟩ := (moving.laid.consistent wired.vehicleIn).each_split
    (moving.unmoved item List.mem_cons_self)
  have old : Held m.edgeLen tally.occ (item :: others) := moving.held.perm split
  refine (leads_drive moving.laid wired roads _ old.driving ?_).bind ?_
  · rintro behind arrives ⟨x, mem, _, eq⟩
    have enters : Enters item.2 := ⟨behind, by dsimp only at behind arrives; omega⟩
    exact free enters x (split.mem_iff.mpr (List.mem_cons_of_mem _ mem)) eq
  · rintro p w ⟨rfl, driving⟩
    have others_mem v : ∀ x ∈ others, x ∈ (item.1, v) :: others :=
      fun _ mem => List.mem_cons_of_mem _ mem
    split
    · refine moving.laid.leads_destroy fun _ first firstLaid eq => ?_
      refine firstLaid.leads_remove wired.vehicleIn fun _ second laid rewritten => ?_
      have kept : m.traffic first = m.traffic w := World.column_congr (by rw [eq]) _
      have gone : m.traffic second = ((m.traffic first).remove item.1).2 := rewritten.self
      rw [kept] at gone
      exact moving.tail laid split (gone ▸ removed) (driving.held old).tail fun _ mem => mem
    · split
      · refine (leads_bumpQueue moving.laid wired _).bind ?_
        rintro _ first ⟨firstLaid, kept⟩
        refine firstLaid.leads_set wired.vehicleIn fun final laid rewritten => ?_
        have wrote : m.traffic final = (m.traffic first).set item.1 _ := rewritten.self
        rw [kept] at wrote
        exact moving.tail laid split (wrote ▸ new _) ((driving.wait _).held old) (others_mem _)
      · refine moving.laid.leads_set wired.vehicleIn fun final laid rewritten => ?_
        have wrote : m.traffic final = (m.traffic w).set item.1 _ := rewritten.self
        exact moving.tail laid split (wrote ▸ new _) (driving.held old) (others_mem _)

theorem leads_moveAll (wired : m.Wired) (roads : ∀ e : Nat, 0 ≤ m.edgeLen[e]?.getD 0)
    (xs : List (EntityID × Vehicle)) {tally : Tally} (moving : Moving metadata m xs tally.occ w)
    (free : ∀ old item after reached mid, xs = old ++ item :: after →
      w.runCode sortSlice (old.foldlM m.moveVehicle tally) = some (reached, mid) →
      Enters item.2 → m.EntranceFree mid) :
    w.Leads sortSlice True (xs.foldlM m.moveVehicle tally) fun after final =>
      Moving metadata m [] after.occ final := by
  induction xs generalizing tally w with
  | nil => exact moving
  | cons item rest ih =>
    rw [List.foldlM_cons]
    have first : w.Leads sortSlice True (m.moveVehicle tally item) _ :=
      leads_moveVehicle wired roads moving (free [] item rest tally w rfl rfl)
    refine Program.meets_of_run fun res final ran => ?_
    obtain ⟨reached, mid, moved, others⟩ := World.runCode_bind_eq_some ran
    refine (ih (first.of_run moved) fun old next after last later split continued => ?_).of_run
      others
    refine free (item :: old) next after last later (by rw [split]; rfl) ?_
    rw [List.foldlM_cons, World.runCode_bind, moved]
    exact continued

structure Safe (metadata : Metadata) (m : Traffic) (w : World (trafficTypes codec)) : Prop where
  laid : w.Laid metadata (layout codec)
  wired : m.Wired
  roads : ∀ e : Nat, 0 ≤ m.edgeLen[e]?.getD 0
  spread : Spread m.edgeLen (m.traffic w).each

def EntersFree (sortSlice : SortSlice (Event (trafficTypes codec)))
    (sortVehicles : SortSlice (EntityID × Vehicle)) (m : Traffic)
    (w : World (trafficTypes codec)) : Prop :=
  let items := sortVehicles ahead (m.traffic w).each
  ∀ before item after reached middle, items = before ++ item :: after →
    w.runCode sortSlice (before.foldlM m.moveVehicle ⟨0, 0, 0, m.occupied items⟩) =
      some (reached, middle) → Enters item.2 → m.EntranceFree middle

variable {sortVehicles : SortSlice (EntityID × Vehicle)}

theorem Spread.held {entries xs : List (EntityID × Vehicle)} (spread : Spread m.edgeLen entries)
    (eq : xs.Perm entries) : Held m.edgeLen (m.occupied xs) entries where
  toSpread := spread
  marked entry mem onRoad _ := by
    have listed := eq.mem_iff.mpr mem
    simp only [occupied, List.mem_toFinset, List.mem_map, List.mem_filter, decide_eq_true_eq]
    exact ⟨entry.2, ⟨⟨entry, listed, rfl⟩, onRoad⟩, rfl⟩

namespace Safe

variable (safe : m.Safe metadata w)
include safe

theorem leads_runMovement (sorts : ∀ xs, (sortVehicles ahead xs).Perm xs)
    (free : m.EntersFree sortSlice sortVehicles w) (shard : List EntityID) :
    w.Leads sortSlice True (runMovement sortVehicles shard m) (Safe metadata) := by
  refine Program.meets_bind_of_run (safe.laid.runCode_each safe.wired.vehicleIn) ?_
  have eq := sorts (m.traffic w).each
  have distinct := (safe.laid.consistent safe.wired.vehicleIn).nodup_each
  have start : Moving metadata m (sortVehicles ahead (m.traffic w).each)
      (m.occupied (sortVehicles ahead (m.traffic w).each)) w :=
    ⟨safe.laid, safe.spread.held eq, fun _ => eq.mem_iff.mp,
      (eq.map Prod.fst).nodup_iff.mpr distinct⟩
  have moves : w.Leads sortSlice True ((sortVehicles ahead (m.traffic w).each).foldlM
      m.moveVehicle ⟨0, 0, 0, m.occupied (sortVehicles ahead (m.traffic w).each)⟩) _ :=
    leads_moveAll safe.wired safe.roads _ start free
  refine moves.bind ?_
  intro tally final moving
  exact ⟨moving.laid, ⟨safe.wired.vehID, safe.wired.lightID⟩, safe.roads, moving.held.toSpread⟩

theorem leads_lightSystem :
    w.Leads sortSlice True (Code.runSystem [m.lightID] [m.lightID] runLights m)
      (Safe metadata) := by
  refine Program.meets_of_run fun after final ran => ?_
  have lighting : (Code.runSystem [m.lightID] [m.lightID] runLights m).Ensures
      (fun op : Operation (trafficTypes codec) => op = .ids ∨ (∃ id, op = .entitiesOf id) ∨
        ∃ change, op = .column (some .light) m.lightID change) fun after => after = m :=
    ensures_lightSystem (.inl rfl) (fun id => .inr (.inl ⟨id, rfl⟩))
      fun change => .inr (.inr ⟨change, rfl⟩)
  refine (lighting.run (Safe metadata m) ?_ safe ran).elim fun stillSafe eq => ?_
  · rintro op old reply next (rfl | ⟨id, rfl⟩ | ⟨change, rfl⟩) safe ran
    · cases ran
      exact safe
    · cases ran
      exact safe
    · obtain ⟨_, again, laid, wrote⟩ := safe.laid.run_column sortSlice safe.wired.lightIn change
      cases ran.symm.trans again
      have kept : m.traffic next = m.traffic old := wrote.others _ _ safe.wired.columns_ne
      exact ⟨laid, safe.wired, safe.roads, kept ▸ safe.spread⟩
  · rw [eq]
    exact stillSafe

end Safe

def TickFree (sortSlice : SortSlice (Event (trafficTypes codec)))
    (sortVehicles : SortSlice (EntityID × Vehicle)) (m : Traffic)
    (w : World (trafficTypes codec)) : Prop :=
  ∀ lit middle, w.runCode sortSlice (Code.runSystem [m.lightID] [m.lightID] runLights m) =
    some (lit, middle) → lit.EntersFree sortSlice sortVehicles middle

section

variable (safe : m.Safe metadata w) (sorts : ∀ items, (sortVehicles ahead items).Perm items)
include safe sorts

theorem Safe.leads_step (free : m.TickFree sortSlice sortVehicles w) :
    w.Leads sortSlice True (Code.tickStep (work sortVehicles) m) (Safe metadata) := by
  refine World.leads_tickStep (Program.meets_of_run fun after final ran => ?_)
  obtain ⟨lit, mid, lights, moves⟩ := World.runCode_bind_eq_some ran
  have stillSafe : lit.Safe metadata mid := safe.leads_lightSystem.of_run lights
  have moved : after.Safe metadata final := (World.leads_runSystem stillSafe fun es =>
      stillSafe.leads_runMovement sorts (free lit mid lights) es).of_run moves
  exact ⟨moved.laid.advanced, moved.wired, moved.roads, moved.spread⟩

theorem Safe.iterate {k : Nat} {last : Traffic} {final : World (trafficTypes codec)}
    (free : ∀ j < k, ∀ cur mid, w.runCode sortSlice
        (Program.iterate (Code.tickStep (work sortVehicles)) j m) = some (cur, mid) →
      cur.TickFree sortSlice sortVehicles mid)
    (ran : w.runCode sortSlice (Program.iterate (Code.tickStep (work sortVehicles)) k m) =
      some (last, final)) : last.Safe metadata final := by
  induction k generalizing m w with
  | zero =>
    cases ran
    exact safe
  | succ k ih =>
    obtain ⟨next, later, first, rest⟩ := World.runCode_bind_eq_some ran
    have stillSafe := (safe.leads_step sorts (free 0 (Nat.succ_pos k) m w rfl)).of_run first
    refine ih stillSafe (fun j less cur mid reached => ?_) rest
    refine free (j + 1) (Nat.succ_lt_succ less) cur mid ?_
    exact (World.runCode_bind _ _ w).trans (by rw [first]; exact reached)

end

section SetUp

variable {F : FloatOps} {registered : String → Option LightAlgorithm} {edgeLen : List Int}

/-- The world while `Initialize` fills it: every vehicle is on the first
edge. -/
structure Filling (metadata : Metadata) (edgeLen : List Int) (m : Traffic)
    (w : World (trafficTypes codec)) : Prop where
  laid : w.Laid metadata (layout codec)
  wired : m.Wired
  edgeLen : m.edgeLen = edgeLen
  first : ∀ entry ∈ (m.traffic w).each, entry.2.edge = 0

namespace Filling

variable (filling : m.Filling metadata edgeLen w)
include filling

theorem of_components {after : World (trafficTypes codec)}
    (laid : after.Laid metadata (layout codec)) (eq : after.components = w.components) :
    m.Filling metadata edgeLen after := by
  have kept : m.traffic after = m.traffic w := World.column_congr (by rw [eq]) _
  exact ⟨laid, filling.wired, filling.edgeLen, kept ▸ filling.first⟩

theorem leads_createLight (node : String) :
    w.Leads sortSlice True (m.createLight node) (Filling metadata edgeLen) := by
  refine filling.laid.leads_create fun e mid laid eq => ?_
  have filling := filling.of_components laid eq
  refine laid.leads_set filling.wired.lightIn fun after laid wrote => ?_
  have kept : m.traffic after = m.traffic mid := wrote.others _ _ filling.wired.columns_ne
  exact ⟨laid, ⟨filling.wired.vehID, filling.wired.lightID⟩, filling.edgeLen, kept ▸ filling.first⟩

theorem leads_createVehicle (rng : RNG) (i : Nat) :
    w.Leads sortSlice True (m.createVehicle F rng i) fun _ after =>
      m.Filling metadata edgeLen after := by
  unfold createVehicle
  dsimp only
  cases drawn : RNG.uint64n _ 3 with
  | error msg => trivial
  | ok pair =>
    refine filling.laid.leads_create fun e mid laid eq => ?_
    have filling := filling.of_components laid eq
    refine laid.leads_set filling.wired.vehicleIn fun after laid rewritten => ?_
    refine ⟨laid, filling.wired, filling.edgeLen, fun x mem => ?_⟩
    have wrote : m.traffic after = (m.traffic mid).set e _ := rewritten.self
    rw [wrote] at mem
    rcases Column.mem_each_set mem with old | eq
    · exact filling.first _ old
    · rw [eq]

theorem leads_createLights (nodes : List String) :
    w.Leads sortSlice True (nodes.foldlM createLight m) (Filling metadata edgeLen) :=
  Program.meets_foldlM (fun node _ _ _ filling => leads_createLight filling node) filling

theorem leads_createVehicles (numbers : List Nat) (rng : RNG) :
    w.Leads sortSlice True (numbers.foldlM (m.createVehicle F) rng) fun _ after =>
      m.Filling metadata edgeLen after :=
  Program.meets_foldlM (fun i _ rng _ filling => leads_createVehicle filling rng i) filling

end Filling

theorem leads_setUp (c : Config) (seed : UInt64) : (World.new metadata).Leads sortSlice True
    ((configure c).setUp F registered seed : Code (trafficTypes codec) Traffic)
      (Filling metadata (edgeLenOf c.withDefaults)) := by
  have pos : 0 < (configure c).cfg.vehicles := by
    simp only [configure, Config.withDefaults]
    split <;> omega
  unfold setUp
  rw [if_neg pos.ne']
  refine (World.laid_new metadata).leads_registerComponent List.not_mem_nil ?_
  intro first firstLaid firstEmpty
  refine firstLaid.leads_registerComponent (by simp) ?_
  intro second laid secondEmpty
  have empty : second.column (some .vehicle) 0 = .empty :=
    (secondEmpty.others _ 0 (by simp)).trans firstEmpty.self
  have start : Filling metadata (edgeLenOf c.withDefaults) { configure c with
      algorithm := some ((configure c).resolveAlgorithm registered)
      lightID := 1
      route := routeOf c.withDefaults
      edgeLen := edgeLenOf c.withDefaults } second := by
    refine ⟨laid, ⟨rfl, rfl⟩, rfl, fun x mem => ?_⟩
    have listed : x ∈ (second.column (some TrafficTy.vehicle) 0).each := mem
    rw [empty] at listed
    cases listed
  refine (start.leads_createLights _).bind fun m w filling => ?_
  refine (filling.leads_createVehicles _ _).bind fun rng w filling => ?_
  exact ⟨filling.laid, ⟨filling.wired.vehID, filling.wired.lightID⟩, filling.edgeLen, filling.first⟩

end SetUp

theorem entersFree_of_alone {x : EntityID × Vehicle} (sorts : ∀ xs, (sortVehicles ahead xs).Perm xs)
    (alone : (m.traffic w).each = [x]) (apart : cell x.2 ≠ entrance) :
    m.EntersFree sortSlice sortVehicles w := by
  intro old item after reached mid split ran _
  have listed := sorts (m.traffic w).each
  rw [split, alone] at listed
  cases old with
  | nil =>
    cases ran
    intro other mem
    rw [alone, List.mem_singleton] at mem
    rwa [mem]
  | cons first old =>
    have size := listed.length_eq
    simp at size

abbrev sampleProgram (vehicles : Int) :
    ModelProgram (trafficTypes fun _ => ShippedModel.noCodec _) :=
  program ShippedModel.sampleEnvironment.floats (fun _ => none)
    (fun less items => items.insertionSort fun first second => less first second = true)
    (fun _ => ShippedModel.noCodec _)
    ⟨⟨["a", "b"], [⟨"a", "b", 5⟩], ["a", "b"]⟩, 0, 0, vehicles, "", 0, 0, 0, 0, .zero⟩

end Simulator.Traffic
