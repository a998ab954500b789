import Simulator.CommutingFolds
import Simulator.ShippedModels

/-!
# The logistics model and the order of its map

When at most one order is delivered in a step, the rounds of the loop commute.
-/

namespace Simulator

open Requests List Option World Code Program Column AList

namespace Logistics

variable {codec : ∀ t, JsonCodec (LogisticsTy.Value t)} {metadata : Metadata}
  {sortSlice : SortSlice (Event (logisticsTypes codec))} {m : Logistics}
  {w : World (logisticsTypes codec)} {entry : Σ _ : EntityID, EntityID}

namespace Depot

def due (d : Depot) (entry : Σ _ : EntityID, EntityID) : Bool :=
  (d.orders.get entry.2).any fun ord => ord.remaining - 1 ≤ 0

theorem mem_erase_iff {assignments : Assignments} {other : Σ _ : EntityID, EntityID}
    (held : entry ∈ assignments.entries) : other ∈ (assignments.erase entry.1).entries ↔
      other ∈ assignments.entries ∧ other ≠ entry := by
  obtain ⟨v, o⟩ := other
  by_cases eq : v = entry.1
  · subst eq
    constructor
    · intro mem
      have hit := mem_lookup_iff.mpr mem
      rw [lookup_erase] at hit
      cases hit
    · rintro ⟨mem, ne⟩
      have hit := mem_lookup_iff.mpr mem
      have here : entry.2 ∈ assignments.lookup entry.1 := mem_lookup_iff.mpr held
      obtain rfl : o = entry.2 := mem_unique hit here
      exact absurd rfl ne
  · rw [← mem_lookup_iff, ← mem_lookup_iff, lookup_erase_ne eq]
    refine (and_iff_left ?_).symm
    rintro rfl
    exact eq rfl

structure Filed (d : Depot) : Prop where
  consistent : d.orders.Consistent
  distinct : (d.assignments.entries.map Sigma.snd).Nodup
  listed : ∀ entry ∈ d.assignments.entries, entry.2 ∈ d.orders.entityIDs

section Rounds

variable {d : Depot} {other : Σ _ : EntityID, EntityID} {ord : Order}

theorem due_eq (hit : d.orders.get entry.2 = some ord) :
    d.due entry = decide (ord.remaining - 1 ≤ 0) := by
  rw [due, hit, any_some]

theorem deliverOne_of_due (due : d.due entry = true) : d.deliverOne entry = d.complete entry := by
  cases hit : d.orders.get entry.2 with
  | none => simp [Depot.due, hit] at due
  | some ord =>
    rw [due_eq hit, decide_eq_true_eq] at due
    simp only [deliverOne, hit, if_pos due]

theorem deliverOne_of_not_due (hit : d.orders.get entry.2 = some ord)
    (left : d.due entry = false) : d.deliverOne entry = d.carry entry ord := by
  rw [due_eq hit, decide_eq_false_iff_not] at left
  simp only [deliverOne, hit, if_neg left]

namespace Filed

variable (filed : d.Filed)
include filed

theorem key_ne (carried : entry ∈ d.assignments.entries)
    (alsoCarried : other ∈ d.assignments.entries) (ne : other ≠ entry) :
    other.2.key ≠ entry.2.key := by
  intro sameKey
  have sameOrder := filed.consistent.eq_of_key_eq (filed.listed other alsoCarried)
    (filed.listed entry carried) sameKey
  exact ne (inj_on_of_nodup_map filed.distinct alsoCarried carried sameOrder)

variable (carried : entry ∈ d.assignments.entries)
include carried

theorem deliverOne : (d.deliverOne entry).Filed := by
  obtain ⟨ord, hit⟩ := filed.consistent.exists_get (filed.listed entry carried)
  cases due : d.due entry with
  | true =>
    rw [deliverOne_of_due due]
    refine ⟨filed.consistent.remove entry.2, ?_, fun other mem => ?_⟩
    · exact filed.distinct.sublist ((kerase_sublist _ _).map _)
    · obtain ⟨alsoCarried, ne⟩ := (mem_erase_iff carried).mp mem
      exact filed.consistent.mem_remove_of_ne (filed.listed other alsoCarried)
        (filed.key_ne carried alsoCarried ne)
  | false =>
    rw [deliverOne_of_not_due hit due]
    refine ⟨filed.consistent.set _ _, filed.distinct, fun other alsoCarried => ?_⟩
    obtain ⟨pos, spot, _⟩ := get_eq_some.mp hit
    rw [carry, set_of_present _ spot]
    exact filed.listed other alsoCarried

variable (alsoCarried : other ∈ d.assignments.entries) (ne : other ≠ entry)
include alsoCarried ne

theorem mem_deliverOne : other ∈ (d.deliverOne entry).assignments.entries := by
  obtain ⟨ord, hit⟩ := filed.consistent.exists_get (filed.listed entry carried)
  cases due : d.due entry with
  | true =>
    rw [deliverOne_of_due due]
    exact (mem_erase_iff carried).mpr ⟨alsoCarried, ne⟩
  | false =>
    rw [deliverOne_of_not_due hit due]
    exact alsoCarried

theorem get_deliverOne : (d.deliverOne entry).orders.get other.2 = d.orders.get other.2 := by
  have apart := filed.key_ne carried alsoCarried ne
  obtain ⟨ord, hit⟩ := filed.consistent.exists_get (filed.listed entry carried)
  obtain ⟨otherOrd, otherFound⟩ := filed.consistent.exists_get (filed.listed other alsoCarried)
  cases due : d.due entry with
  | true =>
    rw [deliverOne_of_due due, otherFound]
    exact filed.consistent.get_remove_of_ne apart otherFound
  | false =>
    rw [deliverOne_of_not_due hit due]
    exact get_set_of_ne apart _

theorem due_deliverOne : (d.deliverOne entry).due other = d.due other := by
  rw [due, due, filed.get_deliverOne carried alsoCarried ne]

theorem deliverOne_comm_of_not_due (left : d.due other = false) :
    (d.deliverOne entry).deliverOne other = (d.deliverOne other).deliverOne entry := by
  have apart := filed.key_ne carried alsoCarried ne
  obtain ⟨ord, hit⟩ := filed.consistent.exists_get (filed.listed entry carried)
  obtain ⟨otherOrd, otherFound⟩ := filed.consistent.exists_get (filed.listed other alsoCarried)
  have otherLater := (filed.get_deliverOne carried alsoCarried ne).trans otherFound
  have leftLater := (filed.due_deliverOne carried alsoCarried ne).trans left
  have later := (filed.get_deliverOne alsoCarried carried ne.symm).trans hit
  have dueLater := filed.due_deliverOne alsoCarried carried ne.symm
  rw [deliverOne_of_not_due otherLater leftLater]
  cases due : d.due entry with
  | true =>
    rw [deliverOne_of_due (dueLater.trans due), deliverOne_of_due due,
      deliverOne_of_not_due otherFound left]
    have removed := filed.consistent.remove_set_comm (v := ⟨otherOrd.remaining - 1⟩)
      (filed.listed other alsoCarried) apart
    simp only [complete, carry, removed]
  | false =>
    rw [deliverOne_of_not_due later (dueLater.trans due), deliverOne_of_not_due hit due,
      deliverOne_of_not_due otherFound left]
    simp only [carry]
    rw [set_comm (has_of_get hit) (has_of_get otherFound) apart]

end Filed

structure Visiting (left : List (Σ _ : EntityID, EntityID)) (d : Depot) : Prop where
  filed : d.Filed
  carried : ∀ entry ∈ left, entry ∈ d.assignments.entries
  once : left.Nodup

namespace Visiting

variable {left right : List (Σ _ : EntityID, EntityID)} {first : Σ _ : EntityID, EntityID}

theorem perm (visiting : Visiting left d) (perm : left.Perm right) : Visiting right d where
  filed := visiting.filed
  carried entry mem := visiting.carried entry (perm.mem_iff.mpr mem)
  once := perm.nodup_iff.mp visiting.once

section

variable (visiting : Visiting (first :: left) d)
include visiting

theorem here : first ∈ d.assignments.entries :=
  visiting.carried first mem_cons_self

theorem there (mem : entry ∈ left) :
    entry ∈ d.assignments.entries ∧ entry ≠ first :=
  ⟨visiting.carried entry (mem_cons_of_mem _ mem),
    ne_of_mem_of_not_mem mem (nodup_cons.mp visiting.once).1⟩

theorem tail : Visiting left (d.deliverOne first) where
  filed := visiting.filed.deliverOne visiting.here
  carried entry mem := by
    obtain ⟨carried, ne⟩ := visiting.there mem
    exact visiting.filed.mem_deliverOne visiting.here carried ne
  once := (nodup_cons.mp visiting.once).2

theorem due_tail (mem : entry ∈ left) : (d.deliverOne first).due entry = d.due entry := by
  obtain ⟨carried, ne⟩ := visiting.there mem
  exact visiting.filed.due_deliverOne visiting.here carried ne

end

theorem filed_foldl (visiting : Visiting left d) : (left.foldl Depot.deliverOne d).Filed := by
  induction left generalizing d with
  | nil => exact visiting.filed
  | cons first left ih => exact ih visiting.tail

theorem foldl_eq (visiting : Visiting left d)
    (single : left.Pairwise fun entry other => ¬(d.due entry = true ∧ d.due other = true))
    (perm : left.Perm right) : left.foldl Depot.deliverOne d = right.foldl Depot.deliverOne d := by
  refine CommutingFolds.foldl_perm (fun left d => Visiting left d ∧
    left.Pairwise fun entry other => ¬(d.due entry = true ∧ d.due other = true))
    ?_ ?_ ?_ perm ⟨visiting, single⟩
  · rintro left right d perm ⟨visiting, single⟩
    exact ⟨visiting.perm perm, perm.pairwise single fun notBoth both => notBoth both.symm⟩
  · rintro first rest d ⟨visiting, single⟩
    refine ⟨visiting.tail, (pairwise_cons.mp single).2.imp_of_mem ?_⟩
    intro entry other mem otherMember notBoth
    rwa [visiting.due_tail mem, visiting.due_tail otherMember]
  · rintro first second rest d ⟨visiting, single⟩
    have next : second ∈ second :: rest := mem_cons_self
    obtain ⟨carried, ne⟩ := visiting.there next
    have notBoth := (pairwise_cons.mp single).1 second mem_cons_self
    cases due : d.due second with
    | false =>
      exact visiting.filed.deliverOne_comm_of_not_due visiting.here carried ne due
    | true =>
      have left : d.due first = false := Bool.eq_false_iff.mpr fun first => notBoth ⟨first, due⟩
      exact (visiting.filed.deliverOne_comm_of_not_due carried visiting.here ne.symm left).symm

end Visiting

end Rounds

end Depot

open Depot (Visiting)

def AtMostOneDue (m : Logistics) (w : World (logisticsTypes codec)) : Prop :=
  m.assignments.entries.Pairwise fun entry other =>
    ¬((Depot.of m w).due entry = true ∧ (Depot.of m w).due other = true)

structure Kept (metadata : Metadata) (m : Logistics) (w : World (logisticsTypes codec)) :
    Prop where
  laid : w.Laid metadata (layout codec)
  wired : m.Wired
  filed : (Depot.of m w).Filed

namespace Kept

variable (kept : m.Kept metadata w)
include kept

theorem visiting (order : MapOrder (Σ _ : EntityID, EntityID)) :
    Visiting (order.visit m.assignments.entries) (Depot.of m w) where
  filed := kept.filed
  carried _ mem := (order.perm _).mem_iff.mp mem
  once := (order.perm _).nodup_iff.mpr (List.Nodup.of_map _ kept.filed.distinct)

theorem foldl_eq (single : m.AtMostOneDue w) (first second : MapOrder (Σ _ : EntityID, EntityID)) :
    (first.visit m.assignments.entries).foldl Depot.deliverOne (Depot.of m w) =
      (second.visit m.assignments.entries).foldl Depot.deliverOne (Depot.of m w) := by
  refine (kept.visiting first).foldl_eq ?_ ((first.perm _).trans (second.perm _).symm)
  exact (first.perm _).symm.pairwise single fun notBoth both => notBoth both.symm

theorem leads_deliver (order : MapOrder (Σ _ : EntityID, EntityID)) :
    w.Leads sortSlice True (m.deliver order) (Kept metadata) := by
  refine meets_of_run fun after final ran => ?_
  obtain ⟨laid, _⟩ := kept.laid.runCode _ (ensures_deliver kept.wired order) ran
  cases ran.symm.trans (Depot.runCode_deliver kept.laid kept.wired order)
  refine ⟨laid, ⟨kept.wired.capID, kept.wired.ordID⟩, ?_⟩
  rw [Depot.of_world _ kept.wired]
  exact (kept.visiting order).filed_foldl

theorem leads_assignOne {o : EntityID} (listed : o ∈ (m.pending w).entityIDs) :
    w.Leads sortSlice True (m.assignOne o) fun after final =>
      after.Kept metadata final ∧ after.pending final = m.pending w := by
  unfold assignOne
  split
  · exact ⟨kept, rfl⟩
  · rename_i unassigned
    refine leads_freeVehicle kept.laid kept.wired ?_
    cases hit : (m.capacities w).entityIDs.find? (m.isFree w) with
    | none => exact ⟨kept, rfl⟩
    | some v =>
      have free := find?_some hit
      simp only [isFree, Bool.and_eq_true, isNone_iff_eq_none] at free
      refine kept.laid.leads_get kept.wired.capacityIn ?_
      refine kept.laid.leads_set kept.wired.capacityIn ?_
      intro after laid wrote
      have eq : m.pending after = m.pending w := wrote.others _ _ kept.wired.columns_ne
      refine ⟨⟨laid, ⟨kept.wired.capID, kept.wired.ordID⟩, ?_⟩, eq⟩
      have entries : (m.assignments.insert v o).entries = ⟨v, o⟩ :: m.assignments.entries :=
        entries_insert_of_notMem (lookup_eq_none.mp free.1)
      refine ⟨laid.consistent kept.wired.orderIn, ?_, ?_⟩
      · simp only [Depot.of, entries, map_cons, nodup_cons]
        refine ⟨fun carried => unassigned ?_, kept.filed.distinct⟩
        obtain ⟨entry, mem, carries⟩ := mem_map.mp carried
        exact any_eq_true.mpr ⟨entry, mem, decide_eq_true carries⟩
      · intro entry mem
        simp only [Depot.of, entries, mem_cons] at mem
        show entry.2 ∈ (m.pending after).entityIDs
        rw [eq]
        rcases mem with rfl | mem
        · exact listed
        · exact kept.filed.listed entry mem

theorem leads_assign : w.Leads sortSlice True m.assign (Kept metadata) := by
  refine kept.laid.leads_entitiesOf kept.wired.orderIn ?_
  have all : w.Leads sortSlice True ((m.pending w).entityIDs.foldlM assignOne m)
      fun after final => after.Kept metadata final ∧ after.pending final = m.pending w := by
    refine meets_foldlM ?_ ⟨kept, rfl⟩
    rintro o mem cur mid ⟨kept, eq⟩
    rw [← eq] at mem ⊢
    exact kept.leads_assignOne mem
  exact all.mono fun _ _ ended => ended.1

section

variable (orders : UInt64 → MapOrder (Σ _ : EntityID, EntityID))
include orders

theorem leads_step :
    w.Leads sortSlice True (tickStep (step orders) m) (Kept metadata) := by
  refine leads_tickStep ?_
  refine kept.leads_assign.bind fun m w kept => ?_
  have ticks : w.runCode sortSlice tick = some (w.clock.tick, w) := rfl
  refine meets_bind_of_run ticks ?_
  exact (kept.leads_deliver _).mono fun m w kept => ⟨kept.laid.advanced, kept.wired, kept.filed⟩

theorem runCode_step_eq (others : UInt64 → MapOrder (Σ _ : EntityID, EntityID))
    (single : ∀ given mid, w.runCode sortSlice m.assign = some (given, mid) →
      given.AtMostOneDue mid) :
    w.runCode sortSlice (tickStep (step others) m) =
      w.runCode sortSlice (tickStep (step orders) m) := by
  have worked : w.runCode sortSlice (step others m) = w.runCode sortSlice (step orders m) := by
    unfold step
    rw [runCode_bind, runCode_bind]
    cases ran : w.runCode sortSlice m.assign with
    | none => rfl
    | some ended =>
      obtain ⟨given, mid⟩ := ended
      have kept : given.Kept metadata mid := kept.leads_assign.of_run ran
      have agree := kept.foldl_eq (single given mid ran) (others mid.clock.tick)
        (orders mid.clock.tick)
      have delivered : mid.runCode sortSlice (given.deliver (others mid.clock.tick)) =
          mid.runCode sortSlice (given.deliver (orders mid.clock.tick)) := by
        rw [Depot.runCode_deliver kept.laid kept.wired, Depot.runCode_deliver kept.laid kept.wired,
          agree]
      exact delivered
  unfold tickStep
  rw [runCode_bind, runCode_bind, worked]

theorem runCode_iterate_eq (others : UInt64 → MapOrder (Σ _ : EntityID, EntityID)) {k : Nat}
    (single : ∀ j < k, ∀ last final given mid, w.runCode sortSlice
        (iterate (tickStep (step orders)) j m) = some (last, final) →
      final.runCode sortSlice last.assign = some (given, mid) → given.AtMostOneDue mid) :
    w.runCode sortSlice (iterate (tickStep (step others)) k m) =
      w.runCode sortSlice (iterate (tickStep (step orders)) k m) := by
  induction k generalizing m w with
  | zero => rfl
  | succ k ih =>
    have first := kept.runCode_step_eq orders others
      fun given mid => single 0 (Nat.succ_pos k) m w given mid rfl
    have unfolded (orders : UInt64 → MapOrder (Σ _ : EntityID, EntityID)) (j : Nat) :
        w.runCode sortSlice (iterate (tickStep (step orders)) (j + 1) m) =
          (w.runCode sortSlice (tickStep (step orders) m)).bind fun ended =>
            ended.2.runCode sortSlice (iterate (tickStep (step orders)) j ended.1) :=
      runCode_bind _ _ w
    rw [unfolded, unfolded, first]
    cases ran : w.runCode sortSlice (tickStep (step orders) m) with
    | none => rfl
    | some ended =>
      obtain ⟨next, later⟩ := ended
      have stillKept : next.Kept metadata later := (kept.leads_step orders).of_run ran
      refine ih stillKept fun j less last final given mid reached => ?_
      refine single (j + 1) (Nat.succ_lt_succ less) last final given mid ?_
      rw [unfolded, ran]
      exact reached

end

end Kept

theorem Waiting.kept {v o : EntityID} {load : Int} (waiting : m.Waiting metadata v o load w) :
    m.Kept metadata w := by
  refine ⟨waiting.laid, waiting.wired, waiting.laid.consistent waiting.wired.orderIn, ?_, ?_⟩
  · simp [Depot.of, waiting.unassigned]
  · simp [Depot.of, waiting.unassigned]

abbrev sampleProgram (c : Config) (backwards : Bool) :
    ModelProgram (logisticsTypes fun _ => ShippedModel.noCodec _) :=
  program (fun _ => if backwards then ⟨List.reverse, List.reverse_perm⟩ else World.keptOrder _)
    (fun _ => ShippedModel.noCodec _) c

end Logistics

end Simulator
