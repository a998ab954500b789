import Simulator.ArrivalQueue
import Simulator.EventQueue

/-!
# Histories of the event queue

Events are served by time, descending priority and arrival, until the 64-bit sequence
number wraps around.
-/

namespace Simulator

open BinaryHeap ArrivalQueue List UInt64 EventQueue

variable {G : GoTypes}

def Sooner (a b : Event G) : Prop :=
  a.time.less b.time = true ∨ a.time.equal b.time = true ∧ b.priority < a.priority

theorem sooner_iff {a b : Event G} (first : Timed a) (second : Timed b) :
    Sooner a b ↔ a.time.rank < b.time.rank ∨
      a.time.rank = b.time.rank ∧ b.priority < a.priority := by
  unfold Timed at first second
  simp [Sooner, Float64.less, Float64.equal, first, second]

/-- What `sort.Slice` promises for a comparison that is a strict weak order
of the elements. -/
def Sorts {α : Type} (sortSlice : (α → α → Bool) → List α → List α) : Prop :=
  ∀ {less : α → α → Bool} {Known : α → Prop}, WeakOrder less Known → ∀ xs, (∀ x ∈ xs, Known x) →
      (sortSlice less xs).Perm xs ∧ (sortSlice less xs).Pairwise fun first second =>
          less second first = false

theorem sorts_sort {α : Type} : Sorts (BinaryHeap.sort (α := α)) := by
  intro less Known order xs allKnown
  have gathered : (xs.foldl (push less) []).Perm (xs ++ []) := perm_foldl_push xs []
  rw [append_nil] at gathered
  have empty : Settled less Known ([] : List α).length [] := by
    intro parent child _ lt
    simp at lt
  constructor
  · exact (perm_drain gathered.length_eq.le).trans gathered
  · apply pairwise_drain order _ (settled_foldl_push order xs empty)
    intro x mem
    exact allKnown x (gathered.mem_iff.mp mem)

inductive QueueCall (G : GoTypes)
  | push (e : Event G)
  | pop

namespace QueueCall

def isPush : QueueCall G → Bool
  | .push _ => true
  | .pop => false

def Records : QueueCall G → Entry (Event G) → Prop
  | .push e, .arrived stored =>
    stored = { e with id := stored.id, seq := stored.seq } ∧ (e.id ≠ 0 → stored.id = e.id)
  | .pop, .served _ => True
  | _, _ => False

end QueueCall

namespace EventQueue

def call (q : EventQueue G) : QueueCall G → Entry (Event G) × EventQueue G
  | .push e => (.arrived (q.push e).1, (q.push e).2)
  | .pop => (.served q.pop.1, q.pop.2)

def runCalls : List (QueueCall G) → EventQueue G → List (Entry (Event G)) × EventQueue G
  | [], q => ([], q)
  | call :: rest, q =>
    ((q.call call).1 :: (runCalls rest (q.call call).2).1, (runCalls rest (q.call call).2).2)

/-- What successive pops return, up to `fuel` of them or until the queue is
empty. -/
def pops : Nat → EventQueue G → List (Event G)
  | 0, _ => []
  | fuel + 1, q =>
    match q.pop with
    | (none, _) => []
    | (some e, rest) => e :: pops fuel rest

/-- The events of the queue, in order of arrival, after `pushed` pushes. -/
structure Holds (q : EventQueue G) (waiting : List (Event G))
    (pushed : Nat) : Prop where
  perm : q.heap.Perm waiting
  timed : ∀ e ∈ waiting, Timed e
  ascending : waiting.Pairwise fun first second =>
    first.seq.toNat < second.seq.toNat
  bounded : ∀ e ∈ waiting, e.seq.toNat ≤ pushed
  counted : q.seq.toNat = pushed

theorem holds_new : (new : EventQueue G).Holds [] 0 where
  perm := .refl _
  timed := by simp
  ascending := .nil
  bounded := by simp
  counted := rfl

section Holding

variable {q : EventQueue G} {waiting : List (Event G)} {pushed : Nat}

theorem Holds.heap_timed (holds : q.Holds waiting pushed) : ∀ e ∈ q.heap, Timed e := by
  intro e mem
  exact holds.timed e (holds.perm.mem_iff.mp mem)

theorem Holds.eq_of_seq (holds : q.Holds waiting pushed) {a b : Event G}
    (first : a ∈ waiting) (second : b ∈ waiting) (eq : a.seq.toNat = b.seq.toNat) : a = b := by
  have nodup : (waiting.map fun e => e.seq.toNat).Nodup := by
    apply pairwise_map.mpr
    exact holds.ascending.imp fun below => below.ne
  exact inj_on_of_nodup_map nodup first second eq

theorem Holds.push (holds : q.Holds waiting pushed) {e : Event G}
    (timed : Timed e) (few : pushed + 1 < 2 ^ 64) :
    (q.push e).2.Holds (waiting ++ [(q.push e).1]) (pushed + 1) := by
  have seqEq : (q.push e).1.seq.toNat = pushed + 1 := by
    have counted := holds.counted
    change (q.seq + 1).toNat = pushed + 1
    rw [UInt64.toNat_add]
    simp
    omega
  refine ⟨?_, ?_, ?_, ?_, seqEq⟩
  · exact ((perm_push q e).trans (holds.perm.cons _)).trans (perm_append_singleton _ _).symm
  · intro other mem
    rw [mem_append, mem_singleton] at mem
    rcases mem with old | rfl
    · exact holds.timed other old
    · exact timed
  · rw [pairwise_append]
    refine ⟨holds.ascending, by simp, ?_⟩
    intro old mem last isLast
    rw [mem_singleton.mp isLast, seqEq]
    have := holds.bounded old mem
    omega
  · intro other mem
    rw [mem_append, mem_singleton] at mem
    rcases mem with old | rfl
    · have := holds.bounded other old
      omega
    · exact seqEq.le

variable {rest : EventQueue G} {top : Event G}

theorem heap_of_pop (popped : q.pop = (some top, rest)) :
    BinaryHeap.pop eventLess q.heap = some (top, rest.heap) ∧
      rest.next = q.next ∧ rest.seq = q.seq := by
  unfold pop at popped
  split at popped
  · cases popped
  · rename_i first others taken
    cases popped
    exact ⟨taken, rfl, rfl⟩

theorem peek_eq_pop (q : EventQueue G) : q.peek = q.pop.1 := by
  unfold peek
  cases popped : q.pop with
  | mk served rest =>
    cases served with
    | none =>
      rw [(pop_of_empty popped).1]
      rfl
    | some top => exact head?_of_pop (heap_of_pop popped).1

theorem pop_first (popped : q.pop = (some top, rest)) (timed : ∀ e ∈ q.heap, Timed e) :
    ∀ e ∈ q.heap, eventLess e top = false := by
  have first : q.heap.head? = some top := by
    have peeked := peek_eq_pop q
    rw [popped] at peeked
    exact peeked
  exact (q.settled.ordered timed).root_first weakOrder_eventLess timed first

theorem Holds.pop (holds : q.Holds waiting pushed) (popped : q.pop = (some top, rest)) :
    ∃ left, Selects Sooner waiting top left ∧ rest.Holds left pushed := by
  have heapEq := perm_pop popped
  have mem : top ∈ waiting := holds.perm.mem_iff.mp (heapEq.mem_iff.mpr (.head _))
  have least : ∀ e ∈ waiting, eventLess e top = false := by
    intro e isWaiting
    exact pop_first popped holds.heap_timed e (holds.perm.mem_iff.mpr isWaiting)
  have topTimed := holds.timed top mem
  obtain ⟨front, back, split⟩ := append_of_mem mem
  have ascending := holds.ascending
  rw [split, pairwise_append, pairwise_cons] at ascending
  have selects : Selects Sooner waiting top (front ++ back) := by
    refine ⟨front, back, split, rfl, ?_, ?_⟩
    · intro e inFront
      have isWaiting : e ∈ waiting := by simp [split, inFront]
      have prior := ascending.2.2 e inFront top (.head _)
      have notBefore := least e isWaiting
      rw [← Bool.not_eq_true, eventLess_iff (holds.timed e isWaiting) topTimed] at notBefore
      rw [sooner_iff topTimed (holds.timed e isWaiting)]
      omega
    · intro e inBack
      have isWaiting : e ∈ waiting := by simp [split, inBack]
      have notBefore := least e isWaiting
      rw [← Bool.not_eq_true, eventLess_iff (holds.timed e isWaiting) topTimed] at notBefore
      rw [sooner_iff (holds.timed e isWaiting) topTimed]
      omega
  refine ⟨_, selects, ?_, ?_, ?_, ?_, ?_⟩
  · have all := heapEq.symm.trans (holds.perm.trans selects.perm)
    exact all.cons_inv
  · intro e remains
    exact holds.timed e (selects.sublist.subset remains)
  · exact holds.ascending.sublist selects.sublist
  · intro e remains
    exact holds.bounded e (selects.sublist.subset remains)
  · rw [(heap_of_pop popped).2.2, holds.counted]

variable {log : List (Entry (Event G))}

theorem Holds.call (holds : q.Holds waiting pushed) (serves : Serves Sooner log waiting)
    (call : QueueCall G) (timed : ∀ e, call = .push e → Timed e)
    (few : pushed + [call].countP QueueCall.isPush < 2 ^ 64) :
    ∃ left, Serves Sooner (log ++ [(q.call call).1]) left ∧ (q.call call).2.Holds left
        (pushed + [call].countP QueueCall.isPush) := by
  cases call with
  | push e =>
    exact ⟨_, serves.arrive _, holds.push (timed e rfl) few⟩
  | pop =>
    cases popped : q.pop with
    | mk served rest =>
      simp only [EventQueue.call, popped]
      cases served with
      | none =>
        obtain ⟨empty, eq⟩ := pop_of_empty popped
        have noneWait : waiting = [] := by
          have perm := holds.perm
          rw [empty] at perm
          exact perm.nil_eq.symm
        subst eq noneWait
        exact ⟨[], serves.idle, holds⟩
      | some top =>
        obtain ⟨left, selects, still⟩ := holds.pop popped
        exact ⟨left, serves.serve selects, still⟩

theorem records_call (q : EventQueue G) (call : QueueCall G) : call.Records (q.call call).1 := by
  cases call with
  | push e =>
    refine ⟨rfl, ?_⟩
    intro given
    exact if_neg given
  | pop => trivial

theorem Holds.runCalls (holds : q.Holds waiting pushed) (serves : Serves Sooner log waiting)
    (calls : List (QueueCall G)) (timed : ∀ e, .push e ∈ calls → Timed e)
    (few : pushed + calls.countP QueueCall.isPush < 2 ^ 64) :
    ∃ left, Serves Sooner (log ++ (runCalls calls q).1) left ∧ (runCalls calls q).2.Holds left
        (pushed + calls.countP QueueCall.isPush) := by
  induction calls generalizing log q waiting pushed with
  | nil => exact ⟨waiting, by rwa [runCalls, append_nil], holds⟩
  | cons call rest ih =>
    have countEq : (call :: rest).countP QueueCall.isPush = [call].countP QueueCall.isPush +
          rest.countP QueueCall.isPush := by
      rw [← countP_append, singleton_append]
    obtain ⟨mid, served, held⟩ := holds.call serves call
      (fun e isPush => timed e (by simp [isPush])) (by omega)
    obtain ⟨left, servedAll, heldAll⟩ := ih held served
      (fun e mem => timed e (.tail _ mem)) (by omega)
    rw [append_assoc] at servedAll
    rw [add_assoc, ← countEq] at heldAll
    exact ⟨left, servedAll, heldAll⟩

theorem records_runCalls (calls : List (QueueCall G)) (q : EventQueue G) :
    List.Forall₂ QueueCall.Records calls (runCalls calls q).1 := by
  induction calls generalizing q with
  | nil => exact .nil
  | cons call rest ih => exact .cons (records_call q call) (ih _)

theorem pops_eq_drain (fuel : Nat) (q : EventQueue G) :
    pops fuel q = drain eventLess fuel q.heap := by
  induction fuel generalizing q with
  | zero => rfl
  | succ fuel ih =>
    unfold pops drain
    cases popped : q.pop with
    | mk served rest =>
      cases served with
      | none =>
        rw [(pop_of_empty popped).1]
        rfl
      | some top =>
        rw [(heap_of_pop popped).1]
        exact congrArg (top :: ·) (ih rest)

theorem Holds.peekAll_eq (holds : q.Holds waiting pushed)
    {sort : (Event G → Event G → Bool) → List (Event G) →
      List (Event G)} (sorts : Sorts sort) {fuel : Nat} (enough : q.len ≤ fuel) :
    q.peekAll sort = pops fuel q := by
  rw [pops_eq_drain]
  obtain ⟨sortedPerm, sorted⟩ := sorts weakOrder_eventLess q.heap holds.heap_timed
  have drainedPerm : (drain eventLess fuel q.heap).Perm q.heap := perm_drain enough
  have drained := pairwise_drain weakOrder_eventLess fuel q.settled holds.heap_timed
  apply List.Perm.eq_of_pairwise _ sorted drained (sortedPerm.trans drainedPerm.symm)
  intro a b first second notAfter notBefore
  have firstIn := holds.perm.mem_iff.mp (sortedPerm.mem_iff.mp first)
  have secondIn := holds.perm.mem_iff.mp (drainedPerm.mem_iff.mp second)
  have firstTimed := holds.timed a firstIn
  have secondTimed := holds.timed b secondIn
  rw [← Bool.not_eq_true, eventLess_iff secondTimed firstTimed] at notAfter
  rw [← Bool.not_eq_true, eventLess_iff firstTimed secondTimed] at notBefore
  exact holds.eq_of_seq firstIn secondIn (by omega)

end Holding

theorem serves_by_arrival (calls : List (QueueCall G)) (timed : ∀ e, .push e ∈ calls → Timed e)
    (few : calls.countP QueueCall.isPush < 2 ^ 64)
    (sortSlice : (Event G → Event G → Bool) → List (Event G) →
      List (Event G)) (sorts : Sorts sortSlice) :
    ∃ log q waiting, runCalls calls new = (log, q) ∧ List.Forall₂ QueueCall.Records calls log ∧
      Serves Sooner log waiting ∧ q.heap.Perm waiting ∧ q.peek = q.pop.1 ∧
      ∀ fuel, q.len ≤ fuel → q.peekAll sortSlice = pops fuel q := by
  obtain ⟨waiting, serves, holds⟩ := holds_new.runCalls .nil calls timed (by omega)
  rw [nil_append] at serves
  refine ⟨_, _, waiting, rfl, records_runCalls calls new, serves, holds.perm, peek_eq_pop _, ?_⟩
  intro fuel enough
  exact holds.peekAll_eq sorts enough

def plainEvent (id seq : UInt64) : Event flagTypes :=
  ⟨id, "", Float64.zero, 0, seq, ⟨0⟩, ⟨0⟩, none⟩

def plainCalls : List (QueueCall flagTypes) :=
  [.push (plainEvent 7 0), .push (plainEvent 3 0), .pop]

theorem serves_by_arrival_plain : (∀ e, .push e ∈ plainCalls → Timed e) ∧
    ∃ log q waiting, runCalls plainCalls new = (log, q) ∧
      List.Forall₂ QueueCall.Records plainCalls log ∧
      Serves Sooner log waiting ∧ q.heap.Perm waiting ∧ q.peek = q.pop.1 ∧
      ∀ fuel, q.len ≤ fuel → q.peekAll BinaryHeap.sort = pops fuel q := by
  have timed : ∀ e, .push e ∈ plainCalls → Timed e := by
    intro e mem
    simp only [plainCalls, mem_cons, QueueCall.push.injEq,
      not_mem_nil, reduceCtorEq, or_false] at mem
    rcases mem with rfl | rfl
    · rfl
    · rfl
  exact ⟨timed, serves_by_arrival plainCalls timed (by decide) BinaryHeap.sort sorts_sort⟩

def emptied (pushed : UInt64) : EventQueue G :=
  { new with seq := pushed }

/-- One event pushed and popped `n` times. -/
def cycles (e : Event G) : Nat → List (QueueCall G)
  | 0 => []
  | n + 1 => .push e :: .pop :: cycles e n

theorem runCalls_append (first second : List (QueueCall G)) (q : EventQueue G) :
    runCalls (first ++ second) q =
      ((runCalls first q).1 ++ (runCalls second (runCalls first q).2).1,
        (runCalls second (runCalls first q).2).2) := by
  induction first generalizing q with
  | nil => rfl
  | cons call rest ih =>
    rw [cons_append, runCalls, runCalls, ih]
    rfl

variable {e : Event G}

theorem pop_push_emptied (named : e.id ≠ 0) (pushed : UInt64) :
    ((emptied pushed).push e).2.pop = (some ((emptied pushed).push e).1, emptied (pushed + 1)) := by
  have heapEq : ((emptied pushed).push e).2.heap = [((emptied pushed).push e).1] := rfl
  cases popped : ((emptied pushed).push e).2.pop with
  | mk served rest =>
    cases served with
    | none =>
      have empty := (pop_of_empty popped).1
      rw [heapEq] at empty
      cases empty
    | some top =>
      obtain ⟨taken, nextEq, seqEq⟩ := heap_of_pop popped
      rw [heapEq] at taken
      have single : BinaryHeap.pop eventLess [((emptied pushed).push e).1] =
            some (((emptied pushed).push e).1, []) := rfl
      rw [single, Option.some.injEq, Prod.mk.injEq] at taken
      obtain ⟨rfl, restEq⟩ := taken
      have eq : rest = emptied (pushed + 1) := by
        apply EventQueue.ext
        · exact restEq.symm
        · rw [nextEq]
          exact if_neg named
        · exact seqEq
      rw [eq]

theorem runCalls_cycles (named : e.id ≠ 0) (n : Nat) (pushed : UInt64) :
    (runCalls (cycles e n) (emptied pushed)).2 = emptied (pushed + ofNat n) := by
  induction n generalizing pushed with
  | zero => simp [cycles, runCalls]
  | succ n ih =>
    have last : pushed + 1 + ofNat n = pushed + ofNat (n + 1) := by
      rw [ofNat_add, add_assoc, add_comm 1]
      rfl
    simp only [cycles, runCalls, call, pop_push_emptied named, ih, last]

theorem timed_cycles (timed : Timed e) {n : Nat}
    {other : Event G} (mem : .push other ∈ cycles e n) : Timed other := by
  induction n with
  | zero => cases mem
  | succ n ih =>
    rw [cycles, mem_cons, mem_cons] at mem
    rcases mem with eq | isPop | later
    · cases eq
      exact timed
    · cases isPop
    · exact ih later

theorem runCalls_last :
    ∃ q, runCalls [.push (plainEvent 1 0), .push (plainEvent 2 0), .pop]
        (emptied 18446744073709551614) = ([.arrived (plainEvent 1 18446744073709551615),
            .arrived (plainEvent 2 0), .served (some (plainEvent 2 0))], q) ∧
      q.heap = [plainEvent 1 18446744073709551615] :=
  ⟨_, rfl, rfl⟩

theorem sequence_number_wraps :
    ∃ (calls : List (QueueCall flagTypes)) (log : List (Entry _))
        (first second : Event flagTypes) (q : EventQueue flagTypes),
      (∀ e, .push e ∈ calls → Timed e) ∧ runCalls calls new = (log ++
        [.arrived first, .arrived second, .served (some second)], q) ∧
      first.time = second.time ∧ first.priority = second.priority ∧ q.heap = [first] := by
  -- the number of rounds stays a variable, so that nothing evaluates them
  obtain ⟨rounds, roundsEq⟩ : ∃ rounds, rounds = 2 ^ 64 - 2 := ⟨_, rfl⟩
  have around : (runCalls (cycles (plainEvent 1 0) rounds) new).2 =
      emptied 18446744073709551614 := by
    have ran := runCalls_cycles (e := plainEvent 1 0) (by decide) rounds 0
    rw [roundsEq] at ran
    rw [roundsEq]
    exact ran
  obtain ⟨q, ran, heapEq⟩ := runCalls_last
  refine ⟨cycles (plainEvent 1 0) rounds ++ [.push (plainEvent 1 0), .push (plainEvent 2 0), .pop],
    (runCalls (cycles (plainEvent 1 0) rounds) new).1,
    plainEvent 1 18446744073709551615, plainEvent 2 0, q, ?_, ?_, rfl, rfl, heapEq⟩
  · intro e mem
    rcases mem_append.mp mem with old | last
    · have timed : Timed (plainEvent 1 0) := rfl
      exact timed_cycles timed old
    · simp only [mem_cons, QueueCall.push.injEq, not_mem_nil, reduceCtorEq, or_false] at last
      rcases last with rfl | rfl
      · rfl
      · rfl
  · rw [runCalls_append, around, ran]

end EventQueue

end Simulator
