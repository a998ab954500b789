import Simulator.QueueHistories
import Simulator.TransitionRuns

/-!
# The identifiers that the event queue assigns

`Push` numbers an event without an ID from a counter that knows nothing of other IDs.
-/

namespace Simulator

open EventQueue List

variable {G : GoTypes}

inductive QueueMove (G : GoTypes)
  | push (e : Event G)
  | pop
  | snapshot (types : String → Option G.Ty)
  | restore (types : String → Option G.Ty) (st : EventQueueState)

/-- A queue and the IDs of all events that were ever pushed to it, by `Push` or
by a restore. -/
structure QueueHistory (G : GoTypes) where
  queue : EventQueue G
  pushed : List UInt64

namespace QueueHistory

def start : QueueHistory G :=
  ⟨new, []⟩

def move (h : QueueHistory G) : QueueMove G → QueueHistory G
  | .push e => ⟨(h.queue.push e).2, (h.queue.push e).1.id :: h.pushed⟩
  | .pop => ⟨h.queue.pop.2, h.pushed⟩
  | .snapshot _ => h
  | .restore types st =>
    ⟨(EventQueue.restore types st).1, (EventQueue.restore types st).1.heap.map (·.id) ++ h.pushed⟩

def step (h : QueueHistory G) (m : QueueMove G) : Option (QueueHistory G) :=
  some (h.move m)

def Orderly (h : QueueHistory G) : QueueMove G → Prop
  | .push e =>
    if e.id = 0 then h.queue.next.toNat + 1 < 2 ^ 64
    else e.id ≤ h.queue.next
  | .pop => True
  | .snapshot _ => True
  | .restore _ st =>
    h.queue.next ≤ st.nextID ∧ ∀ es ∈ st.events, es.id ≤ st.nextID

instance (h : QueueHistory G) (m : QueueMove G) : Decidable (h.Orderly m) :=
  match m with
  | .push e =>
    inferInstanceAs (Decidable (if e.id = 0 then
      h.queue.next.toNat + 1 < 2 ^ 64 else e.id ≤ h.queue.next))
  | .pop => inferInstanceAs (Decidable True)
  | .snapshot _ => inferInstanceAs (Decidable True)
  | .restore _ st =>
    inferInstanceAs (Decidable (h.queue.next ≤ st.nextID ∧ ∀ es ∈ st.events, es.id ≤ st.nextID))

def Bounded (h : QueueHistory G) : Prop :=
  ∀ id ∈ h.pushed, id ≤ h.queue.next

end QueueHistory

namespace EventQueue

variable {e : Event G}

theorem push_of_zero (q : EventQueue G) (unnumbered : e.id = 0) :
    (q.push e).1.id = q.next + 1 ∧ (q.push e).2.next = q.next + 1 := by
  simp [push, pushRaw, unnumbered]

theorem push_of_chosen (q : EventQueue G) (chosen : e.id ≠ 0) :
    (q.push e).1.id = e.id ∧ (q.push e).2.next = q.next := by
  simp [push, pushRaw, chosen]

theorem next_pop (q : EventQueue G) : q.pop.2.next = q.next := by
  unfold pop
  split <;> rfl

theorem restoreFrom_counter (types : String → Option G.Ty)
    (snapshots : List EventSnapshot) (q : EventQueue G) :
    (restoreFrom types snapshots q).1.next = q.next ∧ ∀ e ∈ (restoreFrom types snapshots q).1.heap,
        e ∈ q.heap ∨ ∃ es ∈ snapshots, es.id = e.id := by
  induction snapshots generalizing q with
  | nil => exact ⟨rfl, fun e mem => .inl mem⟩
  | cons es rest ih =>
    rw [restoreFrom]
    cases unmarshalPayload es.payload types with
    | error cause => exact ⟨rfl, fun e mem => .inl mem⟩
    | ok payload =>
      obtain ⟨counter, known⟩ := ih (q.pushRaw (eventOf es payload))
      refine ⟨counter, ?_⟩
      intro e mem
      rcases known e mem with present | ⟨other, listed, eq⟩
      · have added := (BinaryHeap.perm_push eventLess q.heap
          (eventOf es payload)).mem_iff.mp present
        rcases mem_cons.mp added with rfl | old
        · exact .inr ⟨es, mem_cons_self, rfl⟩
        · exact .inl old
      · exact .inr ⟨other, mem_cons_of_mem _ listed, eq⟩

end EventQueue

namespace QueueHistory

variable {h : QueueHistory G}

theorem Bounded.lt_next (bounded : h.Bounded) (room : h.queue.next.toNat + 1 < 2 ^ 64) :
    ∀ id ∈ h.pushed, id < h.queue.next + 1 := by
  intro id mem
  have below := bounded id mem
  rw [UInt64.le_iff_toNat_le] at below
  rw [UInt64.lt_iff_toNat_lt, UInt64.toNat_add, UInt64.toNat_one, Nat.mod_eq_of_lt room]
  omega

theorem bounded_start : (start : QueueHistory G).Bounded := by
  intro id mem
  cases mem

theorem Bounded.move (bounded : h.Bounded)
    {m : QueueMove G} (orderly : h.Orderly m) : (h.move m).Bounded := by
  cases m with
  | push e =>
    by_cases unnumbered : e.id = 0
    · obtain ⟨given, counter⟩ := h.queue.push_of_zero unnumbered
      rw [Orderly, if_pos unnumbered] at orderly
      intro id mem
      rw [QueueHistory.move, given] at mem
      rw [QueueHistory.move, counter]
      rcases mem_cons.mp mem with rfl | old
      · exact UInt64.le_refl _
      · exact UInt64.le_of_lt (bounded.lt_next orderly id old)
    · obtain ⟨kept, counter⟩ := h.queue.push_of_chosen unnumbered
      rw [Orderly, if_neg unnumbered] at orderly
      intro id mem
      rw [QueueHistory.move, kept] at mem
      rw [QueueHistory.move, counter]
      rcases mem_cons.mp mem with rfl | old
      · exact orderly
      · exact bounded id old
  | pop =>
    intro id mem
    rw [QueueHistory.move, h.queue.next_pop]
    exact bounded id mem
  | snapshot types => exact bounded
  | restore types st =>
    obtain ⟨forward, listedBelow⟩ := orderly
    obtain ⟨counter, known⟩ := restoreFrom_counter types st.events
      { (new : EventQueue G) with next := st.nextID, seq := st.seq }
    intro id mem
    rw [QueueHistory.move, EventQueue.restore, counter]
    rcases mem_append.mp mem with back | old
    · obtain ⟨e, present, rfl⟩ := mem_map.mp back
      rcases known e present with no | ⟨es, listed, eq⟩
      · cases no
      · rw [← eq]
        exact listedBelow es listed
    · exact UInt64.le_trans (bounded id old) forward

theorem bounded_of_reachable
    (reachable : Transition.Reachable step Orderly start h) : h.Bounded := by
  apply reachable.invariant bounded_start
  intro state act next bounded orderly stepped
  cases stepped
  exact bounded.move orderly

theorem assigned_id_fresh {h : QueueHistory G}
    (reachable : Transition.Reachable step Orderly start h) (e : Event G)
    (unnumbered : e.id = 0) (orderly : h.Orderly (.push e)) : (h.queue.push e).1.id ≠ 0 ∧
      ∀ id ∈ h.pushed, (h.queue.push e).1.id ≠ id := by
  have bounded := bounded_of_reachable reachable
  rw [Orderly, if_pos unnumbered] at orderly
  rw [(h.queue.push_of_zero unnumbered).1]
  constructor
  · intro zero
    have zeroNat := congrArg UInt64.toNat zero
    rw [UInt64.toNat_add, UInt64.toNat_one, Nat.mod_eq_of_lt orderly] at zeroNat
    cases zeroNat
  · intro id mem eq
    exact UInt64.lt_irrefl id (eq ▸ bounded.lt_next orderly id mem)

def numbered : List (QueueMove flagTypes) :=
  [.push (plainEvent 0 0), .push (plainEvent 0 0), .pop, .push (plainEvent 2 0)]

theorem assigned_id_fresh_numbered : (plainEvent 0 0).id = 0 ∧ ∃ h : QueueHistory flagTypes,
      Transition.Reachable step Orderly start h ∧ h = numbered.foldl QueueHistory.move start ∧
      h.Orderly (.push (plainEvent 0 0)) ∧ (h.queue.push (plainEvent 0 0)).1.id ≠ 0 ∧
      ∀ id ∈ h.pushed, (h.queue.push (plainEvent 0 0)).1.id ≠ id := by
  have reachable : Transition.Reachable step Orderly start
      (numbered.foldl QueueHistory.move start) := Transition.Reachable.start
      |>.take (.push (plainEvent 0 0)) (by decide) rfl
      |>.take (.push (plainEvent 0 0)) (by decide) rfl
      |>.take .pop trivial rfl
      |>.take (.push (plainEvent 2 0)) (by decide) rfl
  have orderly : (numbered.foldl QueueHistory.move start).Orderly (.push (plainEvent 0 0)) := by
    decide
  exact ⟨rfl, _, reachable, rfl, orderly, assigned_id_fresh reachable (plainEvent 0 0) rfl orderly⟩

theorem chosen_id_assigned :
    ∃ h : QueueHistory flagTypes, Transition.Reachable step (fun _ _ => True) start h ∧
      h = start.move (.push (plainEvent 1 0)) ∧
      (h.queue.push (plainEvent 0 0)).1.id = 1 ∧ 1 ∈ h.pushed :=
  ⟨_, Transition.Reachable.start.take (.push (plainEvent 1 0)) trivial rfl, rfl, rfl, mem_cons_self⟩

end QueueHistory

end Simulator
