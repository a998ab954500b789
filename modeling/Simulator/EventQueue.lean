import Simulator.BinaryHeap
import Simulator.EntityManager
import Simulator.FirstFailure
import Simulator.GoValues

/-!
# The event queue

Events are kept in a binary heap, which is `Settled` whatever snapshot it came from.
-/

namespace Simulator

open BinaryHeap List Option Float64

@[ext]
structure Event (G : GoTypes) where
  id : UInt64
  type : String
  time : Float64
  priority : Int
  seq : UInt64
  source : EntityID
  target : EntityID
  payload : Option G.Any

@[ext]
structure EventSnapshot where
  id : UInt64
  type : String
  time : Float64
  priority : Int
  seq : UInt64
  source : EntityID
  target : EntityID
  payload : RawMessage

@[ext]
structure EventQueueState where
  events : List EventSnapshot
  nextID : UInt64
  seq : UInt64

/-- The errors of `unmarshalPayload`. -/
inductive PayloadError
  | notRegistered (name : String)
  | decode (name detail : String)
deriving DecidableEq

def PayloadError.message : PayloadError → String
  | .notRegistered name =>
    "simulation: snapshot payload type " ++ name.quote ++ " is not registered"
  | .decode name detail =>
    "simulation: decode payload " ++ name.quote ++ ": " ++ detail

variable {G : GoTypes}

def eventLess (a b : Event G) : Bool :=
  if !a.time.equal b.time then a.time.less b.time
  else if a.priority ≠ b.priority then a.priority > b.priority
  else if a.seq ≠ b.seq then a.seq < b.seq
  else a.id < b.id

def Timed (e : Event G) : Prop :=
  e.time.isNaN = false

instance (e : Event G) : Decidable (Timed e) :=
  inferInstanceAs (Decidable (e.time.isNaN = false))

variable {a b : Event G}

theorem Timed.of_eventLess (old : eventLess a b = true) : Timed a ∧ Timed b := by
  unfold eventLess at old
  unfold Timed
  split at old
  · simp only [less, Bool.and_eq_true, Bool.not_eq_true'] at old
    exact old.1
  · rename_i equal
    simp only [Float64.equal, Bool.not_eq_true', Bool.not_eq_false, Bool.and_eq_true] at equal
    exact equal.1

theorem eventLess_iff (first : Timed a) (second : Timed b) :
    eventLess a b = true ↔ a.time.rank < b.time.rank ∨ a.time.rank = b.time.rank ∧
        (b.priority < a.priority ∨ a.priority = b.priority ∧
          (a.seq.toNat < b.seq.toNat ∨ a.seq.toNat = b.seq.toNat ∧ a.id.toNat < b.id.toNat)) := by
  unfold Timed at first second
  have timeEq : a.time.equal b.time = (a.time.rank == b.time.rank) := by
    simp [equal, first, second]
  have timeLess : a.time.less b.time = decide (a.time.rank < b.time.rank) := by
    simp [less, first, second]
  unfold eventLess
  rw [timeEq, timeLess]
  by_cases sameTime : a.time.rank = b.time.rank
  · by_cases samePriority : a.priority = b.priority
    · by_cases sameSeq : a.seq = b.seq
      · simp [sameTime, samePriority, sameSeq, UInt64.lt_iff_toNat_lt]
      · have differ : a.seq.toNat ≠ b.seq.toNat := fun equal => sameSeq (UInt64.toNat_inj.mp equal)
        simp [sameTime, samePriority, sameSeq, differ, UInt64.lt_iff_toNat_lt]
    · simp [sameTime, samePriority]
  · simp [sameTime]

theorem weakOrder_eventLess :
    WeakOrder (eventLess (G := G)) Timed where
  known_left old := (Timed.of_eventLess old).1
  known_right old := (Timed.of_eventLess old).2
  asymm := by
    intro a b old
    obtain ⟨first, second⟩ := Timed.of_eventLess old
    rw [eventLess_iff first second] at old
    rw [← Bool.not_eq_true, eventLess_iff second first]
    omega
  not_less_trans := by
    intro a b c first second third notBefore notBefore'
    rw [← Bool.not_eq_true, eventLess_iff first second] at notBefore
    rw [← Bool.not_eq_true, eventLess_iff second third] at notBefore'
    rw [← Bool.not_eq_true, eventLess_iff first third]
    omega

@[ext]
structure EventQueue (G : GoTypes) where
  heap : List (Event G)
  next : UInt64
  seq : UInt64
  settled : Settled eventLess Timed heap.length heap

def marshalPayload (payload : Option G.Any) (types : String → Option G.Ty) :
    Except String RawMessage :=
  match payload with
  | none => pure none
  | some ⟨t, value⟩ => do
      let document ← G.marshal value
      if (types (G.typeName t)).isSome then
        let env : PayloadEnvelope := ⟨G.typeName t, some document⟩
        pure (some env.marshal)
      else
        pure (some document)

def decodeEnvelope (env : PayloadEnvelope) (types : String → Option G.Ty) :
    Except PayloadError G.Any :=
  match types env.type with
  | none => .error (.notRegistered env.type)
  | some t =>
    match G.unmarshalRaw t env.data with
    | .error detail => .error (.decode env.type detail)
    | .ok value => .ok ⟨t, value⟩

def unmarshalPayload (raw : RawMessage) (types : String → Option G.Ty) :
    Except PayloadError (Option G.Any) :=
  match raw with
  | none => .ok none
  | some document =>
    match PayloadEnvelope.unmarshal document with
    | none => .ok (some ⟨G.rawMessage, G.ofRaw document⟩)
    | some env =>
      if env.type = "" then
        .ok (some ⟨G.rawMessage, G.ofRaw document⟩)
      else
        some <$> decodeEnvelope env types

def Restorable (types : String → Option G.Ty) : Option G.Any → Prop
  | none => True
  | some ⟨t, value⟩ =>
    types (G.typeName t) = some t ∧ GoTypes.RoundTrips value

theorem unmarshalPayload_marshalPayload {types : String → Option G.Ty}
    {payload : Option G.Any} {raw : RawMessage} (restorable : Restorable types payload)
    (enc : marshalPayload payload types = .ok raw) :
    unmarshalPayload raw types = .ok payload := by
  match payload with
  | none =>
    cases enc
    rfl
  | some ⟨t, v⟩ =>
    obtain ⟨hit, roundTrips⟩ := restorable
    cases marshalled : G.marshal v with
    | error msg =>
      simp [marshalPayload, marshalled, bind, Except.bind] at enc
    | ok doc =>
      simp only [marshalPayload, marshalled, bind, Except.bind, hit,
        isSome_some, if_true, pure, Except.pure] at enc
      cases enc
      simp [unmarshalPayload, PayloadEnvelope.unmarshal_marshal,
        G.typeName_ne t, decodeEnvelope, hit, GoTypes.unmarshalRaw, roundTrips doc marshalled]

namespace EventQueue

/-- `NewEventQueue` -/
def new : EventQueue G where
  heap := []
  next := 0
  seq := 0
  settled := by
    intro parent child _ inside
    simp at inside

def pushRaw (q : EventQueue G) (e : Event G) : EventQueue G where
  heap := BinaryHeap.push eventLess q.heap e
  next := q.next
  seq := q.seq
  settled := settled_push weakOrder_eventLess q.settled e

def push (q : EventQueue G) (e : Event G) : Event G × EventQueue G :=
  let next := if e.id = 0 then q.next + 1 else q.next
  let id := if e.id = 0 then next else e.id
  let e := { e with id := id, seq := q.seq + 1 }
  (e, { q with next := next, seq := q.seq + 1 }.pushRaw e)

def peek (q : EventQueue G) : Option (Event G) :=
  q.heap.head?

def pop (q : EventQueue G) : Option (Event G) × EventQueue G :=
  match popped : BinaryHeap.pop eventLess q.heap with
  | none => (none, q)
  | some (top, rest) =>
    (some top,
      { q with
        heap := rest
        settled := settled_pop weakOrder_eventLess q.settled popped })

theorem perm_push (q : EventQueue G) (e : Event G) :
    (q.push e).2.heap.Perm ((q.push e).1 :: q.heap) :=
  BinaryHeap.perm_push eventLess q.heap _

variable {q : EventQueue G} {types : String → Option G.Ty} {st : EventQueueState}
  {snapshots : List EventSnapshot} {events : List (Event G)} {rest : EventQueue G} {e : Event G}
  {es : EventSnapshot} {captureTypes : String → Option G.Ty}

theorem perm_pop {top : Event G}
    (popped : q.pop = (some top, rest)) : q.heap.Perm (top :: rest.heap) := by
  unfold pop at popped
  split at popped
  · cases popped
  · rename_i first others taken
    cases popped
    exact BinaryHeap.perm_pop taken

theorem pop_of_empty (popped : q.pop = (none, rest)) : q.heap = [] ∧ rest = q := by
  unfold pop at popped
  split at popped
  · rename_i nothing
    cases popped
    exact ⟨BinaryHeap.eq_nil_of_pop_eq_none nothing, rfl⟩
  · cases popped

theorem heap_of_pop_none (empty : q.pop.1 = none) : q.heap = [] := by
  have popped : q.pop = (none, q.pop.2) := Prod.ext empty rfl
  exact (pop_of_empty popped).1

def len (q : EventQueue G) : Nat :=
  q.heap.length

/-- `PeekAll`, over the sorting function of the standard library -/
def peekAll (sortSlice : (Event G → Event G → Bool) → List (Event G) → List (Event G))
    (q : EventQueue G) : List (Event G) :=
  sortSlice eventLess q.heap

def snapshotEvent (types : String → Option G.Ty) (e : Event G) : Except String EventSnapshot := do
  let payload ← marshalPayload e.payload types
  pure ⟨e.id, e.type, e.time, e.priority, e.seq, e.source, e.target, payload⟩

def snapshot (types : String → Option G.Ty) (q : EventQueue G) : Except String EventQueueState := do
  let events ← q.heap.mapM (snapshotEvent types)
  pure ⟨events, q.next, q.seq⟩

def eventOf (es : EventSnapshot) (payload : Option G.Any) : Event G :=
  ⟨es.id, es.type, es.time, es.priority, es.seq, es.source, es.target, payload⟩

/-- The loop of `restore`.  An error stops it with the events already
pushed. -/
def restoreFrom (types : String → Option G.Ty) :
    List EventSnapshot → EventQueue G → EventQueue G × Option PayloadError
  | [], q => (q, none)
  | es :: rest, q =>
    match unmarshalPayload es.payload types with
    | .error cause => (q, some cause)
    | .ok payload => restoreFrom types rest (q.pushRaw (eventOf es payload))

/-- `restore`.  The old queue only lends its storage. -/
def restore (types : String → Option G.Ty) (st : EventQueueState) :
    EventQueue G × Option PayloadError :=
  restoreFrom types st.events { new with next := st.nextID, seq := st.seq }

def loadEvent (types : String → Option G.Ty) (es : EventSnapshot) : Except PayloadError (Event G) :=
  eventOf es <$> unmarshalPayload es.payload types

theorem restoreFrom_eq_loaded (types : String → Option G.Ty)
    (snapshots : List EventSnapshot) (q : EventQueue G) :
    restoreFrom types snapshots q =
      ((FirstFailure.loaded (loadEvent types) snapshots).foldl pushRaw q,
        FirstFailure.failure (loadEvent types) snapshots) := by
  rw [← FirstFailure.process_eq]
  induction snapshots generalizing q with
  | nil => rfl
  | cons es rest ih =>
    simp only [restoreFrom, FirstFailure.process, loadEvent]
    cases unmarshalPayload es.payload types with
    | error cause => rfl
    | ok payload => exact ih _

theorem snapshotEvent_eq_ok (took : snapshotEvent types e = .ok es) :
    marshalPayload e.payload types = .ok es.payload ∧ eventOf es e.payload = e := by
  cases enc : marshalPayload e.payload types with
  | error msg =>
    simp [snapshotEvent, enc, bind, Except.bind] at took
  | ok payload =>
    simp only [snapshotEvent, enc, bind, Except.bind, pure, Except.pure, Except.ok.injEq] at took
    subst took
    exact ⟨rfl, rfl⟩

theorem snapshot_eq_ok (took : q.snapshot types = .ok st) :
    List.Forall₂ (fun e es => snapshotEvent types e = .ok es) q.heap st.events ∧
      st.nextID = q.next ∧ st.seq = q.seq := by
  cases enc : q.heap.mapM (snapshotEvent types) with
  | error msg => simp [snapshot, enc, bind, Except.bind] at took
  | ok events =>
    simp only [snapshot, enc, bind, Except.bind, pure, Except.pure, Except.ok.injEq] at took
    subst took
    exact ⟨mapM_eq_ok_iff.mp enc, rfl, rfl⟩

theorem restoreFrom_eq (dec : List.Forall₂ (fun es e =>
      unmarshalPayload es.payload types = .ok e.payload ∧
        eventOf es e.payload = e) snapshots events) (q : EventQueue G) :
    restoreFrom types snapshots q = (events.foldl pushRaw q, none) := by
  induction dec generalizing q with
  | nil => rfl
  | cons first rest ih =>
    simp only [restoreFrom, first.1, first.2, foldl_cons]
    exact ih _

theorem heap_foldl_pushRaw (events : List (Event G)) (q : EventQueue G) :
    (events.foldl pushRaw q).heap = events.foldl (BinaryHeap.push eventLess) q.heap := by
  induction events generalizing q with
  | nil => rfl
  | cons e events ih => exact ih (q.pushRaw e)

theorem counters_foldl_pushRaw (events : List (Event G)) (q : EventQueue G) :
    (events.foldl pushRaw q).next = q.next ∧ (events.foldl pushRaw q).seq = q.seq := by
  induction events generalizing q with
  | nil => exact ⟨rfl, rfl⟩
  | cons e events ih => exact ih (q.pushRaw e)

theorem decodes_of_snapshotEvent
    (took : List.Forall₂ (fun e es => snapshotEvent types e = .ok es) events snapshots)
    (restorable : ∀ e ∈ events, Restorable types e.payload) :
    List.Forall₂ (fun es e =>
      unmarshalPayload es.payload types = .ok e.payload ∧
        eventOf es e.payload = e) snapshots events := by
  induction took with
  | nil => exact .nil
  | cons first rest ih =>
    obtain ⟨enc, eventEq⟩ := snapshotEvent_eq_ok first
    refine .cons ⟨?_, eventEq⟩ (ih fun e mem => restorable e (by simp [mem]))
    exact unmarshalPayload_marshalPayload (restorable _ (by simp)) enc

def stamp (e : Event G) : Float64 × Int × UInt64 × UInt64 :=
  (e.time, e.priority, e.seq, e.id)

theorem eventLess_congr {a b a' b' : Event G} (first : stamp a = stamp a')
    (second : stamp b = stamp b') : eventLess a b = eventLess a' b' := by
  simp only [stamp, Prod.mk.injEq] at first second
  simp only [eventLess, first, second]

theorem ordered_of_stamps {heap other : List (Event G)} (eq : other.map stamp = heap.map stamp)
    (ordered : Ordered eventLess heap) : Ordered eventLess other := by
  have stampAt : ∀ i : Nat, other[i]?.map stamp = heap[i]?.map stamp := by
    intro i
    rw [← getElem?_map, ← getElem?_map, eq]
  intro parent child isChild
  rw [← Bool.not_eq_true]
  intro old
  obtain ⟨x, y, atChild, atParent, less⟩ := lessAt_eq_true_iff.mp old
  have childStamp := stampAt child
  have parentStamp := stampAt parent
  rw [atChild, eq_comm] at childStamp
  rw [atParent, eq_comm] at parentStamp
  obtain ⟨x', heldChild, xEq⟩ := map_eq_some_iff.mp childStamp
  obtain ⟨y', heldParent, yEq⟩ := map_eq_some_iff.mp parentStamp
  have still := ordered parent child isChild
  rw [lessAt_eq heldChild heldParent, eventLess_congr xEq yEq, less] at still
  cases still

def stampOf (es : EventSnapshot) : Float64 × Int × UInt64 × UInt64 :=
  (es.time, es.priority, es.seq, es.id)

theorem loadEvent_eq_ok (dec : loadEvent types es = .ok e) :
    unmarshalPayload es.payload types = .ok e.payload ∧ eventOf es e.payload = e := by
  unfold loadEvent at dec
  cases unwrapped : unmarshalPayload es.payload types with
  | error cause => rw [unwrapped] at dec; cases dec
  | ok payload =>
    rw [unwrapped] at dec
    cases dec
    exact ⟨rfl, rfl⟩

theorem stamps_loaded (dec : List.Forall₂ (fun es e => loadEvent types es = .ok e)
      snapshots events) : events.map stamp = snapshots.map stampOf := by
  induction dec with
  | nil => rfl
  | cons first rest ih =>
    rw [map_cons, map_cons, ih, ← (loadEvent_eq_ok first).2]
    rfl

theorem stamps_captured (took : List.Forall₂ (fun e es => snapshotEvent types e = .ok es)
      events snapshots) : events.map stamp = snapshots.map stampOf := by
  induction took with
  | nil => rfl
  | cons first rest ih =>
    rw [map_cons, map_cons, ih, ← (snapshotEvent_eq_ok first).2]
    rfl

theorem heap_restored (took : q.snapshot captureTypes = .ok st)
    (timed : ∀ e ∈ q.heap, Timed e) (noError : (restore types st).2 = none) :
    List.Forall₂ (fun es e => loadEvent types es = .ok e) st.events (restore types st).1.heap := by
  obtain ⟨taken, _⟩ := snapshot_eq_ok took
  unfold restore at noError ⊢
  rw [restoreFrom_eq_loaded] at noError ⊢
  have all := FirstFailure.forall₂_loaded noError
  have ordered : Ordered eventLess (FirstFailure.loaded (loadEvent types) st.events) :=
    ordered_of_stamps ((stamps_loaded all).trans (stamps_captured taken).symm)
      (q.settled.ordered timed)
  rw [heap_foldl_pushRaw]
  simp only [new, foldl_push_eq ordered]
  exact all

theorem snapshotEvent_loaded_iff
    (dec : List.Forall₂ (fun es e => loadEvent types es = .ok e) snapshots events) :
    List.Forall₂ (fun e es => snapshotEvent types e = .ok es) events snapshots ↔
      ∀ es ∈ snapshots, ∀ payload, unmarshalPayload es.payload types = .ok payload →
          marshalPayload payload types = .ok es.payload := by
  induction dec with
  | nil => simp
  | @cons es e snapshots events first rest ih =>
    obtain ⟨unwrapped, eventEq⟩ := loadEvent_eq_ok first
    have one : snapshotEvent types e = .ok es ↔
        ∀ payload, unmarshalPayload es.payload types = .ok payload →
          marshalPayload payload types = .ok es.payload := by
      rw [unwrapped]
      constructor
      · intro taken payload eq
        cases eq
        exact (snapshotEvent_eq_ok taken).1
      · intro encodes
        have enc := encodes e.payload rfl
        unfold snapshotEvent
        rw [enc, ← eventEq]
        rfl
    rw [forall₂_cons, one, ih]
    simp

theorem snapshot_restored_iff (took : q.snapshot captureTypes = .ok st)
    (timed : ∀ e ∈ q.heap, Timed e) (noError : (restore types st).2 = none) :
    (restore types st).1.snapshot types = .ok st ↔ ∀ es ∈ st.events, ∀ payload,
        unmarshalPayload es.payload types = .ok payload →
          marshalPayload payload types = .ok es.payload := by
  have dec := heap_restored took timed noError
  have counters : (restore types st).1.next = st.nextID ∧ (restore types st).1.seq = st.seq := by
    unfold restore
    rw [restoreFrom_eq_loaded]
    exact counters_foldl_pushRaw _ _
  have again : (restore types st).1.snapshot types = .ok st ↔
      List.Forall₂ (fun e es => snapshotEvent types e = .ok es)
        (restore types st).1.heap st.events := by
    constructor
    · exact fun taken => (snapshot_eq_ok taken).1
    · intro taken
      unfold snapshot
      rw [mapM_eq_ok_iff.mpr taken, counters.1, counters.2]
      rfl
  exact again.trans (snapshotEvent_loaded_iff dec)

theorem restore_snapshot (took : q.snapshot types = .ok st) (timed : ∀ e ∈ q.heap, Timed e)
    (restorable : ∀ e ∈ q.heap, Restorable types e.payload) : restore types st = (q, none) := by
  obtain ⟨events, nextEq, seqEq⟩ := snapshot_eq_ok took
  unfold restore
  rw [restoreFrom_eq (decodes_of_snapshotEvent events restorable)]
  congr 1
  apply EventQueue.ext
  · rw [heap_foldl_pushRaw]
    exact foldl_push_eq (q.settled.ordered timed)
  · rw [(counters_foldl_pushRaw _ _).1, nextEq]
  · rw [(counters_foldl_pushRaw _ _).2, seqEq]

end EventQueue

end Simulator
