import Simulator.Resumption

/-!
# The queueing model

The servers are components; the line, the counters and the random stream are fields of
the model value.
-/

namespace Simulator

open Requests List Option World Code EventQueue Float64

structure Busy where
  b : Bool
deriving DecidableEq

inductive QueueingTy
  | busy
deriving DecidableEq

abbrev queueingTypes (codec : JsonCodec Busy) : GoTypes :=
  componentTypes QueueingTy (fun _ => Busy) (fun _ => "queueing.Busy")
    (fun _ => by decide) (fun _ => codec)

namespace Queueing

structure Config where
  servers : Int
  interarrival : Float64
  serviceTime : Float64
  maxTime : Float64

def Config.withDefaults (c : Config) : Config where
  servers := if c.servers ≤ 0 then 3 else c.servers
  interarrival :=
    if c.interarrival.lessEq .zero then ⟨0x3FF0000000000000⟩
    else c.interarrival
  serviceTime :=
    if c.serviceTime.lessEq .zero then ⟨0x4000000000000000⟩
    else c.serviceTime
  maxTime :=
    if c.maxTime.lessEq .zero then ⟨0x4059000000000000⟩ else c.maxTime

end Queueing

/-- `Queueing`; its field `busyCol` is the column of `busyID` -/
structure Queueing where
  cfg : Queueing.Config
  busyID : ComponentID
  customerTag : Tag
  rng : RNG
  queue : List EntityID
  arrived : Int
  served : Int
  peak : Int

namespace Queueing

/-- A new value after `Configure`. -/
def configure (c : Config) : Queueing where
  cfg := c.withDefaults
  busyID := 0
  customerTag := 0
  rng := ⟨0⟩
  queue := []
  arrived := 0
  served := 0
  peak := 0

variable {codec : JsonCodec Busy} (F : FloatOps)

/-- `Initialize` -/
def setUp (m : Queueing) (seed : UInt64) : Code (queueingTypes codec) Queueing := do
  let m :=
    if m.cfg.servers = 0 then { m with cfg := m.cfg.withDefaults } else m
  let busyID ← Code.registerComponent (some .busy) "q.busy"
  let customerTag ← Code.registerTag "customer"
  let m := { m with
    busyID := busyID
    customerTag := customerTag
    rng := .deriveU64 seed 1 }
  Program.iterate (fun () => do
    let e ← Code.create
    Code.set (some .busy) busyID e ⟨false⟩) m.cfg.servers.toNat ()
  Code.scheduleNow "arrival"
  return m

/-- The delay `mean * (0.5 + rng.Float64())` and the stream after it -/
def delay (mean : Float64) (rng : RNG) : Float64 × RNG :=
  let drawn := rng.float64 F
  (F.mul mean (F.add ⟨0x3FE0000000000000⟩ drawn.1), drawn.2)

/-- The loop of `dispatch` over the waiting customers -/
def dispatchFrom (m : Queueing) :
    List EntityID → Code (queueingTypes codec) Queueing
  | [] => .ret { m with queue := [] }
  | c :: rest => do
      let servers ← Code.each (some .busy) m.busyID
      match servers.find? fun (_, (busy : Busy)) => !busy.b with
      | none => .ret { m with queue := c :: rest }
      | some (free, _) =>
        Code.set (some .busy) m.busyID free ⟨true⟩
        let _ ← Code.destroy c
        Code.removeEntityTags c
        let drawn := delay F m.cfg.serviceTime m.rng
        Code.push "done" (F.add (← Code.time) drawn.1) free
        dispatchFrom { m with rng := drawn.2 } rest

def dispatch (m : Queueing) : Code (queueingTypes codec) Queueing :=
  dispatchFrom F m m.queue

/-- `HandleEvent` for `"arrival"` -/
def handleArrival (m : Queueing) (e : Event (queueingTypes codec)) :
    Code (queueingTypes codec) Queueing := do
  let c ← Code.create
  Code.addTag c m.customerTag
  let queue := m.queue ++ [c]
  let m ← dispatch F { m with
    arrived := m.arrived + 1
    queue := queue
    peak := if queue.length > m.peak then queue.length else m.peak }
  if e.time.less m.cfg.maxTime then
    let drawn := delay F m.cfg.interarrival m.rng
    Code.scheduleIn F drawn.1 "arrival"
    return { m with rng := drawn.2 }
  else
    return m

/-- `HandleEvent` for `"done"` -/
def handleDone (m : Queueing) (e : Event (queueingTypes codec)) :
    Code (queueingTypes codec) Queueing := do
  Code.set (some .busy) m.busyID e.source ⟨false⟩
  dispatch F { m with served := m.served + 1 }

def handleEvent (m : Queueing) (e : Event (queueingTypes codec)) :
    Code (queueingTypes codec) Queueing :=
  if e.type = "arrival" then handleArrival F m e
  else if e.type = "done" then handleDone F m e
  else .ret m

def metrics (m : Queueing) : List (String × Float64) :=
  let utilization :=
    if m.arrived > 0 then F.div (.ofInt m.served) (.ofInt m.arrived)
    else .zero
  [("arrived", .ofInt m.arrived), ("served", .ofInt m.served),
    ("peak_backlog", .ofInt m.peak), ("completion", utilization)]

def program (codec : JsonCodec Busy) (c : Config) :
    ModelProgram (queueingTypes codec) where
  Fields := Queueing
  setUp := (configure c).setUp
  step := Code.eventStep F (handleEvent F)
  metrics := metrics F
  config := none

def layout (codec : JsonCodec Busy) : Layout (queueingTypes codec) :=
  [("q.busy", some .busy)]

variable {F}

theorem ensures_dispatchFrom (queue : List EntityID) (m : Queueing) (wired : m.busyID = 0) :
    (dispatchFrom F m queue).Ensures (Operation.Within (layout codec)) fun after => ∃ queue rng,
        after = { m with queue := queue, rng := rng } := by
  induction queue generalizing m with
  | nil => exact ⟨_, _, rfl⟩
  | cons c rest ih =>
    have inLayout : (layout codec)[m.busyID]?.map Prod.snd = some (some QueueingTy.busy) := by
      rw [wired]
      rfl
    refine .request_bind inLayout fun servers => ?_
    split
    · exact ⟨_, _, rfl⟩
    · refine .request_bind inLayout fun _ => ?_
      refine .request_bind trivial fun _ => ?_
      refine .request_bind trivial fun _ => ?_
      refine .request_bind trivial fun _ => ?_
      refine .request_bind rfl fun _ => ?_
      refine .mono (ih _ ?_) ?_
      · exact wired
      · rintro _ ⟨queue, rng, rfl⟩
        exact ⟨queue, rng, rfl⟩

theorem ensures_handleArrival (m : Queueing)
    (e : Event (queueingTypes codec)) (wired : m.busyID = 0) :
    (handleArrival F m e).Ensures (Operation.Within (layout codec))
      fun after => after.busyID = 0 ∧ after.arrived = m.arrived + 1 := by
  refine .request_bind trivial fun c => ?_
  refine .request_bind trivial fun _ => ?_
  refine .bind (ensures_dispatchFrom _ _ wired) ?_
  rintro _ ⟨queue, rng, rfl⟩
  dsimp only
  split
  · refine .seq ?_ fun _ => ?_
    · exact ensures_scheduleIn trivial (fun _ _ noPayload => noPayload) trivial
    · exact ⟨wired, rfl⟩
  · exact ⟨wired, rfl⟩

theorem ensures_handleDone (m : Queueing) (e : Event (queueingTypes codec)) (wired : m.busyID = 0) :
    (handleDone F m e).Ensures (Operation.Within (layout codec))
      fun after => after.busyID = 0 ∧ after.arrived = m.arrived := by
  have inLayout : (layout codec)[m.busyID]?.map Prod.snd = some (some QueueingTy.busy) := by
    rw [wired]
    rfl
  refine .request_bind inLayout fun _ => ?_
  refine .mono (ensures_dispatchFrom _ _ wired) ?_
  rintro _ ⟨queue, rng, rfl⟩
  exact ⟨wired, rfl⟩

theorem ensures_step (m : Queueing) (wired : m.busyID = 0) :
    (eventStep F (handleEvent F) m).Ensures (Operation.Within (layout codec))
      fun after => after.busyID = 0 ∧ m.arrived ≤ after.arrived := by
  refine ensures_eventStep trivial trivial (fun _ => trivial) ⟨wired, le_rfl⟩ fun ev => ?_
  unfold handleEvent
  split
  · refine .mono (ensures_handleArrival m ev wired) ?_
    rintro after ⟨stillWired, counted⟩
    exact ⟨stillWired, by omega⟩
  · split
    · refine .mono (ensures_handleDone m ev wired) ?_
      rintro after ⟨stillWired, eq⟩
      exact ⟨stillWired, by omega⟩
    · exact ⟨wired, le_rfl⟩

theorem setUp_laid {sort : SortSlice (Event (queueingTypes codec))}
    {metadata : Metadata} {seed : UInt64} {c : Config} {m : Queueing}
    {w : World (queueingTypes codec)} (ran : (new metadata).runCode sort
      ((configure c).setUp seed) = some (m, w)) :
    w.Laid metadata (layout codec) ∧ m.busyID = 0 ∧ m.arrived = 0 := by
  obtain ⟨mid, laid, rest⟩ := (laid_new metadata).runCode_registerComponent not_mem_nil ran
  refine laid.runCode (fun after => after.busyID = 0 ∧ after.arrived = 0) ?_ rest
  refine .request_bind trivial fun tag => ?_
  refine .seq ?_ fun _ => ?_
  · refine .iterate (fun _ _ => ?_) _ trivial
    refine .request_bind trivial fun e => ?_
    exact .request rfl fun _ => trivial
  · refine .seq ?_ fun _ => ?_
    · exact ensures_scheduleNow trivial (fun _ _ noPayload => noPayload) trivial
    · refine ⟨rfl, ?_⟩
      dsimp only
      split <;> rfl

def QueuesArrivals : Operation (queueingTypes codec) → Prop
  | .push e => e.type = "arrival"
  | _ => True

theorem ensures_setUp (m : Queueing) (seed : UInt64) :
    (m.setUp seed : Code (queueingTypes codec) Queueing).Ensures QueuesArrivals fun _ => True := by
  refine .seq ?_ fun busyID => ?_
  · refine .request_bind trivial fun id => ?_
    exact .request_bind trivial fun _ => trivial
  · refine .request_bind trivial fun tag => ?_
    refine .seq ?_ fun _ => ?_
    · refine .iterate (fun _ _ => ?_) _ trivial
      refine .request_bind trivial fun e => ?_
      exact .request trivial fun _ => trivial
    · refine .seq ?_ fun _ => trivial
      exact ensures_scheduleNow trivial (fun _ arrival _ => arrival) trivial

section Runs

variable {sort : SortSlice (Event (queueingTypes codec))} {metadata : Metadata} {c : Config}

theorem first_event {seed : UInt64} {m after : Queueing} {w : World (queueingTypes codec)}
    (ran : (new metadata).runCode sort (m.setUp seed) = some (after, w)) :
    ∃ ev rest, w.events.pop = (some ev, rest) ∧ ev.type = "arrival" := by
  have arrivals : ∀ e ∈ w.events.heap, e.type = "arrival" := by
    refine ((ensures_setUp m seed).run
      (fun w => ∀ e ∈ w.events.heap, e.type = "arrival") ?_ ?_ ran).1
    · intro op before reply next ok inv step e mem
      rcases mem_heap_of_run step mem with old | ⟨pushed, rfl, rfl⟩
      · exact inv e old
      · exact ok
    · intro e mem
      exact absurd mem not_mem_nil
  -- the last action before returning queues an event
  obtain ⟨_, _, _, ran⟩ := runCode_bind_eq_some ran
  obtain ⟨_, _, _, ran⟩ := runCode_bind_eq_some ran
  obtain ⟨_, before, _, ran⟩ := runCode_bind_eq_some ran
  obtain ⟨_, _, scheduled, ran⟩ := runCode_bind_eq_some ran
  cases ran
  cases scheduled
  have queued := (before.events.perm_push
    ⟨0, "arrival", before.clock.time, 0, 0, ⟨0⟩, ⟨0⟩, none⟩).mem_iff.mpr mem_cons_self
  generalize (before.events.push ⟨0, "arrival", before.clock.time, 0, 0, ⟨0⟩, ⟨0⟩, none⟩).2 = es
      at arrivals queued ⊢
  cases popped : es.pop with
  | mk top rest =>
    cases top with
    | none =>
      rw [(pop_of_empty popped).1] at queued
      exact absurd queued not_mem_nil
    | some ev =>
      exact ⟨ev, rest, rfl, arrivals ev ((perm_pop popped).mem_iff.mpr mem_cons_self)⟩

theorem orderly (codec : JsonCodec Busy) (c : Config) :
    (program F codec c).Orderly (layout codec) fun m => m.busyID = 0 where
  setUp ran := by
    obtain ⟨laid, wired, _⟩ := setUp_laid ran
    exact ⟨laid, wired⟩
  step m wired := Program.Ensures.mono (ensures_step m wired) fun _ kept => kept.1
  config _ hit := by cases hit

variable {k : Nat} {fresh paused : (program F codec c).Sim}

theorem arrived_pos (made : (program F codec c).new sort metadata = some fresh)
    (ran : (program F codec c).advance sort (k + 1) fresh = some paused) :
    0 < paused.model.arrived := by
  obtain ⟨⟨m, w⟩, setUp, rfl⟩ := map_eq_some_iff.mp made
  obtain ⟨⟨last, final⟩, steps, rfl⟩ := map_eq_some_iff.mp ran
  obtain ⟨laid, wired, none⟩ := setUp_laid setUp
  obtain ⟨ev, rest, popped, arrival⟩ := first_event setUp
  obtain ⟨first, middle, firstStep, others⟩ := runCode_bind_eq_some steps
  have handles : (handleEvent F m ev).Ensures (Operation.Within (layout codec))
      fun after => after.busyID = 0 ∧ after.arrived = m.arrived + 1 := by
    unfold handleEvent
    rw [if_pos arrival]
    exact ensures_handleArrival m ev wired
  obtain ⟨stillLaid, stillWired, counted⟩ := laid.runCode_eventStep popped _ handles firstStep
  have later : (Program.iterate (program F codec c).step k first).Ensures
      (Operation.Within (layout codec))
      fun after => after.busyID = 0 ∧ first.arrived ≤ after.arrived := by
    refine .iterate (fun current kept => ?_) k ⟨stillWired, le_rfl⟩
    refine .mono (ensures_step current kept.1) ?_
    rintro after ⟨afterWired, notLess⟩
    exact ⟨afterWired, kept.2.trans notLess⟩
  obtain ⟨_, _, grown⟩ := stillLaid.runCode _ later others
  show 0 < last.arrived
  omega

theorem indifferent_iff (made : (program F codec c).new sort metadata = some fresh)
    (ran : (program F codec c).advance sort k fresh = some paused) :
    (∀ n, (program F codec c).Indifferent sort n paused fresh.model) ↔ k = 0 := by
  obtain ⟨_, laid, _⟩ := (orderly codec c).new made
  constructor
  · intro indifferent
    cases k with
    | zero => rfl
    | succ k =>
      have counted := arrived_pos made ran
      have none : fresh.model.arrived = 0 := by
        obtain ⟨⟨m, w⟩, setUp, rfl⟩ := map_eq_some_iff.mp made
        exact (setUp_laid setUp).2.2
      have same := (indifferent 0).metrics_eq
      have arrivedEq : ofInt fresh.model.arrived = ofInt paused.model.arrived := by
        simpa [program, metrics] using congrArg head? same
      rw [none, eq_comm, ofInt_eq_ofInt_zero_iff] at arrivedEq
      omega
  · rintro rfl
    cases ran
    exact ModelProgram.indifferent_self laid.sound

end Runs

end Queueing

end Simulator
