import Simulator.Resumption

/-!
# The distributed-system model

The servers are components; the turn and the counters are fields of the model value.
-/

namespace Simulator

open Requests Code

structure SrvState where
  healthy : Bool
  load : Int

inductive DistributedSystemTy
  | state
deriving DecidableEq

abbrev distributedSystemTypes (codec : JsonCodec SrvState) : GoTypes :=
  componentTypes DistributedSystemTy (fun _ => SrvState)
    (fun _ => "dsystem.SrvState") (fun _ => by decide) (fun _ => codec)

namespace DistributedSystem

structure Config where
  servers : Int
  arrivalInterval : Float64
  processingTime : Float64
  failureInterval : Float64
  recoveryTime : Float64
  maxTime : Float64

/-- A field of `withDefaults`: the default where the value is not positive -/
def orDefault (value : Float64) (bits : UInt64) : Float64 :=
  if value.lessEq .zero then ⟨bits⟩ else value

def Config.withDefaults (c : Config) : Config where
  servers := if c.servers ≤ 0 then 4 else c.servers
  arrivalInterval := orDefault c.arrivalInterval 0x3FF0000000000000
  processingTime := orDefault c.processingTime 0x4000000000000000
  failureInterval := orDefault c.failureInterval 0x4024000000000000
  recoveryTime := orDefault c.recoveryTime 0x4014000000000000
  maxTime := orDefault c.maxTime 0x4059000000000000

end DistributedSystem

/-- `DistributedSystem`; its field `srvCol` is the column of `srvID` -/
structure DistributedSystem where
  cfg : DistributedSystem.Config
  srvID : ComponentID
  rng : RNG
  rr : Nat
  processed : Int
  dropped : Int

namespace DistributedSystem

/-- A new value after `Configure`. -/
def configure (c : Config) : DistributedSystem where
  cfg := c.withDefaults
  srvID := 0
  rng := ⟨0⟩
  rr := 0
  processed := 0
  dropped := 0

variable {codec : JsonCodec SrvState} (F : FloatOps)

/-- `srvCol.Get` -/
def server (m : DistributedSystem) (e : EntityID) :
    Code (distributedSystemTypes codec) (Option SrvState) :=
  Code.get (G := distributedSystemTypes codec) (some .state) m.srvID e

/-- `srvCol.Set` -/
def setServer (m : DistributedSystem) (e : EntityID) (st : SrvState) :
    Code (distributedSystemTypes codec) Unit :=
  Code.set (G := distributedSystemTypes codec) (some .state) m.srvID e st

/-- `Initialize` -/
def setUp (m : DistributedSystem) (seed : UInt64) :
    Code (distributedSystemTypes codec) DistributedSystem := do
  let m :=
    if m.cfg.servers = 0 then { m with cfg := m.cfg.withDefaults } else m
  let srvID ← Code.registerComponent (some .state) "ds.state"
  let m := { m with srvID := srvID, rng := .deriveU64 seed 1 }
  Program.iterate (fun () => do
    let e ← Code.create
    m.setServer e ⟨true, 0⟩) m.cfg.servers.toNat ()
  Code.scheduleNow "request"
  Code.scheduleIn F m.cfg.failureInterval "fail"
  return m

/-- The loop of `pick`, with the number of rounds left and the turn.  The
turn is always an index of the servers. -/
def pickFrom (m : DistributedSystem) (ids : List EntityID) :
    Nat → Nat → Code (distributedSystemTypes codec) (Option EntityID × Nat)
  | 0, rr => .ret (none, rr)
  | rounds + 1, rr => do
      let rr := (rr + 1) % ids.length
      match ids[rr]? with
      | none => .fail "index out of range"
      | some id =>
        match ← m.server id with
        | some ⟨true, _⟩ => .ret (some id, rr)
        | _ => pickFrom m ids rounds rr

def pick (m : DistributedSystem) : Code (distributedSystemTypes codec)
    (Option EntityID × DistributedSystem) := do
  let ids ← Code.entitiesOf m.srvID
  let picked ← m.pickFrom ids ids.length m.rr
  return (picked.1, { m with rr := picked.2 })

def assign (m : DistributedSystem) (srv : EntityID)
    (change : SrvState → SrvState) (type : String) (delay : Float64) :
    Code (distributedSystemTypes codec) Unit := do
  let st := (← m.server srv).getD ⟨false, 0⟩
  m.setServer srv (change st)
  Code.push type (F.add (← Code.time) delay) srv

def reschedule (m : DistributedSystem) (interval : Float64)
    (type : String) : Code (distributedSystemTypes codec) Unit := do
  if (← Code.time).less m.cfg.maxTime then Code.scheduleIn F interval type
  else return ()

def route (m : DistributedSystem) : Code (distributedSystemTypes codec) DistributedSystem := do
  let (picked, m) ← m.pick
  match picked with
  | some srv =>
    m.assign F srv (fun st => { st with load := st.load + 1 }) "done" m.cfg.processingTime
    return m
  | none => return { m with dropped := m.dropped + 1 }

/-- `HandleEvent` for `"request"` -/
def handleRequest (m : DistributedSystem) :
    Code (distributedSystemTypes codec) DistributedSystem := do
  let m ← m.route F
  m.reschedule F m.cfg.arrivalInterval "request"
  return m

/-- `HandleEvent` for `"done"` -/
def handleDone (m : DistributedSystem) (source : EntityID) :
    Code (distributedSystemTypes codec) DistributedSystem := do
  match ← m.server source with
  | none => return m
  | some st =>
    m.setServer source { st with load := st.load - 1 }
    return { m with processed := m.processed + 1 }

/-- `HandleEvent` for `"fail"` -/
def handleFail (m : DistributedSystem) : Code (distributedSystemTypes codec) DistributedSystem := do
  let (picked, m) ← m.pick
  match picked with
  | some srv =>
    m.assign F srv (fun st => { st with healthy := false }) "recover" m.cfg.recoveryTime
  | none => pure ()
  m.reschedule F m.cfg.failureInterval "fail"
  return m

/-- `HandleEvent` for `"recover"` -/
def handleRecover (m : DistributedSystem) (source : EntityID) :
    Code (distributedSystemTypes codec) DistributedSystem := do
  match ← m.server source with
  | none => return m
  | some st =>
    m.setServer source { st with healthy := true }
    return m

def handleEvent (m : DistributedSystem) (e : Event (distributedSystemTypes codec)) :
    Code (distributedSystemTypes codec) DistributedSystem :=
  if e.type = "request" then m.handleRequest F
  else if e.type = "done" then m.handleDone e.source
  else if e.type = "fail" then m.handleFail F
  else if e.type = "recover" then m.handleRecover e.source
  else .ret m

def metrics (m : DistributedSystem) : List (String × Float64) :=
  let total := m.processed + m.dropped
  let availability :=
    if total > 0 then F.div (.ofInt m.processed) (.ofInt total)
    else ⟨0x3FF0000000000000⟩
  [("processed", .ofInt m.processed), ("dropped", .ofInt m.dropped), ("availability", availability)]

def program (codec : JsonCodec SrvState) (c : Config) :
    ModelProgram (distributedSystemTypes codec) where
  Fields := DistributedSystem
  setUp := (configure c).setUp F
  step := Code.eventStep F (handleEvent F)
  metrics := metrics F
  config := none

def layout (codec : JsonCodec SrvState) : Layout (distributedSystemTypes codec) :=
  [("ds.state", some .state)]

variable {F}

section Rules

variable {m : DistributedSystem}

theorem inLayout (wired : m.srvID = 0) : (layout codec)[m.srvID]?.map Prod.snd =
      some (some DistributedSystemTy.state) := by
  rw [wired]
  rfl

theorem ensures_pickFrom (wired : m.srvID = 0) (ids : List EntityID) (rounds rr : Nat) :
    (m.pickFrom ids rounds rr).Within (layout codec) := by
  induction rounds generalizing rr with
  | zero => trivial
  | succ rounds ih =>
    unfold pickFrom
    dsimp only
    split
    · trivial
    · refine .request_bind (inLayout wired) fun hit => ?_
      split
      · trivial
      · exact ih _

theorem ensures_pick (wired : m.srvID = 0) :
    m.pick.Ensures (Operation.Within (layout codec))
      fun picked => ∃ rr, picked.2 = { m with rr := rr } := by
  refine .request_bind trivial fun ids => ?_
  refine .seq (ensures_pickFrom wired ids _ _) fun picked => ?_
  exact ⟨_, rfl⟩

theorem ensures_assign (wired : m.srvID = 0) (srv : EntityID)
    (change : SrvState → SrvState) (type : String) (delay : Float64) :
    (m.assign F srv change type delay).Within (layout codec) := by
  refine .request_bind (inLayout wired) fun hit => ?_
  refine .request_bind (inLayout wired) fun _ => ?_
  refine .request_bind trivial fun now => ?_
  exact .request rfl fun _ => trivial

theorem ensures_reschedule (m : DistributedSystem) (interval : Float64) (type : String) :
    (m.reschedule F interval type).Within (layout codec) := by
  refine .request_bind trivial fun now => ?_
  split
  · exact ensures_scheduleIn trivial (fun _ _ noPayload => noPayload) trivial
  · trivial

def Recounted (m after : DistributedSystem) : Prop :=
  ∃ rr processed dropped, after = { m with rr := rr, processed := processed, dropped := dropped }

section

variable (wired : m.srvID = 0)
include wired

theorem ensures_route : (m.route F).Ensures (Operation.Within (layout codec)) (Recounted m) := by
  refine .bind (ensures_pick wired) ?_
  rintro ⟨picked, _⟩ ⟨rr, rfl⟩
  cases picked with
  | none => exact ⟨_, _, _, rfl⟩
  | some srv =>
    refine .seq (ensures_assign ?_ _ _ _ _) fun _ => ?_
    · exact wired
    · exact ⟨_, _, _, rfl⟩

theorem ensures_handleRequest :
    (m.handleRequest F).Ensures (Operation.Within (layout codec)) (Recounted m) := by
  refine .bind (ensures_route wired) ?_
  rintro _ ⟨_, _, _, rfl⟩
  refine .seq (ensures_reschedule _ _ _) fun _ => ?_
  exact ⟨_, _, _, rfl⟩

theorem ensures_handleFail :
    (m.handleFail F).Ensures (Operation.Within (layout codec)) (Recounted m) := by
  refine .bind (ensures_pick wired) ?_
  rintro ⟨picked, _⟩ ⟨rr, rfl⟩
  cases picked with
  | none =>
    refine .seq (ensures_reschedule _ _ _) fun _ => ?_
    exact ⟨_, _, _, rfl⟩
  | some srv =>
    refine .seq (ensures_assign ?_ _ _ _ _) fun _ => ?_
    · exact wired
    refine .seq (ensures_reschedule _ _ _) fun _ => ?_
    exact ⟨_, _, _, rfl⟩

theorem ensures_handleDone (source : EntityID) :
    (m.handleDone source).Ensures (Operation.Within (layout codec)) (Recounted m) := by
  refine .request_bind (inLayout wired) fun hit => ?_
  cases hit with
  | none => exact ⟨_, _, _, rfl⟩
  | some st =>
    refine .request_bind (inLayout wired) fun _ => ?_
    exact ⟨_, _, _, rfl⟩

theorem ensures_handleRecover (source : EntityID) :
    (m.handleRecover source).Ensures (Operation.Within (layout codec)) (Recounted m) := by
  refine .request_bind (inLayout wired) fun hit => ?_
  cases hit with
  | none => exact ⟨_, _, _, rfl⟩
  | some st =>
    refine .request_bind (inLayout wired) fun _ => ?_
    exact ⟨_, _, _, rfl⟩

end

theorem ensures_step (m : DistributedSystem) (wired : m.srvID = 0) :
    (eventStep F (handleEvent F) m).Ensures (Operation.Within (layout codec)) (Recounted m) := by
  refine ensures_eventStep trivial trivial (fun _ => trivial) ⟨_, _, _, rfl⟩ fun ev => ?_
  unfold handleEvent
  split
  · exact ensures_handleRequest wired
  split
  · exact ensures_handleDone wired ev.source
  split
  · exact ensures_handleFail wired
  split
  · exact ensures_handleRecover wired ev.source
  · exact ⟨_, _, _, rfl⟩

end Rules

variable {sort : SortSlice (Event (distributedSystemTypes codec))}
  {metadata : Metadata} {c : Config}

theorem setUp_laid {seed : UInt64}
    {m : DistributedSystem} {w : World (distributedSystemTypes codec)}
    (ran : (World.new metadata).runCode sort ((configure c).setUp F seed) = some (m, w)) :
    w.Laid metadata (layout codec) ∧ m.srvID = 0 ∧ m.rr = 0 ∧ m.processed = 0 ∧ m.dropped = 0 := by
  obtain ⟨mid, laid, rest⟩ :=
    (World.laid_new metadata).runCode_registerComponent List.not_mem_nil ran
  refine laid.runCode (fun after => after.srvID = 0 ∧ after.rr = 0 ∧
    after.processed = 0 ∧ after.dropped = 0) ?_ rest
  refine .seq ?_ fun _ => ?_
  · refine .iterate (fun _ _ => ?_) _ trivial
    refine .request_bind trivial fun e => ?_
    exact .request rfl fun _ => trivial
  refine .seq ?_ fun _ => ?_
  · exact ensures_scheduleNow trivial (fun _ _ noPayload => noPayload) trivial
  refine .seq ?_ fun _ => ?_
  · exact ensures_scheduleIn trivial (fun _ _ noPayload => noPayload) trivial
  refine ⟨rfl, ?_⟩
  dsimp only
  split <;> exact ⟨rfl, rfl, rfl⟩

theorem orderly (codec : JsonCodec SrvState) (c : Config) :
    (program F codec c).Orderly (layout codec) fun m => m.srvID = 0 where
  setUp ran := by
    obtain ⟨laid, wired, _⟩ := setUp_laid ran
    exact ⟨laid, wired⟩
  step m wired := by
    refine .mono (ensures_step m wired) ?_
    rintro _ ⟨_, _, _, rfl⟩
    exact wired
  config _ found := by cases found

theorem indifferent_iff {k : Nat} {fresh paused : (program F codec c).Sim}
    (made : (program F codec c).new sort metadata = some fresh)
    (ran : (program F codec c).advance sort k fresh = some paused) :
    (∀ n, (program F codec c).Indifferent sort n paused fresh.model) ↔
      paused.model.processed = 0 ∧ paused.model.dropped = 0 ∧
        ∀ n, (program F codec c).Indifferent sort n paused
          { paused.model with rr := 0 } := by
  obtain ⟨⟨m, w⟩, setUp, rfl⟩ := Option.map_eq_some_iff.mp made
  obtain ⟨⟨last, final⟩, steps, rfl⟩ := Option.map_eq_some_iff.mp ran
  obtain ⟨laid, wired, firstTurn, noneProcessed, noneDropped⟩ := setUp_laid setUp
  have changes : (Program.iterate (program F codec c).step k m).Ensures
      (Operation.Within (layout codec)) (Recounted m) := by
    refine .iterate ?_ k ⟨_, _, _, rfl⟩
    rintro _ ⟨_, _, _, rfl⟩
    exact .mono (ensures_step _ wired) fun _ changed =>
      changed
  obtain ⟨_, rr, processed, dropped, rfl⟩ := laid.runCode _ changes steps
  -- with the counts at zero, only the turn is not as `Initialize` left it
  have rewound (noProcessed : processed = 0) (noDropped : dropped = 0) :
      m = { m with rr := 0, processed := processed, dropped := dropped } := by
    rw [noProcessed.trans noneProcessed.symm, noDropped.trans noneDropped.symm, ← firstTurn]
    rfl
  constructor
  · intro indifferent
    have same : metrics F m = metrics F { m with
        rr := rr
        processed := processed
        dropped := dropped } := (indifferent 0).metrics_eq
    simp only [metrics, noneProcessed, noneDropped, List.cons.injEq,
      Prod.mk.injEq, true_and] at same
    obtain ⟨processedEq, droppedEq, _⟩ := same
    have noProcessed := Float64.ofInt_eq_ofInt_zero_iff.mp processedEq.symm
    have noDropped := Float64.ofInt_eq_ofInt_zero_iff.mp droppedEq.symm
    refine ⟨noProcessed, noDropped, fun n => ?_⟩
    have held := indifferent n
    rw [rewound noProcessed noDropped] at held
    exact held
  · rintro ⟨noProcessed, noDropped, indifferent⟩ n
    have held := indifferent n
    dsimp only at held noProcessed noDropped
    rw [← rewound noProcessed noDropped] at held
    exact held

end DistributedSystem

end Simulator
