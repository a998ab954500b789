import Simulator.ManagerFailures
import Simulator.TransitionRuns

/-!
# The record of a simulation

The store refuses a second row for an ID, but `Replay` makes a new record without owner
or time of creation.
-/

namespace Simulator

namespace Runner

structure Identity where
  ownerID : Option String
  modelID : String
  modelVersion : String
  seed : Int
  mode : String
  createdAt : Option Nat
deriving DecidableEq

def SimulationInfo.identity (info : SimulationInfo) : Identity :=
  ⟨info.ownerID, info.modelID, info.modelVersion, info.seed, info.mode, info.createdAt⟩

namespace Manager

variable {G : GoTypes} {M : Type}

/-- A call of the manager, or a move of a goroutine it has started: a
simulation that goes on in the background, or `watch` at its end. -/
inductive Op (G : GoTypes)
  | create (faults : CreateFaults) (newID : String) (now : Nat) (req : CreateRequest)
  | start (update : Option String) (id : String)
  | pause (update : Option String) (id : String)
  | resume (update : Option String) (id : String)
  | stop (update : Option String) (id : String)
  | step (work : Work G) (update : Option String) (id : String)
  | snapshot (work : Work G) (save : Option String) (id : String)
  | restore (work : Work G) (id : String)
  | replay (upsert update : Option String) (newID id : String)
  | delete (fails : Option String) (id : String)
  | background (address : Nat) (work : Work G)
  | report (update : Option String) (id : String) (mg : Managed)

def Op.apply (host : Host G M) : Op G → Manager G → Manager G
  | .create faults newID now req, m => (m.create host faults newID now req).2
  | .start update id, m => (m.start update id).2
  | .pause update id, m => (m.pause update id).2
  | .resume update id, m => (m.resume update id).2
  | .stop update id, m => (m.stop update id).2
  | .step work update id, m => (m.step work update id).2
  | .snapshot work save id, m => (m.snapshot work save id).2
  | .restore work id, m => (m.restore work id).2
  | .replay upsert update newID id, m =>
    (m.replay host upsert update newID id).2
  | .delete fails id, m => (m.delete fails id).2
  | .background address work, m => (m.perform address work).2
  | .report update id mg, m => m.report update id mg

structure SameRecords (m after : Manager G) : Prop where
  sims : after.sims = m.sims
  rows : ∀ id, (after.rows id).isSome = (m.rows id).isSome

namespace SameRecords

theorem refl (m : Manager G) : SameRecords m m :=
  ⟨rfl, fun _ => rfl⟩

variable {m after : Manager G}

theorem trans {mid : Manager G} (first : SameRecords m mid)
    (second : SameRecords mid after) : SameRecords m after := by
  constructor
  · rw [second.sims, first.sims]
  · intro id
    rw [second.rows, first.rows]

theorem updateStatus (m : Manager G) (fails : Option String)
    (id status : String) : SameRecords m (m.updateStatus fails id status) :=
  ⟨(m.updateStatus_frame fails id status).1, (m.updateStatus_frame fails id status).2.2⟩

theorem of_operate {addr : Nat} {f : LiveSim G → Except LifecycleError (LiveSim G)}
    (operated : m.operate addr f = .ok after) : SameRecords m after := by
  obtain ⟨_, _, _, _, rfl⟩ := operate_eq_ok operated
  exact ⟨rfl, fun _ => rfl⟩

theorem perform (m : Manager G) (addr : Nat) (work : Work G) :
    SameRecords m (m.perform addr work).2 := by
  constructor
  · exact (m.perform_frame addr work).1
  · intro id
    rw [(m.perform_frame addr work).2]

theorem halted (m : Manager G) (addr : Nat) : SameRecords m (m.halted addr) := by
  unfold Manager.halted
  cases operated : m.operate addr LiveSim.stop with
  | error cause => exact refl m
  | ok after => exact of_operate operated

theorem control (update : Option String) (id status : String)
    (f : LiveSim G → Except LifecycleError (LiveSim G)) (m : Manager G) :
    SameRecords m (m.control update id status f).2 := by
  unfold Manager.control
  split
  · exact refl m
  · split
    · exact refl m
    · rename_i after operated
      exact (of_operate operated).trans (updateStatus after update id status)

theorem start (update : Option String) (id : String) (m : Manager G) :
    SameRecords m (m.start update id).2 := by
  unfold Manager.start
  split
  · exact refl m
  · split
    · exact refl m
    · rename_i after operated
      exact (of_operate operated).trans (updateStatus after update id "running")

theorem step (work : Work G) (update : Option String) (id : String)
    (m : Manager G) : SameRecords m (m.step work update id).2 := by
  unfold Manager.step
  split
  · exact refl m
  · rename_i mg hit
    have performed := perform m mg.sim work
    split
    · rename_i msg after worked
      rw [worked] at performed
      exact performed
    · rename_i after worked
      rw [worked] at performed
      exact performed.trans (updateStatus after update id _)

theorem snapshot (work : Work G) (save : Option String) (id : String)
    (m : Manager G) : SameRecords m (m.snapshot work save id).2 := by
  unfold Manager.snapshot
  split
  · exact refl m
  · rename_i mg hit
    have performed := perform m mg.sim work
    split <;>
    · rename_i worked
      rw [worked] at performed
      exact performed

theorem restore (work : Work G) (id : String) (m : Manager G) :
    SameRecords m (m.restore work id).2 := by
  unfold Manager.restore
  split
  · exact refl m
  · exact perform m _ work

end SameRecords

theorem create_cases (host : Host G M) (faults : CreateFaults)
    (newID : String) (now : Nat) (req : CreateRequest) (m : Manager G) : (∃ msg after,
      m.create host faults newID now req = (.error msg, after) ∧ SameRecords m after) ∨
    ∃ row after, m.create host faults newID now req = (.ok row, after) ∧
      m.rows row.id = none ∧ row.createdAt = some now ∧ after.sims =
        Function.update m.sims row.id (some ⟨m.heap.length, row⟩) ∧
      after.rows = Function.update m.rows row.id (some row) := by
  unfold create
  split
  · exact .inl ⟨_, _, rfl, .refl m⟩
  · rename_i live info built
    split
    · exact .inl ⟨_, _, rfl, rfl, fun _ => rfl⟩
    · rename_i row inserted
      right
      refine ⟨row, _, rfl, ?_⟩
      unfold createSimulation at inserted
      split at inserted
      · cases inserted
      · cases inserted
      · rename_i missing
        cases inserted
        exact ⟨missing, rfl, rfl, rfl⟩

theorem replay_frame (host : Host G M) (upsert update : Option String)
    (newID id : String) (m : Manager G) : ((∀ mg made, m.sims id = some mg →
        instantiate host upsert newID (mg.info.config.request id) ≠ .ok made) ∧
      SameRecords m (m.replay host upsert update newID id).2) ∨
    ∃ mg live info, m.sims id = some mg ∧
      instantiate host upsert newID (mg.info.config.request id) = .ok (live, info) ∧
      (m.replay host upsert update newID id).2.sims = Function.update m.sims id
          (some ⟨(m.halted mg.sim).heap.length, info⟩) ∧
      ∀ other, ((m.replay host upsert update newID id).2.rows other).isSome =
        (m.rows other).isSome := by
  rcases replay_cases host upsert update newID id m with
    ⟨missing, refused⟩ | ⟨mg, detail, found, failed, stopped⟩ |
      ⟨mg, live, info, next, found, built, replayed⟩
  · left
    rw [refused, missing]
    exact ⟨by simp, .refl m⟩
  · left
    rw [stopped, found]
    refine ⟨?_, .halted m mg.sim⟩
    rintro other made eq
    cases eq
    rw [failed]
    simp
  · right
    refine ⟨mg, live, info, found, built, ?_⟩
    have wrote := SameRecords.updateStatus (((m.halted mg.sim).placed id live info).setSim
        (m.halted mg.sim).heap.length next) update id "running"
    have stopped := SameRecords.halted m mg.sim
    rw [replayed]
    constructor
    · rw [wrote.sims, ← stopped.sims]
      rfl
    · intro other
      rw [wrote.rows, ← stopped.rows]
      rfl

structure Recorded (id : String) (m : Manager G) : Prop where
  mapped : (m.sims id).isSome = true
  stored : (m.rows id).isSome = true

def identityOf (m : Manager G) (id : String) : Option Identity :=
  (m.sims id).map (·.info.identity)

theorem identity_get (m : Manager G) (id : String) :
    (m.get id).map SimulationInfo.identity = m.identityOf id := by
  unfold get identityOf
  cases m.sims id with
  | none | some mg => rfl

structure Keeps (id : String) (m after : Manager G) : Prop where
  recorded : Recorded id after
  identity : after.identityOf id = m.identityOf id

variable {m : Manager G} {id : String} {op : Op G} {after : Manager G} {other : String}
  {host : Host G M}

theorem SameRecords.keeps (same : SameRecords m after) (recorded : Recorded id m) :
    Keeps id m after where
  recorded.mapped := by
    rw [same.sims]
    exact recorded.mapped
  recorded.stored := by
    rw [same.rows]
    exact recorded.stored
  identity := by
    rw [identityOf, same.sims, identityOf]

theorem keeps_of_ne (ne : id ≠ other) (sims : ∃ x, after.sims = Function.update m.sims other x)
    (rows : (after.rows id).isSome = (m.rows id).isSome)
    (spot : Recorded id m) : Keeps id m after := by
  obtain ⟨x, updated⟩ := sims
  have eq : after.sims id = m.sims id := by
    rw [updated, Function.update_of_ne ne]
  refine ⟨⟨?_, ?_⟩, ?_⟩
  · rw [eq]
    exact spot.mapped
  · rw [rows]
    exact spot.stored
  · rw [identityOf, eq, identityOf]

theorem keeps_create (host : Host G M) (faults : CreateFaults)
    (newID : String) (now : Nat) (req : CreateRequest) (spot : Recorded id m) :
    Keeps id m (m.create host faults newID now req).2 := by
  rcases create_cases host faults newID now req m with ⟨msg, after, failed, eq⟩ |
      ⟨row, after, created, missing, _, sims, rows⟩
  · rw [failed]
    exact eq.keeps spot
  · have ne : id ≠ row.id := by
      rintro rfl
      have stored := spot.stored
      rw [missing] at stored
      cases stored
    rw [created]
    apply keeps_of_ne ne ⟨_, sims⟩ _ spot
    rw [rows, Function.update_of_ne ne]

theorem keeps_delete (fails : Option String) (ne : id ≠ other)
    (spot : Recorded id m) : Keeps id m (m.delete fails other).2 := by
  rcases delete_cases fails other m with ⟨msg, refused, _⟩ | ⟨mg, _, _, deleted⟩
  · rw [refused]
    exact (SameRecords.refl m).keeps spot
  · rw [deleted]
    cases fails with
    | some msg => exact keeps_of_ne ne ⟨_, rfl⟩ rfl spot
    | none =>
      apply keeps_of_ne ne ⟨_, rfl⟩ _ spot
      simp [deleteSimulation, remove, setRow, Function.update_of_ne ne]

/-- A `Replay` of the ID that gets as far as a new simulation. -/
def Op.Rebuilds (host : Host G M) (id : String) (m : Manager G) :
    Op G → Prop
  | .replay upsert _ newID other => other = id ∧ ∃ mg made, m.sims id = some mg ∧
        instantiate host upsert newID (mg.info.config.request id) = .ok made
  | _ => False

/-- A `Delete` of the ID. -/
def Op.deletes (id : String) : Op G → Bool
  | .delete _ other => other = id
  | _ => false

theorem keeps_replay (host : Host G M) (upsert update : Option String) (newID other : String)
    (kept : ¬ (Op.replay upsert update newID other).Rebuilds host id m) (spot : Recorded id m) :
    Keeps id m (m.replay host upsert update newID other).2 := by
  rcases replay_frame host upsert update newID other m with
    ⟨_, same⟩ | ⟨mg, live, info, found, built, sims, rows⟩
  · exact same.keeps spot
  · have ne : id ≠ other := by
      rintro rfl
      exact kept ⟨rfl, mg, (live, info), found, built⟩
    exact keeps_of_ne ne ⟨_, sims⟩ (rows id) spot

theorem identity_of_rebuilds (rebuilds : op.Rebuilds host id m) (spot : Recorded id m) :
    Recorded id (op.apply host m) ∧ ∃ identity, (op.apply host m).identityOf id = some identity ∧
        identity.createdAt = none := by
  cases op with
  | replay upsert update newID other =>
    obtain ⟨rfl, mg, made, hit, built⟩ := rebuilds
    rcases replay_frame host upsert update newID other m with
      ⟨never, _⟩ | ⟨old, live, info, _, builtAgain, sims, rows⟩
    · exact absurd built (never mg made hit)
    · have placed : ((Op.replay upsert update newID other).apply host
          m).sims other = some ⟨(m.halted old.sim).heap.length, info⟩ := by
        rw [Op.apply, sims, Function.update_self]
      refine ⟨⟨?_, ?_⟩, info.identity, ?_, (made_of_instantiate builtAgain).2.2.2⟩
      · rw [placed]
        rfl
      · rw [Op.apply, rows]
        exact spot.stored
      · rw [identityOf, placed]
        rfl
  | _ => exact rebuilds.elim

theorem Op.keeps (host : Host G M) (other : op.deletes id = false) (kept : ¬ op.Rebuilds host id m)
    (spot : Recorded id m) : Keeps id m (op.apply host m) := by
  cases op with
  | create faults newID now req =>
    exact keeps_create host faults newID now req spot
  | replay upsert update newID target =>
    exact keeps_replay host upsert update newID target kept spot
  | delete fails target =>
    apply keeps_delete fails _ spot
    rintro rfl
    simp [deletes] at other
  | start update target =>
    exact (SameRecords.start update target m).keeps spot
  | pause update target | resume update target | stop update target =>
    exact (SameRecords.control update target _ _ m).keeps spot
  | step work update target =>
    exact (SameRecords.step work update target m).keeps spot
  | snapshot work save target =>
    exact (SameRecords.snapshot work save target m).keeps spot
  | restore work target =>
    exact (SameRecords.restore work target m).keeps spot
  | background addr work =>
    exact (SameRecords.perform m addr work).keeps spot
  | report update target mg =>
    exact (SameRecords.updateStatus m update target _).keeps spot

/-- One operation, up to the `Delete` of the ID. -/
def serve (host : Host G M) (id : String) (m : Manager G) (op : Op G) : Option (Manager G) :=
  if op.deletes id then none else some (op.apply host m)

theorem serve_eq_some {next : Manager G} (served : serve host id m op = some next) :
    op.deletes id = false ∧ next = op.apply host m := by
  unfold serve at served
  split at served
  · cases served
  · rename_i other
    cases served
    exact ⟨Bool.not_eq_true _ ▸ other, rfl⟩

/-- `Get` returns a record with the given origin. -/
def Shows (row : SimulationInfo) (m : Manager G) : Prop :=
  (m.get row.id).map SimulationInfo.identity = some row.identity

theorem record_permanent_iff (host : Host G M) (faults : CreateFaults)
    (newID : String) (now : Nat) (req : CreateRequest) (m after : Manager G) (row : SimulationInfo)
    (created : m.create host faults newID now req = (.ok row, after)) (ops : List (Op G)) :
    Transition.Throughout (serve host row.id) (Shows row) ops after ↔
      Transition.Follows (serve host row.id)
        (fun m op => ¬ op.Rebuilds host row.id m) ops after := by
  rcases create_cases host faults newID now req m with
    ⟨_, _, failed, _⟩ | ⟨_, _, createdAgain, _, stamped, sims, rows⟩
  · rw [created] at failed
    cases failed
  · rw [created] at createdAgain
    cases createdAgain
    have spot : Recorded row.id after := by
      constructor
      · rw [sims, Function.update_self]
        rfl
      · rw [rows, Function.update_self]
        rfl
    have shows : Shows row after := by
      rw [Shows, identity_get, identityOf, sims, Function.update_self]
      rfl
    apply Transition.throughout_iff_follows (Recorded row.id) (Shows row)
      _ _ ops spot shows
    · intro old op next recordedBefore served
      obtain ⟨other, rfl⟩ := serve_eq_some served
      by_cases rebuilds : op.Rebuilds host row.id old
      · exact (identity_of_rebuilds rebuilds recordedBefore).1
      · exact (op.keeps host other rebuilds recordedBefore).recorded
    · intro old op next recordedBefore showsBefore served
      obtain ⟨other, rfl⟩ := serve_eq_some served
      unfold Shows at showsBefore ⊢
      rw [identity_get] at showsBefore ⊢
      constructor
      · intro showsAfter rebuilds
        obtain ⟨_, identity, hit, unstamped⟩ := identity_of_rebuilds rebuilds recordedBefore
        rw [hit, Option.some.injEq] at showsAfter
        rw [showsAfter, SimulationInfo.identity, stamped] at unstamped
        cases unstamped
      · intro kept
        rw [(op.keeps host other kept recordedBefore).identity]
        exact showsBefore

theorem record_permanent_iff_controlled :
    idleManager.identityOf "s" = some ⟨some "u", "idle", "1.0.0", 7, "tick", some 0⟩ ∧
      ∃ row, Transition.Throughout (serve idleHost "s") (Shows row)
        [.start none "s", .pause none "s", .stop none "s"] idleManager :=
  ⟨rfl, _, (record_permanent_iff idleHost ⟨none, none⟩ "t" 0
    ⟨idlePayload "1.0.0" "tick", "u"⟩ (new fun _ => none) idleManager _ rfl
    [.start none "s", .pause none "s", .stop none "s"]).mpr
      (by simp [Transition.Follows, Op.Rebuilds])⟩

theorem replay_loses_owner : (idleManager.get "s").map SimulationInfo.identity =
        some ⟨some "u", "idle", "1.0.0", 7, "tick", some 0⟩ ∧
      (idleManager.replay idleHost none none "t" "s").1 = none ∧
      ((idleManager.replay idleHost none none "t" "s").2.get "s").map SimulationInfo.identity =
        some ⟨none, "idle", "1.0.0", 7, "tick", none⟩ :=
  ⟨rfl, rfl, rfl⟩

end Manager

end Runner

end Simulator
