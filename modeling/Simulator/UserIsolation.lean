import Simulator.ManagerMoves

/-!
# Isolation of users

Between the middleware and the handler an ID may come to stand for another simulation.
-/

namespace Simulator

namespace Runner

variable {G : GoTypes} {M : Type}

def Task.touches (m : Manager G) (task : Task) : Point → List SimulationInfo
  | .entered => []
  | .admitted => (m.sims task.id).toList.map (·.info)
  | .found mg => [mg.info]
  | .built mg => mg.info :: (m.sims task.id).toList.map (·.info)
  | .stored mg => [mg.info]
  | .placed mg => [mg.info]
  | .applied => (m.rows task.id).toList
  | .working mg => [mg.info]
  | .stepped mg => [mg.info]
  | .read _ => (m.rows task.id).toList
  | .notRunning mg => [mg.info]
  | .notPaused mg => [mg.info]
  | .halted mg => mg.info :: (m.sims task.id).toList.map (·.info)
  | .removed => (m.rows task.id).toList
  | .waiting mg _ => [mg.info]
  | .waited mg => [mg.info]

variable {claims : Option Claims} {info : SimulationInfo}

theorem owns_congr {other : SimulationInfo} (eq : info.ownerID = other.ownerID) :
    owns claims info = owns claims other := by
  unfold owns
  rw [eq]

theorem owns_admin {claims : Claims} (admin : claims.role = "ADMIN")
    (info : SimulationInfo) : owns (some claims) info = true := by
  simp [owns, admin]

theorem owns_of_ownerless (ownerless : info.ownerID = none) (mine : owns claims info = true)
    (other : SimulationInfo) : owns claims other = true := by
  cases claims with
  | none => rfl
  | some claims =>
    apply owns_admin
    simpa [owns, ownerless] using mine

structure Access (m : Manager G) (claims : Option Claims) (task : Task)
    (point : Point) : Prop where
  entry : point.isAdmitted = true → ∀ mg, m.sims task.id = some mg → owns claims mg.info = true
  held : ∀ mg, point.held = some mg → owns claims mg.info = true
  row : point.hasLooked = true → ∀ row, m.rows task.id = some row → owns claims row = true

structure Shrinks (id : String) (m after : Manager G) : Prop where
  sims : ∀ mg, after.sims id = some mg → m.sims id = some mg
  rows : ∀ row, after.rows id = some row →
    ∃ before, m.rows id = some before ∧ before.ownerID = row.ownerID

namespace Access

variable {m after : Manager G} {claims : Option Claims} {task : Task} {point next : Point}

theorem entered : Access m claims task .entered where
  entry := by
    intro admitted
    cases admitted
  held := by
    intro mg held
    cases held
  row := by
    intro looked
    cases looked

theorem of_admin {admin : Claims} (isAdmin : admin.role = "ADMIN") :
    Access m (some admin) task point :=
  ⟨fun _ mg _ => owns_admin isAdmin mg.info, fun mg _ => owns_admin isAdmin mg.info,
    fun _ row _ => owns_admin isAdmin row⟩

theorem touches (access : Access m claims task point)
    {info : SimulationInfo} (touched : info ∈ task.touches m point) : owns claims info = true := by
  have entries : point.isAdmitted = true → info ∈ (m.sims task.id).toList.map (·.info) →
      owns claims info = true := by
    intro admitted mem
    obtain ⟨mg, mapped, rfl⟩ := List.mem_map.mp mem
    exact access.entry admitted mg (Option.mem_toList.mp mapped)
  have rows : point.hasLooked = true → info ∈ (m.rows task.id).toList →
      owns claims info = true := by
    intro looked mem
    exact access.row looked info (Option.mem_toList.mp mem)
  have holds : ∀ mg, point.held = some mg → info = mg.info → owns claims info = true := by
    rintro mg held rfl
    exact access.held mg held
  cases point with
  | entered => cases touched
  | admitted => exact entries rfl touched
  | applied | read status | removed => exact rows rfl touched
  | built mg | halted mg =>
    rcases List.mem_cons.mp touched with eq | mem
    · exact holds mg rfl eq
    · exact entries rfl mem
  | _ => exact holds _ rfl (List.mem_singleton.mp touched)

theorem later (access : Access m claims task point) (shrinks : Shrinks task.id m after)
    (admitted : next.isAdmitted = true → point.isAdmitted = true)
    (looked : next.hasLooked = true → point.hasLooked = true)
    (held : ∀ mg, next.held = some mg → point.held = some mg) :
    Access after claims task next where
  entry := by
    intro isAdmitted mg mapped
    exact access.entry (admitted isAdmitted) mg (shrinks.sims mg mapped)
  held := by
    intro mg isHeld
    exact access.held mg (held mg isHeld)
  row := by
    intro hasLooked row stored
    obtain ⟨old, was, eq⟩ := shrinks.rows row stored
    rw [← owns_congr eq]
    exact access.row (looked hasLooked) old was

end Access

structure OwnersKept (m after : Manager G) : Prop where
  sims : after.sims = m.sims
  rows : ∀ id, (after.rows id).map (·.ownerID) = (m.rows id).map (·.ownerID)

namespace OwnersKept

variable {m after : Manager G}

theorem updateStatus (m : Manager G) (fails : Option String)
    (id status : String) : OwnersKept m (m.updateStatus fails id status) := by
  refine ⟨(m.updateStatus_frame fails id status).1, ?_⟩
  intro other
  unfold Manager.updateStatus
  split
  · rename_i row hit
    by_cases eq : other = id
    · simp [eq, hit]
    · rw [Manager.rows_setRow, Function.update_of_ne eq]
  · rfl

theorem of_same (sims : after.sims = m.sims) (rows : after.rows = m.rows) : OwnersKept m after :=
  ⟨sims, fun id => by rw [rows]⟩

variable {row : SimulationInfo}

theorem row_before (kept : OwnersKept m after) {id : String} (stored : after.rows id = some row) :
    ∃ old, m.rows id = some old ∧ old.ownerID = row.ownerID := by
  have eq := kept.rows id
  rw [stored, Option.map_some] at eq
  exact Option.map_eq_some_iff.mp eq.symm

theorem row_after (kept : OwnersKept m after) {id : String} (stored : m.rows id = some row) :
    ∃ later, after.rows id = some later ∧ later.ownerID = row.ownerID := by
  have eq := kept.rows id
  rw [stored, Option.map_some] at eq
  exact Option.map_eq_some_iff.mp eq

theorem shrinks (kept : OwnersKept m after) (id : String) : Shrinks id m after := by
  constructor
  · intro mg mapped
    rw [kept.sims] at mapped
    exact mapped
  · intro row stored
    exact kept.row_before stored

end OwnersKept

theorem Progress.kept_or_alters {host : Host G M} {t : Nat} {m : Manager G}
    {claims : Option Claims} {input : Input G} {task : Task} {point : Point} {out : Outcome G}
    (moves : Progress host t m claims input task point out) :
    OwnersKept m out.manager ∨ Alters m task point out.manager := by
  rcases moves.record_cases with ⟨sims, rows⟩ | ⟨status, _, wrote⟩ | alters
  · exact .inl (.of_same sims rows)
  · rw [wrote]
    exact .inl (.updateStatus m _ _ _)
  · exact .inr alters

namespace Task

def replaces : Task → Bool
  | .create _ _ _ => true
  | .replay _ _ => true
  | _ => false

/-- The task is a `Replay`. -/
def isReplay : Task → Bool
  | .replay _ _ => true
  | _ => false

/-- The record of a `Create` whose row is written. -/
def inserted : Task → Point → Option Managed
  | .create _ _ _, .stored mg => some mg
  | _, _ => none

/-- A `Delete` that has emptied the map. -/
def emptied : Task → Point → Bool
  | .delete _, .removed => true
  | _, _ => false

/-- A `Replay` that has found its simulation. -/
def replaying : Task → Point → Bool
  | .replay _ _, .found _ => true
  | .replay _ _, .halted _ => true
  | .replay _ _, .built _ => true
  | _, _ => false

/-- The record of a `Replay`. -/
def rebuilt : Task → Point → Option Managed
  | .replay _ _, .built mg => some mg
  | _, _ => none

end Task

structure Tidy (m : Manager G) (task : Task) (point : Point) : Prop where
  records : ∀ mg, task.records point = some mg → mg.info.id = task.id
  inserted : ∀ mg, task.inserted point = some mg →
    ∃ row, m.rows task.id = some row ∧ row.ownerID = mg.info.ownerID
  emptied : task.emptied point = true → m.sims task.id = none
  replaying : task.replaying point = true → ∃ row, m.rows task.id = some row
  rebuilt : ∀ mg, task.rebuilt point = some mg → mg.info.ownerID = none

def Backed (m : Manager G) : Prop :=
  ∀ id mg, m.sims id = some mg → ∃ row, m.rows id = some row ∧
    (mg.info.ownerID = none ∨ row.ownerID = mg.info.ownerID)

theorem Backed.of_kept {m after : Manager G} (backed : Backed m)
    (kept : OwnersKept m after) : Backed after := by
  intro id mg mapped
  rw [kept.sims] at mapped
  obtain ⟨row, stored, owner⟩ := backed id mg mapped
  obtain ⟨later, storedLater, eq⟩ := kept.row_after stored
  rw [← eq] at owner
  exact ⟨later, storedLater, owner⟩

variable {task : Task} {point : Point}

theorem replaces_of_inserted {mg : Managed}
    (inserted : task.inserted point = some mg) : task.replaces = true := by
  cases task with
  | create req rand now => rfl
  | _ => cases point <;> cases inserted

theorem isHandler_of_emptied (emptied : task.emptied point = true) : task.isHandler = true := by
  cases task with
  | delete id => rfl
  | _ => cases point <;> cases emptied

theorem isReplay_of_replaying (replaying : task.replaying point = true) :
    task.replaces = true ∧ task.isHandler = true := by
  cases task with
  | replay id rand => exact ⟨rfl, rfl⟩
  | _ => cases point <;> cases replaying

namespace Alters

variable {m after : Manager G} {task : Task} {point : Point}

section

variable (alters : Alters m task point after)
include alters

theorem elsewhere (tidy : Tidy m task point) {id : String} (different : id ≠ task.id) :
    after.sims id = m.sims id ∧ after.rows id = m.rows id := by
  cases alters with
  | @insert req random now mg row missing sameID sameOwner sameStatus =>
    have other : id ≠ row.id := by
      rw [sameID, tidy.records mg rfl]
      exact different
    exact ⟨rfl, Function.update_of_ne other _ _⟩
  | @put req random now mg made =>
    have other : id ≠ mg.info.id := by
      rw [tidy.records mg rfl]
      exact different
    exact ⟨Function.update_of_ne other _ _, rfl⟩
  | remove | place made => exact ⟨Function.update_of_ne different _ _, rfl⟩
  | deleteRow => exact ⟨rfl, Function.update_of_ne different _ _⟩

theorem shrinks (keeps : task.replaces = false) : Shrinks task.id m after := by
  cases alters with
  | insert missing sameID sameOwner sameStatus | put made | place made => cases keeps
  | @remove id mg =>
    constructor
    · intro held mapped
      simp [Task.id] at mapped
    · intro row stored
      exact ⟨row, stored, rfl⟩
  | @deleteRow id =>
    constructor
    · intro held mapped
      exact mapped
    · intro row stored
      simp [Task.id] at stored

theorem shrinks_apart (tidy : Tidy m task point) {id : String}
    (apart : id = task.id → task.replaces = false) : Shrinks id m after := by
  by_cases eq : id = task.id
  · rw [eq]
    exact alters.shrinks (apart eq)
  · obtain ⟨sims, rows⟩ := alters.elsewhere tidy eq
    constructor
    · intro mg mapped
      rw [← sims]
      exact mapped
    · intro row stored
      rw [rows] at stored
      exact ⟨row, stored, rfl⟩

theorem backed (tidy : Tidy m task point) (backed : Backed m) : Backed after := by
  intro id mg mapped
  by_cases eq : id = task.id
  · subst eq
    cases alters with
    | @insert req rand now held row missing sameID sameOwner sameStatus =>
      obtain ⟨old, stored, _⟩ := backed _ mg mapped
      rw [← tidy.records held rfl, missing] at stored
      cases stored
    | @put req rand now held made =>
      obtain ⟨row, stored, owner⟩ := tidy.inserted held rfl
      rw [Manager.sims_put, tidy.records held rfl, Function.update_self,
        Option.some.injEq] at mapped
      exact ⟨row, stored, .inr (mapped ▸ owner)⟩
    | remove => simp [Task.id] at mapped
    | deleteRow =>
      have missing := tidy.emptied rfl
      rw [Manager.sims_setRow, missing] at mapped
      cases mapped
    | @place id rand held made =>
      obtain ⟨row, stored⟩ := tidy.replaying rfl
      rw [Manager.sims_put, Task.id, Function.update_self, Option.some.injEq] at mapped
      exact ⟨row, stored, .inl (mapped ▸ tidy.rebuilt held rfl)⟩
  · obtain ⟨sims, rows⟩ := alters.elsewhere tidy eq
    rw [sims] at mapped
    rw [rows]
    exact backed id mg mapped

end

end Alters

namespace Tidy

variable {m after : Manager G} {task other : Task} {point there : Point}

theorem of_none (records : task.records point = none) (inserted : task.inserted point = none)
    (emptied : task.emptied point = false) (replaying : task.replaying point = false)
    (rebuilt : task.rebuilt point = none) : Tidy m task point := by
  constructor
  · intro mg spot
    rw [records] at spot
    cases spot
  · intro mg held
    rw [inserted] at held
    cases held
  · intro empty
    rw [emptied] at empty
    cases empty
  · intro replays
    rw [replaying] at replays
    cases replays
  · intro mg held
    rw [rebuilt] at held
    cases held

theorem of_kept (kept : OwnersKept m after) (tidy : Tidy m task point) : Tidy after task point := by
  refine ⟨tidy.records, ?_, ?_, ?_, tidy.rebuilt⟩
  · intro mg held
    obtain ⟨row, stored, owner⟩ := tidy.inserted mg held
    obtain ⟨later, storedLater, eq⟩ := kept.row_after stored
    exact ⟨later, storedLater, eq.trans owner⟩
  · intro empty
    rw [kept.sims]
    exact tidy.emptied empty
  · intro replays
    obtain ⟨row, stored⟩ := tidy.replaying replays
    obtain ⟨later, storedLater, _⟩ := kept.row_after stored
    exact ⟨later, storedLater⟩

theorem of_alters (alters : Alters m task point after)
    (tidy : Tidy m task point) (otherTidy : Tidy m other there)
    (apart : other.id = task.id → task.replaces = true → other.isHandler = false)
    (apartBack : other.id = task.id → other.replaces = true →
      task.isHandler = false) : Tidy after other there := by
  by_cases eq : other.id = task.id
  · refine ⟨otherTidy.records, ?_, ?_, ?_, otherTidy.rebuilt⟩
    · intro mg held
      have passive := apartBack eq (replaces_of_inserted held)
      cases alters with
      | @insert req rand now mine row missing sameID sameOwner sameStatus =>
        obtain ⟨old, stored, _⟩ := otherTidy.inserted mg held
        rw [eq, ← tidy.records mine rfl, missing] at stored
        cases stored
      | put made => exact otherTidy.inserted mg held
      | _ => cases passive
    · intro empty
      have keeps : task.replaces = false := by
        by_contra replaces
        rw [Bool.not_eq_false] at replaces
        rw [isHandler_of_emptied empty] at apart
        cases apart eq replaces
      cases alters with
      | remove => rw [Manager.sims_remove, eq, Task.id, Function.update_self]
      | deleteRow => exact otherTidy.emptied empty
      | _ => cases keeps
    · intro replays
      obtain ⟨replaces, handler⟩ := isReplay_of_replaying replays
      have passive := apartBack eq replaces
      have keeps : task.replaces = false := by
        by_contra mine
        rw [Bool.not_eq_false] at mine
        rw [handler] at apart
        cases apart eq mine
      cases alters with
      | insert missing sameID sameOwner sameStatus | put made => cases keeps
      | _ => cases passive
  · obtain ⟨sims, rows⟩ := alters.elsewhere tidy eq
    refine ⟨otherTidy.records, ?_, ?_, ?_, otherTidy.rebuilt⟩
    · rw [rows]
      exact otherTidy.inserted
    · rw [sims]
      exact otherTidy.emptied
    · rw [rows]
      exact otherTidy.replaying

end Tidy

theorem Access.found {m : Manager G} {claims : Option Claims} {task : Task}
    {point : Point} {mg : Managed} (access : Access m claims task point)
    (backed : Backed m) (admitted : point.isAdmitted = true) (mapped : m.sims task.id = some mg) :
    Access m claims task (.found mg) where
  entry := fun _ => access.entry admitted
  held := by
    intro held eq
    cases eq
    exact access.entry admitted mg mapped
  row := by
    intro _ row stored
    have mine := access.entry admitted mg mapped
    obtain ⟨again, storedAgain, owner⟩ := backed _ mg mapped
    rw [stored, Option.some.injEq] at storedAgain
    subst storedAgain
    rcases owner with ownerless | sameOwner
    · exact owns_of_ownerless ownerless mine row
    · rw [owns_congr sameOwner]
      exact mine

section Own

variable {host : Host G M} {t : Nat} {m : Manager G} {claims : Option Claims} {input : Input G}
  {task : Task} {point next : Point} {out : Outcome G}

theorem Progress.tidy (backed : Backed m) (tidy : Tidy m task point)
    (moves : Progress host t m claims input task point out)
    (goes : out.point = some next) : Tidy out.manager task next := by
  have records : ∀ mg, task.records next = some mg → mg.info.id = task.id := fun mg spot =>
    moves.records tidy.records goes spot
  cases moves with
  | passes handler ok =>
    cases goes
    cases task <;> exact .of_none rfl rfl rfl rfl rfl
  | @found _ _ mg looks mapped =>
    cases goes
    obtain ⟨row, stored, _⟩ := backed _ mg mapped
    refine ⟨records, ?_, ?_, fun _ => ⟨row, stored⟩, ?_⟩
    · intro held inserted
      cases task <;> cases inserted
    · intro empty
      cases task <;> cases empty
    · intro held rebuilt
      cases task <;> cases rebuilt
  | @insert req rand now mg row inserted =>
    cases goes
    obtain ⟨_, sameID, _⟩ := Manager.createSimulation_eq_ok inserted
    refine ⟨records, ?_, by rintro ⟨⟩, by rintro ⟨⟩, by rintro _ ⟨⟩⟩
    intro held isInserted
    cases isInserted
    have wrote : (m.setRow row.id (some row)).rows (Task.create req rand now).id = some row := by
      rw [Manager.rows_setRow, sameID, tidy.records mg rfl, Function.update_self]
    exact ⟨row, wrote, rfl⟩
  | @build req rand now live info built =>
    cases goes
    exact ⟨records, by rintro _ ⟨⟩, by rintro ⟨⟩, by rintro ⟨⟩, by rintro _ ⟨⟩⟩
  | @remove id mg =>
    cases goes
    refine ⟨records, by rintro _ ⟨⟩, ?_, by rintro ⟨⟩, by rintro _ ⟨⟩⟩
    intro _
    exact Function.update_self _ _ _
  | @replayHalt id rand mg =>
    cases goes
    obtain ⟨row, stored⟩ := tidy.replaying rfl
    obtain ⟨later, storedLater, _⟩ := (OwnersKept.of_same (m.sims_halted mg.sim)
        (m.rows_halted mg.sim)).row_after stored
    exact ⟨records, by rintro _ ⟨⟩, by rintro ⟨⟩, fun _ => ⟨later, storedLater⟩, by rintro _ ⟨⟩⟩
  | @rebuild id rand mg live info built =>
    cases goes
    refine ⟨records, by rintro _ ⟨⟩, by rintro ⟨⟩, fun _ => tidy.replaying rfl, ?_⟩
    intro held rebuilt
    cases rebuilt
    exact (Manager.made_of_instantiate built).2.2.1
  | _ => cases goes <;> exact .of_none rfl rfl rfl rfl rfl

theorem Progress.access (backed : Backed m)
    (handler : task.isHandler = true) (keeps : task.replaces = false)
    (access : Access m claims task point) (moves : Progress host t m claims input task point out)
    (goes : out.point = some next) : Access out.manager claims task next := by
  have shrinks : Shrinks task.id m out.manager := by
    rcases moves.kept_or_alters with kept | alters
    · exact kept.shrinks task.id
    · exact alters.shrinks keeps
  cases moves with
  | passes _ allowed =>
    cases goes
    exact ⟨fun _ => allowed, nofun, nofun⟩
  | @found _ _ mg looks mapped =>
    cases goes
    have admitted : point.isAdmitted = true := by
      cases point with
      | entered =>
        cases task with
        | watch id => cases handler
        | _ => cases looks
      | _ => rfl
    exact access.found backed admitted mapped
  | build built | insert inserted | noRun never | wait current | wake closed | watchRead =>
    cases handler
  | rebuild built | place made | replayHalt | restart here ran => cases keeps
  | _ =>
    cases goes <;> exact access.later shrinks (fun _ => rfl) (fun _ => rfl)
        (fun _ held => by first | exact held | cases held)

end Own

namespace Server

structure Guarded (s : Server G) : Prop where
  backed : Backed s.manager
  tidy : ∀ t r, s.threads t = some r → Tidy s.manager r.task r.point
  access : ∀ t r, s.threads t = some r → r.task.isHandler = true →
    Access s.manager r.claims r.task r.point
  user : ∀ t r, s.threads t = some r → r.task.isHandler = true → ∃ user, r.claims = some user ∧
      (r.task.isReplay = true → user.role = "ADMIN")
  apart : ∀ t u r q, s.threads t = some r → s.threads u = some q →
    r.task.replaces = true → q.task.isHandler = true → r.task.id = q.task.id → t = u

theorem guarded_new (rows : String → Option SimulationInfo) :
    (Server.new (Manager.new rows) : Server G).Guarded where
  backed := by
    intro id mg mapped
    simp [new, Manager.new] at mapped
  tidy := by
    intro t r held
    cases held
  access := by
    intro t r held
    cases held
  user := by
    intro t r held
    cases held
  apart := by
    intro t u r q held
    cases held

def Secluded (s : Server G) : Move G → Prop
  | .call _ claims task =>
    (∃ user, claims = some user ∧ (task.isReplay = true → user.role = "ADMIN")) ∧
    ∀ u q, s.threads u = some q → q.task.id = task.id →
      (task.replaces = true → q.task.isHandler = false) ∧
      (task.isHandler = true → q.task.replaces = false)
  | _ => True

variable {s : Server G}

theorem Guarded.enter (guarded : s.Guarded) {t : Nat} {claims : Option Claims} {task : Task}
    (authenticated : task.isHandler = true → ∃ user, claims = some user ∧
      (task.isReplay = true → user.role = "ADMIN"))
    (alone : ∀ u q, s.threads u = some q → q.task.id = task.id →
      (task.replaces = true → q.task.isHandler = false) ∧
      (task.isHandler = true → q.task.replaces = false)) :
    Guarded { s with
      threads := Function.update s.threads t (some ⟨claims, task, .entered⟩) } where
  backed := guarded.backed
  tidy := by
    intro u q held
    rcases thread_cases held with ⟨_, eq⟩ | ⟨_, old⟩
    · cases eq
      cases task <;> exact .of_none rfl rfl rfl rfl rfl
    · exact guarded.tidy u q old
  access := by
    intro u q held handler
    rcases thread_cases held with ⟨_, eq⟩ | ⟨_, old⟩
    · cases eq
      exact .entered
    · exact guarded.access u q old handler
  user := by
    intro u q held handler
    rcases thread_cases held with ⟨_, eq⟩ | ⟨_, old⟩
    · cases eq
      exact authenticated handler
    · exact guarded.user u q old handler
  apart := by
    intro u v q p held held' replaces handler sameID
    rcases thread_cases held with ⟨rfl, eq⟩ | ⟨_, old⟩
    · rcases thread_cases held' with ⟨rfl, _⟩ | ⟨_, old'⟩
      · rfl
      · cases eq
        have passive := (alone v p old' sameID.symm).1 replaces
        rw [handler] at passive
        cases passive
    · rcases thread_cases held' with ⟨rfl, eq⟩ | ⟨_, old'⟩
      · cases eq
        have passive := (alone u q old sameID).2 handler
        rw [replaces] at passive
        cases passive
      · exact guarded.apart u v q p old old' replaces handler sameID

theorem Guarded.background (guarded : s.Guarded) {m : Manager G} (kept : OwnersKept s.manager m) :
    Guarded { s with manager := m } where
  backed := guarded.backed.of_kept kept
  tidy := fun t r held => (guarded.tidy t r held).of_kept kept
  access := by
    intro t r held handler
    exact (guarded.access t r held handler).later (kept.shrinks _)
      (fun admitted => admitted) (fun looked => looked) (fun _ eq => eq)
  user := guarded.user
  apart := guarded.apart

section Advance

variable {s : Server G} {host : Host G M} {t : Nat} {r : Request} {input : Input G}
  {out : Outcome G} {u : Nat} {q : Request}

section

variable (guarded : s.Guarded) (here : s.threads t = some r)
  (moves : Progress host t s.manager r.claims input r.task r.point out)
include guarded here moves

section

variable
  (held : Function.update s.threads t (out.point.map fun point => { r with point := point }) u = some q)
include held

theorem Guarded.tidy_advance : Tidy out.manager q.task q.point := by
  have tidy := guarded.tidy t r here
  rcases thread_cases held with ⟨_, eq⟩ | ⟨ne, old⟩
  · obtain ⟨next, goes, rfl⟩ := Option.map_eq_some_iff.mp eq
    exact moves.tidy guarded.backed tidy goes
  · have otherTidy := guarded.tidy u q old
    rcases moves.kept_or_alters with kept | alters
    · exact otherTidy.of_kept kept
    · apply tidy.of_alters alters otherTidy
      · intro sameID replaces
        by_contra handler
        rw [Bool.not_eq_false] at handler
        exact ne (guarded.apart t u r q here old replaces handler sameID.symm).symm
      · intro sameID replaces
        by_contra handler
        rw [Bool.not_eq_false] at handler
        exact ne (guarded.apart u t q r old here replaces handler sameID)

theorem Guarded.access_advance (handler : q.task.isHandler = true) :
    Access out.manager q.claims q.task q.point := by
  rcases thread_cases held with ⟨_, eq⟩ | ⟨ne, old⟩
  · obtain ⟨next, goes, rfl⟩ := Option.map_eq_some_iff.mp eq
    cases keeps : r.task.replaces with
    | false =>
      exact moves.access guarded.backed handler keeps (guarded.access t r here handler) goes
    | true =>
      -- the only handler that replaces is `Replay`
      have replay : r.task.isReplay = true := by
        cases task : r.task with
        | replay id rand => rfl
        | create req rand now =>
          rw [task] at handler
          cases handler
        | _ =>
          rw [task] at keeps
          cases keeps
      obtain ⟨user, present, admin⟩ := guarded.user t r here handler
      rw [present]
      exact .of_admin (admin replay)
  · have access := guarded.access u q old handler
    have shrinks : Shrinks q.task.id s.manager out.manager := by
      rcases moves.kept_or_alters with kept | alters
      · exact kept.shrinks _
      · apply alters.shrinks_apart (guarded.tidy t r here)
        intro sameID
        by_contra replaces
        rw [Bool.not_eq_false] at replaces
        exact ne (guarded.apart t u r q here old replaces handler sameID.symm).symm
    exact access.later shrinks (fun admitted => admitted) (fun looked => looked) (fun _ eq => eq)

end

theorem Guarded.advance :
    Guarded ⟨out.manager, Function.update s.threads t
      (out.point.map fun point => { r with point := point }), note s.deleted r input⟩ where
  backed := by
    rcases moves.kept_or_alters with kept | alters
    · exact guarded.backed.of_kept kept
    · exact alters.backed (guarded.tidy t r here) guarded.backed
  tidy := fun _ _ held => guarded.tidy_advance here moves held
  access := fun _ _ held handler =>
    guarded.access_advance here moves held handler
  user := by
    intro u q held handler
    obtain ⟨p, old, task, claims⟩ := thread_before here held
    rw [← task] at handler ⊢
    rw [← claims]
    exact guarded.user u p old handler
  apart := by
    intro u v q p held held' replaces handler sameID
    obtain ⟨q', old, taskQ, _⟩ := thread_before here held
    obtain ⟨p', old', taskP, _⟩ := thread_before here held'
    rw [← taskQ] at replaces sameID
    rw [← taskP] at handler sameID
    exact guarded.apart u v q' p' old old' replaces handler sameID

end

end Advance

theorem Guarded.step {host : Host G M} {s next : Server G} {move : Move G}
    (guarded : s.Guarded) (secluded : s.Secluded move)
    (step : s.step host move = some next) : next.Guarded := by
  cases moves_of_step step with
  | call free called =>
    obtain ⟨authenticated, alone⟩ := secluded
    exact guarded.enter (fun _ => authenticated) alone
  | advance here moves alone => exact guarded.advance here moves
  | spawn here moves watched free =>
    exact (guarded.advance here moves).enter nofun fun _ _ _ _ => ⟨nofun, nofun⟩
  | @loop _ _ _ live after here steps | @watcher _ _ live after here steps =>
    exact guarded.background ⟨rfl, fun _ => rfl⟩

theorem users_isolated (host : Host G M) (rows : String → Option SimulationInfo) {s : Server G}
    (reached : Transition.Reachable (step host) Secluded
      (Server.new (Manager.new rows)) s) {t : Nat} {r : Request}
    (here : s.threads t = some r) (handler : r.task.isHandler = true) :
    ∃ user, r.claims = some user ∧ ∀ info ∈ r.task.touches s.manager r.point,
        info.ownerID = some user.userID ∨ user.role = "ADMIN" := by
  have guarded : s.Guarded := by
    apply Transition.Reachable.invariant (guarded_new rows) _ reached
    intro old move next guarded secluded stepped
    exact guarded.step secluded stepped
  obtain ⟨user, present, _⟩ := guarded.user t r here handler
  refine ⟨user, present, ?_⟩
  intro info touched
  have mine := (guarded.access t r here handler).touches touched
  rw [present] at mine
  simpa [owns, or_comm] using mine

def alice : Option Claims := some ⟨"alice", "USER"⟩

def bob : Option Claims := some ⟨"bob", "USER"⟩

/-- Alice creates the simulation `s`. -/
def aliceCreates : List (Move flagTypes) :=
  [.call 0 alice (.create ⟨idlePayload "1.0.0" "tick", ""⟩ none 0), plain 0, plain 0, plain 0]

theorem users_isolated_delete :
    ∃ s : Server flagTypes, ∃ r, s.threads 1 = some r ∧ r.task = .delete "s" ∧
      (r.task.touches s.manager r.point).length = 1 ∧ ∃ user, r.claims = some user ∧
        ∀ info ∈ r.task.touches s.manager r.point,
          info.ownerID = some user.userID ∨ user.role = "ADMIN" := by
  have empty : Transition.Reachable (step Manager.idleHost) Secluded
      blank blank := .start
  have made := empty
    |>.take (.call 0 alice (.create ⟨idlePayload "1.0.0" "tick", ""⟩ none 0))
      ⟨⟨_, rfl, nofun⟩, fun _ _ held => by cases held⟩ rfl
    |>.take (plain 0) trivial rfl
    |>.take (plain 0) trivial rfl
    |>.take (plain 0) trivial rfl
  have called := made.take (.call 1 alice (.delete "s")) ⟨⟨_, rfl, nofun⟩, fun u q held => by
      rcases thread_cases held with ⟨_, eq⟩ | ⟨other, built⟩
      · cases eq
      rcases thread_cases built with ⟨eq, _⟩ | ⟨_, entered⟩
      · exact absurd eq other
      rcases thread_cases entered with ⟨eq, _⟩ | ⟨_, called⟩
      · exact absurd eq other
      rcases thread_cases called with ⟨eq, _⟩ | ⟨_, never⟩
      · exact absurd eq other
      cases never⟩ rfl
  have admitted := called.take (plain 1) trivial rfl
  exact ⟨_, _, rfl, rfl, rfl, users_isolated (t := 1) Manager.idleHost
    (fun _ => none) admitted rfl rfl⟩

theorem stranger_deletes : (∃ s r info, Transition.last (step Manager.idleHost)
        ([.call 1 bob (.delete "s"), plain 1] ++ aliceCreates) blank = some s ∧
      s.threads 1 = some r ∧ r.claims = bob ∧ r.task.touches s.manager r.point = [info] ∧
      info.ownerID = some "alice") ∧ (∃ s, Transition.last (step Manager.idleHost)
        ([.call 1 bob (.delete "s"), plain 1] ++ aliceCreates ++
          [plain 1, plain 1, plain 1, plain 1, plain 1, plain 1]) blank = some s ∧
      s.threads 1 = none ∧ s.deleted "s" = true) ∧
    ∃ s r info, Transition.last (step Manager.idleHost)
        (aliceCreates ++ [.call 1 alice (.replay "s" none),
          plain 1, plain 1, plain 1, plain 1, plain 1]) blank = some s ∧
      s.threads 1 = some r ∧ r.claims = alice ∧ r.task.touches s.manager r.point = [info] ∧
      info.ownerID = none :=
  ⟨⟨_, _, _, rfl, rfl, rfl, rfl, rfl⟩, ⟨_, rfl, rfl, rfl⟩, ⟨_, _, _, rfl, rfl, rfl, rfl, rfl⟩⟩

end Server

end Runner

end Simulator
