import Simulator.ManagerThreads
import Simulator.OpenRuns
import Simulator.ReplayedRuns

/-!
# Steps of requests

`Progress` lists what one step of a request can do.
-/

namespace Simulator

open Option

namespace LiveSim

variable {G : GoTypes}

def Steps (live next : LiveSim G) (a : Action live.built.executor) : Prop :=
  ∃ sim, live.sim.step a = some sim ∧ next = ⟨live.built, sim⟩

variable {live next : LiveSim G} {a : Action live.built.executor}

theorem steps_of_act {choose : Choose G}
    (acted : live.act choose = some next) : live.Steps next (choose live) := by
  obtain ⟨sim, step, rfl⟩ := Option.map_eq_some_iff.mp acted
  exact ⟨sim, step, rfl⟩

theorem Steps.not_going (steps : live.Steps next a)
    (other : a.isStart = false) (still : live.state.isGoing = false) :
    next.state.isGoing = false := by
  obtain ⟨sim, step, rfl⟩ := steps
  exact Sim.not_going_of_step step other still

theorem Steps.built (steps : live.Steps next a) : next.built = live.built := by
  obtain ⟨sim, _, rfl⟩ := steps
  rfl

theorem steps_of_map {res : Except LifecycleError (Sim live.built.executor)}
    (isStep : live.sim.step a = res.toOption)
    (ran : res.map (⟨live.built, ·⟩) = .ok next) : live.Steps next a := by
  cases res with
  | error cause => cases ran
  | ok sim =>
    cases ran
    exact ⟨sim, isStep, rfl⟩

end LiveSim

namespace Runner

def Lifecycle.action {G : GoTypes} (op : Lifecycle) (live : LiveSim G) :
    Action live.built.executor :=
  match op with
  | .start => .start (defaultLimit live.built.cfg.runConfig)
  | .pause => .pause
  | .resume => .resume
  | .stop => .stop

theorem steps_of_run {G : GoTypes} (op : Lifecycle) {live next : LiveSim G}
    (ran : op.run live = .ok next) : live.Steps next (op.action live) := by
  cases op with
  | start | pause | resume | stop => exact LiveSim.steps_of_map rfl ran

theorem isCall_of_method {W : Type} {E : Executor W} {f : Method} {caller : Nat} {a : Action E}
    (made : f.enters caller a = true ∨ f.inside caller a = true ∨
      f.leaves caller a = true) : a.isCall = true := by
  rcases made with made | made | made
  all_goals cases a <;> first | rfl | (cases f <;> cases made)

namespace Task

def looksUp : Task → Point → Bool
  | .watch _, .entered => true
  | task, .admitted => task.isHandler
  | _, _ => false

def owes : Task → Point → Bool
  | .lifecycle _ _, .applied => true
  | .method _ _, .stepped _ => true
  | .method _ _, .read _ => true
  | .replay _ _, .placed _ => true
  | .replay _ _, .applied => true
  | .watch _, _ => true
  | _, _ => false

def starts : Task → Point → Option Managed
  | .lifecycle .start _, .found mg => some mg
  | .replay _ _, .placed mg => some mg
  | _, _ => none

def decided : Task → Point → Option String
  | .lifecycle op _, .applied => some op.status
  | .method _ _, .read status => some status
  | .replay _ _, .applied => some "running"
  | .watch _, .read status => some status
  | _, _ => none

/-- The new record of a `Create`. -/
def records : Task → Point → Option Managed
  | .create _ _ _, .built mg => some mg
  | .create _ _ _, .stored mg => some mg
  | _, _ => none

end Task

namespace Point

def held : Point → Option Managed
  | .found mg => some mg
  | .built mg => some mg
  | .stored mg => some mg
  | .placed mg => some mg
  | .working mg => some mg
  | .stepped mg => some mg
  | .notRunning mg => some mg
  | .notPaused mg => some mg
  | .halted mg => some mg
  | .waiting mg _ => some mg
  | .waited mg => some mg
  | _ => none

def isAdmitted : Point → Bool
  | .entered => false
  | _ => true

def hasLooked : Point → Bool
  | .entered => false
  | .admitted => false
  | _ => true

end Point

variable {G : GoTypes} {M : Type}

/-- What a step of the goroutine `t` can do. -/
inductive Progress (host : Host G M) (t : Nat) (m : Manager G)
    (claims : Option Claims) (input : Input G) :
    Task → Point → Outcome G → Prop
  | givesUp {task : Task} {point : Point} (free : task.owes point = false) :
      Progress host t m claims input task point (.returns m)
  | passes {task : Task} (handler : task.isHandler = true)
      (allowed : ∀ mg, m.sims task.id = some mg → owns claims mg.info = true) :
      Progress host t m claims input task .entered (.goesOn m .admitted)
  | missing {task : Task} {point : Point} (looks : task.looksUp point = true)
      (none : m.sims task.id = none) : Progress host t m claims input task point (.returns m)
  | found {task : Task} {point : Point} {mg : Managed} (looks : task.looksUp point = true)
      (mapped : m.sims task.id = some mg) :
      Progress host t m claims input task point (.goesOn m (.found mg))
  | build {req : CreateRequest} {random : Option (Fin 8 → UInt8)} {now : Nat}
      {live : LiveSim G} {info : SimulationInfo}
      (built : instantiate host input.fault (newID random)
        (ownedBy claims req) = .ok (live, info)) :
      Progress host t m claims input (.create req random now) .entered
        (.goesOn (m.alloc live) (.built ⟨m.heap.length, info⟩))
  | insert {req : CreateRequest} {random : Option (Fin 8 → UInt8)}
      {now : Nat} {mg : Managed} {row : SimulationInfo}
      (inserted : m.createSimulation host input.fault now mg.info = .ok row) :
      Progress host t m claims input (.create req random now) (.built mg)
        (.goesOn (m.setRow row.id (some row)) (.stored ⟨mg.sim, row⟩))
  | put {req : CreateRequest} {random : Option (Fin 8 → UInt8)} {now : Nat}
      {mg : Managed} (made : mg.sim < m.heap.length) :
      Progress host t m claims input (.create req random now) (.stored mg)
        (.returns (m.put mg.info.id mg made))
  | operate {op : Lifecycle} {id : String} {mg : Managed}
      {live next : LiveSim G} (here : m.heap[mg.sim]? = some live) (ran : op.run live = .ok next) :
      Progress host t m claims input (.lifecycle op id) (.found mg)
        (.goesOn (m.setSim mg.sim next) .applied)
  | announce {op : Lifecycle} {id : String} (other : op ≠ .start) :
      Progress host t m claims input (.lifecycle op id) .applied
        (.returns (m.updateStatus input.fault id op.status))
  | announceStart {id : String} : Progress host t m claims input (.lifecycle .start id) .applied
        (.leavesWatch (m.updateStatus input.fault id "running"))
  | enter {f : Method} {id : String} {mg : Managed} {live next : LiveSim G}
      (here : m.heap[mg.sim]? = some live) (enters : f.enters t (input.work live) = true)
      (acted : live.act input.work = some next) :
      Progress host t m claims input (.method f id) (.found mg)
        (.goesOn (m.setSim mg.sim next) (.working mg))
  | work {f : Method} {id : String} {mg : Managed} {live next : LiveSim G}
      (here : m.heap[mg.sim]? = some live) (inside : f.inside t (input.work live) = true)
      (acted : live.act input.work = some next) :
      Progress host t m claims input (.method f id) (.working mg)
        (.goesOn (m.setSim mg.sim next) (.working mg))
  | finish {f : Method} {id : String} {mg : Managed} {live next : LiveSim G}
      (here : m.heap[mg.sim]? = some live) (leaves : f.leaves t (input.work live) = true)
      (acted : live.act input.work = some next) (succeeds : f.succeeds (live.sim.calls t) = true) :
      Progress host t m claims input (.method f id) (.working mg)
        (.goesOn (m.setSim mg.sim next) (.stepped mg))
  | leave {f : Method} {id : String} {mg : Managed} {live next : LiveSim G}
      (here : m.heap[mg.sim]? = some live) (leaves : f.leaves t (input.work live) = true)
      (acted : live.act input.work = some next) (other : f.succeeds (live.sim.calls t) = false) :
      Progress host t m claims input (.method f id) (.working mg) (.returns (m.setSim mg.sim next))
  | readState {f : Method} {id : String} {mg : Managed} :
      Progress host t m claims input (.method f id) (.stepped mg)
        (.goesOn m (.read (statusOf (m.state mg.sim))))
  | writeState {f : Method} {id status : String} :
      Progress host t m claims input (.method f id) (.read status)
        (.returns (m.updateStatus input.fault id status))
  | readAgain {id : String} {mg : Managed} : Progress host t m claims input (.read id) (.found mg)
        (.goesOn m (.found mg))
  | notRunning {id : String} {mg : Managed} (still : m.state mg.sim ≠ .running) :
      Progress host t m claims input (.delete id) (.found mg) (.goesOn m (.notRunning mg))
  | notPaused {id : String} {mg : Managed} (still : m.state mg.sim ≠ .paused) :
      Progress host t m claims input (.delete id) (.notRunning mg) (.goesOn m (.notPaused mg))
  | halt {id : String} {mg : Managed} : Progress host t m claims input (.delete id) (.notPaused mg)
        (.goesOn (m.halted mg.sim) (.halted mg))
  | remove {id : String} {mg : Managed} : Progress host t m claims input (.delete id) (.halted mg)
        (.goesOn (m.remove id) .removed)
  | deleteRow {id : String} (stored : input.fault = none) :
      Progress host t m claims input (.delete id) .removed (.returns (m.setRow id none))
  | replayHalt {id : String} {random : Option (Fin 8 → UInt8)} {mg : Managed} :
      Progress host t m claims input (.replay id random) (.found mg)
        (.goesOn (m.halted mg.sim) (.halted mg))
  | rebuild {id : String} {random : Option (Fin 8 → UInt8)} {mg : Managed}
      {live : LiveSim G} {info : SimulationInfo}
      (built : instantiate host input.fault (newID random)
        (mg.info.config.request id) = .ok (live, info)) :
      Progress host t m claims input (.replay id random) (.halted mg)
        (.goesOn (m.alloc live) (.built ⟨m.heap.length, info⟩))
  | place {id : String} {random : Option (Fin 8 → UInt8)} {mg : Managed}
      (made : mg.sim < m.heap.length) :
      Progress host t m claims input (.replay id random) (.built mg)
        (.goesOn (m.put id mg made) (.placed mg))
  | restart {id : String} {random : Option (Fin 8 → UInt8)} {mg : Managed}
      {live next : LiveSim G} (here : m.heap[mg.sim]? = some live) (ran : live.start = .ok next) :
      Progress host t m claims input (.replay id random) (.placed mg)
        (.goesOn (m.setSim mg.sim next) .applied)
  | refused {id : String} {random : Option (Fin 8 → UInt8)} {mg : Managed} {cause : LifecycleError}
      (failed : m.operate mg.sim LiveSim.start = .error cause) :
      Progress host t m claims input (.replay id random) (.placed mg) (.returns m)
  | announceReplay {id : String} {random : Option (Fin 8 → UInt8)} :
      Progress host t m claims input (.replay id random) .applied
        (.leavesWatch (m.updateStatus input.fault id "running"))
  | noRun {id : String} {mg : Managed} (never : m.doneOf mg.sim = none) :
      Progress host t m claims input (.watch id) (.found mg) (.goesOn m (.waited mg))
  | wait {id : String} {mg : Managed} {session : Nat} (current : m.doneOf mg.sim = some session) :
      Progress host t m claims input (.watch id) (.found mg) (.goesOn m (.waiting mg session))
  | wake {id : String} {mg : Managed} {session : Nat} (closed : m.isClosed mg.sim session = true) :
      Progress host t m claims input (.watch id) (.waiting mg session) (.goesOn m (.waited mg))
  | watchRead {id : String} {mg : Managed} : Progress host t m claims input (.watch id) (.waited mg)
        (.goesOn m (.read (statusOf (m.state mg.sim))))
  | watchWrite {id status : String} : Progress host t m claims input (.watch id) (.read status)
        (.returns (m.updateStatus input.fault id status))

variable {host : Host G M} {info : SimulationInfo}

theorem Manager.createSimulation_eq_ok {m : Manager G}
    {fails : Option String} {now : Nat} {row : SimulationInfo}
    (inserted : m.createSimulation host fails now info = .ok row) :
    m.rows info.id = none ∧ row.id = info.id ∧
      row.ownerID = info.ownerID ∧ row.status = info.status := by
  unfold Manager.createSimulation at inserted
  split at inserted
  · cases inserted
  · cases inserted
  · rename_i missing
    cases inserted
    exact ⟨missing, rfl, rfl, rfl⟩

theorem cfg_of_new {methods : ModelMethods G M} {cfg : Config} {m : M}
    {simulation : BuiltSimulation G}
    (built : methods.new cfg m = .ok simulation) : simulation.cfg = cfg := by
  unfold ModelMethods.new at built
  split at built
  · cases built
  · split at built
    · cases built
    · cases built
      rfl

theorem id_of_instantiate {upsert : Option String}
    {newID : String} {req : CreateRequest} {live : LiveSim G}
    (built : instantiate host upsert newID req = .ok (live, info)) :
    live.built.cfg.id = info.id ∧ info.id = if req.simulationID = "" then newID
        else req.simulationID := by
  obtain ⟨resolved, _, ok, _, rfl, _, infoID⟩ := instantiate_eq_ok built
  obtain ⟨_, c, constructed, _, _, _, made⟩ := instantiate_eq_ok_iff.mp ok
  refine ⟨?_, infoID⟩
  rw [infoID, cfg_of_new made, constructed.config]
  rfl

section Inversion

variable {host : Host G M} {t : Nat} {m : Manager G} {claims : Option Claims} {input : Input G}
  {outcome : Outcome G} {point : Point} {id : String} {task : Task}
  {random : Option (Fin 8 → UInt8)}

theorem Progress.of_look (looks : task.looksUp point = true) (looked : m.look task.id = outcome) :
    Progress host t m claims input task point outcome := by
  subst looked
  unfold Manager.look Manager.lookup
  cases mapped : m.sims task.id with
  | none => exact .missing looks mapped
  | some mg => exact .found looks mapped

theorem Progress.of_ownership (handler : task.isHandler = true)
    (checked : m.ownership claims task.id = outcome) :
    Progress host t m claims input task .entered outcome := by
  have free : task.owes .entered = false := by
    cases task with
    | watch id => cases handler
    | _ => rfl
  subst checked
  unfold Manager.ownership Manager.get
  cases mapped : m.sims task.id with
  | none => exact .passes handler (by simp [mapped])
  | some mg =>
    simp only [map_some]
    split
    · rename_i owner
      apply Progress.passes handler
      intro hit eq
      rw [mapped, some.injEq] at eq
      rw [← eq]
      unfold owns at owner ⊢
      exact owner
    · exact .givesUp free

theorem Progress.of_create {req : CreateRequest} {now : Nat}
    (went : m.createNext host claims req random now input point = some outcome) :
    Progress host t m claims input (.create req random now) point
      outcome := by
  revert went
  fun_cases Manager.createNext host m claims req random now input point <;> rintro ⟨⟩
  · exact .givesUp rfl
  · exact .build ‹_›
  · exact .givesUp rfl
  · exact .insert ‹_›
  · exact .put _

theorem Progress.of_lifecycle {op : Lifecycle}
    (went : m.lifecycleNext op id input point = some outcome) :
    Progress host t m claims input (.lifecycle op id) point outcome := by
  revert went
  fun_cases m.lifecycleNext op id input point <;> rintro ⟨⟩
  · exact .of_look rfl rfl
  · exact .givesUp rfl
  · obtain ⟨live, next, here, ran, rfl⟩ := Manager.operate_eq_ok ‹_›
    exact .operate here ran
  · exact .announceStart
  · exact .announce ‹_›

theorem Progress.of_method {f : Method} (went : m.methodNext t f id input point = some outcome) :
    Progress host t m claims input (.method f id) point outcome := by
  revert went
  fun_cases m.methodNext t f id input point <;> try rintro ⟨⟩
  · exact .of_look rfl rfl
  · exact .givesUp rfl
  · exact .enter ‹_› ‹_› ‹_›
  · intro went
    obtain ⟨next, acted, rfl⟩ := Option.map_eq_some_iff.mp went
    exact .work ‹_› ‹_› acted
  · intro went
    obtain ⟨next, acted, rfl⟩ := Option.map_eq_some_iff.mp went
    split
    · exact .finish ‹_› ‹_› acted ‹_›
    · exact .leave ‹_› ‹_› acted (Bool.eq_false_iff.mpr ‹_›)
  · exact .readState
  · exact .writeState

theorem Progress.of_read (went : m.readNext id input point = some outcome) :
    Progress host t m claims input (.read id) point outcome := by
  revert went
  fun_cases m.readNext id input point <;> rintro ⟨⟩
  · exact .of_look rfl rfl
  · exact .readAgain
  · exact .givesUp rfl

theorem Progress.of_delete (went : m.deleteNext id input point = some outcome) :
    Progress host t m claims input (.delete id) point outcome := by
  revert went
  fun_cases m.deleteNext id input point <;> rintro ⟨⟩
  · exact .of_look rfl rfl
  · exact .givesUp rfl
  · exact .notRunning ‹_›
  · exact .givesUp rfl
  · exact .notPaused ‹_›
  · exact .halt
  · exact .remove
  · exact .givesUp rfl
  · rename_i deleted
    cases stored : input.fault with
    | none =>
      rw [stored] at deleted
      cases deleted
      exact .deleteRow stored
    | some msg =>
      rw [stored] at deleted
      cases deleted

theorem Progress.of_replay (went : m.replayNext host id random input point = some outcome) :
    Progress host t m claims input (.replay id random) point outcome := by
  revert went
  fun_cases m.replayNext host id random input point <;> rintro ⟨⟩
  · exact .of_look rfl rfl
  · exact .replayHalt
  · exact .givesUp rfl
  · exact .rebuild ‹_›
  · exact .place _
  · exact .refused ‹_›
  · obtain ⟨live, next, here, ran, rfl⟩ := Manager.operate_eq_ok ‹_›
    exact .restart here ran
  · exact .announceReplay

theorem Progress.of_watch (went : m.watchNext id input point = some outcome) :
    Progress host t m claims input (.watch id) point outcome := by
  revert went
  fun_cases m.watchNext id input point <;> rintro ⟨⟩
  · exact .of_look rfl rfl
  · exact .noRun ‹_›
  · exact .wait ‹_›
  · exact .wake ‹_›
  · exact .watchRead
  · exact .watchWrite

theorem progress_of_next {r : Request} (went : r.next host t m input = some outcome) :
    Progress host t m r.claims input r.task r.point outcome := by
  obtain ⟨claims, task, point⟩ := r
  cases task with
  | create req random now => exact .of_create went
  | watch id => exact .of_watch went
  | _ =>
    cases point with
    | entered => exact .of_ownership rfl (Option.some.inj went)
    | _ =>
      first
      | exact .of_lifecycle went
      | exact .of_method went
      | exact .of_read went
      | exact .of_delete went
      | exact .of_replay went

end Inversion

variable {host : Host G M} {t : Nat} {m : Manager G} {claims : Option Claims} {input : Input G}
  {task : Task} {point : Point} {outcome : Outcome G}

theorem Progress.records {next : Point}
    (known : ∀ mg, task.records point = some mg → mg.info.id = task.id)
    (progress : Progress host t m claims input task point outcome)
    (goes : outcome.point = some next) {mg : Managed}
    (recorded : task.records next = some mg) : mg.info.id = task.id := by
  cases progress with
  | build built =>
    cases goes
    cases recorded
    have sameID : ∀ req, (ownedBy claims req).simulationID =
        req.simulationID := by
      intro req
      cases claims <;> rfl
    rw [(id_of_instantiate built).2, sameID]
    rfl
  | @insert req random now held row inserted =>
    cases goes
    cases recorded
    rw [(Manager.createSimulation_eq_ok inserted).2.1]
    exact known held rfl
  | passes handler allowed | found looks mapped =>
    cases goes
    cases task <;> cases recorded
  | _ => cases goes <;> cases recorded

inductive Alters (m : Manager G) : Task → Point → Manager G → Prop
  | insert {req : CreateRequest} {random : Option (Fin 8 → UInt8)}
      {now : Nat} {mg : Managed} {row : SimulationInfo}
      (missing : m.rows mg.info.id = none) (sameID : row.id = mg.info.id)
      (sameOwner : row.ownerID = mg.info.ownerID) (sameStatus : row.status = mg.info.status) :
      Alters m (.create req random now) (.built mg) (m.setRow row.id (some row))
  | put {req : CreateRequest} {random : Option (Fin 8 → UInt8)} {now : Nat}
      {mg : Managed} (made : mg.sim < m.heap.length) :
      Alters m (.create req random now) (.stored mg) (m.put mg.info.id mg made)
  | remove {id : String} {mg : Managed} : Alters m (.delete id) (.halted mg) (m.remove id)
  | deleteRow {id : String} : Alters m (.delete id) .removed (m.setRow id none)
  | place {id : String} {random : Option (Fin 8 → UInt8)} {mg : Managed}
      (made : mg.sim < m.heap.length) : Alters m (.replay id random) (.built mg) (m.put id mg made)

theorem Progress.record_cases (moves : Progress host t m claims input task point outcome) :
    (outcome.manager.sims = m.sims ∧ outcome.manager.rows = m.rows) ∨
    (∃ status, task.decided point = some status ∧
      outcome.manager = m.updateStatus input.fault task.id status) ∨
    Alters m task point outcome.manager := by
  cases moves with
  | insert inserted =>
    obtain ⟨missing, sameID, sameOwner, sameStatus⟩ := Manager.createSimulation_eq_ok inserted
    exact .inr (.inr (.insert missing sameID sameOwner sameStatus))
  | put made => exact .inr (.inr (.put made))
  | announce other | announceStart | writeState | announceReplay | watchWrite =>
    exact .inr (.inl ⟨_, rfl, rfl⟩)
  | halt | replayHalt => exact .inl ⟨m.sims_halted _, m.rows_halted _⟩
  | remove => exact .inr (.inr .remove)
  | deleteRow stored => exact .inr (.inr .deleteRow)
  | place made => exact .inr (.inr (.place made))
  | _ => exact .inl ⟨rfl, rfl⟩

namespace Server

inductive Moves (host : Host G M) (s : Server G) : Move G → Server G → Prop
  | call {t : Nat} {claims : Option Claims} {task : Task}
      (free : s.threads t = none) (called : ∀ id, task ≠ .watch id) :
      Moves host s (.call t claims task) { s with
        threads := Function.update s.threads t (some ⟨claims, task, .entered⟩) }
  | advance {t : Nat} {input : Input G} {r : Request} {outcome : Outcome G}
      (here : s.threads t = some r)
      (progress : Progress host t s.manager r.claims input r.task r.point
        outcome) (alone : outcome.watched = false) :
      Moves host s (.advance t input) ⟨outcome.manager, Function.update s.threads t
          (outcome.point.map fun point => { r with point := point }), note s.deleted r input⟩
  | spawn {t : Nat} {input : Input G} {r : Request} {outcome : Outcome G}
      (here : s.threads t = some r)
      (progress : Progress host t s.manager r.claims input r.task r.point
        outcome) (watched : outcome.watched = true) (free : Function.update s.threads t
        (outcome.point.map fun point => { r with point := point }) input.spawn = none) :
      Moves host s (.advance t input) ⟨outcome.manager, Function.update (Function.update s.threads t
            (outcome.point.map fun point => { r with point := point }))
          input.spawn (some ⟨none, .watch r.task.id, .entered⟩), note s.deleted r input⟩
  | loop {address session : Nat} {choose : ∀ live : LiveSim G, LoopAction live.built.executor}
      {live next : LiveSim G} (here : s.manager.heap[address]? = some live)
      (steps : live.Steps next (.loop session (choose live))) :
      Moves host s (.loop address session choose) { s with
        manager := s.manager.setSim address next }
  | watcher {address session : Nat} {live next : LiveSim G}
      (here : s.manager.heap[address]? = some live) (steps : live.Steps next (.watch session)) :
      Moves host s (.watcher address session) { s with
        manager := s.manager.setSim address next }

variable {t u : Nat} {q : Request} {s : Server G}

theorem thread_cases {threads : Nat → Option Request} {r : Option Request}
    (held : Function.update threads t r u = some q) :
    (u = t ∧ r = some q) ∨ (u ≠ t ∧ threads u = some q) := by
  by_cases eq : u = t
  · subst eq
    rw [Function.update_self] at held
    exact .inl ⟨rfl, held⟩
  · rw [Function.update_of_ne eq] at held
    exact .inr ⟨eq, held⟩

theorem thread_before {r : Request}
    {point : Option Point} (here : s.threads t = some r) (held : Function.update s.threads t
      (point.map fun point => { r with point := point }) u = some q) :
    ∃ p, s.threads u = some p ∧ p.task = q.task ∧ p.claims = q.claims := by
  rcases thread_cases held with ⟨rfl, eq⟩ | ⟨_, old⟩
  · obtain ⟨next, _, rfl⟩ := Option.map_eq_some_iff.mp eq
    exact ⟨r, here, rfl, rfl⟩
  · exact ⟨q, old, rfl, rfl⟩

theorem act_eq_some {m after : Manager G} {addr : Nat}
    {choose : LiveSim.Choose G} (acted : m.act addr choose = some after) :
    ∃ live next, m.heap[addr]? = some live ∧
      live.Steps next (choose live) ∧ after = m.setSim addr next := by
  unfold Manager.act at acted
  split at acted
  · cases acted
  · rename_i live here
    obtain ⟨next, moved, rfl⟩ := map_eq_some_iff.mp acted
    exact ⟨live, next, here, LiveSim.steps_of_act moved, rfl⟩

theorem moves_of_step {host : Host G M} {next : Server G} {move : Move G}
    (step : s.step host move = some next) : s.Moves host move next := by
  revert step
  fun_cases s.step host move <;> try rintro ⟨⟩
  · exact .call ‹_› ‹_›
  · rename_i here
    intro step
    obtain ⟨outcome, went, settled⟩ := Option.bind_eq_some_iff.mp step
    have moves := progress_of_next went
    revert settled
    fun_cases settle <;> rintro ⟨⟩
    · exact .spawn here moves ‹_› ‹_›
    · exact .advance here moves (Bool.eq_false_iff.mpr ‹_›)
  · intro step
    obtain ⟨after, acted, rfl⟩ := Option.map_eq_some_iff.mp step
    obtain ⟨live, next, here, steps, rfl⟩ := act_eq_some acted
    exact .loop here steps
  · intro step
    obtain ⟨after, acted, rfl⟩ := Option.map_eq_some_iff.mp step
    obtain ⟨live, next, here, steps, rfl⟩ := act_eq_some acted
    exact .watcher here steps

end Server

end Runner

end Simulator
