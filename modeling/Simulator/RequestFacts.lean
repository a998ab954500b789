import Simulator.ManagerMoves

/-!
# What requests know

`Request.Facts` says what a request may rely on, if `Start`, `Replay` and `Delete` do not
work on the same ID at the same time.
-/

namespace Simulator

namespace Runner

variable {G : GoTypes} {M : Type}

namespace Manager

def IsFor (m : Manager G) (address : Nat) (id : String) : Prop :=
  ∃ live, m.heap[address]? = some live ∧ live.built.cfg.id = id

theorem IsFor.unique {m : Manager G} {addr : Nat} {id other : String}
    (first : m.IsFor addr id) (second : m.IsFor addr other) : id = other := by
  obtain ⟨live, here, rfl⟩ := first
  obtain ⟨again, here', rfl⟩ := second
  rw [here, Option.some.injEq] at here'
  rw [here']

theorem isFor_alloc_self {m : Manager G} {live : LiveSim G} {id : String}
    (forID : live.built.cfg.id = id) : (m.alloc live).IsFor m.heap.length id :=
  ⟨live, by simp [alloc], forID⟩

structure Calm (m after : Manager G) : Prop where
  sims : after.sims = m.sims
  rows : ∀ id, (m.rows id).isSome = true → (after.rows id).isSome = true
  isFor : ∀ address id, m.IsFor address id → after.IsFor address id
  still : ∀ address, (m.state address).isGoing = false → (after.state address).isGoing = false

namespace Calm

theorem refl (m : Manager G) : Calm m m :=
  ⟨rfl, fun _ held => held, fun _ _ made => made, fun _ still => still⟩

theorem updateStatus (m : Manager G) (fails : Option String)
    (id status : String) : Calm m (m.updateStatus fails id status) := by
  obtain ⟨sims, heap, rows⟩ := m.updateStatus_frame fails id status
  refine ⟨sims, ?_, ?_, ?_⟩
  · intro other held
    rw [rows]
    exact held
  · intro addr other made
    unfold IsFor at made ⊢
    rw [heap]
    exact made
  · intro addr still
    unfold state at still ⊢
    rw [heap]
    exact still

theorem setRow (m : Manager G) (id : String) (row : SimulationInfo) :
    Calm m (m.setRow id (some row)) := by
  refine ⟨rfl, ?_, fun _ _ made => made, fun _ still => still⟩
  intro other held
  by_cases eq : other = id
  · simp [Manager.setRow, eq]
  · simp only [Manager.setRow, Function.update_of_ne eq]
    exact held

theorem isFor_alloc {m : Manager G} {addr : Nat} {id : String}
    (live : LiveSim G) (made : m.IsFor addr id) : (m.alloc live).IsFor addr id := by
  obtain ⟨held, here, eq⟩ := made
  refine ⟨held, ?_, eq⟩
  have lt : addr < m.heap.length := (List.getElem?_eq_some_iff.mp here).1
  rw [Manager.alloc, List.getElem?_append_left lt]
  exact here

theorem alloc (m : Manager G) {live : LiveSim G}
    (idle : live.state = .idle) : Calm m (m.alloc live) := by
  refine ⟨rfl, fun _ held => held, fun _ _ => isFor_alloc live, ?_⟩
  intro addr still
  by_cases lt : addr < m.heap.length
  · rw [state_alloc lt]
    exact still
  · by_cases last : addr = m.heap.length
    · simp [state, Manager.alloc, last, idle, State.isGoing]
    · have beyond : (m.alloc live).heap[addr]? = none := by
        apply List.getElem?_eq_none
        simp only [Manager.alloc, List.length_append, List.length_singleton]
        omega
      simp [state, beyond, State.isGoing]

theorem isFor_setSim {m : Manager G} {addr other : Nat} {id : String}
    {live next : LiveSim G} (here : m.heap[addr]? = some live)
    (built : next.built = live.built) (made : m.IsFor other id) :
    (m.setSim addr next).IsFor other id := by
  obtain ⟨held, there, rfl⟩ := made
  by_cases eq : other = addr
  · subst eq
    rw [here, Option.some.injEq] at there
    subst there
    have lt := (List.getElem?_eq_some_iff.mp here).1
    exact ⟨next, List.getElem?_set_self lt, by rw [built]⟩
  · refine ⟨held, ?_, rfl⟩
    rw [Manager.setSim, List.getElem?_set_ne (Ne.symm eq)]
    exact there

theorem setSim {m : Manager G} {addr : Nat} {live next : LiveSim G} {a : Action live.built.executor}
    (here : m.heap[addr]? = some live) (steps : live.Steps next a)
    (other : a.isStart = false) : Calm m (m.setSim addr next) := by
  refine ⟨rfl, fun _ held => held, fun _ _ => isFor_setSim here steps.built, ?_⟩
  intro target still
  by_cases eq : target = addr
  · subst eq
    rw [state_setSim_self (List.getElem?_eq_some_iff.mp here).1]
    apply steps.not_going other
    simpa [state, here] using still
  · rw [state_setSim_of_ne eq]
    exact still

end Calm

structure StableAt (id : String) (m after : Manager G) : Prop where
  sims : after.sims id = m.sims id
  rows : (m.rows id).isSome = true → (after.rows id).isSome = true
  isFor : ∀ address id, m.IsFor address id → after.IsFor address id
  still : ∀ mg, m.sims id = some mg → (m.state mg.sim).isGoing = false →
    (after.state mg.sim).isGoing = false

theorem StableAt.of_sims {m after : Manager G} {id : String} (heap : after.heap = m.heap)
    (sims : after.sims id = m.sims id)
    (rows : (m.rows id).isSome = true → (after.rows id).isSome = true) : StableAt id m after := by
  refine ⟨sims, rows, ?_, ?_⟩
  · intro addr other made
    unfold IsFor at made ⊢
    rw [heap]
    exact made
  · intro mg _ still
    unfold state at still ⊢
    rw [heap]
    exact still

theorem Calm.stableAt {m after : Manager G} (calm : Calm m after)
    (id : String) : StableAt id m after :=
  ⟨congrFun calm.sims id, calm.rows id, calm.isFor, fun mg _ => calm.still mg.sim⟩

theorem halted_cases (m : Manager G) (addr : Nat) :
    (m.halted addr = m ∧ (m.state addr).isGoing = false) ∨
    ∃ live next, m.heap[addr]? = some live ∧ live.Steps next .stop ∧
      next.state = .stopped ∧ m.halted addr = m.setSim addr next := by
  cases going : (m.state addr).isGoing with
  | false => exact .inl ⟨halted_of_not_going going, rfl⟩
  | true =>
    right
    cases here : m.heap[addr]? with
    | none => simp [state, here, State.isGoing] at going
    | some live =>
      have lt := (List.getElem?_eq_some_iff.mp here).1
      obtain ⟨next, operated, stopped⟩ := operate_stop_of_going lt going
      obtain ⟨_, other, here', ran, eq⟩ := operate_eq_ok operated
      rw [here, Option.some.injEq] at here'
      subst here'
      have sameNext : next = other := by
        have heaps := congrArg (·.heap[addr]?) eq
        simpa [Manager.setSim, List.getElem?_set_self lt] using heaps
      subst sameNext
      refine ⟨live, next, rfl, ?_, stopped, ?_⟩
      · exact steps_of_run .stop ran
      · rw [halted, operated]
        rfl

theorem Calm.halted (m : Manager G) (addr : Nat) : Calm m (m.halted addr) := by
  rcases m.halted_cases addr with ⟨eq, _⟩ | ⟨live, next, here, steps, _, eq⟩
  · rw [eq]
    exact .refl m
  · rw [eq]
    exact .setSim here steps rfl

theorem not_going_halted (m : Manager G) (addr : Nat) :
    ((m.halted addr).state addr).isGoing = false := by
  rcases m.halted_cases addr with ⟨eq, still⟩ | ⟨live, next, here, _, stopped, eq⟩
  · rw [eq]
    exact still
  · rw [eq, state_setSim_self (List.getElem?_eq_some_iff.mp here).1, stopped]
    rfl

end Manager

namespace Manager

def Reachable (m : Manager G) : Prop :=
  ∀ address id, (m.state address).isGoing = true → m.IsFor address id →
    ∃ mg, m.sims id = some mg ∧ mg.sim = address

theorem exists_isFor {m : Manager G} {addr : Nat} (going : (m.state addr).isGoing = true) :
    ∃ id, m.IsFor addr id := by
  cases here : m.heap[addr]? with
  | none => simp [state, here, State.isGoing] at going
  | some live => exact ⟨_, live, here, rfl⟩

theorem isFor_before {m after : Manager G} {addr : Nat} {id : String}
    (isFor : ∀ id, m.IsFor addr id → after.IsFor addr id) (going : (m.state addr).isGoing = true)
    (made : after.IsFor addr id) : m.IsFor addr id := by
  obtain ⟨own, old⟩ := exists_isFor going
  rw [made.unique (isFor own old)]
  exact old

theorem Reachable.of_entries {m after : Manager G} (reachable : m.Reachable)
    (heap : after.heap = m.heap)
    (kept : ∀ id mg, m.sims id = some mg → (m.state mg.sim).isGoing = true →
      after.sims id = some mg) : after.Reachable := by
  intro addr id going made
  unfold state at going
  unfold IsFor at made
  rw [heap] at going made
  obtain ⟨mg, mapped, rfl⟩ := reachable addr id going made
  exact ⟨mg, kept id mg mapped going, rfl⟩

theorem Reachable.of_calm {m after : Manager G} (reachable : m.Reachable)
    (calm : Calm m after) : after.Reachable := by
  intro addr id going made
  have goingBefore : (m.state addr).isGoing = true := by
    by_contra still
    rw [Bool.not_eq_true] at still
    rw [calm.still addr still] at going
    cases going
  rw [calm.sims]
  exact reachable addr id goingBefore (isFor_before (calm.isFor addr) goingBefore made)

end Manager

namespace Task

def exclusive : Task → Bool
  | .lifecycle .start _ => true
  | .delete _ => true
  | .replay _ _ => true
  | _ => false

def holds : Task → Point → Option Managed
  | .lifecycle .start _, .found mg => some mg
  | .delete _, .found mg => some mg
  | .delete _, .notRunning mg => some mg
  | .delete _, .notPaused mg => some mg
  | .delete _, .halted mg => some mg
  | .replay _ _, .found mg => some mg
  | .replay _ _, .halted mg => some mg
  | .replay _ _, .placed mg => some mg
  | _, _ => none

def calmed : Task → Point → Bool
  | .delete _, .halted _ => true
  | .replay _ _, .halted _ => true
  | .replay _ _, .built _ => true
  | _, _ => false

def vacant : Task → Point → Bool
  | .create _ _ _, .stored _ => true
  | .delete _, .removed => true
  | _, _ => false

def carries : Task → Point → Option Managed
  | .create _ _ _, .built mg => some mg
  | .create _ _ _, .stored mg => some mg
  | .replay _ _, .built mg => some mg
  | _, _ => none

theorem id_create_ne (req : CreateRequest) (rand : Option (Fin 8 → UInt8)) (now : Nat) :
    (Task.create req rand now).id ≠ "" := by
  rw [Task.id]
  split
  · exact newID_ne_empty rand
  · assumption

end Task

structure Request.Facts (m : Manager G) (task : Task) (point : Point) :
    Prop where
  holds : ∀ mg, task.holds point = some mg → m.sims task.id = some mg
  calmed : task.calmed point = true → ∃ mg, m.sims task.id = some mg ∧
    (m.state mg.sim).isGoing = false
  vacant : task.vacant point = true → m.sims task.id = none ∧ (m.rows task.id).isSome = true
  carries : ∀ mg, task.carries point = some mg → m.IsFor mg.sim task.id
  records : ∀ mg, task.records point = some mg → mg.info.id = task.id

namespace Request.Facts

variable {m after : Manager G} {task : Task} {point : Point}

theorem of_known (known : ∀ mg, task.holds point = some mg → m.sims task.id = some mg)
    (calmed : task.calmed point = false) (vacant : task.vacant point = false)
    (carries : task.carries point = none)
    (records : task.records point = none) : Facts m task point :=
  ⟨known, by simp [calmed], by simp [vacant], by simp [carries], by simp [records]⟩

theorem of_none (holds : task.holds point = none) (calmed : task.calmed point = false)
    (vacant : task.vacant point = false) (carries : task.carries point = none)
    (records : task.records point = none) : Facts m task point :=
  of_known (by simp [holds]) calmed vacant carries records

theorem of_holds {mg : Managed} (holds : task.holds point = some mg)
    (mapped : m.sims task.id = some mg) (calmed : task.calmed point = false)
    (vacant : task.vacant point = false) (carries : task.carries point = none)
    (records : task.records point = none) : Facts m task point :=
  of_known (by simp [holds, mapped]) calmed vacant carries records

theorem of_stable (stable : Manager.StableAt task.id m after)
    (facts : Facts m task point) : Facts after task point := by
  constructor
  · intro mg held
    rw [stable.sims]
    exact facts.holds mg held
  · intro calmed
    obtain ⟨mg, mapped, still⟩ := facts.calmed calmed
    rw [stable.sims]
    exact ⟨mg, mapped, stable.still mg mapped still⟩
  · intro vacant
    obtain ⟨missing, stored⟩ := facts.vacant vacant
    rw [stable.sims]
    exact ⟨missing, stable.rows stored⟩
  · intro mg carried
    exact stable.isFor _ _ (facts.carries mg carried)
  · exact facts.records

theorem of_unconcerned (isFor : ∀ addr id, m.IsFor addr id → after.IsFor addr id)
    (holds : task.holds point = none) (calmed : task.calmed point = false)
    (vacant : task.vacant point = false) (facts : Facts m task point) : Facts after task point :=
  ⟨by simp [holds], by simp [calmed], by simp [vacant],
    fun mg carried => isFor _ _ (facts.carries mg carried), facts.records⟩

end Request.Facts

inductive Disturbs (m : Manager G) : Task → Point → Manager G → Prop
  | put {req : CreateRequest} {random : Option (Fin 8 → UInt8)} {now : Nat}
      {mg : Managed} (made : mg.sim < m.heap.length) :
      Disturbs m (.create req random now) (.stored mg) (m.put mg.info.id mg made)
  | start {task : Task} {point : Point} {mg : Managed}
      {live next : LiveSim G} {a : Action live.built.executor} (held : task.holds point = some mg)
      (here : m.heap[mg.sim]? = some live) (steps : live.Steps next a) :
      Disturbs m task point (m.setSim mg.sim next)
  | remove {id : String} {mg : Managed} : Disturbs m (.delete id) (.halted mg) (m.remove id)
  | deleteRow {id : String} : Disturbs m (.delete id) .removed (m.setRow id none)
  | place {id : String} {random : Option (Fin 8 → UInt8)} {mg : Managed}
      (made : mg.sim < m.heap.length) :
      Disturbs m (.replay id random) (.built mg) (m.put id mg made)

theorem Progress.calm_or_disturbs {host : Host G M} {t : Nat}
    {m : Manager G} {claims : Option Claims} {input : Input G}
    {task : Task} {point : Point} {outcome : Outcome G}
    (progress : Progress host t m claims input task point outcome) :
    Manager.Calm m outcome.manager ∨ Disturbs m task point outcome.manager := by
  cases progress with
  | build built | rebuild built =>
    exact .inl (.alloc m (Manager.state_of_instantiate built))
  | insert inserted => exact .inl (.setRow m _ _)
  | put made => exact .inr (.put made)
  | @operate op id mg live next here ran =>
    cases op with
    | start => exact .inr (.start rfl here (steps_of_run .start ran))
    | pause => exact .inl (.setSim here (steps_of_run .pause ran) rfl)
    | resume => exact .inl (.setSim here (steps_of_run .resume ran) rfl)
    | stop => exact .inl (.setSim here (steps_of_run .stop ran) rfl)
  | announce other | announceStart | writeState | announceReplay | watchWrite =>
    exact .inl (.updateStatus m _ _ _)
  | enter here enters acted =>
    exact .inl (.setSim here (LiveSim.steps_of_act acted)
      (Action.not_start_of_call (isCall_of_method (.inl enters))))
  | work here lt acted =>
    exact .inl (.setSim here (LiveSim.steps_of_act acted)
      (Action.not_start_of_call (isCall_of_method (.inr (.inl lt)))))
  | finish here leaves acted succeeds | leave here leaves acted other =>
    exact .inl (.setSim here (LiveSim.steps_of_act acted)
      (Action.not_start_of_call (isCall_of_method (.inr (.inr leaves)))))
  | halt | replayHalt => exact .inl (.halted m _)
  | remove => exact .inr .remove
  | deleteRow stored => exact .inr .deleteRow
  | place made => exact .inr (.place made)
  | restart here ran =>
    exact .inr (.start rfl here (steps_of_run .start ran))
  | _ => exact .inl (.refl m)

structure Manager.Filed (m : Manager G) : Prop where
  isFor : ∀ id mg, m.sims id = some mg → m.IsFor mg.sim id
  named : ∀ id mg, m.sims id = some mg → id ≠ ""
  stored : ∀ id mg, m.sims id = some mg → (m.rows id).isSome = true

theorem Manager.Filed.put {m : Manager G} (filed : m.Filed) {id : String}
    {mg : Managed} (made : mg.sim < m.heap.length) (isFor : m.IsFor mg.sim id) (named : id ≠ "")
    (stored : (m.rows id).isSome = true) : (m.put id mg made).Filed := by
  have x : ∀ other held, (m.put id mg made).sims other = some held →
      (other = id ∧ held = mg) ∨ m.sims other = some held := by
    intro other held mapped
    by_cases eq : other = id
    · left
      rw [Manager.sims_put, eq, Function.update_self] at mapped
      exact ⟨eq, (Option.some.inj mapped).symm⟩
    · right
      rw [Manager.sims_put, Function.update_of_ne eq] at mapped
      exact mapped
  constructor
  · intro other held mapped
    rcases x other held mapped with ⟨rfl, rfl⟩ | old
    · exact isFor
    · exact filed.isFor other held old
  · intro other held mapped
    rcases x other held mapped with ⟨rfl, rfl⟩ | old
    · exact named
    · exact filed.named other held old
  · intro other held mapped
    rcases x other held mapped with ⟨rfl, rfl⟩ | old
    · exact stored
    · exact filed.stored other held old

theorem Manager.Filed.of_calm {m after : Manager G} (filed : m.Filed)
    (calm : Manager.Calm m after) : after.Filed := by
  constructor
  · intro id mg mapped
    rw [calm.sims] at mapped
    exact calm.isFor _ _ (filed.isFor id mg mapped)
  · intro id mg mapped
    rw [calm.sims] at mapped
    exact filed.named id mg mapped
  · intro id mg mapped
    rw [calm.sims] at mapped
    exact calm.rows id (filed.stored id mg mapped)

namespace Request.Facts

variable {m : Manager G} {task : Task}

theorem admitted : Facts m task .admitted := by
  cases task with
  | lifecycle op id => cases op <;> exact .of_none rfl rfl rfl rfl rfl
  | _ => exact .of_none rfl rfl rfl rfl rfl

theorem entered : Facts m task .entered := by
  cases task with
  | lifecycle op id => cases op <;> exact .of_none rfl rfl rfl rfl rfl
  | _ => exact .of_none rfl rfl rfl rfl rfl

theorem found {mg : Managed} (mapped : m.sims task.id = some mg) : Facts m task (.found mg) := by
  cases task with
  | lifecycle op id =>
    cases op with
    | start => exact .of_holds rfl mapped rfl rfl rfl rfl
    | _ => exact .of_none rfl rfl rfl rfl rfl
  | delete id | replay id rand => exact .of_holds rfl mapped rfl rfl rfl rfl
  | _ => exact .of_none rfl rfl rfl rfl rfl

theorem halted {mg : Managed} (mapped : m.sims task.id = some mg) :
    Facts (m.halted mg.sim) task (.halted mg) := by
  have unmoved : (m.halted mg.sim).sims task.id = some mg := by
    rw [Manager.sims_halted]
    exact mapped
  constructor
  · intro other held
    have eq : other = mg := by
      cases task with
      | delete id | replay id rand => exact (Option.some.inj held).symm
      | lifecycle op id => cases op <;> cases held
      | _ => cases held
    rw [eq]
    exact unmoved
  · intro _
    exact ⟨mg, unmoved, m.not_going_halted mg.sim⟩
  · intro vacant
    cases task <;> cases vacant
  · intro other carried
    cases task <;> cases carried
  · intro other spot
    cases task <;> cases spot

theorem built_create {host : Host G M} {claims : Option Claims}
    {req : CreateRequest} {rand : Option (Fin 8 → UInt8)} {now : Nat}
    {upsert : Option String} {live : LiveSim G} {info : SimulationInfo}
    (built : instantiate host upsert (newID rand) (ownedBy claims req) = .ok (live, info)) :
    Facts (m.alloc live) (.create req rand now) (.built ⟨m.heap.length, info⟩) := by
  obtain ⟨forID, infoID⟩ := id_of_instantiate built
  have sameID : (ownedBy claims req).simulationID = req.simulationID := by
    cases claims <;> rfl
  rw [sameID] at infoID
  refine ⟨nofun, nofun, nofun, ?_, ?_⟩
  · intro mg carried
    cases carried
    exact Manager.isFor_alloc_self (forID.trans infoID)
  · intro mg spot
    cases spot
    exact infoID

theorem stored {req : CreateRequest} {rand : Option (Fin 8 → UInt8)}
    {now : Nat} {mg : Managed} {row : SimulationInfo} (filed : m.Filed)
    (missing : m.rows mg.info.id = none) (sameID : row.id = mg.info.id)
    (facts : Facts m (.create req rand now) (.built mg)) :
    Facts (m.setRow row.id (some row)) (.create req rand now) (.stored ⟨mg.sim, row⟩) := by
  have spot := facts.records mg rfl
  refine ⟨nofun, nofun, ?_, ?_, ?_⟩
  · intro _
    rw [sameID, spot]
    rw [spot] at missing
    constructor
    · cases mapped : m.sims (Task.create req rand now).id with
      | none => exact mapped
      | some other =>
        have held := filed.stored _ other mapped
        rw [missing] at held
        cases held
    · simp [Manager.setRow]
  · intro other carried
    cases carried
    exact facts.carries mg rfl
  · intro other again
    cases again
    rw [sameID, spot]

theorem removed {id : String} {mg : Managed} (filed : m.Filed) (mapped : m.sims id = some mg) :
    Facts (m.remove id) (.delete id) .removed :=
  ⟨nofun, nofun, fun _ => ⟨by simp [Manager.remove, Task.id], filed.stored id mg mapped⟩,
    nofun, nofun⟩

theorem rebuilt {host : Host G M} {id : String}
    {rand : Option (Fin 8 → UInt8)} {upsert : Option String}
    {old : Managed} {live : LiveSim G} {info : SimulationInfo}
    (filed : m.Filed) (facts : Facts m (.replay id rand) (.halted old))
    (built : instantiate host upsert (newID rand) (old.info.config.request id) = .ok (live, info)) :
    Facts (m.alloc live) (.replay id rand) (.built ⟨m.heap.length, info⟩) := by
  obtain ⟨forID, infoID⟩ := id_of_instantiate built
  have named := filed.named id old (facts.holds old rfl)
  rw [RunConfig.request, if_neg named] at infoID
  refine ⟨by rintro _ ⟨⟩, ?_, by rintro ⟨⟩, ?_, by rintro _ ⟨⟩⟩
  · intro _
    obtain ⟨mg, mapped, still⟩ := facts.calmed rfl
    exact ⟨mg, mapped, (Manager.Calm.alloc m (Manager.state_of_instantiate built)).still _ still⟩
  · intro mg carried
    cases carried
    exact Manager.isFor_alloc_self (forID.trans infoID)

theorem placed {id : String} {rand : Option (Fin 8 → UInt8)}
    {mg : Managed} (made : mg.sim < m.heap.length) :
    Facts (m.put id mg made) (.replay id rand) (.placed mg) :=
  .of_holds rfl (by simp [Manager.put, Task.id]) rfl rfl rfl rfl

theorem not_going_of_calmed {point : Point} {mg : Managed}
    (facts : Facts m task point) (calmed : task.calmed point = true)
    (mapped : m.sims task.id = some mg) : ¬ (m.state mg.sim).isGoing = true := by
  obtain ⟨held, mappedAgain, still⟩ := facts.calmed calmed
  rw [mapped, Option.some.injEq] at mappedAgain
  rw [mappedAgain, still]
  decide

end Request.Facts

open Request in
theorem Progress.facts {host : Host G M} {t : Nat} {m : Manager G}
    {claims : Option Claims} {input : Input G} {task : Task}
    {point next : Point} {outcome : Outcome G} (filed : m.Filed) (facts : Facts m task point)
    (progress : Progress host t m claims input task point outcome)
    (goes : outcome.point = some next) : Facts outcome.manager task next := by
  cases progress with
  | passes handler allowed =>
    cases goes
    exact .admitted
  | found looks mapped =>
    cases goes
    exact .found mapped
  | build built =>
    cases goes
    exact .built_create built
  | insert inserted =>
    cases goes
    obtain ⟨missing, sameID, _⟩ := Manager.createSimulation_eq_ok inserted
    exact facts.stored filed missing sameID
  | @operate op id mg live next here ran =>
    cases goes
    cases op <;> exact .of_none rfl rfl rfl rfl rfl
  | @notRunning id mg still | @notPaused id mg still =>
    cases goes
    exact .of_holds rfl (facts.holds mg rfl) rfl rfl rfl rfl
  | @halt id mg | @replayHalt id random mg =>
    cases goes
    exact .halted (facts.holds mg rfl)
  | @remove id mg =>
    cases goes
    exact .removed filed (facts.holds mg rfl)
  | rebuild built =>
    cases goes
    exact .rebuilt filed facts built
  | place made =>
    cases goes
    exact .placed made
  | _ => cases goes <;> exact .of_none rfl rfl rfl rfl rfl

theorem exclusive_of_holds {task : Task} {point : Point} {mg : Managed}
    (held : task.holds point = some mg) : task.exclusive = true := by
  cases task with
  | lifecycle op id => cases op <;> cases point <;> first | rfl | cases held
  | delete id | replay id rand => rfl
  | _ => cases point <;> cases held

theorem exclusive_of_calmed {task : Task} {point : Point}
    (calmed : task.calmed point = true) : task.exclusive = true := by
  cases task with
  | delete id | replay id rand => rfl
  | _ => cases point <;> cases calmed

namespace Disturbs

variable {m after : Manager G} {task : Task} {point : Point}

section

variable (disturbs : Disturbs m task point after)
include disturbs

theorem isFor (addr : Nat) (id : String) (made : m.IsFor addr id) : after.IsFor addr id := by
  cases disturbs with
  | start held here steps =>
    exact Manager.Calm.isFor_setSim here steps.built made
  | _ => exact made

theorem stableAt (filed : m.Filed) (facts : Request.Facts m task point) {id : String}
    (different : id ≠ task.id) : Manager.StableAt id m after := by
  cases disturbs with
  | @put req random now mg made =>
    have elsewhere : id ≠ mg.info.id := by
      rw [facts.records mg rfl]
      exact different
    exact .of_sims rfl (Function.update_of_ne elsewhere _ _) fun held => held
  | @start _ _ mg live next a held here steps =>
    refine ⟨rfl, fun stored => stored, fun _ _ =>
      Manager.Calm.isFor_setSim here steps.built, ?_⟩
    intro other mapped still
    have apart : other.sim ≠ mg.sim := by
      intro same
      have first := filed.isFor id other mapped
      have second := filed.isFor task.id mg (facts.holds mg held)
      rw [same] at first
      exact different (first.unique second)
    rw [Manager.state_setSim_of_ne apart]
    exact still
  | remove | place made => exact .of_sims rfl (Function.update_of_ne different _ _) fun held => held
  | @deleteRow target =>
    have unchanged : (m.setRow target none).rows id = m.rows id :=
      Function.update_of_ne different _ _
    exact .of_sims rfl rfl (by rw [unchanged]; exact fun stored => stored)

theorem unconcerned (facts : Request.Facts m task point) {other : Task} {there : Point}
    (otherFacts : Request.Facts m other there) (eq : other.id = task.id)
    (apart : task.exclusive = true → other.exclusive = false)
    (lone : task.vacant point = true → other.vacant there = false) :
    other.holds there = none ∧ other.calmed there = false ∧ other.vacant there = false := by
  have passive : task.exclusive = true → other.holds there = none ∧ other.calmed there = false := by
    intro exclusive
    have notExclusive := apart exclusive
    constructor
    · by_contra held
      obtain ⟨mg, held⟩ := Option.ne_none_iff_exists'.mp held
      rw [exclusive_of_holds held] at notExclusive
      cases notExclusive
    · by_contra calmed
      rw [Bool.not_eq_false] at calmed
      rw [exclusive_of_calmed calmed] at notExclusive
      cases notExclusive
  have occupied : ∀ mg, m.sims task.id = some mg → other.vacant there = false := by
    intro mg mapped
    by_contra vacant
    rw [Bool.not_eq_false] at vacant
    obtain ⟨missing, _⟩ := otherFacts.vacant vacant
    rw [eq, mapped] at missing
    cases missing
  cases disturbs with
  | put made =>
    obtain ⟨missing, _⟩ := facts.vacant rfl
    refine ⟨?_, ?_, lone rfl⟩
    · by_contra held
      obtain ⟨mg, held⟩ := Option.ne_none_iff_exists'.mp held
      have mapped := otherFacts.holds mg held
      rw [eq, missing] at mapped
      cases mapped
    · by_contra calmed
      rw [Bool.not_eq_false] at calmed
      obtain ⟨mg, mapped, _⟩ := otherFacts.calmed calmed
      rw [eq, missing] at mapped
      cases mapped
  | @start _ _ mg live next a held here steps =>
    obtain ⟨holds, calmed⟩ := passive (exclusive_of_holds held)
    exact ⟨holds, calmed, occupied mg (facts.holds mg held)⟩
  | @remove id mg =>
    obtain ⟨holds, calmed⟩ := passive rfl
    exact ⟨holds, calmed, occupied mg (facts.holds mg rfl)⟩
  | deleteRow =>
    obtain ⟨holds, calmed⟩ := passive rfl
    exact ⟨holds, calmed, lone rfl⟩
  | place made =>
    obtain ⟨holds, calmed⟩ := passive rfl
    obtain ⟨mg, mapped, _⟩ := facts.calmed rfl
    exact ⟨holds, calmed, occupied mg mapped⟩

theorem otherFacts (filed : m.Filed) (facts : Request.Facts m task point) {other : Task}
    {there : Point} (otherFacts : Request.Facts m other there)
    (apart : other.id = task.id → task.exclusive = true → other.exclusive = false)
    (lone : other.id = task.id → task.vacant point = true →
      other.vacant there = false) : Request.Facts after other there := by
  by_cases eq : other.id = task.id
  · obtain ⟨holds, calmed, vacant⟩ := disturbs.unconcerned facts otherFacts eq (apart eq) (lone eq)
    exact otherFacts.of_unconcerned disturbs.isFor holds calmed vacant
  · exact otherFacts.of_stable (disturbs.stableAt filed facts eq)

theorem filed (filed : m.Filed) (facts : Request.Facts m task point) : after.Filed := by
  cases disturbs with
  | @put req rand now mg made =>
    have sameID := facts.records mg rfl
    apply filed.put made
    · rw [sameID]
      exact facts.carries mg rfl
    · rw [sameID]
      exact Task.id_create_ne req rand now
    · rw [sameID]
      exact (facts.vacant rfl).2
  | start held here steps =>
    refine ⟨?_, filed.named, filed.stored⟩
    intro id mg mapped
    exact Manager.Calm.isFor_setSim here steps.built (filed.isFor id mg mapped)
  | @remove id mg =>
    have before : ∀ other x, (m.remove id).sims other = some x → m.sims other = some x := by
      intro other x mapped
      by_cases eq : other = id
      · simp [eq] at mapped
      · simpa [Function.update_of_ne eq] using mapped
    exact ⟨fun _ _ mapped => filed.isFor _ _ (before _ _ mapped),
      fun _ _ mapped => filed.named _ _ (before _ _ mapped),
      fun _ _ mapped => filed.stored _ _ (before _ _ mapped)⟩
  | @deleteRow id =>
    refine ⟨filed.isFor, filed.named, ?_⟩
    intro other mg mapped
    have ne : other ≠ id := by
      rintro rfl
      have missing := (facts.vacant rfl).1
      rw [Task.id] at missing
      change m.sims other = some mg at mapped
      rw [missing] at mapped
      cases mapped
    have kept : (m.setRow id none).rows other = m.rows other := Function.update_of_ne ne _ _
    rw [kept]
    exact filed.stored other mg mapped
  | @place id rand mg made =>
    obtain ⟨old, mapped, _⟩ := facts.calmed rfl
    exact filed.put made (facts.carries mg rfl) (filed.named id old mapped)
      (filed.stored id old mapped)

theorem reachable (filed : m.Filed) (facts : Request.Facts m task point) (reachable : m.Reachable) :
    after.Reachable := by
  cases disturbs with
  | @put req rand now mg made =>
    refine reachable.of_entries rfl fun id held mapped _ => ?_
    have ne : id ≠ mg.info.id := by
      rintro rfl
      have missing := (facts.vacant rfl).1
      rw [← facts.records mg rfl, mapped] at missing
      cases missing
    rw [Manager.sims_put, Function.update_of_ne ne, mapped]
  | @start _ _ mg live next a held here steps =>
    intro addr id going isFor
    by_cases eq : addr = mg.sim
    · have own := Manager.Calm.isFor_setSim here steps.built
        (filed.isFor _ mg (facts.holds mg held))
      rw [eq] at isFor
      rw [isFor.unique own]
      exact ⟨mg, facts.holds mg held, eq.symm⟩
    · rw [Manager.state_setSim_of_ne eq] at going
      exact reachable addr id going (Manager.isFor_before
        (fun _ => Manager.Calm.isFor_setSim here steps.built) going isFor)
  | @remove target mg =>
    refine reachable.of_entries rfl fun id held mapped going => ?_
    have ne : id ≠ target := by
      rintro rfl
      exact facts.not_going_of_calmed rfl mapped going
    rw [Manager.sims_remove, Function.update_of_ne ne, mapped]
  | deleteRow => exact reachable
  | @place target rand mg made =>
    refine reachable.of_entries rfl fun id held mapped going => ?_
    have ne : id ≠ target := by
      rintro rfl
      exact facts.not_going_of_calmed rfl mapped going
    rw [Manager.sims_put, Function.update_of_ne ne, mapped]

theorem missing (facts : Request.Facts m task point) {id : String} (none : m.sims id = none)
    (notPut : ∀ mg, task.records point = some mg → task.vacant point = true → id ≠ mg.info.id) :
    after.sims id = .none := by
  cases disturbs with
  | @put req rand now mg made =>
    rw [Manager.sims_put, Function.update_of_ne (notPut mg rfl rfl)]
    exact none
  | start held here steps | deleteRow => exact none
  | @remove target mg =>
    by_cases eq : id = target
    · rw [Manager.sims_remove, eq, Function.update_self]
    · rw [Manager.sims_remove, Function.update_of_ne eq]
      exact none
  | @place target rand mg made =>
    have ne : id ≠ target := by
      rintro rfl
      obtain ⟨old, mapped, _⟩ := facts.calmed rfl
      rw [Task.id, none] at mapped
      cases mapped
    rw [Manager.sims_put, Function.update_of_ne ne]
    exact none

end

end Disturbs

theorem Progress.vacant {host : Host G M} {t : Nat} {m : Manager G}
    {claims : Option Claims} {input : Input G} {task : Task}
    {point next : Point} {outcome : Outcome G} (facts : Request.Facts m task point)
    (progress : Progress host t m claims input task point outcome)
    (goes : outcome.point = some next) (vacant : task.vacant next = true) :
    m.rows task.id = none ∨ ∃ mg, m.sims task.id = some mg := by
  cases progress with
  | @insert req rand now mg row inserted =>
    left
    obtain ⟨missing, _⟩ := Manager.createSimulation_eq_ok inserted
    rw [facts.records mg rfl] at missing
    exact missing
  | @remove id mg => exact .inr ⟨mg, facts.holds mg rfl⟩
  | found looks mapped => exact .inr ⟨_, mapped⟩
  | passes handler ok =>
    cases goes
    cases task <;> cases vacant
  | _ => cases goes <;> cases vacant

end Runner

end Simulator
