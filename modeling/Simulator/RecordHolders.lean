import Simulator.RequestFacts

/-!
# Which simulations requests hold

A new simulation that is not yet in the map is held by the request that has made it and
by no other.
-/

namespace Simulator

open Option Function

namespace Runner

variable {G : GoTypes} {M : Type}

namespace Manager

structure SameAt (id : String) (m after : Manager G) : Prop where
  sims : after.sims id = m.sims id
  rows : after.rows id = m.rows id
  heap : ∀ address, m.IsFor address id → after.heap[address]? = m.heap[address]?

namespace SameAt

variable {m : Manager G} {id other : String}

theorem refl (m : Manager G) : SameAt id m m :=
  ⟨rfl, rfl, fun _ _ => rfl⟩

variable {address : Nat}

theorem setSim {live : LiveSim G} (ne : id ≠ other)
    (made : m.IsFor address other) : SameAt id m (m.setSim address live) := by
  refine ⟨rfl, rfl, ?_⟩
  intro target isFor
  have apart : address ≠ target := by
    rintro rfl
    exact ne (isFor.unique made)
  exact List.getElem?_set_ne apart

theorem alloc (m : Manager G) (live : LiveSim G) : SameAt id m (m.alloc live) := by
  refine ⟨rfl, rfl, ?_⟩
  rintro address ⟨held, here, _⟩
  exact List.getElem?_append_left (List.getElem?_eq_some_iff.mp here).1

theorem setRow (row : Option SimulationInfo) (ne : id ≠ other) :
    SameAt id m (m.setRow other row) :=
  ⟨rfl, Function.update_of_ne ne _ _, fun _ _ => rfl⟩

theorem updateStatus (fails : Option String) (status : String) (ne : id ≠ other) :
    SameAt id m (m.updateStatus fails other status) := by
  unfold Manager.updateStatus
  split
  · exact .setRow _ ne
  · exact .refl m

theorem put {mg : Managed} (made : mg.sim < m.heap.length)
    (ne : id ≠ other) : SameAt id m (m.put other mg made) :=
  ⟨Function.update_of_ne ne _ _, rfl, fun _ _ => rfl⟩

theorem remove (ne : id ≠ other) : SameAt id m (m.remove other) :=
  ⟨Function.update_of_ne ne _ _, rfl, fun _ _ => rfl⟩

theorem halted (ne : id ≠ other)
    (made : m.IsFor address other) : SameAt id m (m.halted address) := by
  rcases m.halted_cases address with ⟨eq, _⟩ | ⟨live, next, here, _, _, eq⟩
  · rw [eq]
    exact .refl m
  · rw [eq]
    exact .setSim ne made

end SameAt

end Manager

theorem held_of_carries {task : Task} {point : Point} {mg : Managed}
    (carried : task.carries point = some mg) : point.held = some mg := by
  cases task <;> cases point <;> first | exact carried | cases carried

inductive HeldFrom (m after : Manager G) (task : Task) (point next : Point)
    (mg : Managed) : Prop
  | kept {old : Managed} (held : point.held = some old) (same : old.sim = mg.sim)
      (carried : task.carries next = some mg → task.carries point = some old ∧ after.heap = m.heap)
  | looked (mapped : m.sims task.id = some mg) (notCarried : task.carries next = none)
  | made {live : LiveSim G} (address : mg.sim = m.heap.length)
      (grown : after = m.alloc live) (fresh : live.sim.Fresh)
      (isFor : live.built.cfg.id = task.id) (named : task.id ≠ "")

inductive Works (t : Nat) (m : Manager G) :
    Task → Point → Outcome G → Prop
  | nothing {task : Task} {point : Point} {outcome : Outcome G}
      (heap : outcome.manager.heap = m.heap) : Works t m task point outcome
  | alloc {task : Task} {point : Point} {outcome : Outcome G}
      {live : LiveSim G} (heap : outcome.manager.heap = m.heap ++ [live]) :
      Works t m task point outcome
  | start {task : Task} {point : Point} {mg : Managed} {live next : LiveSim G}
      {limit : Limit (World G × live.built.Extra)} (starts : task.starts point = some mg)
      (here : m.heap[mg.sim]? = some live) (steps : live.Steps next (.start limit)) :
      Works t m task point (.goesOn (m.setSim mg.sim next) .applied)
  | control {op : Lifecycle} {id : String} {mg : Managed}
      {live next : LiveSim G} (other : op ≠ .start) (here : m.heap[mg.sim]? = some live)
      (steps : live.Steps next (op.action live)) : Works t m (.lifecycle op id) (.found mg)
        (.goesOn (m.setSim mg.sim next) .applied)
  | halt {task : Task} {point : Point} {mg : Managed}
      {live next : LiveSim G} (held : point.held = some mg)
      (here : m.heap[mg.sim]? = some live) (steps : live.Steps next .stop)
      (going : live.state.isGoing = true) :
      Works t m task point (.goesOn (m.setSim mg.sim next) (.halted mg))
  | call {f : Method} {id : String} {point : Point} {mg : Managed}
      {live next : LiveSim G} {a : Action live.built.executor}
      {outcome : Outcome G} (held : point.held = some mg)
      (here : m.heap[mg.sim]? = some live) (steps : live.Steps next a) (isCall : a.isCall = true)
      (leaves : ∀ k, a = .leaveStep k → k = t ∧ f = .step ∧ point = .working mg)
      (worked : outcome.manager = m.setSim mg.sim next) : Works t m (.method f id) point outcome

inductive WorksOn (t : Nat) (m : Manager G) (task : Task) (point : Point)
    (outcome : Outcome G) (live : LiveSim G) : LiveSim G → Prop
  | start {mg : Managed} {next : LiveSim G} {limit : Limit (World G × live.built.Extra)}
      (starts : task.starts point = some mg) (here : m.heap[mg.sim]? = some live)
      (goes : outcome.point = some .applied) (steps : live.Steps next (.start limit)) :
      WorksOn t m task point outcome live next
  | control {op : Lifecycle} {id : String} {next : LiveSim G}
      (isControl : task = .lifecycle op id) (other : op ≠ .start)
      (goes : outcome.point = some .applied) (steps : live.Steps next (op.action live)) :
      WorksOn t m task point outcome live next
  | halt {next : LiveSim G} (going : live.state.isGoing = true) (steps : live.Steps next .stop) :
      WorksOn t m task point outcome live next
  | call {f : Method} {id : String} {next : LiveSim G}
      {a : Action live.built.executor} (isMethod : task = .method f id)
      (steps : live.Steps next a) (isCall : a.isCall = true)
      (leaves : ∀ k, a = .leaveStep k → k = t ∧ f = .step ∧
        ∃ mg, point = .working mg ∧ m.heap[mg.sim]? = some live) :
      WorksOn t m task point outcome live next

section Steps

variable {host : Host G M} {t : Nat} {m : Manager G} {claims : Option Claims} {input : Input G}
  {task : Task} {point : Point} {outcome : Outcome G} {mg : Managed} {address : Nat} {id : String}

theorem Progress.held_from (named : ∀ mg, point.held = some mg → task.id ≠ "")
    (moves : Progress host t m claims input task point outcome)
    {next : Point} (goes : outcome.point = some next) (held : next.held = some mg) :
    HeldFrom m outcome.manager task point next mg := by
  cases moves with
  | passes handler ok =>
    cases goes
    cases held
  | found looks mapped =>
    cases goes
    cases held
    refine .looked mapped ?_
    cases task <;> rfl
  | @build req rand now live info built =>
    cases goes
    cases held
    obtain ⟨forID, infoID⟩ := id_of_instantiate built
    have sameID : (ownedBy claims req).simulationID = req.simulationID := by
      cases claims <;> rfl
    rw [sameID] at infoID
    refine .made rfl rfl ?_ (forID.trans infoID) (Task.id_create_ne req rand now)
    rw [(Manager.made_of_instantiate built).1]
    exact Sim.fresh_new _
  | insert inserted =>
    cases goes
    cases held
    exact .kept rfl rfl fun _ => ⟨rfl, rfl⟩
  | @rebuild id rand old live info built =>
    cases goes
    cases held
    obtain ⟨forID, infoID⟩ := id_of_instantiate built
    have nonempty : id ≠ "" := named old rfl
    rw [RunConfig.request, if_neg nonempty] at infoID
    refine .made rfl rfl ?_ (forID.trans infoID) nonempty
    rw [(Manager.made_of_instantiate built).1]
    exact Sim.fresh_new _
  | _ =>
    cases goes <;> cases held <;> exact .kept rfl rfl fun carried => by cases carried

theorem works_halted (held : point.held = some mg) :
    Works t m task point (.goesOn (m.halted mg.sim) (.halted mg)) := by
  cases going : (m.state mg.sim).isGoing with
  | false =>
    apply Works.nothing
    rw [Manager.halted_of_not_going going]
    rfl
  | true =>
    rcases m.halted_cases mg.sim with ⟨_, still⟩ | ⟨live, next, here, steps, _, eq⟩
    · rw [going] at still
      cases still
    · rw [eq]
      refine .halt held here steps ?_
      simpa [Manager.state, here] using going

variable {W : Type} {E : Executor W} {f : Method} {a : Action E} {k : Nat}

theorem leaveStep_of_method
    (made : f.enters t a = true ∨ f.inside t a = true) (left : a = .leaveStep k) : False := by
  subst left
  cases f <;> rcases made with made | made <;> cases made

theorem step_of_leaves (leaves : f.leaves t a = true)
    (left : a = .leaveStep k) : k = t ∧ f = .step := by
  subst left
  cases f with
  | step => exact ⟨by simpa [Method.leaves] using leaves, rfl⟩
  | _ => cases leaves

theorem Progress.works (moves : Progress host t m claims input task point outcome) :
    Works t m task point outcome := by
  cases moves with
  | build built | rebuild built => exact .alloc rfl
  | @operate op id mg live next here ran =>
    cases op with
    | start => exact .start rfl here (steps_of_run .start ran)
    | pause => exact .control nofun here (steps_of_run .pause ran)
    | resume => exact .control nofun here (steps_of_run .resume ran)
    | stop => exact .control nofun here (steps_of_run .stop ran)
  | announce other | announceStart | writeState | announceReplay | watchWrite =>
    exact .nothing (m.updateStatus_frame _ _ _).2.1
  | enter here enters acted =>
    exact .call rfl here (LiveSim.steps_of_act acted) (isCall_of_method (.inl enters))
      (fun _ left => (leaveStep_of_method (.inl enters) left).elim) rfl
  | work here lt acted =>
    exact .call rfl here (LiveSim.steps_of_act acted) (isCall_of_method (.inr (.inl lt)))
      (fun _ left => (leaveStep_of_method (.inr lt) left).elim) rfl
  | @finish f id mg live next here leaves acted succeeds
  | @leave f id mg live next here leaves acted other =>
    refine .call rfl here (LiveSim.steps_of_act acted)
      (isCall_of_method (.inr (.inr leaves))) ?_ rfl
    intro k left
    obtain ⟨mine, step⟩ := step_of_leaves leaves left
    exact ⟨mine, step, rfl⟩
  | halt | replayHalt => exact works_halted rfl
  | restart here ran => exact .start rfl here (steps_of_run .start ran)
  | _ => exact .nothing rfl

theorem held_of_starts (starts : task.starts point = some mg) : point.held = some mg := by
  cases task with
  | lifecycle op id =>
    cases op <;> cases point <;> first | exact starts | cases starts
  | _ => cases point <;> first | exact starts | cases starts

theorem Works.heap_at (works : Works t m task point outcome)
    (apart : ∀ mg, point.held = some mg → mg.sim ≠ address) (lt : address < m.heap.length) :
    outcome.manager.heap[address]? = m.heap[address]? := by
  have set : ∀ {mg : Managed} {next : LiveSim G}, point.held = some mg →
      (m.setSim mg.sim next).heap[address]? = m.heap[address]? := by
    intro mg next held
    exact List.getElem?_set_ne (apart mg held)
  cases works with
  | nothing heap => rw [heap]
  | alloc heap =>
    rw [heap]
    exact List.getElem?_append_left lt
  | start starts here steps => exact set (held_of_starts starts)
  | control other here steps => exact set rfl
  | halt held here steps going => exact set held
  | call held here steps isCall leaves worked =>
    rw [worked]
    exact set held

theorem Works.worksOn (works : Works t m task point outcome)
    {live : LiveSim G} (here : m.heap[address]? = some live) :
    outcome.manager.heap[address]? = some live ∨
    ∃ next, outcome.manager.heap[address]? = some next ∧
      WorksOn t m task point outcome live next := by
  have lt := (List.getElem?_eq_some_iff.mp here).1
  by_cases apart : ∀ mg, point.held = some mg → mg.sim ≠ address
  · left
    rw [works.heap_at apart lt, here]
  · push Not at apart
    obtain ⟨mg, held, rfl⟩ := apart
    have set : ∀ next, (m.setSim mg.sim next).heap[mg.sim]? = some next :=
      fun next => List.getElem?_set_self lt
    cases works with
    | nothing heap =>
      left
      rw [heap, here]
    | alloc heap =>
      left
      rw [heap, List.getElem?_append_left lt, here]
    | @start _ _ other _ next limit starts here' steps =>
      have sameMg := held_of_starts starts
      rw [held, Option.some.injEq] at sameMg
      subst sameMg
      rw [here, some.injEq] at here'
      subst here'
      exact .inr ⟨next, set next, .start starts here rfl steps⟩
    | @control op id other _ next notStart here' steps =>
      cases held
      rw [here, Option.some.injEq] at here'
      subst here'
      exact .inr ⟨next, set next, .control rfl notStart rfl steps⟩
    | @halt _ _ other _ next held' here' steps going =>
      rw [held, Option.some.injEq] at held'
      subst held'
      rw [here, some.injEq] at here'
      subst here'
      exact .inr ⟨next, set next, .halt going steps⟩
    | @call f id _ other _ next a _ held' here' steps isCall leaves worked =>
        rw [held, Option.some.injEq] at held'
        subst held'
        rw [here, some.injEq] at here'
        subst here'
        refine .inr ⟨next, by rw [worked, set next], .call rfl steps isCall ?_⟩
        intro k left
        obtain ⟨mine, step, working⟩ := leaves k left
        exact ⟨mine, step, mg, working, here⟩

theorem Progress.entry_from (records : ∀ mg, task.records point = some mg → mg.info.id = task.id)
    (moves : Progress host t m claims input task point outcome)
    (mapped : outcome.manager.sims id = some mg) :
    m.sims id = some mg ∨ (id = task.id ∧ task.carries point = some mg ∧
        (∀ next, outcome.point = some next → task.carries next = none) ∧
        outcome.manager.heap = m.heap) := by
  have x : ∀ {other : String} {new : Managed},
      Function.update m.sims other (some new) id = some mg →
        m.sims id = some mg ∨ (id = other ∧ new = mg) := by
    intro other new updated
    by_cases eq : id = other
    · rw [eq, update_self, some.injEq] at updated
      exact .inr ⟨eq, updated⟩
    · rw [Function.update_of_ne eq] at updated
      exact .inl updated
  cases moves with
  | @put req rand now new made =>
    rcases x mapped with before | ⟨rfl, rfl⟩
    · exact .inl before
    · refine .inr ⟨records new rfl, rfl, ?_, rfl⟩
      intro next goes
      cases goes
  | @place other rand new made =>
    rcases x mapped with before | ⟨rfl, rfl⟩
    · exact .inl before
    · refine .inr ⟨rfl, rfl, ?_, rfl⟩
      intro next goes
      cases goes
      rfl
  | @remove other old =>
    left
    change Function.update m.sims other none id = some mg at mapped
    by_cases eq : id = other
    · rw [eq, update_self] at mapped
      cases mapped
    · rw [update_of_ne eq] at mapped
      exact mapped
  | @halt other held | @replayHalt other rand held =>
    exact .inl (congrFun (m.sims_halted held.sim) id ▸ mapped)
  | announce other | announceStart | writeState | announceReplay | watchWrite =>
    exact .inl (congrFun (m.updateStatus_frame _ _ _).1 id ▸ mapped)
  | _ => exact .inl mapped

theorem Progress.isFor (moves : Progress host t m claims input task point outcome)
    (made : m.IsFor address id) : outcome.manager.IsFor address id := by
  rcases moves.calm_or_disturbs with calm | disturbs
  · exact calm.isFor address id made
  · exact disturbs.isFor address id made

theorem Progress.elsewhere (holds : ∀ mg, point.held = some mg → m.IsFor mg.sim task.id)
    (records : ∀ mg, task.records point = some mg → mg.info.id = task.id)
    (moves : Progress host t m claims input task point outcome) (ne : id ≠ task.id) :
    Manager.SameAt id m outcome.manager := by
  cases moves with
  | build built | rebuild built => exact .alloc m _
  | @insert req rand now mg row inserted =>
    obtain ⟨_, sameID, _⟩ := Manager.createSimulation_eq_ok inserted
    apply Manager.SameAt.setRow
    rw [sameID, records mg rfl]
    exact ne
  | @put req rand now mg made =>
    apply Manager.SameAt.put made
    rw [records mg rfl]
    exact ne
  | @operate op target mg live next here ran | @enter f target mg live next here enters acted
  | @work f target mg live next here lt acted
  | @finish f target mg live next here leaves acted succeeds
  | @leave f target mg live next here leaves acted other
  | @restart target rand mg live next here ran =>
    exact .setSim ne (holds mg rfl)
  | announce other | announceStart | writeState | announceReplay | watchWrite =>
    exact .updateStatus _ _ ne
  | @halt target mg | @replayHalt target rand mg => exact .halted ne (holds mg rfl)
  | remove => exact .remove ne
  | deleteRow stored => exact .setRow none ne
  | place made => exact .put made ne
  | _ => exact .refl m

end Steps

namespace Server

/-- The server after a step of the goroutine `t`, which may have left a
`watch` behind. -/
structure After (s : Server G) (t : Nat) (r : Request) (outcome : Outcome G)
    (next : Server G) : Prop where
  manager : next.manager = outcome.manager
  own : ∀ point, outcome.point = some point → next.threads t = some { r with point := point }
  others : ∀ u q, u ≠ t → s.threads u = some q → next.threads u = some q
  spawned : outcome.watched = true → ∃ u, next.threads u = some ⟨none, .watch r.task.id, .entered⟩
  cases : ∀ u q, next.threads u = some q → (u = t ∧ ∃ point, outcome.point = some point ∧
      q = { r with point := point }) ∨ (u ≠ t ∧ s.threads u = some q) ∨
    q = ⟨none, .watch r.task.id, .entered⟩

section

variable {s : Server G} {t : Nat} {r : Request} {outcome : Outcome G} {input : Input G}

theorem after_advance (alone : outcome.watched = false) :
    After s t r outcome ⟨outcome.manager, Function.update s.threads t
        (outcome.point.map fun point => { r with point := point }), note s.deleted r input⟩ where
  manager := rfl
  own := by
    intro point goes
    simp [goes]
  others := by
    intro u q ne held
    rw [← held]
    exact Function.update_of_ne ne _ _
  spawned := by
    intro watched
    rw [alone] at watched
    cases watched
  cases := by
    intro u q held
    rcases thread_cases held with ⟨eq, mine⟩ | old
    · obtain ⟨point, goes, rfl⟩ := Option.map_eq_some_iff.mp mine
      exact .inl ⟨eq, point, goes, rfl⟩
    · exact .inr (.inl old)

theorem after_spawn (free : Function.update s.threads t
      (outcome.point.map fun point => { r with point := point }) input.spawn = none) :
    After s t r outcome ⟨outcome.manager, Function.update (Function.update s.threads t
          (outcome.point.map fun point => { r with point := point }))
        input.spawn (some ⟨none, .watch r.task.id, .entered⟩), note s.deleted r input⟩ where
  manager := rfl
  own := by
    intro point goes
    have ne : t ≠ input.spawn := by
      intro eq
      rw [← eq, update_self, goes] at free
      cases free
    simp [Function.update_of_ne ne, goes]
  others := by
    intro u q ne held
    have apart : u ≠ input.spawn := by
      rintro rfl
      rw [Function.update_of_ne ne, held] at free
      cases free
    simp [Function.update_of_ne apart, Function.update_of_ne ne, held]
  spawned := fun _ => ⟨input.spawn, Function.update_self _ _ _⟩
  cases := by
    intro u q held
    rcases thread_cases held with ⟨_, new⟩ | ⟨_, old⟩
    · exact .inr (.inr (Option.some.inj new).symm)
    · rcases thread_cases old with ⟨eq, mine⟩ | before
      · obtain ⟨point, goes, rfl⟩ := Option.map_eq_some_iff.mp mine
        exact .inl ⟨eq, point, goes, rfl⟩
      · exact .inr (.inl before)

end

structure Sound (s : Server G) : Prop where
  isFor : ∀ id mg, s.manager.sims id = some mg → s.manager.IsFor mg.sim id
  named : ∀ id mg, s.manager.sims id = some mg → id ≠ ""
  held : ∀ t r mg, s.threads t = some r → r.point.held = some mg → s.manager.IsFor mg.sim r.task.id
  heldNamed : ∀ t r mg, s.threads t = some r → r.point.held = some mg → r.task.id ≠ ""
  records : ∀ t r mg, s.threads t = some r →
    r.task.records r.point = some mg → mg.info.id = r.task.id

theorem sound_new (rows : String → Option SimulationInfo) :
    (Server.new (Manager.new rows) : Server G).Sound where
  isFor := fun _ _ mapped => by cases mapped
  named := fun _ _ mapped => by cases mapped
  held := fun _ _ _ held => by cases held
  heldNamed := fun _ _ _ held => by cases held
  records := fun _ _ _ held => by cases held

variable {task : Task} {s : Server G}

theorem records_entered {mg : Managed} : task.records .entered ≠ some mg := by
  cases task <;> exact nofun

theorem Sound.call (sound : s.Sound) {t : Nat} {claims : Option Claims} :
    Sound { s with
      threads := Function.update s.threads t (some ⟨claims, task, .entered⟩) } where
  isFor := sound.isFor
  named := sound.named
  held := by
    intro u q mg held has
    rcases thread_cases held with ⟨_, eq⟩ | ⟨_, old⟩
    · cases eq
      cases has
    · exact sound.held u q mg old has
  heldNamed := by
    intro u q mg held has
    rcases thread_cases held with ⟨_, eq⟩ | ⟨_, old⟩
    · cases eq
      cases has
    · exact sound.heldNamed u q mg old has
  records := by
    intro u q mg held has
    rcases thread_cases held with ⟨_, eq⟩ | ⟨_, old⟩
    · cases eq
      exact absurd has records_entered
    · exact sound.records u q mg old has

theorem Sound.background (sound : s.Sound) {address : Nat}
    {live next : LiveSim G} {a : Action live.built.executor}
    (here : s.manager.heap[address]? = some live) (steps : live.Steps next a) :
    Sound { s with manager := s.manager.setSim address next } where
  isFor := by
    intro id mg mapped
    exact Manager.Calm.isFor_setSim here steps.built (sound.isFor id mg mapped)
  named := sound.named
  held := by
    intro t r mg held has
    exact Manager.Calm.isFor_setSim here steps.built (sound.held t r mg held has)
  heldNamed := sound.heldNamed
  records := sound.records

section Advance

variable {s next : Server G} {host : Host G M} {t : Nat} {r : Request} {input : Input G}
  {outcome : Outcome G}

theorem Sound.held_advance (sound : s.Sound) (here : s.threads t = some r)
    (moves : Progress host t s.manager r.claims input r.task r.point
      outcome) {point : Point} (goes : outcome.point = some point)
    {mg : Managed} (held : point.held = some mg) :
    outcome.manager.IsFor mg.sim r.task.id ∧ r.task.id ≠ "" := by
  have named := fun mg => sound.heldNamed t r mg here
  cases moves.held_from named goes held with
  | @kept old heldBefore eq carried =>
    rw [← eq]
    exact ⟨moves.isFor (sound.held t r old here heldBefore), named old heldBefore⟩
  | looked mapped notCarried =>
    exact ⟨moves.isFor (sound.isFor _ mg mapped), sound.named _ mg mapped⟩
  | @made live address grown fresh isFor nonempty =>
    refine ⟨⟨live, ?_, isFor⟩, nonempty⟩
    rw [grown, address]
    simp [Manager.alloc]

theorem Sound.advance (sound : s.Sound) (here : s.threads t = some r)
    (moves : Progress host t s.manager r.claims input r.task r.point
      outcome) (after : After s t r outcome next) : next.Sound where
  isFor := by
    intro id mg mapped
    rw [after.manager] at mapped ⊢
    rcases moves.entry_from (fun mg => sound.records t r mg here) mapped
      with old | ⟨rfl, carried, _⟩
    · exact moves.isFor (sound.isFor id mg old)
    · exact moves.isFor (sound.held t r mg here (held_of_carries carried))
  named := by
    intro id mg mapped
    rw [after.manager] at mapped
    rcases moves.entry_from (fun mg => sound.records t r mg here) mapped
      with old | ⟨rfl, carried, _⟩
    · exact sound.named id mg old
    · exact sound.heldNamed t r mg here (held_of_carries carried)
  held := by
    intro u q mg held has
    rw [after.manager]
    rcases after.cases u q held with ⟨_, point, goes, rfl⟩ | ⟨_, old⟩ | rfl
    · exact (sound.held_advance here moves goes has).1
    · exact moves.isFor (sound.held u q mg old has)
    · cases has
  heldNamed := by
    intro u q mg held has
    rcases after.cases u q held with ⟨_, point, goes, rfl⟩ | ⟨_, old⟩ | rfl
    · exact (sound.held_advance here moves goes has).2
    · exact sound.heldNamed u q mg old has
    · cases has
  records := by
    intro u q mg held has
    rcases after.cases u q held with ⟨_, point, goes, rfl⟩ | ⟨_, old⟩ | rfl
    · exact moves.records (fun mg => sound.records t r mg here) goes has
    · exact sound.records u q mg old has
    · cases has

end Advance

end Server

def Manager.FreshAt (m : Manager G) (address : Nat) : Prop :=
  ∃ live, m.heap[address]? = some live ∧ live.sim.Fresh

variable {m : Manager G} {address : Nat}

theorem Manager.FreshAt.inside (fresh : m.FreshAt address) : address < m.heap.length := by
  obtain ⟨live, here, _⟩ := fresh
  exact (List.getElem?_eq_some_iff.mp here).1

theorem Manager.IsFor.inside {id : String}
    (made : m.IsFor address id) : address < m.heap.length := by
  obtain ⟨live, here, _⟩ := made
  exact (List.getElem?_eq_some_iff.mp here).1

theorem carries_entered {task : Task} {mg : Managed} : task.carries .entered ≠ some mg := by
  cases task <;> exact nofun

namespace Server

structure Unshared (id : String) (s : Server G) : Prop where
  fresh : ∀ t r mg, s.threads t = some r → r.task.id = id →
    r.task.carries r.point = some mg → s.manager.FreshAt mg.sim
  unmapped : ∀ t r mg held, s.threads t = some r → r.task.id = id →
    r.task.carries r.point = some mg → s.manager.sims id = some held → held.sim ≠ mg.sim
  unheld : ∀ t u r q mg held, s.threads t = some r → s.threads u = some q →
    u ≠ t → r.task.id = id → q.task.id = id →
    r.task.carries r.point = some mg → q.point.held = some held → held.sim ≠ mg.sim

theorem unshared_new (id : String) (rows : String → Option SimulationInfo) :
    (Server.new (Manager.new rows) : Server G).Unshared id where
  fresh := fun _ _ _ held => by cases held
  unmapped := fun _ _ _ _ held => by cases held
  unheld := fun _ _ _ _ _ _ held => by cases held

variable {s : Server G}

theorem Unshared.call {id : String}
    (unshared : s.Unshared id) {t : Nat} {claims : Option Claims} {task : Task} :
    Unshared id { s with
      threads := Function.update s.threads t (some ⟨claims, task, .entered⟩) } where
  fresh := by
    intro u q mg held sameID carried
    rcases thread_cases held with ⟨_, eq⟩ | ⟨_, old⟩
    · cases eq
      exact absurd carried carries_entered
    · exact unshared.fresh u q mg old sameID carried
  unmapped := by
    intro u q mg x held sameID carried mapped
    rcases thread_cases held with ⟨_, eq⟩ | ⟨_, old⟩
    · cases eq
      exact absurd carried carries_entered
    · exact unshared.unmapped u q mg x old sameID carried mapped
  unheld := by
    intro u v q p mg other held held' ne sameQ sameP carried has
    rcases thread_cases held with ⟨_, eq⟩ | ⟨_, old⟩
    · cases eq
      exact absurd carried carries_entered
    · rcases thread_cases held' with ⟨_, eq⟩ | ⟨_, old'⟩
      · cases eq
        cases has
      · exact unshared.unheld u v q p mg other old old' ne sameQ sameP carried has

theorem Unshared.background {id : String}
    (unshared : s.Unshared id) {address : Nat} {live next : LiveSim G}
    (here : s.manager.heap[address]? = some live) (started : ¬ live.sim.Fresh) :
    Unshared id { s with manager := s.manager.setSim address next } where
  fresh := by
    intro t r mg held sameID carried
    obtain ⟨new, there, fresh⟩ := unshared.fresh t r mg held sameID carried
    have ne : address ≠ mg.sim := by
      rintro rfl
      rw [here, Option.some.injEq] at there
      exact started (there ▸ fresh)
    refine ⟨new, ?_, fresh⟩
    rw [← there]
    exact List.getElem?_set_ne ne
  unmapped := unshared.unmapped
  unheld := unshared.unheld

section Advance

variable {id : String} {s next : Server G} {host : Host G M} {t : Nat} {r : Request}
  {input : Input G} {outcome : Outcome G} {mg : Managed}

section

variable (unshared : s.Unshared id) (sound : s.Sound)
include unshared sound

theorem Unshared.apart {u : Nat} {q : Request} {held : Managed} (ne : t ≠ u)
    (there : s.threads u = some q) (sameID : q.task.id = id)
    (carried : q.task.carries q.point = some mg)
    (here : s.threads t = some r) (has : r.point.held = some held) : held.sim ≠ mg.sim := by
  by_cases own : r.task.id = id
  · exact unshared.unheld u t q r mg held there here ne sameID own carried has
  · intro eq
    have first := sound.held t r held here has
    have second := sound.held u q mg there (held_of_carries carried)
    rw [eq] at first
    exact own ((first.unique second).trans sameID)

theorem Unshared.fresh_own (here : s.threads t = some r)
    (moves : Progress host t s.manager r.claims input r.task r.point
      outcome) {point : Point} (goes : outcome.point = some point)
    (own : r.task.id = id) (carried : r.task.carries point = some mg) :
    outcome.manager.FreshAt mg.sim ∧
    ((∃ old, r.task.carries r.point = some old ∧ old.sim = mg.sim) ∨
      mg.sim = s.manager.heap.length) := by
  cases moves.held_from (fun mg => sound.heldNamed t r mg here) goes (held_of_carries carried) with
  | @kept old held eq before =>
    obtain ⟨carriedBefore, heap⟩ := before carried
    refine ⟨?_, .inl ⟨old, carriedBefore, eq⟩⟩
    obtain ⟨live, there, fresh⟩ := unshared.fresh t r old here own carriedBefore
    exact ⟨live, by rw [heap, ← eq, there], fresh⟩
  | looked mapped notCarried =>
    rw [notCarried] at carried
    cases carried
  | @made live address grown fresh isFor named =>
    refine ⟨⟨live, ?_, fresh⟩, .inr address⟩
    rw [grown, address]
    simp [Manager.alloc]

theorem Unshared.advance (here : s.threads t = some r)
    (moves : Progress host t s.manager r.claims input r.task r.point
      outcome) (after : After s t r outcome next) : next.Unshared id where
  fresh := by
    rw [after.manager]
    intro u q mg held sameID carried
    rcases after.cases u q held with ⟨_, point, goes, rfl⟩ | ⟨ne, before⟩ | rfl
    · exact (unshared.fresh_own sound here moves goes sameID carried).1
    · have freshBefore := unshared.fresh u q mg before sameID carried
      obtain ⟨live, there, fresh⟩ := freshBefore
      refine ⟨live, ?_, fresh⟩
      rw [← there]
      apply moves.works.heap_at
      · intro has
        exact unshared.apart sound ne.symm before sameID carried here
      · exact (List.getElem?_eq_some_iff.mp there).1
    · cases carried
  unmapped := by
    rw [after.manager]
    intro u q mg x held sameID carried mapped
    rcases moves.entry_from (fun mg => sound.records t r mg here) mapped
      with mappedBefore | ⟨own, carriedEntry, dropped, _⟩
    · rcases after.cases u q held with ⟨_, point, goes, rfl⟩ | ⟨_, before⟩ | rfl
      · obtain ⟨_, origin⟩ := unshared.fresh_own sound here moves goes sameID carried
        rcases origin with ⟨old, carriedBefore, eq⟩ | new
        · rw [← eq]
          exact unshared.unmapped t r old x here sameID carriedBefore mappedBefore
        · have lt := s.manager.linked id x mappedBefore
          omega
      · exact unshared.unmapped u q mg x before sameID carried mappedBefore
      · cases carried
    · rcases after.cases u q held with ⟨_, point, goes, rfl⟩ | ⟨ne, before⟩ | rfl
      · rw [dropped point goes] at carried
        cases carried
      · exact unshared.apart sound ne.symm before sameID carried here (held_of_carries carriedEntry)
      · cases carried
  unheld := by
    intro u v q p mg other held held' ne sameQ sameP carried has
    rcases after.cases u q held with ⟨rfl, point, goes, rfl⟩ | ⟨notT, before⟩ | rfl
    · rcases after.cases v p held' with ⟨rfl, _⟩ | ⟨_, old'⟩ | rfl
      · exact absurd rfl ne
      · obtain ⟨_, origin⟩ := unshared.fresh_own sound here moves goes sameQ carried
        rcases origin with ⟨old, carriedBefore, eq⟩ | new
        · rw [← eq]
          exact unshared.unheld u v r p old other here old' ne sameQ sameP carriedBefore has
        · have lt := (sound.held v p other old' has).inside
          omega
      · cases has
    · rcases after.cases v p held' with ⟨rfl, point, goes, rfl⟩ | ⟨_, old'⟩ | rfl
      · cases moves.held_from (fun mg => sound.heldNamed v r mg here) goes has with
        | @kept old heldBefore eq _ =>
          rw [← eq]
          exact unshared.unheld u v q r mg old before here ne sameQ sameP carried heldBefore
        | looked mapped _ =>
          have own : r.task.id = id := sameP
          rw [own] at mapped
          exact unshared.unmapped u q mg other before sameQ carried mapped
        | made address _ _ _ _ =>
          have lt := (unshared.fresh u q mg before sameQ carried).inside
          omega
      · exact unshared.unheld u v q p mg other before old' ne sameQ sameP carried has
      · cases has
    · cases carried

end

end Advance

structure Exclusive (s : Server G) : Prop where
  sound : s.Sound
  unshared : ∀ id, s.Unshared id

theorem Exclusive.advance {t : Nat} {r : Request} {input : Input G} {out : Outcome G}
    (exclusive : s.Exclusive) (here : s.threads t = some r)
    (moves : Progress host t s.manager r.claims input r.task r.point out)
    (after : After s t r out next) : next.Exclusive where
  sound := exclusive.sound.advance here moves after
  unshared id := (exclusive.unshared id).advance exclusive.sound here moves after

theorem Exclusive.step {move : Move G} (exclusive : s.Exclusive)
    (stepped : s.step host move = some next) : next.Exclusive := by
  cases moves_of_step stepped with
  | call free called => exact ⟨exclusive.sound.call, fun id => (exclusive.unshared id).call⟩
  | advance here moves alone => exact exclusive.advance here moves (after_advance alone)
  | spawn here moves watched free => exact exclusive.advance here moves (after_spawn free)
  | loop here steps =>
    obtain ⟨sim, moved, rfl⟩ := steps
    exact ⟨exclusive.sound.background here ⟨sim, moved, rfl⟩, fun id =>
      (exclusive.unshared id).background here fun fresh => fresh.no_loop moved⟩
  | watcher here steps =>
    obtain ⟨sim, moved, rfl⟩ := steps
    exact ⟨exclusive.sound.background here ⟨sim, moved, rfl⟩, fun id =>
      (exclusive.unshared id).background here fun fresh => fresh.no_watch moved⟩

/-- No two IDs stand for one simulation, no request works on that of another ID, and one
that `Create` or `Replay` has built is known to nobody else until it is in the map. -/
theorem simulations_exclusive (host : Host G M) (rows : String → Option SimulationInfo)
    (reached : Transition.Reachable (step host) (fun _ _ => True)
      (Server.new (Manager.new rows)) s) :
    (∀ id other mg held, s.manager.sims id = some mg → s.manager.sims other = some held →
      mg.sim = held.sim → id = other) ∧
    (∀ t r mg id held, s.threads t = some r → r.point.held = some mg →
      s.manager.sims id = some held → mg.sim = held.sim → r.task.id = id) ∧
    ∀ t r mg, s.threads t = some r → r.task.carries r.point = some mg →
      (∀ id held, s.manager.sims id = some held → held.sim ≠ mg.sim) ∧
      ∀ u q held, s.threads u = some q → u ≠ t → q.point.held = some held →
        held.sim ≠ mg.sim := by
  obtain ⟨sound, unshared⟩ : s.Exclusive := by
    exact reached.invariant ⟨sound_new rows, fun id => unshared_new id rows⟩
      fun _ _ _ exclusive _ stepped => exclusive.step stepped
  refine ⟨?_, ?_, ?_⟩
  · intro id other mg held mapped mappedOther same
    exact (sound.isFor id mg mapped).unique (same ▸ sound.isFor other held mappedOther)
  · intro t r mg id held here has mapped same
    exact (sound.held t r mg here has).unique (same ▸ sound.isFor id held mapped)
  · intro t r mg here carried
    have own := sound.held t r mg here (held_of_carries carried)
    constructor
    · rintro id held mapped same
      cases own.unique (same ▸ sound.isFor id held mapped)
      exact (unshared _).unmapped t r mg held here rfl carried mapped same
    · intro u q held there ne has same
      have eq := own.unique (same ▸ sound.held u q held there has)
      exact (unshared _).unheld t u r q mg held here there ne rfl eq.symm carried has same

theorem simulations_exclusive_created :
    ∃ (s : Server flagTypes) (mg : Managed), s.manager.sims "s" = some mg ∧
      ∀ other held, s.manager.sims other = some held → held.sim = mg.sim → other = "s" := by
  have made : Transition.Reachable (step Manager.idleHost) (fun _ _ => True) blank _ :=
    Transition.Reachable.start
    |>.take (.call 0 none (.create ⟨idlePayload "1.0.0" "tick", "u"⟩ none 0)) trivial rfl
    |>.take (plain 0) trivial rfl
    |>.take (plain 0) trivial rfl
    |>.take (plain 0) trivial rfl
  have exclusive := simulations_exclusive Manager.idleHost (fun _ => none) made
  exact ⟨_, _, rfl, fun other held mapped same => exclusive.1 other "s" held _ mapped rfl same⟩

end Server

end Runner

end Simulator
