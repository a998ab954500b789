import Simulator.CreatedRecords

/-!
# The stored status and the live status

A status is decided before it is written, so a late write may overwrite a newer one.
-/

namespace Simulator

theorem LiveSim.exists_choose {G : GoTypes} (live : LiveSim G) (a : Action live.built.executor) :
    ∃ choose : LiveSim.Choose G, choose live = a := by
  classical
  refine ⟨fun other => if eq : other = live then eq ▸ a else .stop, ?_⟩
  simp

namespace Runner

variable {G : GoTypes} {M : Type}

namespace Task

def concludes : Task → Point → Option String
  | .lifecycle .start _, .applied => none
  | .lifecycle op _, .applied => some op.status
  | .method _ _, .read status => some status
  | .watch _, .read status => some status
  | _, _ => none

/-- The task is a `Step`, `Snapshot` or `Restore`. -/
def isMethod : Task → Bool
  | .method _ _ => true
  | _ => false

/-- The new simulation of a `Replay` before its start. -/
def placed : Task → Point → Option Managed
  | .replay _ _, .placed mg => some mg
  | _, _ => none

def Announces (m : Manager G) (task : Task) (point : Point) : Prop :=
  task.owes point = true ∧ ∀ mg, task.placed point = some mg → m.sims task.id = some mg

def Awaits (address session : Nat) : Task → Point → Prop
  | .lifecycle .start _, .applied => True
  | .replay _ _, .applied => True
  | .watch _, .entered => True
  | .watch _, .found mg => mg.sim = address
  | .watch _, .waiting mg awaited => mg.sim = address ∧ awaited = session
  | _, _ => False

variable {m : Manager G} {task : Task} {point : Point}

theorem Announces.of_owes (owes : task.owes point = true) (notPlaced : task.placed point = none) :
    task.Announces m point := by
  refine ⟨owes, ?_⟩
  intro mg isPlaced
  rw [notPlaced] at isPlaced
  cases isPlaced

theorem Awaits.announces {address session : Nat}
    (awaits : task.Awaits address session point) : task.Announces m point := by
  cases task with
  | lifecycle op id =>
    cases op <;> cases point <;> first | exact .of_owes rfl rfl | exact awaits.elim
  | replay id rand =>
    cases point <;> first | exact .of_owes rfl rfl | exact awaits.elim
  | watch id => exact .of_owes rfl rfl
  | _ => exact awaits.elim

end Task

namespace Server

/-- A goroutine of an ID other than `t` is going to write the status. -/
def AnnouncedBesides (s : Server G) (id : String) (t : Nat) : Prop :=
  ∃ u q, u ≠ t ∧ s.threads u = some q ∧ q.task.id = id ∧ q.task.Announces s.manager q.point

/-- The conditions on a step of a request: its writes to the store succeed,
its last word is the live status or not the last one, it only starts a
simulation without open sessions, and it is not a failing `Step` that nobody
writes about. -/
structure Timely (s : Server G) (id : String) (t : Nat) (r : Request)
    (input : Input G) : Prop where
  stored : r.task.owes r.point = true → input.fault = none
  current : ∀ status, r.task.concludes r.point = some status → (∀ mg, s.manager.sims id = some mg →
      status = statusOf (s.manager.state mg.sim)) ∨ s.AnnouncedBesides id t
  closed : ∀ mg live, r.task.starts r.point = some mg →
    s.manager.heap[mg.sim]? = some live → live.sim.AllClosed
  noticed : ∀ mg live detail, r.task = .method .step id →
    r.point = .working mg → s.manager.heap[mg.sim]? = some live →
    live.sim.calls t = .stepped (.error detail) → s.AnnouncedBesides id t

def Punctual (id : String) (s : Server G) : Move G → Prop
  | .call _ _ task => task ≠ .delete id
  | .advance t input => ∀ r, s.threads t = some r → r.task.id = id → s.Timely id t r input
  | .loop address session choose => ∀ live,
      s.manager.heap[address]? = some live → live.built.cfg.id = id →
      (Action.loop session (choose live)).isClose = true → live.state.isGoing = false
  | .watcher _ _ => True

end Server

variable {m : Manager G}

theorem Manager.going_of_refused {address : Nat}
    {live : LiveSim G} {cause : LifecycleError} (here : m.heap[address]? = some live)
    (failed : m.operate address LiveSim.start = .error cause) : live.state.isGoing = true := by
  by_cases running : live.state = .running
  · rw [running]
    rfl
  · obtain ⟨next, started, -⟩ := LiveSim.start_of_not_running running
    simp [Manager.operate, here, started, Except.map] at failed

theorem Manager.rows_updateStatus {id status : String}
    {row : SimulationInfo} (stored : m.rows id = some row) :
    (m.updateStatus none id status).rows id = some { row with status := status } := by
  simp [Manager.updateStatus, stored]

section Threads

variable {host : Host G M} {t : Nat} {m : Manager G} {claims : Option Claims} {input : Input G}
  {task : Task} {point : Point} {out : Outcome G} {session : Nat}

variable {address : Nat} {live : LiveSim G} {mg : Managed} {status : String}

theorem Manager.not_open_of_isClosed (here : m.heap[address]? = some live)
    (closed : m.isClosed address session = true) : live.sim.isOpen session = false := by
  unfold Manager.isClosed at closed
  rw [here] at closed
  unfold Sim.isOpen
  cases point : (live.sim.loops session).point with
  | closed runErr => rfl
  | _ => simp [point] at closed

theorem watch_of_looks (looks : task.looksUp point = true)
    (awaits : task.Awaits address session point) : ∃ id, task = .watch id := by
  cases task with
  | watch id => exact ⟨id, rfl⟩
  | lifecycle op id =>
    cases point with
    | admitted => cases op <;> exact awaits.elim
    | _ => cases looks
  | replay id rand =>
    cases point with
    | admitted => exact awaits.elim
    | _ => cases looks
  | _ => exact awaits.elim

theorem Progress.awaits (mapped : m.sims task.id = some mg) (here : m.heap[mg.sim]? = some live)
    (latest : live.sim.done = some session) (isOpen : live.sim.isOpen session = true)
    (awaits : task.Awaits mg.sim session point)
    (moves : Progress host t m claims input task point out) : (∃ next, out.point = some next ∧
      task.Awaits mg.sim session next) ∨ out.watched = true := by
  cases moves with
  | givesUp free =>
    rw [awaits.announces (m := m).1] at free
    cases free
  | passes handler allowed =>
    cases task with
    | watch id => cases handler
    | lifecycle op id => cases op <;> exact awaits.elim
    | _ => exact awaits.elim
  | missing looks none =>
    rw [mapped] at none
    cases none
  | found looks found =>
    rw [mapped, Option.some.injEq] at found
    subst found
    obtain ⟨id, rfl⟩ := watch_of_looks looks awaits
    exact .inl ⟨_, rfl, rfl⟩
  | @announce op id other =>
    cases op with
    | start => exact absurd rfl other
    | _ => exact awaits.elim
  | announceStart | announceReplay => exact .inr rfl
  | @noRun id held never =>
    have same : held.sim = mg.sim := awaits
    rw [Manager.doneOf, same, here, Option.bind_some, latest] at never
    cases never
  | @wait id held current found =>
    have same : held.sim = mg.sim := awaits
    rw [Manager.doneOf, same, here, Option.bind_some, latest, Option.some.injEq] at found
    exact .inl ⟨_, rfl, same, found.symm⟩
  | @wake id held current closed =>
    obtain ⟨same, rfl⟩ : held.sim = mg.sim ∧ current = session := awaits
    rw [← same] at here
    rw [Manager.not_open_of_isClosed here closed] at isOpen
    cases isOpen
  | @operate op id held live next here ran =>
    cases op <;> exact awaits.elim
  | _ => exact awaits.elim

theorem Progress.announces (announces : task.Announces m point)
    (moves : Progress host t m claims input task point out) :
    (∃ next, out.point = some next ∧ task.Announces out.manager next) ∨
    out.watched = true ∨ (∃ status, task.concludes point = some status ∧
      out.manager = m.updateStatus input.fault task.id status) ∨
    (∃ mg cause, m.sims task.id = some mg ∧ out.manager = m ∧
      m.operate mg.sim LiveSim.start = .error cause) ∨ m.sims task.id = none := by
  cases moves with
  | givesUp free =>
    rw [announces.1] at free
    cases free
  | passes handler ok =>
    cases task with
    | watch id => cases handler
    | _ => cases announces.1
  | missing looks none => exact .inr (.inr (.inr (.inr none)))
  | @found _ _ mg looks mapped =>
    cases task with
    | watch id => exact .inl ⟨_, rfl, .of_owes rfl rfl⟩
    | _ =>
      cases point with
      | admitted => cases announces.1
      | _ => cases looks
  | @announce op id other =>
    cases op with
    | start => exact absurd rfl other
    | _ => exact .inr (.inr (.inl ⟨_, rfl, rfl⟩))
  | announceStart | announceReplay => exact .inr (.inl rfl)
  | readState | restart here ran | noRun never | wait cur | wake closed | watchRead =>
    exact .inl ⟨_, rfl, .of_owes rfl rfl⟩
  | writeState | watchWrite => exact .inr (.inr (.inl ⟨_, rfl, rfl⟩))
  | @refused id rand mg cause failed =>
    exact .inr (.inr (.inr (.inl ⟨mg, cause, announces.2 mg rfl, rfl, failed⟩)))
  | _ => cases announces.1

theorem owes_of_decided (decided : task.decided point = some status) :
    task.owes point = true ∧ task.looksUp point = false := by
  cases task <;> cases point <;> first | exact ⟨rfl, rfl⟩ | cases decided

theorem Progress.decided (decided : task.decided point = some status)
    (moves : Progress host t m claims input task point out) :
    task.concludes point = some status ∨ out.watched = true := by
  cases moves with
  | givesUp free =>
    rw [(owes_of_decided decided).1] at free
    cases free
  | passes handler allowed => cases task <;> cases decided
  | missing looks none | found looks mapped =>
    rw [(owes_of_decided decided).2] at looks
    cases looks
  | @announce op id other =>
    cases op with
    | start => exact absurd rfl other
    | _ => exact .inl decided
  | announceStart | announceReplay => exact .inr rfl
  | writeState | watchWrite => exact .inl decided
  | _ => cases decided

theorem awaits_of_starts (address session : Nat)
    (starts : task.starts point = some mg) : task.Awaits address session .applied := by
  cases task with
  | lifecycle op id =>
    cases op with
    | start => trivial
    | _ => cases point <;> cases starts
  | replay id rand => trivial
  | _ => cases point <;> cases starts

namespace WorksOn

variable {live next : LiveSim G}

theorem start_or_steps (worksOn : WorksOn t m task point out live next) :
    (∃ mg limit, task.starts point = some mg ∧
      m.heap[mg.sim]? = some live ∧ out.point = some .applied ∧ live.Steps next (.start limit)) ∨
    ∃ a, live.Steps next a ∧ a.isStart = false ∧ a.isClose = false := by
  cases worksOn with
  | start starts here goes steps =>
    exact .inl ⟨_, _, starts, here, goes, steps⟩
  | @control op _ _ isControl other goes steps =>
    cases op with
    | start => exact absurd rfl other
    | _ => exact .inr ⟨_, steps, rfl, rfl⟩
  | halt going steps => exact .inr ⟨_, steps, rfl, rfl⟩
  | call isMethod steps isCall leaves =>
    exact .inr ⟨_, steps, Action.not_start_of_call isCall, Action.not_close_of_call isCall⟩

theorem state_cases (worksOn : WorksOn t m task point out live next) :
    next.state = live.state ∨
    (∃ after, out.point = some after ∧ task.Announces out.manager after) ∨
    live.state.isGoing = true ∨
    ∃ mg msg, task = .method .step task.id ∧ point = .working mg ∧ m.heap[mg.sim]? = some live ∧
      live.sim.calls t = .stepped (.error msg) := by
  cases worksOn with
  | start starts here goes steps =>
    refine .inr (.inl ⟨_, goes, ?_⟩)
    exact (awaits_of_starts 0 0 starts).announces
  | control isControl other goes steps =>
    refine .inr (.inl ⟨_, goes, ?_⟩)
    rw [isControl]
    exact .of_owes rfl rfl
  | halt going steps => exact .inr (.inr (.inl going))
  | call isMethod steps isCall leaves =>
    obtain ⟨sim, step, rfl⟩ := steps
    obtain ⟨_, _, eq | ⟨k, msg, left, failed⟩⟩ := Sim.call_frame step isCall
    · exact .inl eq
    · obtain ⟨rfl, rfl, mg, working, here⟩ := leaves k left
      refine .inr (.inr (.inr ⟨mg, msg, ?_, working, here, failed⟩))
      rw [isMethod]
      rfl

end WorksOn

end Threads

namespace Server

def Announced (s : Server G) (id : String) : Prop :=
  ∃ u q, s.threads u = some q ∧ q.task.id = id ∧ q.task.Announces s.manager q.point

structure Settled (id : String) (s : Server G) : Prop where
  tracked : ∀ mg live, s.manager.sims id = some mg →
    s.manager.heap[mg.sim]? = some live → live.sim.Tracked
  awaited : ∀ mg live i, s.manager.sims id = some mg →
    s.manager.heap[mg.sim]? = some live → live.sim.isOpen i = true →
    ∃ u q, s.threads u = some q ∧ q.task.id = id ∧ q.task.Awaits mg.sim i q.point
  current : ∀ mg row, s.manager.sims id = some mg → s.manager.rows id = some row →
    row.status = statusOf (s.manager.state mg.sim) ∨ s.Announced id

theorem settled_new (id : String) (rows : String → Option SimulationInfo) :
    (Server.new (Manager.new rows) : Server G).Settled id where
  tracked := fun _ _ mapped => by cases mapped
  awaited := fun _ _ _ mapped => by cases mapped
  current := fun _ _ mapped => by cases mapped

variable {s : Server G}

section

variable {id : String} (settled : s.Settled id)
include settled

theorem Settled.call {t : Nat} {claims : Option Claims} {task : Task} (free : s.threads t = none) :
    Settled id { s with
      threads := Function.update s.threads t (some ⟨claims, task, .entered⟩) } := by
  have others : ∀ u q, s.threads u = some q →
      Function.update s.threads t (some ⟨claims, task, .entered⟩) u =
        some q := by
    intro u q held
    have ne : u ≠ t := by
      rintro rfl
      rw [free] at held
      cases held
    rw [Function.update_of_ne ne, held]
  refine ⟨settled.tracked, ?_, ?_⟩
  · intro mg live i mapped here isOpen
    obtain ⟨u, q, held, sameID, awaits⟩ := settled.awaited mg live i mapped here isOpen
    exact ⟨u, q, others u q held, sameID, awaits⟩
  · intro mg row mapped stored
    rcases settled.current mg row mapped stored with eq | ⟨u, q, held, sameID, announces⟩
    · exact .inl eq
    · exact .inr ⟨u, q, others u q held, sameID, announces⟩

variable {live : LiveSim G}

theorem Settled.announced {mg : Managed} {i : Nat}
    (mapped : s.manager.sims id = some mg) (here : s.manager.heap[mg.sim]? = some live)
    (isOpen : live.sim.isOpen i = true) : s.Announced id := by
  obtain ⟨u, q, held, sameID, awaits⟩ := settled.awaited mg live i mapped here isOpen
  exact ⟨u, q, held, sameID, awaits.announces⟩

theorem Settled.background {address : Nat} {next : LiveSim G}
    {a : Action live.built.executor} (here : s.manager.heap[address]? = some live)
    (steps : live.Steps next a) (notStart : a.isStart = false)
    (ended : ∀ mg, s.manager.sims id = some mg → mg.sim = address →
      a.isClose = true → live.state.isGoing = false)
    (quiet : next.state = live.state ∨ live.state.isGoing = true ∨ ∃ i, live.sim.isOpen i = true) :
    Settled id { s with manager := s.manager.setSim address next } := by
  have lt := (List.getElem?_eq_some_iff.mp here).1
  have other : ∀ {mg : Managed}, mg.sim ≠ address → (s.manager.setSim address next).heap[mg.sim]? =
        s.manager.heap[mg.sim]? := fun ne =>
    List.getElem?_set_ne (Ne.symm ne)
  have self : (s.manager.setSim address next).heap[address]? = some next :=
    List.getElem?_set_self lt
  refine ⟨?_, ?_, ?_⟩
  · intro mg held mapped there
    by_cases eq : mg.sim = address
    · rw [eq, self, Option.some.injEq] at there
      subst there
      obtain ⟨sim, step, rfl⟩ := steps
      subst eq
      exact (settled.tracked mg live mapped here).step step notStart (ended mg mapped rfl)
    · rw [other eq] at there
      exact settled.tracked mg held mapped there
  · intro mg held i mapped there isOpen
    by_cases eq : mg.sim = address
    · rw [eq, self, Option.some.injEq] at there
      subst there
      obtain ⟨sim, step, rfl⟩ := steps
      subst eq
      exact settled.awaited mg live i mapped here (Sim.isOpen_before step notStart isOpen)
    · rw [other eq] at there
      exact settled.awaited mg held i mapped there isOpen
  · intro mg row mapped stored
    by_cases eq : mg.sim = address
    · subst eq
      have announced : (∃ i, live.sim.isOpen i = true) →
          s.Announced id := fun ⟨i, isOpen⟩ =>
        settled.announced mapped here isOpen
      rcases quiet with kept | going | isOpen
      · rcases settled.current mg row mapped stored with old | announced
        · left
          rw [old, Manager.state_setSim_self lt, kept]
          simp [Manager.state, here]
        · exact .inr announced
      · exact .inr (announced ((settled.tracked mg live mapped here).going going))
      · exact .inr (announced isOpen)
    · rw [Manager.state_setSim_of_ne eq]
      exact settled.current mg row mapped stored

end

section Advance

variable {id : String} {s next : Server G} {host : Host G M} {t : Nat} {r : Request}
  {input : Input G} {out : Outcome G} {mg : Managed} {live : LiveSim G}

theorem AnnouncedBesides.advance (besides : s.AnnouncedBesides id t)
    (after : After s t r out next) (sims : out.manager.sims id = s.manager.sims id) :
    next.Announced id := by
  obtain ⟨u, q, ne, held, sameID, owes, placed⟩ := besides
  refine ⟨u, q, after.others u q ne held, sameID, owes, ?_⟩
  intro mg isPlaced
  rw [after.manager, sameID, sims, ← sameID]
  exact placed mg isPlaced

theorem Timely.current_advance (timely : s.Timely id t r input)
    (after : After s t r out next) {status : String}
    (concludes : r.task.concludes r.point = some status) (owes : r.task.owes r.point = true)
    (wrote : out.manager = s.manager.updateStatus input.fault id status)
    {row : SimulationInfo} (mapped : out.manager.sims id = some mg)
    (stored : out.manager.rows id = some row) :
    row.status = statusOf (out.manager.state mg.sim) ∨
      next.Announced id := by
  obtain ⟨sims, heap, rows⟩ := s.manager.updateStatus_frame input.fault id status
  rcases timely.current status concludes with cur | besides
  · left
    rw [wrote, sims] at mapped
    have state : out.manager.state mg.sim = s.manager.state mg.sim := by
      rw [wrote, Manager.state, heap]
      rfl
    rw [state, ← cur mg mapped]
    have present := rows id
    rw [← wrote, stored] at present
    obtain ⟨old, storedBefore⟩ := Option.isSome_iff_exists.mp present.symm
    rw [wrote, timely.stored owes,
      Manager.rows_updateStatus storedBefore, Option.some.injEq] at stored
    rw [← stored]
  · right
    apply besides.advance after
    rw [wrote, sims]

variable (here : s.threads t = some r)
  (moves : Progress host t s.manager r.claims input r.task r.point out)
include here moves

theorem Sound.worksOn (sound : s.Sound) (mapped : s.manager.sims id = some mg)
    (there : s.manager.heap[mg.sim]? = some live) :
    out.manager.heap[mg.sim]? = some live ∨
    ∃ after, out.manager.heap[mg.sim]? = some after ∧ r.task.id = id ∧
      WorksOn t s.manager r.task r.point out live after := by
  by_cases own : r.task.id = id
  · rcases moves.works.worksOn there with eq | ⟨after, now, worksOn⟩
    · exact .inl eq
    · exact .inr ⟨after, now, own, worksOn⟩
  · left
    have eq := moves.elsewhere (fun mg => sound.held t r mg here)
      (fun mg => sound.records t r mg here) (Ne.symm own)
    rw [eq.heap mg.sim (sound.isFor id mg mapped), there]

theorem Settled.awaited_advance (settled : s.Settled id) (after : After s t r out next)
    {i : Nat} (mapped : s.manager.sims id = some mg)
    (there : s.manager.heap[mg.sim]? = some live) (isOpen : live.sim.isOpen i = true) :
    ∃ u q, next.threads u = some q ∧ q.task.id = id ∧ q.task.Awaits mg.sim i q.point := by
  obtain ⟨u, q, held, sameID, awaits⟩ := settled.awaited mg live i mapped there isOpen
  by_cases mine : u = t
  · subst mine
    rw [here, Option.some.injEq] at held
    subst held
    have latest := (settled.tracked mg live mapped there).latest i isOpen
    rw [← sameID] at mapped
    rcases moves.awaits mapped there latest isOpen awaits with ⟨point, goes, still⟩ | watched
    · exact ⟨u, _, after.own point goes, sameID, still⟩
    · obtain ⟨v, spawned⟩ := after.spawned watched
      exact ⟨v, _, spawned, sameID, trivial⟩
  · exact ⟨u, q, after.others u q mine held, sameID, awaits⟩

theorem Sound.entry_cases (sound : s.Sound) (unshared : s.Unshared id)
    (mapped : out.manager.sims id = some mg) (there : out.manager.heap[mg.sim]? = some live) :
    (∃ old, s.manager.sims id = some mg ∧ s.manager.heap[mg.sim]? = some old ∧
      (live = old ∨ r.task.id = id ∧ WorksOn t s.manager r.task r.point out old live)) ∨
    live.sim.Fresh := by
  rcases moves.entry_from (fun mg => sound.records t r mg here) mapped
    with before | ⟨own, carried, _, heap⟩
  · obtain ⟨old, thereBefore, _⟩ := sound.isFor id mg before
    refine .inl ⟨old, before, thereBefore, ?_⟩
    rcases sound.worksOn here moves before thereBefore with eq | ⟨now, thereNow, own, worksOn⟩
    · rw [there, Option.some.injEq] at eq
      exact .inl eq
    · rw [there, Option.some.injEq] at thereNow
      subst thereNow
      exact .inr ⟨own, worksOn⟩
  · obtain ⟨fresh, thereBefore, isFresh⟩ := unshared.fresh t r mg here own.symm carried
    rw [heap, thereBefore, Option.some.injEq] at there
    rw [← there]
    exact .inr isFresh

section

variable (settled : s.Settled id)
include settled

theorem Settled.tracked_advance (sound : s.Sound)
    (unshared : s.Unshared id) (timely : r.task.id = id → s.Timely id t r input)
    (mapped : out.manager.sims id = some mg)
    (there : out.manager.heap[mg.sim]? = some live) : live.sim.Tracked := by
  rcases sound.entry_cases here moves unshared mapped there with
    ⟨old, before, thereBefore, same | ⟨own, worksOn⟩⟩ | fresh
  · rw [same]
    exact settled.tracked mg old before thereBefore
  · rcases worksOn.start_or_steps with ⟨_, _, starts, hereSim, _, sim, step, rfl⟩ |
        ⟨a, ⟨sim, step, rfl⟩, notStart, notClose⟩
    · exact Sim.tracked_of_start step ((timely own).closed _ old starts hereSim)
    · apply (settled.tracked mg old before thereBefore).step step notStart
      intro closes
      rw [notClose] at closes
      cases closes
  · exact fresh.tracked

theorem Settled.awaited_after (sound : s.Sound)
    (unshared : s.Unshared id) (after : After s t r out next) {i : Nat}
    (mapped : out.manager.sims id = some mg) (there : out.manager.heap[mg.sim]? = some live)
    (isOpen : live.sim.isOpen i = true) :
    ∃ u q, next.threads u = some q ∧ q.task.id = id ∧ q.task.Awaits mg.sim i q.point := by
  rcases sound.entry_cases here moves unshared mapped there with
    ⟨old, before, thereBefore, same | ⟨own, worksOn⟩⟩ | fresh
  · rw [same] at isOpen
    exact settled.awaited_advance here moves after before thereBefore isOpen
  · rcases worksOn.start_or_steps with
      ⟨_, _, starts, _, goes, _⟩ | ⟨a, ⟨sim, stepped, rfl⟩, notStart, _⟩
    · exact ⟨t, _, after.own .applied goes, own, awaits_of_starts mg.sim i starts⟩
    · exact settled.awaited_advance here moves after before thereBefore
        (Sim.isOpen_before stepped notStart isOpen)
  · rw [fresh.not_open] at isOpen
    cases isOpen

theorem Settled.announced_of_going (after : After s t r out next)
    (mapped : s.manager.sims id = some mg) (there : s.manager.heap[mg.sim]? = some live)
    (going : live.state.isGoing = true) : next.Announced id := by
  obtain ⟨i, isOpen⟩ := (settled.tracked mg live mapped there).going going
  obtain ⟨u, q, held, sameID, awaits⟩ :=
    settled.awaited_advance here moves after mapped there isOpen
  exact ⟨u, q, held, sameID, awaits.announces⟩

theorem Settled.current_same (sound : s.Sound)
    (timely : r.task.id = id → s.Timely id t r input) (after : After s t r out next)
    (sims : out.manager.sims id = s.manager.sims id)
    (rows : out.manager.rows id = s.manager.rows id)
    {row : SimulationInfo} (mapped : out.manager.sims id = some mg)
    (stored : out.manager.rows id = some row) :
    row.status = statusOf (out.manager.state mg.sim) ∨
      next.Announced id := by
  have old : s.manager.sims id = some mg := sims ▸ mapped
  obtain ⟨live, there, _⟩ := sound.isFor id mg old
  -- the state is the same, or somebody is going to write
  have changed : out.manager.state mg.sim = s.manager.state mg.sim ∨
      next.Announced id := by
    rcases sound.worksOn here moves old there with eq | ⟨now, thereNow, own, worksOn⟩
    · left
      rw [Manager.state, Manager.state, eq, there]
    · rcases worksOn.state_cases with eq | ⟨point, goes, announces⟩ | going |
          ⟨held, detail, isStep, working, hereSim, failed⟩
      · left
        rw [Manager.state, Manager.state, thereNow, there]
        exact eq
      · right
        refine ⟨t, _, after.own point goes, own, ?_⟩
        rw [after.manager]
        exact announces
      · exact .inr (settled.announced_of_going here moves after old there going)
      · right
        rw [own] at isStep
        exact ((timely own).noticed held live detail isStep working hereSim
          failed).advance after sims
  rcases changed with state | announced
  · rcases settled.current mg row old (rows ▸ stored) with current | ⟨u, q, held, sameID, announces⟩
    · left
      rw [state]
      exact current
    · by_cases mine : u = t
      · subst mine
        rw [here, Option.some.injEq] at held
        subst held
        rcases moves.announces announces with
          ⟨point, goes, still⟩ | watched | ⟨status, concludes, wrote⟩ |
            ⟨held, cause, mappedHeld, _, failed⟩ | none
        · refine .inr ⟨u, _, after.own point goes, sameID, ?_⟩
          rw [after.manager]
          exact still
        · obtain ⟨v, spawned⟩ := after.spawned watched
          exact .inr ⟨v, _, spawned, sameID, .of_owes rfl rfl⟩
        · rw [sameID] at wrote
          exact (timely sameID).current_advance after concludes announces.1 wrote mapped stored
        · right
          rw [sameID, old, Option.some.injEq] at mappedHeld
          subst mappedHeld
          exact settled.announced_of_going here moves after old there
            (Manager.going_of_refused there failed)
        · rw [sameID, old] at none
          cases none
      · right
        exact AnnouncedBesides.advance ⟨u, q, mine, held, sameID, announces⟩ after sims
  · exact .inr announced

theorem Settled.advance (sound : s.Sound) (created : s.Created id) (unshared : s.Unshared id)
    (timely : r.task.id = id → s.Timely id t r input) (after : After s t r out next) : next.Settled id where
  tracked := by
    rw [after.manager]
    intro mg live mapped there
    exact settled.tracked_advance here moves sound unshared timely mapped there
  awaited := by
    rw [after.manager]
    intro mg live i mapped there isOpen
    exact settled.awaited_after here moves sound unshared after mapped there isOpen
  current := by
    rw [after.manager]
    intro mg row mapped stored
    cases created.recordAt sound here moves with
    | same sims rows =>
      exact settled.current_same here moves sound timely after sims rows mapped stored
    | write own decided written =>
      rcases moves.decided decided with concludes | watched
      · exact (timely own).current_advance after concludes
          (owes_of_decided decided).1 written mapped stored
      · obtain ⟨u, spawned⟩ := after.spawned watched
        exact .inr ⟨u, _, spawned, own, .of_owes rfl rfl⟩
    | insert missing sims rows =>
      rw [sims] at mapped
      obtain ⟨old, storedBefore⟩ := created.stored mg mapped
      rw [missing] at storedBefore
      cases storedBefore
    | @put new own vacant carried sims rows heap =>
      left
      rw [sims, Option.some.injEq] at mapped
      subst mapped
      obtain ⟨_, old, storedBefore, status⟩ := created.inserted t r here own vacant
      rw [rows, storedBefore, Option.some.injEq] at stored
      subst stored
      obtain ⟨live, there, fresh⟩ := unshared.fresh t r new here own carried
      have idle : out.manager.state new.sim = .idle := by
        rw [Manager.state, heap, there]
        exact fresh.idle
      rw [idle, status]
      rfl
    | @place new random isReplay built goes sims rows =>
      right
      have own : r.task.id = id := by
        rw [isReplay]
        rfl
      refine ⟨t, _, after.own _ goes, own, ?_⟩
      change r.task.Announces next.manager (.placed new)
      rw [after.manager, isReplay]
      refine ⟨rfl, ?_⟩
      intro mg same
      cases same
      exact sims

end

end Advance

structure Steady (id : String) (s : Server G) : Prop where
  sound : s.Sound
  created : s.Created id
  unshared : s.Unshared id
  settled : s.Settled id

theorem steady_new (id : String) (rows : String → Option SimulationInfo) :
    (Server.new (Manager.new rows) : Server G).Steady id :=
  ⟨sound_new rows, created_new id rows, unshared_new id rows, settled_new id rows⟩

variable {s : Server G} {host : Host G M} {t : Nat} {r : Request} {mg : Managed}

variable {next : Server G}

theorem Steady.advance {id : String} {input : Input G} {out : Outcome G}
    (steady : s.Steady id) (here : s.threads t = some r)
    (timely : r.task.id = id → s.Timely id t r input)
    (moves : Progress host t s.manager r.claims input r.task r.point
      out) (after : After s t r out next) : next.Steady id where
  sound := steady.sound.advance here moves after
  created := steady.created.advance steady.sound here moves after
  unshared := steady.unshared.advance steady.sound here moves after
  settled := steady.settled.advance here moves steady.sound steady.created
    steady.unshared timely after

theorem Steady.step {id : String}
    {move : Move G} (steady : s.Steady id) (punctual : s.Punctual id move)
    (step : s.step host move = some next) : next.Steady id := by
  cases moves_of_step step with
  | call free called =>
    exact ⟨steady.sound.call, steady.created.call punctual,
      steady.unshared.call, steady.settled.call free⟩
  | advance here moves alone =>
    exact steady.advance here (punctual _ here) moves (after_advance alone)
  | spawn here moves watched free =>
    exact steady.advance here (punctual _ here) moves (after_spawn free)
  | @loop address session choose live after here steps =>
    obtain ⟨sim, moved, rfl⟩ := steps
    have steps : live.Steps ⟨live.built, sim⟩ (.loop session (choose live)) := ⟨sim, moved, rfl⟩
    refine ⟨steady.sound.background here steps, steady.created.background address _,
      steady.unshared.background here fun fresh => fresh.no_loop moved,
      steady.settled.background here steps rfl ?_ ?_⟩
    · intro mg mapped eq closes
      obtain ⟨own, hereOwn, forID⟩ := steady.sound.isFor id mg mapped
      rw [eq, here, Option.some.injEq] at hereOwn
      exact punctual live here (hereOwn ▸ forID) closes
    · exact .inr (.inr ⟨session, Sim.isOpen_of_loop moved⟩)
  | @watcher address session live after here steps =>
    obtain ⟨sim, moved, rfl⟩ := steps
    have steps : live.Steps ⟨live.built, sim⟩ (.watch session) := ⟨sim, moved, rfl⟩
    refine ⟨steady.sound.background here steps, steady.created.background address _,
      steady.unshared.background here fun fresh => fresh.no_watch moved,
      steady.settled.background here steps rfl (fun _ _ _ => nofun) ?_⟩
    cases going : live.state.isGoing with
    | true => exact .inr (.inl rfl)
    | false => exact .inl (Sim.state_of_watch moved going)

theorem status_converges (host : Host G M)
    (rows : String → Option SimulationInfo) (id : String) {s : Server G}
    (reached : Transition.Reachable (step host) (Punctual id) (Server.new (Manager.new rows)) s)
    (quiet : ∀ t r, s.threads t = some r → r.task.id ≠ id) {mg : Managed}
    (mapped : s.manager.sims id = some mg) :
    ∃ row, s.manager.rows id = some row ∧ row.status = statusOf (s.manager.state mg.sim) := by
  have steady : s.Steady id := by
    apply Transition.Reachable.invariant (steady_new id rows) _ reached
    intro old move next steady punctual stepped
    exact steady.step punctual stepped
  obtain ⟨row, stored⟩ := steady.created.stored mg mapped
  refine ⟨row, stored, ?_⟩
  rcases steady.settled.current mg row mapped stored with cur | ⟨t, r, held, sameID, _⟩
  · exact cur
  · exact absurd sameID (quiet t r held)

section

variable {s : Server flagTypes} (here : s.threads t = some r) (isMethod : r.task.isMethod = false)
include here isMethod

theorem punctual_of {id : String} (cur : ∀ status, r.task.concludes r.point = some status →
      ∀ mg, s.manager.sims id = some mg → status = statusOf (s.manager.state mg.sim))
    (closed : ∀ mg live, r.task.starts r.point = some mg →
      s.manager.heap[mg.sim]? = some live → live.sim.AllClosed) : s.Punctual id (plain t) := by
  intro q held _
  rw [here, Option.some.injEq] at held
  subst held
  refine ⟨fun _ => rfl, fun status concludes => .inl (cur status concludes), closed, ?_⟩
  intro mg live msg isStep
  rw [isStep] at isMethod
  cases isMethod

theorem punctual_passive {id : String}
    (starts : r.task.starts r.point = none) (concludes : r.task.concludes r.point = none) :
    s.Punctual id (plain t) :=
  punctual_of here isMethod (by simp [concludes]) (by simp [starts])

theorem punctual_start {id : String} {live : LiveSim flagTypes}
    (starts : r.task.starts r.point = some mg) (there : s.manager.heap[mg.sim]? = some live)
    (closed : live.sim.AllClosed) (concludes : r.task.concludes r.point = none) :
    s.Punctual id (plain t) := by
  refine punctual_of here isMethod (by simp [concludes]) fun other hit isStart foundThere => ?_
  rw [starts, Option.some.injEq] at isStart
  rw [← isStart, there, Option.some.injEq] at foundThere
  exact foundThere ▸ closed

theorem punctual_word {id : String}
    (starts : r.task.starts r.point = none) (mapped : s.manager.sims id = some mg)
    (concludes : r.task.concludes r.point = some (statusOf (s.manager.state mg.sim))) :
    s.Punctual id (plain t) := by
  refine punctual_of here isMethod (fun status isStatus other mappedOther => ?_) (by simp [starts])
  rw [concludes, Option.some.injEq] at isStatus
  rw [mapped, Option.some.injEq] at mappedOther
  rw [← isStatus, mappedOther]

end

theorem quiet_of_free {id : String} (free : ∀ t, s.threads t = none) (t : Nat) (r : Request)
    (held : s.threads t = some r) : r.task.id ≠ id := by
  rw [free t] at held
  cases held

theorem status_converges_stopped :
    ∃ s : Server flagTypes, s.manager.state 0 = .stopped ∧ ∃ row, s.manager.rows "s" = some row ∧
        row.status = statusOf (s.manager.state 0) := by
  have made : Transition.Reachable (step Manager.idleHost) (Punctual "s")
      blank _ :=
    Transition.Reachable.start
    |>.take (.call 0 none (.create ⟨idlePayload "1.0.0" "tick", "u"⟩ none 0)) nofun rfl
    |>.take (plain 0) (punctual_passive rfl rfl rfl rfl) rfl
    |>.take (plain 0) (punctual_passive rfl rfl rfl rfl) rfl
    |>.take (plain 0) (punctual_passive rfl rfl rfl rfl) rfl
  have started := made
    |>.take (.call 1 none (.lifecycle .start "s")) nofun rfl
    |>.take (plain 1) (punctual_passive rfl rfl rfl rfl) rfl
    |>.take (plain 1) (punctual_passive rfl rfl rfl rfl) rfl
    |>.take (plain 1) (punctual_start rfl rfl rfl rfl (fun _ => rfl) rfl) rfl
    |>.take (plain 1) (punctual_passive rfl rfl rfl rfl) rfl
  have stopped := started
    |>.take (.call 2 none (.lifecycle .stop "s")) nofun rfl
    |>.take (plain 2) (punctual_passive rfl rfl rfl rfl) rfl
    |>.take (plain 2) (punctual_passive rfl rfl rfl rfl) rfl
    |>.take (plain 2) (punctual_passive rfl rfl rfl rfl) rfl
    |>.take (plain 2) (punctual_word rfl rfl rfl rfl rfl) rfl
  have ended := stopped
    |>.take (.loop 0 0 fun _ => .register) (fun _ _ _ closes => by cases closes) rfl
    |>.take (.loop 0 0 fun _ => .look) (fun _ _ _ closes => by cases closes) rfl
    |>.take (.loop 0 0 fun _ => .finalize) (fun _ _ _ closes => by cases closes) rfl
    |>.take (.loop 0 0 fun _ => .release) (fun _ _ _ closes => by cases closes) rfl
    |>.take (.loop 0 0 fun _ => .close) (fun live there _ _ => by
        cases there
        rfl) rfl
  have watched := ended
    |>.take (plain 9) (punctual_passive rfl rfl rfl rfl) rfl
    |>.take (plain 9) (punctual_passive rfl rfl rfl rfl) rfl
    |>.take (plain 9) (punctual_passive rfl rfl rfl rfl) rfl
    |>.take (plain 9) (punctual_passive rfl rfl rfl rfl) rfl
    |>.take (plain 9) (punctual_word rfl rfl rfl rfl rfl) rfl
  exact ⟨_, rfl, status_converges Manager.idleHost (fun _ => none) "s" watched (quiet_of_free fun
      | 0 | 1 | 2 | 3 | 4 | 5 | 6 | 7 | 8 | 9 => rfl
      | _ + 10 => rfl) rfl⟩

theorem reachable_work {start : Server G}
    (reached : Transition.Reachable (step host) (fun _ _ => True) start s)
    {claims : Option Claims} {f : Method} {id : String}
    {live : LiveSim G} {sim : Sim live.built.executor}
    (here : s.threads t = some ⟨claims, .method f id, .working mg⟩)
    (there : s.manager.heap[mg.sim]? = some live)
    (a : Action live.built.executor) (lt : f.inside t a = true)
    (stepped : live.sim.step a = some sim) :
    Transition.Reachable (step host) (fun _ _ => True) start
      ⟨s.manager.setSim mg.sim ⟨live.built, sim⟩, Function.update s.threads t
          (some ⟨claims, .method f id, .working mg⟩), s.deleted⟩ := by
  obtain ⟨work, chosen⟩ := live.exists_choose a
  refine reached.take (.advance t ⟨none, 0, work⟩) trivial ?_
  simp [step, here, Request.next, Manager.methodNext, there, chosen, lt,
    LiveSim.act, stepped, settle, Outcome.goesOn, note]

def faultyHost : Host flagTypes Unit :=
  { Manager.idleHost with
    methods := { idleMethods with
      newExecutor := fun _ _ =>
        some ⟨Unit, tickExecutor (.halt (some (.error "no stock"))), id⟩ } }

def works (t : Nat) (work : LiveSim.Choose flagTypes) : Move flagTypes :=
  .advance t ⟨none, 9, work⟩

/-- A `Pause` that has stopped the run loop, but not yet written its status, is
overtaken by a `Stop`. -/
def latePause : List (Move flagTypes) :=
  creation ++ [.call 1 none (.lifecycle .start "s"), plain 1, plain 1, plain 1, plain 1,
    .call 2 none (.lifecycle .pause "s"), plain 2, plain 2, plain 2,
    .call 3 none (.lifecycle .stop "s"), plain 3, plain 3, plain 3, plain 3,
    .loop 0 0 fun _ => .register, .loop 0 0 fun _ => .look,
    .loop 0 0 fun _ => .finalize, .loop 0 0 fun _ => .release,
    .loop 0 0 fun _ => .close, .watcher 0 0, plain 9, plain 9, plain 9, plain 9, plain 9, plain 2]

theorem stale_statuses : (∃ s, Transition.last (step Manager.idleHost) latePause blank = some s ∧
      (∀ t, s.threads t = none) ∧ (s.manager.rows "s").map (·.status) = some "paused" ∧
      (s.manager.sims "s").map (·.sim) = some 0 ∧ s.manager.state 0 = .stopped) ∧
    ∃ s, Transition.Reachable (step faultyHost) (fun _ _ => True) blank s ∧
      (∀ t, s.threads t = none) ∧ (s.manager.rows "s").map (·.status) = some "created" ∧
      (s.manager.sims "s").map (·.sim) = some 0 ∧ s.manager.state 0 = .failed := by
  constructor
  · exact ⟨_, rfl, fun
      | 0 | 1 | 2 | 3 | 4 | 5 | 6 | 7 | 8 | 9 => rfl
      | _ + 10 => rfl, rfl, rfl, rfl⟩
  · have stepping : Transition.Reachable (step faultyHost) (fun _ _ => True) blank _ :=
      Transition.Reachable.start
      |>.take (.call 0 none (.create ⟨idlePayload "1.0.0" "tick", "u"⟩ none 0)) trivial rfl
      |>.take (plain 0) trivial rfl
      |>.take (plain 0) trivial rfl
      |>.take (plain 0) trivial rfl
      |>.take (.call 1 none (.method .step "s")) trivial rfl
      |>.take (plain 1) trivial rfl
      |>.take (plain 1) trivial rfl
      |>.take (works 1 fun _ => .callStep 1) trivial rfl
      |>.take (works 1 fun _ => .enterStep 1) trivial rfl
    have failed := reachable_work (t := 1) stepping rfl rfl (.advanceStep 1 false ()) rfl rfl
    exact ⟨_, failed.take (works 1 fun _ => .leaveStep 1) trivial rfl, fun
      | 0 | 1 => rfl
      | _ + 2 => rfl, rfl, rfl, rfl⟩

end Server

end Runner

end Simulator
