import Simulator.RequestFacts

/-!
# Runs that nobody can reach

`Start`, `Replay` and `Delete` look an ID up and trust what they found.
-/

namespace Simulator

open Function

namespace Runner

variable {G : GoTypes} {M : Type}

namespace Server

structure Orderly (s : Server G) : Prop where
  filed : s.manager.Filed
  facts : ∀ t r, s.threads t = some r → Request.Facts s.manager r.task r.point
  apart : ∀ t u r q, s.threads t = some r → s.threads u = some q →
    r.task.exclusive = true → q.task.exclusive = true → r.task.id = q.task.id → t = u
  lone : ∀ t u r q, s.threads t = some r → s.threads u = some q →
    r.task.vacant r.point = true → q.task.vacant q.point = true → r.task.id = q.task.id → t = u
  reachable : s.manager.Reachable
  gone : ∀ id, s.deleted id = true → s.manager.sims id = none

theorem orderly_new (rows : String → Option SimulationInfo) :
    (Server.new (Manager.new rows) : Server G).Orderly where
  filed := ⟨fun _ _ mapped => by simp [new, Manager.new] at mapped,
    fun _ _ mapped => by simp [new, Manager.new] at mapped,
    fun _ _ mapped => by simp [new, Manager.new] at mapped⟩
  facts := fun _ _ held => by cases held
  apart := fun _ _ _ _ held => by cases held
  lone := fun _ _ _ _ held => by cases held
  reachable := by
    rintro addr id _ ⟨live, here, _⟩
    simp [new, Manager.new] at here
  gone := fun _ deleted => by cases deleted

/-- One of `Start`, `Replay` and `Delete` is only called if no other of them
is at work on the same ID. -/
def Apart (s : Server G) : Move G → Prop
  | .call _ _ task => task.exclusive = true → ∀ u q,
      s.threads u = some q → q.task.exclusive = true → q.task.id ≠ task.id
  | _ => True

variable {s : Server G}

theorem Orderly.enter (orderly : s.Orderly) {t : Nat} {claims : Option Claims} {task : Task}
    (alone : task.exclusive = true → ∀ u q, s.threads u = some q →
      q.task.exclusive = true → q.task.id ≠ task.id) :
    Orderly { s with
      threads := Function.update s.threads t (some ⟨claims, task, .entered⟩) } where
  filed := orderly.filed
  facts := by
    intro u q held
    rcases thread_cases held with ⟨_, eq⟩ | ⟨_, old⟩
    · cases eq
      exact .entered
    · exact orderly.facts u q old
  apart := by
    intro u v q p held held' first second sameID
    rcases thread_cases held with ⟨rfl, eq⟩ | ⟨_, old⟩
    · rcases thread_cases held' with ⟨rfl, _⟩ | ⟨_, old'⟩
      · rfl
      · cases eq
        exact absurd sameID.symm (alone first v p old' second)
    · rcases thread_cases held' with ⟨rfl, eq⟩ | ⟨_, old'⟩
      · cases eq
        exact absurd sameID (alone second u q old first)
      · exact orderly.apart u v q p old old' first second sameID
  lone := by
    intro u v q p held held' first second sameID
    have notEntered : ∀ {task : Task}, task.vacant .entered ≠ true := by
      intro task vacant
      cases task <;> cases vacant
    rcases thread_cases held with ⟨_, eq⟩ | ⟨_, old⟩
    · cases eq
      exact absurd first notEntered
    · rcases thread_cases held' with ⟨_, eq⟩ | ⟨_, old'⟩
      · cases eq
        exact absurd second notEntered
      · exact orderly.lone u v q p old old' first second sameID
  reachable := orderly.reachable
  gone := orderly.gone

theorem Orderly.background (orderly : s.Orderly) {m : Manager G} (calm : Manager.Calm s.manager m) :
    Orderly { s with manager := m } where
  filed := orderly.filed.of_calm calm
  facts := by
    intro t r held
    exact (orderly.facts t r held).of_stable (calm.stableAt _)
  apart := orderly.apart
  lone := orderly.lone
  reachable := orderly.reachable.of_calm calm
  gone := by
    intro id deleted
    rw [calm.sims]
    exact orderly.gone id deleted

theorem note_cases {deleted : String → Bool} {r : Request} {input : Input G} {id : String}
    (noted : note deleted r input id = true) : (deleted id = true ∧
      ∀ mg, r.task.records r.point = some mg → r.task.vacant r.point = true → id ≠ mg.info.id) ∨
      (r.task.id = id ∧ r.task.vacant r.point = true ∧ r.task.records r.point = none) := by
  obtain ⟨claims, task, point⟩ := r
  cases task with
  | create req rand now =>
    cases point with
    | stored mg =>
      change Function.update deleted mg.info.id false id = true at noted
      by_cases eq : id = mg.info.id
      · rw [eq, update_self] at noted
        cases noted
      · rw [update_of_ne eq] at noted
        refine .inl ⟨noted, ?_⟩
        intro other spot _
        cases spot
        exact eq
    | _ => exact .inl ⟨noted, fun _ _ vacant => by cases vacant⟩
  | delete target =>
    cases point with
    | removed =>
      by_cases eq : id = target
      · exact .inr ⟨eq.symm, rfl, rfl⟩
      · refine .inl ⟨?_, fun _ spot => by cases spot⟩
        cases stored : input.fault with
        | none =>
          simp only [note, stored, Function.update_of_ne eq] at noted
          exact noted
        | some msg =>
          simp only [note, stored] at noted
          exact noted
    | _ => exact .inl ⟨noted, fun _ spot => by cases spot⟩
  | _ => exact .inl ⟨noted, fun _ spot => by cases spot⟩

section Advance

variable {s : Server G} {host : Host G M} {t : Nat} {r : Request} {input : Input G}
  {out : Outcome G} {u : Nat} {q : Request}

section

variable (orderly : s.Orderly) (here : s.threads t = some r)
  (moves : Progress host t s.manager r.claims input r.task r.point out)
include orderly here moves

theorem Orderly.facts_advance (held : Function.update s.threads t
      (out.point.map fun point => { r with point := point }) u =
        some q) : Request.Facts out.manager q.task q.point := by
  rcases thread_cases held with ⟨_, eq⟩ | ⟨ne, old⟩
  · obtain ⟨next, goes, rfl⟩ := Option.map_eq_some_iff.mp eq
    exact moves.facts orderly.filed (orderly.facts t r here) goes
  · have facts := orderly.facts u q old
    rcases moves.calm_or_disturbs with calm | disturbs
    · exact facts.of_stable (calm.stableAt _)
    · apply disturbs.otherFacts orderly.filed (orderly.facts t r here) facts
      · intro sameID exclusive
        by_contra again
        rw [Bool.not_eq_false] at again
        exact ne (orderly.apart u t q r old here again exclusive sameID)
      · intro sameID vacant
        by_contra again
        rw [Bool.not_eq_false] at again
        exact ne (orderly.lone u t q r old here again vacant sameID)

theorem Orderly.lone_advance {next : Point} (goes : out.point = some next)
    (vacant : r.task.vacant next = true)
    (held : s.threads u = some q) (vacantAgain : q.task.vacant q.point = true)
    (sameID : q.task.id = r.task.id) : False := by
  obtain ⟨missing, stored⟩ := (orderly.facts u q held).vacant vacantAgain
  rw [sameID] at missing stored
  rcases moves.vacant (orderly.facts t r here) goes vacant with noRow | ⟨mg, mapped⟩
  · rw [noRow] at stored
    cases stored
  · rw [mapped] at missing
    cases missing

theorem Orderly.gone_advance {id : String} (noted : note s.deleted r input id = true) :
    out.manager.sims id = none := by
  have facts := orderly.facts t r here
  have old : s.manager.sims id = none ∧ ∀ mg, r.task.records r.point = some mg →
        r.task.vacant r.point = true → id ≠ mg.info.id := by
    rcases note_cases noted with ⟨deleted, notPut⟩ | ⟨rfl, vacant, no⟩
    · exact ⟨orderly.gone id deleted, notPut⟩
    · refine ⟨(facts.vacant vacant).1, ?_⟩
      intro mg spot
      rw [no] at spot
      cases spot
  rcases moves.calm_or_disturbs with calm | disturbs
  · rw [calm.sims]
    exact old.1
  · exact disturbs.missing facts old.1 old.2

theorem Orderly.advance :
    Orderly ⟨out.manager, Function.update s.threads t
      (out.point.map fun point => { r with point := point }), note s.deleted r input⟩ where
  filed := by
    rcases moves.calm_or_disturbs with calm | disturbs
    · exact orderly.filed.of_calm calm
    · exact disturbs.filed orderly.filed (orderly.facts t r here)
  facts := fun u q held => orderly.facts_advance here moves held
  apart := by
    -- a step keeps the task, so the requests before it decide
    intro u v q p held held' first second sameID
    obtain ⟨q', old, taskQ, _⟩ := thread_before here held
    obtain ⟨p', old', taskP, _⟩ := thread_before here held'
    rw [← taskQ] at first sameID
    rw [← taskP] at second sameID
    exact orderly.apart u v q' p' old old' first second sameID
  lone := by
    intro u v q p held held' first second sameID
    rcases thread_cases held with ⟨rfl, eq⟩ | ⟨_, old⟩
    · rcases thread_cases held' with ⟨rfl, _⟩ | ⟨_, old'⟩
      · rfl
      · obtain ⟨next, goes, rfl⟩ := Option.map_eq_some_iff.mp eq
        exact (orderly.lone_advance here moves goes first old' second sameID.symm).elim
    · rcases thread_cases held' with ⟨rfl, eq⟩ | ⟨_, old'⟩
      · obtain ⟨next, goes, rfl⟩ := Option.map_eq_some_iff.mp eq
        exact (orderly.lone_advance here moves goes second old first sameID).elim
      · exact orderly.lone u v q p old old' first second sameID
  reachable := by
    rcases moves.calm_or_disturbs with calm | disturbs
    · exact orderly.reachable.of_calm calm
    · exact disturbs.reachable orderly.filed (orderly.facts t r here) orderly.reachable
  gone := fun id noted => orderly.gone_advance here moves noted

end

end Advance

theorem Orderly.step {host : Host G M} {s next : Server G} {move : Move G}
    (orderly : s.Orderly) (apart : s.Apart move)
    (step : s.step host move = some next) : next.Orderly := by
  cases moves_of_step step with
  | call free called => exact orderly.enter apart
  | advance here moves alone => exact orderly.advance here moves
  | spawn here moves watched free =>
    exact (orderly.advance here moves).enter fun exclusive => by
      cases exclusive
  | loop here steps | watcher here steps => exact orderly.background (.setSim here steps rfl)

theorem no_orphaned_runs (host : Host G M) (rows : String → Option SimulationInfo) {s : Server G}
    (reached : Transition.Reachable (step host) Apart (Server.new (Manager.new rows)) s) :
    (∀ address live, s.manager.heap[address]? = some live → live.state.isGoing = true → ∃ mg,
        s.manager.sims live.built.cfg.id = some mg ∧ mg.sim = address) ∧
    ∀ id, s.deleted id = true → s.manager.sims id = none := by
  have orderly : s.Orderly := by
    apply Transition.Reachable.invariant (orderly_new rows) _ reached
    intro old move next orderly apart stepped
    exact orderly.step apart stepped
  refine ⟨?_, orderly.gone⟩
  intro address live here going
  have goes : (s.manager.state address).isGoing = true := by
    simpa [Manager.state, here] using going
  exact orderly.reachable address _ goes ⟨live, here, rfl⟩

theorem no_orphaned_runs_started :
    ∃ s : Server flagTypes, s.manager.heap.map (·.state) = [.running] ∧
      ∀ id, s.deleted id = true → s.manager.sims id = none :=
  ⟨_, rfl, (no_orphaned_runs Manager.idleHost (fun _ => none) (Transition.Reachable.start
      |>.take (.call 1 none (.lifecycle .start "s")) (fun _ _ _ held => by cases held) rfl
      |>.take (.call 0 none (.create ⟨idlePayload "1.0.0" "tick", "u"⟩ none 0))
        (fun exclusive => by cases exclusive) rfl
      |>.take (plain 0) trivial rfl
      |>.take (plain 0) trivial rfl
      |>.take (plain 0) trivial rfl
      |>.take (plain 1) trivial rfl
      |>.take (plain 1) trivial rfl
      |>.take (plain 1) trivial rfl)).2⟩

theorem overlapping_calls_orphan : (∃ s, Transition.last (step Manager.idleHost) (creation ++
        [.call 0 none (.replay "s" none), .call 1 none (.replay "s" none),
          plain 0, plain 1, plain 0, plain 1, plain 0, plain 0, plain 0, plain 0,
          plain 1, plain 1, plain 1, plain 1]) blank = some s ∧
      s.manager.heap.map (·.state) = [.idle, .running, .running] ∧
      s.manager.heap.map (·.built.cfg.id) = ["s", "s", "s"] ∧
      (s.manager.sims "s").map (·.sim) = some 2) ∧
    ∃ s, Transition.last (step Manager.idleHost) (creation ++
        [.call 0 none (.replay "s" none), plain 0, plain 0,
          .call 1 none (.delete "s"), plain 1, plain 1, plain 1, plain 1, plain 1, plain 1, plain 1,
          plain 0, plain 0, plain 0]) blank = some s ∧
      s.deleted "s" = true ∧ (s.manager.sims "s").map (·.sim) = some 1 :=
  ⟨⟨_, rfl, rfl, rfl, rfl⟩, ⟨_, rfl, rfl, rfl⟩⟩

end Server

end Runner

end Simulator
