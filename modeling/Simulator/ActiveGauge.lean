import Simulator.ManagerMoves

/-!
# The gauge of active simulations

`Start` counts a run before it leaves a `watch` behind, `Replay` leaves one behind
without counting.
-/

namespace Simulator

namespace Runner

open Transition Option Function Finset Server

variable {G : GoTypes} {M : Type}

namespace Request

/-- What the next step of a request adds to `SimulationActive`: `Start` counts
before it writes the status, and `watch` after `Wait`. -/
def gauge (r : Request) : Int :=
  match r.point, r.task with
  | .applied, .lifecycle .start _ => 1
  | .waited _, .watch _ => -1
  | _, _ => 0

/-- One for a `Replay` that returns without an error in its next step. -/
def replays (r : Request) : Nat :=
  match r.task, r.point with
  | .replay _ _, .applied => 1
  | _, _ => 0

/-- A `watch` that is still to take one off the gauge -/
def isWatching (r : Request) : Bool :=
  match r.task, r.point with
  | .watch _, .read _ => false
  | .watch _, _ => true
  | _, _ => false

def hasSeen (r : Request) : Bool :=
  match r.task with
  | .create _ _ _ => false
  | .watch _ => true
  | _ => r.point.hasLooked

end Request

namespace Server

def mover (s : Server G) : Move G → Option Request
  | .advance t _ => s.threads t
  | _ => none

/-- Every `watch` has taken its run off the gauge, as it has when it has
returned. -/
def Unwatched (s : Server G) : Prop :=
  ∀ t r, s.threads t = some r → r.isWatching = false

end Server

/-- A server with the gauge `SimulationActive`.  `replayed` notes how many
calls of `Replay` have succeeded. -/
structure Metered (G : GoTypes) where
  server : Server G
  active : Int
  replayed : Nat

namespace Metered

def start (rows : String → Option SimulationInfo) : Metered G :=
  ⟨.new (.new rows), 0, 0⟩

def step (host : Host G M) (s : Metered G) (move : Move G) : Option (Metered G) :=
  (s.server.step host move).map fun next =>
    ⟨next, s.active + (s.server.mover move).elim 0 Request.gauge,
      s.replayed + (s.server.mover move).elim 0 Request.replays⟩

/-- Nobody calls `Delete`, and `Replay` only if it is allowed. -/
def permits (replay : Bool) (_ : Metered G) : Move G → Bool
  | .call _ _ (.delete _) => false
  | .call _ _ (.replay _ _) => replay
  | _ => true

/-- The calls of a run in which nobody calls `Delete`. -/
abbrev Calls (replay : Bool) (s : Metered G) (move : Move G) : Prop :=
  s.permits replay move = true

def Watching (threads : Nat → Option Request) (watching : Finset Nat) : Prop :=
  ∀ t, t ∈ watching ↔ (threads t).any Request.isWatching = true

theorem Watching.update {threads : Nat → Option Request}
    {watching : Finset Nat} (counted : Watching threads watching) (t : Nat)
    (after : Option Request) :
    ∃ next, Watching (update threads t after) next ∧
      next.card + ((threads t).any Request.isWatching).toNat =
        watching.card + (after.any Request.isWatching).toNat := by
  have others : ∀ u, u ≠ t → (u ∈ watching ↔
      (Function.update threads t after u).any Request.isWatching = true) := by
    intro u other
    rw [update_of_ne other]
    exact counted u
  have removed : (watching.erase t).card +
      ((threads t).any Request.isWatching).toNat = watching.card := by
    by_cases mem : t ∈ watching
    · rw [(counted t).mp mem, Bool.toNat_true, card_erase_add_one mem]
    · rw [erase_eq_of_notMem mem,
        Bool.eq_false_iff.mpr (mt (counted t).mpr mem), Bool.toNat_false, Nat.add_zero]
  cases now : after.any Request.isWatching with
  | false =>
    refine ⟨watching.erase t, fun u => ?_, removed⟩
    by_cases eq : u = t
    · subst eq
      simp [now]
    · rw [Finset.mem_erase, others u eq]
      simp [eq]
  | true =>
    refine ⟨insert t (watching.erase t), fun u => ?_, ?_⟩
    · by_cases eq : u = t
      · subst eq
        simp [now]
      · rw [Finset.mem_insert, Finset.mem_erase, others u eq]
        simp [eq]
    · rw [card_insert_of_notMem (notMem_erase t watching), Bool.toNat_true]
      omega

section Steps

variable {host : Host G M} {t : Nat} {m : Manager G} {claims : Option Claims} {input : Input G}
  {task : Task} {point : Point} {out : Outcome G}

section

variable (moves : Progress host t m claims input task point out)
include moves

theorem isSome_of_progress
    (kept : ∀ id, task ≠ .delete id) {id : String} (mapped : (m.sims id).isSome = true) :
    (out.manager.sims id).isSome = true := by
  have placed : ∀ (other : String) (mg : Managed) (made : mg.sim < m.heap.length),
      ((m.put other mg made).sims id).isSome = true := by
    intro other mg made
    by_cases same : id = other
    · subst same
      simp
    · simpa [same] using mapped
  rcases moves.record_cases with ⟨same, _⟩ | ⟨status, _, same⟩ | altered
  · rwa [same]
  · rwa [same, (m.updateStatus_frame _ _ _).1]
  · generalize out.manager = after at altered
    cases altered with
    | insert => exact mapped
    | put made | place made => exact placed _ _ made
    | remove | deleteRow => exact absurd rfl (kept _)

theorem hasSeen_of_progress {next : Point} (goes : out.point = some next)
    (seen : (Request.mk claims task next).hasSeen = true) :
    (Request.mk claims task point).hasSeen = true ∨ (m.sims task.id).isSome = true := by
  cases moves with
  | found looks mapped => exact .inr (by rw [mapped]; rfl)
  | passes handler ok =>
    cases goes
    cases task with
    | create req rand now => cases seen
    | watch id => cases handler
    | _ => cases seen
  | build built => cases goes; cases seen
  | insert inserted => cases goes; cases seen
  | givesUp | missing | put | announce | announceStart | leave | writeState
  | deleteRow | refused | announceReplay | watchWrite => cases goes
  | _ => exact .inl rfl

theorem gauge_of_progress
    (seen : (Request.mk claims task point).hasSeen = true → (m.sims task.id).isSome = true) :
    (Request.mk claims task point).gauge + (Request.mk claims task point).replays +
        ((Request.mk claims task point).isWatching.toNat : Int) =
      ((out.point.map (Request.mk claims task)).any
        Request.isWatching).toNat + out.watched.toNat := by
  cases moves with
  | givesUp free =>
    cases task with
    | lifecycle op id =>
      cases op <;> cases point <;> first | rfl | cases free
    | replay id rand => cases point <;> first | rfl | cases free
    | watch id => cases free
    | _ => cases point <;> rfl
  | missing looks absent =>
    cases task with
    | watch id =>
      have present := seen rfl
      rw [absent] at present
      cases present
    | _ => cases point <;> first | rfl | cases looks
  | found looks mapped => cases task <;> cases point <;> first | rfl | cases looks
  | passes handler ok =>
    cases task with
    | watch id => cases handler
    | _ => rfl
  | @announce op id other => cases op <;> first | rfl | exact absurd rfl other
  | _ => rfl

end

end Steps

/-- What holds in every run without `Delete`. -/
structure Gauged (s : Metered G) : Prop where
  kept : ∀ t r, s.server.threads t = some r → ∀ id, r.task ≠ .delete id
  seen : ∀ t r, s.server.threads t = some r → r.hasSeen = true →
    (s.server.manager.sims r.task.id).isSome = true
  counts : ∃ watching, Watching s.server.threads watching ∧ s.active + s.replayed = watching.card

theorem gauged_start (rows : String → Option SimulationInfo) : (start rows : Metered G).Gauged where
  kept := by rintro t r ⟨⟩
  seen := by rintro t r ⟨⟩
  counts := ⟨∅, fun t => by simp [start, new], rfl⟩

variable {host : Host G M} {s next : Metered G}

theorem Gauged.same {server : Server G} (gauged : s.Gauged)
    (threads : server.threads = s.server.threads)
    (sims : server.manager.sims = s.server.manager.sims) :
    Gauged ⟨server, s.active + 0, s.replayed + 0⟩ where
  kept := by rw [threads]; exact gauged.kept
  seen := by rw [threads, sims]; exact gauged.seen
  counts := by
    simp only [threads, Int.add_zero, Nat.add_zero]
    exact gauged.counts

variable {t : Nat} {claims : Option Claims} {task : Task} {input : Input G} {out : Outcome G}
  {replay : Bool} {rows : String → Option SimulationInfo}

theorem Gauged.call (gauged : s.Gauged) (free : s.server.threads t = none)
    (called : ∀ id, task ≠ .watch id) (kept : ∀ id, task ≠ .delete id) :
    Gauged ⟨{ s.server with
      threads := update s.server.threads t (some ⟨claims, task, .entered⟩) },
      s.active + 0, s.replayed + 0⟩ where
  kept := by
    intro u r held
    rcases thread_cases held with ⟨_, eq⟩ | ⟨_, old⟩
    · cases eq
      exact kept
    · exact gauged.kept u r old
  seen := by
    intro u r held seen
    rcases thread_cases held with ⟨_, eq⟩ | ⟨_, old⟩
    · cases eq
      cases task with
      | watch id => exact absurd rfl (called id)
      | _ => cases seen
    · exact gauged.seen u r old seen
  counts := by
    obtain ⟨watching, counted, counts⟩ := gauged.counts
    obtain ⟨next, countedNext, card⟩ := counted.update t (some ⟨claims, task, .entered⟩)
    have idle : (Request.mk claims task .entered).isWatching = false := by
      cases task with
      | watch id => exact absurd rfl (called id)
      | _ => rfl
    refine ⟨next, countedNext, ?_⟩
    simp only [free, any_none, any_some, idle, Bool.toNat_false, Nat.add_zero] at card
    rw [card, Int.add_zero, Nat.add_zero, counts]

theorem Gauged.advance (gauged : s.Gauged) {r : Request} (here : s.server.threads t = some r)
    (moves : Progress host t s.server.manager r.claims input r.task r.point out)
    (deleted : String → Bool) :
    Gauged ⟨⟨out.manager, update s.server.threads t
        (out.point.map fun point => { r with point := point }), deleted⟩,
      s.active + r.gauge - out.watched.toNat, s.replayed + r.replays⟩ where
  kept := by
    intro u q held
    obtain ⟨old, heldBefore, sameTask, _⟩ := thread_before here held
    rw [← sameTask]
    exact gauged.kept u old heldBefore
  seen := by
    intro u q held seen
    apply isSome_of_progress moves (gauged.kept t r here)
    rcases thread_cases held with ⟨_, eq⟩ | ⟨_, old⟩
    · obtain ⟨point, goes, rfl⟩ := map_eq_some_iff.mp eq
      rcases hasSeen_of_progress moves goes seen with already | now
      · exact gauged.seen t r here already
      · exact now
    · exact gauged.seen u q old seen
  counts := by
    obtain ⟨watching, counted, counts⟩ := gauged.counts
    obtain ⟨next, countedNext, card⟩ := counted.update t
      (out.point.map fun point => { r with point := point })
    refine ⟨next, countedNext, ?_⟩
    have change := gauge_of_progress moves (gauged.seen t r here)
    rw [here] at card
    change next.card + r.isWatching.toNat = watching.card +
      ((out.point.map (Request.mk r.claims r.task)).any Request.isWatching).toNat at card
    change r.gauge + r.replays + (r.isWatching.toNat : Int) = _ at change
    push_cast
    omega

theorem Gauged.spawn (gauged : s.Gauged) {u : Nat} {id : String} (free : s.server.threads u = none)
    (mapped : (s.server.manager.sims id).isSome = true) :
    Gauged ⟨{ s.server with
      threads := update s.server.threads u (some ⟨none, .watch id, .entered⟩) },
      s.active + 1, s.replayed⟩ where
  kept := by
    intro v r held
    rcases thread_cases held with ⟨_, eq⟩ | ⟨_, old⟩
    · cases eq
      exact nofun
    · exact gauged.kept v r old
  seen := by
    intro v r held seen
    rcases thread_cases held with ⟨_, eq⟩ | ⟨_, old⟩
    · cases eq
      exact mapped
    · exact gauged.seen v r old seen
  counts := by
    obtain ⟨watching, counted, counts⟩ := gauged.counts
    obtain ⟨next, countedNext, card⟩ := counted.update u (some ⟨none, .watch id, .entered⟩)
    refine ⟨next, countedNext, ?_⟩
    rw [free] at card
    change next.card + 0 = watching.card + 1 at card
    change s.active + 1 + s.replayed = _
    omega

theorem seen_of_watched {m : Manager G} {point : Point}
    (moves : Progress host t m claims input task point out)
    (watched : out.watched = true) : (Request.mk claims task point).hasSeen = true := by
  cases moves <;> first | rfl | cases watched

theorem gauged_step (gauged : s.Gauged) {move : Move G}
    (allows : s.Calls replay move) (step : s.step host move = some next) : next.Gauged := by
  obtain ⟨server, moved, rfl⟩ := map_eq_some_iff.mp step
  cases moves_of_step moved with
  | @call t claims task free called =>
    refine gauged.call free called ?_
    rintro id rfl
    cases allows
  | @advance t input r out here moves alone =>
    have after := gauged.advance here moves (note s.server.deleted r input)
    rw [alone, Bool.toNat_false] at after
    simpa only [mover, here, elim_some, Int.ofNat_zero, Int.sub_zero] using after
  | @spawn t input r out here moves watched free =>
    have after := gauged.advance here moves (note s.server.deleted r input)
    rw [watched, Bool.toNat_true] at after
    have seen := isSome_of_progress moves (gauged.kept t r here)
      (gauged.seen t r here (seen_of_watched moves watched))
    have spawned := after.spawn free seen
    simpa only [mover, here, elim_some, Int.ofNat_one, Int.sub_add_cancel] using spawned
  | loop here steps | watcher here steps => exact gauged.same rfl rfl

theorem gauged_of_reachable
    (reachable : Reachable (step host) (Calls replay) (start rows) s) : s.Gauged := by
  induction reachable with
  | start => exact gauged_start rows
  | step old allows stepped ih => exact gauged_step ih allows stepped

theorem Gauged.active_of_unwatched (gauged : s.Gauged)
    (unwatched : s.server.Unwatched) : s.active + s.replayed = 0 := by
  obtain ⟨watching, counted, counts⟩ := gauged.counts
  have empty : watching = ∅ := by
    apply eq_empty_of_forall_notMem
    intro t mem
    have watches := (counted t).mp mem
    cases held : s.server.threads t with
    | none =>
      rw [held] at watches
      cases watches
    | some r =>
      rw [held, any_some, unwatched t r held] at watches
      cases watches
  rw [counts, empty]
  rfl

theorem replayed_of_reachable (reachable : Reachable (step host) (Calls false) (start rows) s) :
    s.replayed = 0 ∧ ∀ t r, s.server.threads t = some r → ∀ id rand, r.task ≠ .replay id rand := by
  induction reachable with
  | start => exact ⟨rfl, by rintro t r ⟨⟩⟩
  | @step s next move before allows stepped ih =>
    obtain ⟨none, others⟩ := ih
    obtain ⟨server, moved, rfl⟩ := map_eq_some_iff.mp stepped
    have idle : ∀ t r, s.server.threads t = some r → r.replays = 0 := by
      rintro t ⟨claims, task, point⟩ held
      cases task with
      | replay id rand => exact absurd rfl (others t _ held id rand)
      | _ => rfl
    cases moves_of_step moved with
    | @call t claims task free called =>
      refine ⟨none, fun u r held => ?_⟩
      rcases thread_cases held with ⟨_, eq⟩ | ⟨_, old⟩
      · cases eq
        rintro id rand rfl
        cases allows
      · exact others u r old
    | @advance t input r out here moves alone =>
      refine ⟨by simp [mover, here, none, idle t r here], fun u q held => ?_⟩
      obtain ⟨old, heldBefore, sameTask, _⟩ := thread_before here held
      rw [← sameTask]
      exact others u old heldBefore
    | @spawn t input r out here moves watched free =>
      refine ⟨by simp [mover, here, none, idle t r here], fun u q held => ?_⟩
      rcases thread_cases held with ⟨_, eq⟩ | ⟨_, old⟩
      · cases eq
        exact nofun
      · obtain ⟨prior, heldBefore, sameTask, _⟩ := thread_before here old
        rw [← sameTask]
        exact others u prior heldBefore
    | loop here steps | watcher here steps => exact ⟨none, others⟩

theorem active_balances (host : Host G M) (rows : String → Option SimulationInfo) :
    (∀ s, Reachable (step host) (Calls false) (start rows) s →
      0 ≤ s.active ∧ (s.server.Unwatched → s.active = 0)) ∧
    ∀ s, Reachable (step host) (Calls true) (start rows) s →
      s.server.Unwatched → (s.active = 0 ↔ s.replayed = 0) := by
  constructor
  · intro s reachable
    have gauged := gauged_of_reachable reachable
    have none := (replayed_of_reachable reachable).1
    constructor
    · obtain ⟨watching, _, counts⟩ := gauged.counts
      omega
    · intro unwatched
      have balance := gauged.active_of_unwatched unwatched
      omega
  · intro s reachable unwatched
    have balance := (gauged_of_reachable reachable).active_of_unwatched unwatched
    omega

/-- The idle simulation is created, run to its end with `first` and stopped. -/
def idleRun (address : Nat) (first : Task) (steps : List (Move flagTypes)) :
    List (Move flagTypes) :=
  Server.creation ++ .call 1 none first :: steps ++
    [.call 3 none (.lifecycle .stop "s"), Server.plain 3, Server.plain 3,
      Server.plain 3, Server.plain 3,
      .loop address 0 fun _ => .register, .loop address 0 fun _ => .look,
      .loop address 0 fun _ => .finalize, .loop address 0 fun _ => .release,
      .loop address 0 fun _ => .close, .watcher address 0,
      Server.plain 9, Server.plain 9, Server.plain 9, Server.plain 9, Server.plain 9]

/-- The run is begun by `Start`. -/
def startedRun : List (Move flagTypes) :=
  idleRun 0 (.lifecycle .start "s") (.replicate 4 (Server.plain 1))

/-- The run is begun by `Replay`, in a simulation of its own. -/
def replayedRun : List (Move flagTypes) :=
  idleRun 1 (.replay "s" none) (.replicate 7 (Server.plain 1))

theorem active_balances_started :
    ∃ s, run (step Manager.idleHost) (permits false) startedRun
        (start fun _ => none) = some s ∧ 0 ≤ s.active ∧ (s.server.Unwatched → s.active = 0) := by
  have ran : run (step Manager.idleHost) (permits false) startedRun
      (start fun _ => none) = some _ := rfl
  exact ⟨_, ran, (active_balances Manager.idleHost fun _ => none).1 _ (reachable_of_run ran)⟩

theorem active_negative :
    ∃ s, last (step Manager.idleHost) replayedRun (start fun _ => none) = some s ∧
      (∀ t, s.server.threads t = none) ∧ s.server.manager.state 0 = .idle ∧
      s.server.manager.state 1 = .stopped ∧ s.active = -1 :=
  ⟨_, rfl, fun
    | 0 => rfl
    | 1 => rfl
    | 2 => rfl
    | 3 => rfl
    | 4 => rfl
    | 5 => rfl
    | 6 => rfl
    | 7 => rfl
    | 8 => rfl
    | 9 => rfl
    | _ + 10 => rfl, rfl, rfl, rfl⟩

end Metered

end Runner

end Simulator
