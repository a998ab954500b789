import Simulator.Executors
import Simulator.SchedulerRefinement

/-!
# Ticks in which no shard gives up

A tick in which no waiting shard gives up goes as it would with a live context.
-/

namespace Simulator

open Interleaving List

variable {G : GoTypes}

def SchedulerMove.givesUp : SchedulerMove → Bool
  | .cancel _ _ => true
  | _ => false

namespace Scheduler

variable {s : Scheduler G}

theorem step_eq_of_not_givesUp {move : SchedulerMove}
    (stays : move.givesUp = false) (cancelled : Bool) (st : RunState G) :
    s.step cancelled st move = s.step false st move := by
  have eq : s.shardMove cancelled st.world move = s.shardMove false st.world move := by
    funext shards cur
    cases move with
    | cancel idx shard => cases stays
    | _ =>
      cases cur with
      | running body => cases body <;> rfl
      | _ => rfl
  cases move with
  | cancel idx shard => cases stays
  | acquire idx shard | act idx shard | release idx shard =>
    unfold step
    rw [eq]
  | _ => rfl

def Allows (s : Scheduler G) (acts : (World G → World G) → Prop) : Prop :=
  ∀ sys ∈ s.systems, ∀ shard, (sys.run shard).Along acts (· = none)

/-- A call of `run` with no error and only such actions to come. -/
structure Clean (acts : (World G → World G) → Prop) (st : RunState G) :
    Prop where
  noErrors : st.errors = []
  result : ∀ error, st.result ≠ some (.error error)
  active : ∀ (idx : Nat) shards errors, st.runs[idx]? = some (.active shards errors) →
      errors = [] ∧ ∀ shard ∈ shards, shard.body.Along acts (· = none)

namespace Clean

variable {acts : (World G → World G) → Prop} {st next : RunState G}

theorem begin (w : World G) (cache : Nat → EntitySet) :
    Clean acts (s.begin w cache) where
  noErrors := rfl
  result := nofun
  active := by
    intro idx shards errs active
    simp only [Scheduler.begin, getElem?_map] at active
    obtain ⟨sys, -, other⟩ := Option.map_eq_some_iff.mp active
    cases other

theorem set (clean : Clean acts st) {idx : Nat} {run : SystemRun G}
    (runsEq : next.runs = st.runs.set idx run)
    (noErrors : next.errors = []) (res : next.result = st.result)
    (active : ∀ shards errs, run = .active shards errs →
      errs = [] ∧ ∀ shard ∈ shards, shard.body.Along acts (· = none)) : Clean acts next := by
  refine ⟨noErrors, res ▸ clean.result, ?_⟩
  intro other shards errs isActive
  rw [runsEq, getElem?_set] at isActive
  split at isActive
  · split at isActive
    · exact active shards errs (Option.some.inj isActive)
    · cases isActive
  · exact clean.active other shards errs isActive

variable {shards : List (ShardRun G)}

theorem along_set {j : Nat} {changed : ShardRun G}
    (old : ∀ shard ∈ shards, shard.body.Along acts (· = none))
    (new : changed.body.Along acts (· = none)) :
    ∀ shard ∈ shards.set j changed, shard.body.Along acts (· = none) := by
  intro shard mem
  rcases mem_or_eq_of_mem_set mem with inOld | rfl
  · exact old shard inOld
  · exact new

theorem launch_along (allows : s.Allows acts) {sys : System G}
    (mem : sys ∈ s.systems) {es : List EntityID} {errs : List RunError}
    (began : launch s.workers sys es = .active shards errs) :
    errs = [] ∧ ∀ shard ∈ shards, shard.body.Along acts (· = none) := by
  rcases launch_cases s.workers sys es with ⟨-, ret⟩ | ⟨started, active, bodies⟩
  · rw [ret] at began
    cases began
  · rw [active] at began
    cases began
    refine ⟨rfl, fun shard inShards => ?_⟩
    have body : shard.body ∈ (shardsOf s.workers sys es).map sys.run :=
      bodies ▸ mem_map_of_mem inShards
    obtain ⟨part, -, eq⟩ := mem_map.mp body
    rw [← eq]
    exact allows sys mem part

theorem step (allows : s.Allows acts) (clean : Clean acts st) (stepped : s.Step false st next) :
    Clean acts next ∧ (next.world = st.world ∨
      ∃ effect, acts effect ∧ next.world = effect st.world) := by
  obtain ⟨running, moved⟩ := moves_of_step stepped
  cases moved with
  | start levels mem system pending =>
    refine ⟨clean.set rfl clean.noErrors rfl ?_, .inl rfl⟩
    intro shards errs began
    exact launch_along allows (mem_of_getElem? system) began
  | @shard idx j shards errs cur changed error world active held moved =>
      obtain ⟨noErrors, along⟩ := clean.active idx shards errs active
      have own := along cur (mem_of_getElem? held)
      subst noErrors
      cases moved with
      | acquire body free =>
        refine ⟨clean.set rfl clean.noErrors rfl ?_, .inl rfl⟩
        intro _ _ eq
        cases eq
        exact ⟨rfl, along_set along own⟩
      | cancel body done => cases done
      | act effect rest =>
        refine ⟨clean.set rfl clean.noErrors rfl ?_, .inr ⟨effect, own.1, rfl⟩⟩
        intro _ _ eq
        cases eq
        exact ⟨rfl, along_set along (own.2 st.world)⟩
      | release error =>
        have noError : error = none := own
        subst noError
        refine ⟨clean.set rfl clean.noErrors rfl ?_, .inl rfl⟩
        intro _ _ eq
        cases eq
        exact ⟨rfl, along_set along rfl⟩
  | @join idx shards errs active ret =>
    obtain ⟨noErrors, -⟩ := clean.active idx shards errs active
    subst noErrors
    refine ⟨clean.set rfl (by simp [clean.noErrors]) rfl ?_, .inl rfl⟩
    intro _ _ eq
    cases eq
  | nextLevel levels ret noError =>
    exact ⟨⟨clean.noErrors, clean.result, clean.active⟩, .inl rfl⟩
  | fail levels ret someError =>
    rw [clean.noErrors] at someError
    cases someError
  | finish levels =>
    exact ⟨⟨clean.noErrors, nofun, clean.active⟩, .inl rfl⟩

theorem at_world (clean : Clean acts st) (w : World G) (cache : Nat → EntitySet) :
    Clean acts { st with world := w, cache := cache } :=
  ⟨clean.noErrors, clean.result, clean.active⟩

end Clean

end Scheduler

end Simulator
