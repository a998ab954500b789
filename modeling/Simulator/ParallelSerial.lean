import Simulator.SchedulerRefinement
import Simulator.WorldOperations

/-!
# Parallel execution equals serial execution

A call of `run` that returns nil has lost no shard.
-/

namespace Simulator

open Interleaving List World

variable {G : GoTypes}

namespace Scheduler

section Runs

variable {s : Scheduler G} {w : World G} {cache : Nat → EntitySet} {st : RunState G}

theorem Failed.step {next : RunState G} {cancelled : Bool}
    (failed : Failed st) (step : s.Step cancelled st next) :
    Failed next ∨ ∃ error, next.result = some (.error error) := by
  obtain ⟨running, moved⟩ := moves_of_step step
  obtain ⟨_, notOver, failed⟩ := failed
  have kept : ∀ (idx : Nat) (old run : SystemRun G), st.runs[idx]? = some old →
      (∀ shards errs, old = .active shards errs → errs ≠ [] →
        next.errors ≠ [] ∨ ∃ shards' errors', run = .active shards' errors' ∧ errors' ≠ []) →
      next.runs = st.runs.set idx run → next.levels = st.levels → next.result = st.result →
      (st.errors ≠ [] → next.errors ≠ []) → Failed next := by
    intro idx old run held own runsEq levelsEq resultEq errorsKept
    refine ⟨by rw [resultEq]; exact running, by rw [levelsEq]; exact notOver, ?_⟩
    rcases failed with waiting | ⟨failing, inLevel, shards, errs, isActive, someError⟩
    · exact .inl (errorsKept waiting)
    · have levelEq : next.level = st.level := by
        unfold RunState.level
        rw [levelsEq]
      by_cases eq : failing = idx
      · subst eq
        rw [held] at isActive
        cases isActive
        rcases own shards errs rfl someError with arrived | ⟨shards', errors', rfl, stillError⟩
        · exact .inl arrived
        · refine .inr ⟨failing, levelEq ▸ inLevel, shards', errors', ?_, stillError⟩
          rw [runsEq]
          exact List.getElem?_set_self (List.getElem?_eq_some_iff.mp held).1
      · refine .inr ⟨failing, levelEq ▸ inLevel, shards, errs, ?_, someError⟩
        rw [runsEq, getElem?_set_ne (Ne.symm eq)]
        exact isActive
  cases moved with
  | @start level rest idx sys levels mem system pending =>
    left
    exact kept idx _ _ pending (by simp) rfl rfl rfl id
  | @shard idx j shards errs cur changed error world isActive held own =>
      left
      refine kept idx _ _ isActive ?_ rfl rfl rfl id
      intro _ _ eq someError
      cases eq
      exact .inr ⟨_, _, rfl, by simp [someError]⟩
  | @join idx shards errs isActive ret =>
    left
    refine kept idx _ _ isActive ?_ rfl rfl rfl
      (fun waiting => append_ne_nil_of_left_ne_nil waiting _)
    intro _ _ eq someError
    cases eq
    left
    cases errs with
    | nil => exact (someError rfl).elim
    | cons error errs => simp
  | nextLevel levels ret noError =>
    exfalso
    rcases failed with waiting | ⟨idx, inLevel, _, _, isActive, _⟩
    · exact waiting noError
    · simp only [RunState.level, levels, headD_cons] at inLevel
      rw [ret idx inLevel] at isActive
      cases isActive
  | fail => exact .inr ⟨_, rfl⟩
  | finish levels => exact (notOver levels).elim

theorem onTrack_or_failed (obliging : s.Obliging w cache)
    (reaches : s.Reaches (s.begin w cache) st) :
    (∃ done, s.OnTrack w cache done st) ∨ Failed st ∨ ∃ error, st.result = some (.error error) := by
  induction reaches with
  | refl => exact .inl ⟨[], onTrack_begin s w cache⟩
  | tail _ step ih =>
    obtain ⟨cancelled, step⟩ := step
    rcases ih with ⟨done, track⟩ | failed | ⟨error, finished⟩
    · rcases track.step obliging step with onTrack | ⟨_, failed⟩
      · exact .inl onTrack
      · exact .inr (.inl failed)
    · exact .inr (failed.step step)
    · rw [(moves_of_step step).1] at finished
      cases finished

theorem onTrack_of_uncancelled (obliging : s.Obliging w cache)
    (reaches : s.ReachesUncancelled (s.begin w cache) st) : ∃ done, s.OnTrack w cache done st := by
  induction reaches with
  | refl => exact ⟨[], onTrack_begin s w cache⟩
  | tail _ step ih =>
    obtain ⟨done, track⟩ := ih
    rcases track.step obliging step with onTrack | ⟨no, _⟩
    · exact onTrack
    · cases no

theorem run_eq_runSerially (obliging : s.Obliging w cache) :
    (∀ st, s.Reaches (s.begin w cache) st → st.result = some (.ok ()) →
      st.world = s.runSerially cache w) ∧ (∀ st, s.ReachesUncancelled (s.begin w cache) st →
      st.result = some (.ok ()) ∨ st.result = none ∧ ∃ next, s.Step false st next) ∧
    WellFounded fun next st : RunState G =>
      ∃ cancelled, s.Step cancelled st next := by
  refine ⟨fun st reaches ret => ?_, fun st reaches => ?_, s.wellFounded_step⟩
  · rcases onTrack_or_failed obliging reaches with ⟨done, track⟩ | failed | ⟨error, finished⟩
    · have finished : st.levels = [] := by
        rcases track.result with running | ⟨_, finished⟩
        · rw [running] at ret
          cases ret
        · exact finished
      have noLevel : st.level = [] := by simp [RunState.level, finished]
      have ended := track.world_eq obliging (by simp [noLevel])
      rw [noLevel, flatten_append] at ended
      simp only [flatten_cons, flatten_nil, append_nil] at ended
      have allDone : s.levels = done := by
        have split := track.split
        rwa [finished, append_nil] at split
      rw [ended, ← allDone, foldl_levels obliging, runSerially_eq obliging]
    · rw [failed.1] at ret
      cases ret
    · rw [ret] at finished
      cases finished
  · obtain ⟨done, track⟩ := onTrack_of_uncancelled obliging reaches
    rcases track.result with running | ⟨ret, _⟩
    · have sized := (sized_begin s w cache).reaches reaches.reaches
      exact .inr ⟨running, exists_step sized running⟩
    · exact .inl ret

end Runs

def toggleOne (e : EntityID) : Process (World flagTypes) Unit :=
  World.reading (G := flagTypes) .flag 0 e fun v =>
    World.writing (G := flagTypes) .flag 0 e (!v.getD false)

def toggle : System flagTypes where
  reads := [0]
  writes := [0]
  serial := false
  run := fun shard =>
    (Process.forEach toggleOne shard).andThen (.halt none)

theorem toggle_selfContained (w : World flagTypes)
    (es : List EntityID) : toggle.SelfContained w es := by
  refine ⟨toggleOne, fun _ => rfl, fun e _ => ?_⟩
  have own : ((0, e.key) : World.Location) ∈ (toggle.footprint e).writes :=
    ⟨mem_singleton.mpr rfl, rfl⟩
  exact within_reading (Or.inr own) fun v =>
    within_writing _ own

theorem run_eq_runSerially_toggle :
    Scheduler.Obliging ⟨2, [toggle]⟩ World.flaggedWorld newCache ∧
    ∀ st, Scheduler.Reaches ⟨2, [toggle]⟩
        (Scheduler.begin ⟨2, [toggle]⟩ World.flaggedWorld newCache) st → st.result = some (.ok ()) →
      st.world = Scheduler.runSerially ⟨2, [toggle]⟩ newCache
        World.flaggedWorld := by
  have obliging : Scheduler.Obliging ⟨2, [toggle]⟩ flaggedWorld
      newCache := by
    refine ⟨fun idx => ?_, fun idx sys system => ?_⟩
    · cases idx with
      | zero =>
        have ids : Scheduler.entitiesOf ⟨2, [toggle]⟩ flaggedWorld
            newCache 0 = [⟨1⟩, ⟨2 ^ 32 + 1⟩] := rfl
        rw [ids]
        decide
      | succ idx => exact nodup_nil
    · cases idx with
      | zero =>
        cases system
        exact toggle_selfContained _ _
      | succ idx => cases system
  exact ⟨obliging, (run_eq_runSerially obliging).1⟩

end Scheduler

end Simulator
