import Simulator.JobConservation

/-!
# When jobs are lost

A worker that crashes leaves its key behind; one that is cancelled has acknowledged a
failed job before it is published again.
-/

namespace Simulator

open Transition List

namespace Cluster

variable {W : Type}

def CrashScope (c : Cluster W) : ClusterAction W → Prop
  | .claim _ fails => fails = false
  | .release _ fails => fails = false
  | .settle _ fails => fails = false
  | .cancel _ => False
  | .abandon _ => False
  | .redeliver _ => False
  | .crash w => ∃ job, (c.workers w).point = .running job
  | _ => True

def CrashSafe (c : Cluster W) : ClusterAction W → Prop
  | .claim w _ => ∀ job, (c.workers w).point = .received (.job job) → c.KeyAccountedFor job.id
  | .crash w => ∀ retry ∈ c.retries, retry.owner ≠ w
  | _ => True

/-- The callback of `Consume` works on the job, from the call of the handler
to the end of `handleFailure`. -/
def Executing (c : Cluster W) (id : String) : Prop :=
  ∃ w job, (∀ body, (c.workers w).point ≠ .received body) ∧
    (c.workers w).point.job = some job ∧ job.id = id

variable [DecidableEq W] {q : Queue} {c next : Cluster W} {action : ClusterAction W}

structure Kept (c : Cluster W) : Prop where
  conserved : c.Conserved
  delivered : ∀ w, HoldsDelivery (c.workers w)

omit [DecidableEq W] in
theorem kept_start : (start : Cluster W).Kept where
  conserved := fun _ accepted => nomatch accepted
  delivered := fun _ => holdsDelivery_of_none rfl

theorem Kept.step_crash (kept : c.Kept) (inScope : c.CrashScope action)
    (safe : c.CrashSafe action) (step : c.step q action = some next) : next.Kept := by
  have move := move_of_step step
  refine ⟨move.conserved kept.conserved ?_, move.holdsDelivery ?_ kept.delivered⟩
  · intro id lost
    cases lost with
    | refused w here led taken =>
      exact move.inCustody_of_refused here taken (safe _ here)
    | unpublished w here exhausted => cases inScope
    | abandoned waiting cancelled => exact inScope.elim
    | crashedWaiting waiting owned => exact absurd owned (safe _ waiting)
    | @crashedInHand w job inHand settled =>
      obtain ⟨running, here⟩ := inScope
      rcases kept.delivered w job inHand with outstanding | ⟨error, acked⟩
      · exact absurd outstanding settled
      · rw [here] at acked
        cases acked
  · rintro w rfl
    exact inScope

theorem jobs_survive_crashes (reachable : Reachable (fun c action => c.step q action)
      (fun c action => c.CrashScope action ∧ c.CrashSafe action) start c)
    {job : Job} (accepted : job ∈ c.accepted)
    (notDone : ¬ c.Succeeded job.id) (notDead : ¬ c.DeadLettered job.id) :
    c.Queued job.id ∨ c.Unacked job.id ∨ c.Executing job.id ∨ c.Waiting job.id := by
  have kept : c.Kept := reachable.invariant kept_start
    fun _ _ _ kept ok step =>
      kept.step_crash ok.1 ok.2 step
  rcases kept.conserved job accepted with queued | inHand | waiting | dead | succeeded
  · exact .inl queued
  · rcases unacked_or_acked kept.delivered inHand with unacked | ⟨w, other, error, acked, eq⟩
    · exact .inr (.inl unacked)
    · refine .inr (.inr (.inl ⟨w, other, ?_, ?_, eq⟩))
      · intro body received
        rw [acked] at received
        cases received
      · rw [acked]
        rfl
  · exact .inr (.inr (.inr waiting))
  · exact absurd dead notDead
  · exact absurd succeeded notDone

def sampleJob : Job :=
  ⟨"a", "s", "run", "", 0, 3, "", 0⟩

theorem jobs_survive_crashes_expired :
    ∃ c : Cluster Bool, c.accepted = [sampleJob] ∧ (c.workers true).point = .idle ∧
      (c.workers false).point = .running sampleJob ∧
      (c.Queued "a" ∨ c.Unacked "a" ∨ c.Executing "a" ∨ c.Waiting "a") := by
  have first : Reachable (fun c action => step ⟨true, 1⟩ c action)
      (fun c action => c.CrashScope action ∧ c.CrashSafe action)
      (start : Cluster Bool) start := .start
  have claimed := ((first.take (.enqueue sampleJob) ⟨trivial, trivial⟩
    rfl).take (.deliver true 0) ⟨trivial, trivial⟩ rfl).take (.claim true false)
    ⟨rfl, fun _ _ taken => absurd taken not_mem_nil⟩ rfl
  have expired := (claimed.take (.crash true)
    ⟨⟨_, rfl⟩, fun _ waiting => absurd waiting not_mem_nil⟩ rfl).take
    (.expire "job:processed:a") ⟨trivial, trivial⟩ rfl
  have taken := (expired.take (.deliver false 0) ⟨trivial, trivial⟩ rfl).take (.claim false false)
    ⟨rfl, fun _ _ taken => absurd taken not_mem_nil⟩ rfl
  exact ⟨_, rfl, rfl, rfl, jobs_survive_crashes taken mem_cons_self
    (fun done => absurd done not_mem_nil) (fun ⟨_, dead, _⟩ => absurd dead not_mem_nil)⟩

theorem crash_loses_job :
    ∃ c : Cluster Bool, Reachable (fun c action => step ⟨true, 1⟩ c action) CrashScope start c ∧
      c.accepted = [sampleJob] ∧ c.successes = [] ∧ c.dead = [] ∧
      ¬ (c.Queued "a" ∨ c.Unacked "a" ∨ c.Executing "a" ∨ c.Waiting "a") := by
  have first : Reachable (fun c action => step ⟨true, 1⟩ c action) CrashScope
      (start : Cluster Bool) start := .start
  have claimed := ((first.take (.enqueue sampleJob) trivial rfl).take
    (.deliver true 0) trivial rfl).take (.claim true false) rfl rfl
  have delivered := (claimed.take (.crash true) ⟨_, rfl⟩ rfl).take (.deliver false 0) trivial rfl
  have dropped := (delivered.take (.claim false false) rfl rfl).take (.ack false) trivial rfl
  refine ⟨_, dropped, rfl, rfl, rfl, ?_⟩
  rintro (⟨_, mem, _⟩ | ⟨w, _, held, _⟩ | ⟨w, _, _, held, _⟩ | ⟨_, mem, _⟩)
  · exact absurd mem not_mem_nil
  · cases w <;> cases held
  · cases w <;> cases held
  · exact absurd mem not_mem_nil

def ShutdownScope (c : Cluster W) : ClusterAction W → Prop
  | .claim w fails => fails = (c.workers w).cancelled
  | .release w fails => fails = (c.workers w).cancelled
  | .settle w fails => fails = true → (c.workers w).cancelled = true
  | .crash _ => False
  | .redeliver _ => False
  | _ => True

def ShutdownSafe (c : Cluster W) : ClusterAction W → Prop
  | .release w _ => (c.workers w).cancelled = false
  | .settle w _ => ∀ job error, (c.workers w).point = .acked job error →
      job.maxAttempts ≤ job.attempt → (c.workers w).cancelled = false
  | .abandon place => ∀ retry, c.retries[place]? = some retry →
      (c.workers retry.owner).cancelled = false
  | _ => True

/-- The job will be published again, or to the dead-letter queue: its retry
waits, or `handleFailure` is about to see to it. -/
def Pending (c : Cluster W) (id : String) : Prop :=
  c.Waiting id ∨ ∃ w job error, (c.workers w).point = .acked job error ∧ job.id = id

variable {id : String} {w : W} {job : Job}

theorem claim_kept {worker : Worker} (before : ∃ v, (c.workers v).point.claim = some id)
    (kept : (c.workers w).point.claim = some id → worker.point.claim = some id) :
    ∃ v, ((c.setWorker w worker).workers v).point.claim = some id := by
  obtain ⟨v, claims⟩ := before
  refine ⟨v, ?_⟩
  by_cases eq : v = w
  · subst eq
    rw [workers_setWorker_self]
    exact kept claims
  · rw [workers_setWorker_ne c eq]
    exact claims

section

variable (before : c.KeyAccountedFor id)
include before

theorem KeyAccountedFor.setWorker (worker : Worker)
    (kept : (c.workers w).point.claim = some id → worker.point.claim = some id) :
    (c.setWorker w worker).KeyAccountedFor id := by
  intro taken
  rcases before taken with holder | done
  · exact .inl (claim_kept holder kept)
  · exact .inr done

theorem KeyAccountedFor.goTo {point after : Point} (here : (c.workers w).point = point)
    (kept : point.claim = some id → after.claim = some id) :
    (c.goTo w after).KeyAccountedFor id := by
  refine before.setWorker _ ?_
  rw [here]
  exact kept

theorem KeyAccountedFor.claimed (here : (c.workers w).point = .received (.job job)) :
    KeyAccountedFor { c.goTo w (.running job) with
      keys := processedKey job.id :: c.keys } id := by
  intro taken
  rcases mem_cons.mp taken with new | prior
  · refine .inl ⟨w, ?_⟩
    rw [processedKey_injective new]
    exact congrArg (fun worker => worker.point.claim) (workers_setWorker_self c w _)
  · exact (before.goTo here nofun) prior

theorem KeyAccountedFor.succeed (here : (c.workers w).point = .running job) :
    KeyAccountedFor { c.goTo w (.succeeded job) with
      successes := c.successes ++ [job.id] } id := by
  intro taken
  by_cases eq : job.id = id
  · refine .inr (mem_append_right _ ?_)
    rw [eq]
    exact mem_singleton_self _
  · rcases before taken with holder | done
    · refine .inl (claim_kept holder ?_)
      rw [here]
      exact fun claims => absurd (Option.some.inj claims) eq
    · exact .inr (mem_append_left _ done)

theorem KeyAccountedFor.release {error : String} (here : (c.workers w).point = .failed job error) :
    KeyAccountedFor { c.goTo w (.released job error) with
      keys := c.keys.filter (· ≠ processedKey job.id) } id := by
  intro taken
  obtain ⟨prior, differs⟩ := mem_filter.mp taken
  rcases before prior with holder | done
  · refine .inl (claim_kept holder ?_)
    rw [here]
    intro claims
    rw [← Option.some.inj claims] at differs
    simp at differs
  · exact .inr done

end

theorem KeyAccountedFor.step (led : q.coordinated = true) (before : c.KeyAccountedFor id)
    (inScope : c.ShutdownScope action) (safe : c.ShutdownSafe action)
    (move : Move q c action next) : next.KeyAccountedFor id := by
  cases move with
  | deliver w here queued =>
    refine before.setWorker ⟨.received _, _, _⟩ ?_
    rw [here]
    nofun
  | dropMalformed w fails here | unclaimed w here noReply | refused w here _ taken
  | countFailed w here | countSucceeded w here | deadLetter w fails here exhausted
  | retry w fails here more => exact before.goTo here nofun
  | claimed w here _ free => exact before.claimed here
  | succeed w here => exact before.succeed here
  | fail w error here => exact before.goTo here fun claims => claims
  | release w here _ => exact before.release here
  | unreleased w here noReply =>
    rcases noReply with alone | failed
    · rw [led] at alone
      cases alone
    · -- the context would be cancelled
      have live : _ = false := safe
      rw [← inScope, failed] at live
      cases live
  | ackFailed w here | ackFinished w here =>
    refine before.setWorker _ ?_
    rw [here]
    nofun
  | cancel w => exact before.setWorker _ fun claims => claims
  | crash w | redeliver w outstanding => exact inScope.elim
  | expire key => exact fun taken => before (mem_of_mem_filter taken)
  | _ => exact before

structure Orderly (q : Queue) (c : Cluster W) : Prop extends Kept c where
  accounted : q.coordinated = true → ∀ id, c.KeyAccountedFor id

theorem Orderly.step_shutdown (orderly : Orderly q c)
    (inScope : c.ShutdownScope action) (safe : c.ShutdownSafe action)
    (step : c.step q action = some next) : Orderly q next := by
  have move := move_of_step step
  refine ⟨⟨move.conserved orderly.conserved ?_,
    move.holdsDelivery ?_ orderly.delivered⟩, fun led id =>
      (orderly.accounted led id).step led inScope safe move⟩
  · intro id lost
    cases lost with
    | refused w here led taken =>
      exact move.inCustody_of_refused here taken (orderly.accounted led _)
    | unpublished w here exhausted =>
      have cancelled := inScope rfl
      rw [safe _ _ here exhausted] at cancelled
      cases cancelled
    | abandoned waiting cancelled =>
      rw [safe _ waiting] at cancelled
      cases cancelled
    | crashedWaiting waiting owned | crashedInHand inHand settled => exact inScope.elim
  · rintro w rfl
    exact inScope

end Cluster

end Simulator
