import Simulator.ExclusiveClaims
import Simulator.JobQueue

/-!
# Executions of one job exclude each other

As long as Redis answers and no key expires, the idempotency keys are exclusive claims.
-/

namespace Simulator

open ExclusiveClaims Transition Function

def Point.claim : Point → Option String
  | .running job => some job.id
  | .failed job _ => some job.id
  | _ => none

def ClusterAction.dependable {W : Type} : ClusterAction W → Bool
  | .claim _ fails => !fails
  | .release _ fails => !fails
  | .expire _ => false
  | _ => true

namespace Cluster

variable {W : Type} [DecidableEq W]

def claims (c : Cluster W) : Claims W String where
  keys := Set.preimage processedKey {key | key ∈ c.keys}
  holder := fun w => (c.workers w).point.claim
  finished := c.successes

omit [DecidableEq W] in
theorem claims_start : (start : Cluster W).claims = Claims.start := by
  have nothing : Set.preimage processedKey {key | key ∈ ([] : List String)} = (∅ : Set String) := by
    ext id
    simp
  exact congrArg (fun keys => Claims.mk keys (fun _ : W => none) []) nothing

theorem claims_setWorker (c : Cluster W) (w : W) (worker : Worker) :
    (c.setWorker w worker).claims = { c.claims with
      holder := update c.claims.holder w worker.point.claim } := by
  have holders : (c.setWorker w worker).claims.holder =
      update c.claims.holder w worker.point.claim := by
    funext v
    by_cases same : v = w
    · subst same
      simp [claims]
    · simp [claims, workers_setWorker_ne c same, update_of_ne same]
  rw [← holders]
  rfl

theorem holder_goTo (c : Cluster W) (w : W) (point : Point) : (c.goTo w point).claims.holder =
      update c.claims.holder w point.claim :=
  congrArg Claims.holder (claims_setWorker c w _)

variable {c : Cluster W} {w : W} {job : Job}

omit [DecidableEq W] in
theorem holder_of_point {point : Point} (here : (c.workers w).point = point) :
    c.claims.holder w = point.claim :=
  congrArg Point.claim here

theorem claims_setWorker_same (worker : Worker)
    (same : worker.point.claim = (c.workers w).point.claim) :
    (c.setWorker w worker).claims = c.claims := by
  rw [claims_setWorker, same]
  exact congrArg (fun holder => { c.claims with holder := holder })
    (update_eq_self w c.claims.holder)

variable {old after : Point}

section

variable (here : (c.workers w).point = old) (same : after.claim = old.claim)
include here same

theorem claims_goTo : (c.goTo w after).claims = c.claims :=
  claims_setWorker_same _ (by rw [here]; exact same)

theorem claims_acknowledge : (c.acknowledge w after).claims = c.claims :=
  claims_setWorker_same _ (by rw [here]; exact same)

end

theorem claims_claimed (free : processedKey job.id ∉ c.keys) :
    c.claims.step (.claim w job.id) = some (claims
      { c.goTo w (.running job) with
        keys := processedKey job.id :: c.keys }) := by
  have keysEq : insert job.id c.claims.keys = Set.preimage processedKey
        {key | key ∈ processedKey job.id :: c.keys} := by
    ext id
    simp [claims, processedKey_injective.eq_iff]
  have holders := holder_goTo c w (.running job)
  have freeKey : job.id ∉ c.claims.keys := free
  rw [Claims.step, if_pos freeKey, keysEq]
  exact congrArg (fun holder => some (Claims.mk _ holder c.successes)) holders.symm

theorem claims_release {error : String} (here : (c.workers w).point = .failed job error) :
    c.claims.step (.release w) = some (claims
      { c.goTo w (.released job error) with
        keys := c.keys.filter (· ≠ processedKey job.id) }) := by
  have keysEq : c.claims.keys \ {job.id} = Set.preimage processedKey
        {key | key ∈ c.keys.filter (· ≠ processedKey job.id)} := by
    ext id
    simp [claims, processedKey_injective.eq_iff]
  have holders := holder_goTo c w (.released job error)
  have holds : c.claims.holder w = some job.id := holder_of_point here
  rw [Claims.step, holds, Option.map_some, keysEq]
  exact congrArg (fun holder => some (Claims.mk _ holder c.successes)) holders.symm

theorem claims_succeed (here : (c.workers w).point = .running job) :
    c.claims.step (.finish w) = some (claims
      { c.goTo w (.succeeded job) with
        successes := c.successes ++ [job.id] }) := by
  have holders := holder_goTo c w (.succeeded job)
  have holds : c.claims.holder w = some job.id := holder_of_point here
  rw [Claims.step, holds, Option.map_some]
  exact congrArg (fun holder => some (Claims.mk c.claims.keys holder
      (c.successes ++ [job.id]))) holders.symm

theorem claims_step {q : Queue} (led : q.coordinated = true)
    {next : Cluster W} {action : ClusterAction W} (dependable : action.dependable = true)
    (step : c.step q action = some next) :
    next.claims = c.claims ∨ ∃ act, True ∧ c.claims.step act = some next.claims := by
  cases move_of_step step with
  | enqueue job | count uncounted | publishMalformed | fire waiting
  | abandon waiting notDue cancelled | republish waiting due => exact .inl rfl
  | deliver w here queued =>
    exact .inl (claims_setWorker_same ⟨.received _, some _, _⟩ (by rw [here]; rfl))
  | dropMalformed w fails here | refused w here _ taken | fail w error here | countFailed w here
  | countSucceeded w here | deadLetter w fails here exhausted | retry w fails here more =>
    exact .inl (claims_goTo here rfl)
  | unclaimed w here noReply | unreleased w here noReply =>
    rcases noReply with alone | failed
    · rw [led] at alone
      cases alone
    · subst failed
      cases dependable
  | claimed w here _ free => exact .inr ⟨_, trivial, claims_claimed free⟩
  | succeed w here => exact .inr ⟨_, trivial, claims_succeed here⟩
  | release w here _ => exact .inr ⟨_, trivial, claims_release here⟩
  | ackFailed w here | ackFinished w here => exact .inl (claims_acknowledge here rfl)
  | cancel w => exact .inl (claims_setWorker_same _ rfl)
  | crash w =>
    refine .inr ⟨.vanish w, trivial, ?_⟩
    exact congrArg some (claims_setWorker c w .fresh).symm
  | redeliver w outstanding =>
    exact .inl (claims_setWorker_same ⟨(c.workers w).point, none, _⟩ rfl)
  | expire key => cases dependable

theorem executions_exclusive {q : Queue} (coordinated : q.coordinated = true) {c : Cluster W}
    (reachable : Reachable (fun c action => c.step q action)
      (fun _ action => action.dependable = true) start c) :
    (∀ v w job other, (c.workers v).point = .running job →
      (c.workers w).point = .running other → job.id = other.id → v = w) ∧
      ∀ id, c.successes.count id ≤ 1 := by
  have abstractly : Reachable Claims.step (fun _ _ => True) Claims.start
      c.claims := by
    rw [← claims_start]
    exact reachable.simulated claims fun _ _ _ dependable step =>
      claims_step coordinated dependable step
  have exclusive := Claims.exclusive_of_reachable abstractly
  constructor
  · intro v w job other first second same
    have holdsFirst : c.claims.holder v = some job.id := holder_of_point first
    have holdsSecond : c.claims.holder w = some job.id := by
      rw [same]
      exact holder_of_point second
    exact exclusive.alone _ _ _ holdsFirst holdsSecond
  · intro id
    exact List.nodup_iff_count_le_one.mp exclusive.once id

def duplicateRun (job : Job) : List (ClusterAction Bool) :=
  [.enqueue job, .enqueue job, .deliver true 0, .deliver false 0,
    .claim false false, .claim true false, .crash true, .finish false none]

theorem executions_exclusive_duplicate :
    ∃ c : Cluster Bool, run (fun c action => step ⟨true, 1⟩ c action)
        (fun _ action => action.dependable)
        (duplicateRun ⟨"a", "s", "run", "", 0, 3, "", 0⟩) start = some c ∧
      c.main.length = 1 ∧ c.successes.count "a" = 1 ∧ ∀ id, c.successes.count id ≤ 1 := by
  obtain ⟨c, ran, queued, once⟩ : ∃ c : Cluster Bool, run (fun c action => step ⟨true, 1⟩ c action)
        (fun _ action => action.dependable)
        (duplicateRun ⟨"a", "s", "run", "", 0, 3, "", 0⟩) start = some c ∧
      c.main.length = 1 ∧ c.successes.count "a" = 1 := ⟨_, rfl, rfl, rfl⟩
  exact ⟨c, ran, queued, once, (executions_exclusive rfl (reachable_of_run ran)).2⟩

end Cluster

end Simulator
