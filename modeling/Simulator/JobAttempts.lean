import Simulator.JobLives

/-!
# How often a job is executed

`handleFailure` compares the attempt with the maximum before it counts the failure.
-/

namespace Simulator

open Transition List Option Cluster

structure Watched where
  cluster : Cluster Unit
  results : List (Option String)

namespace Watched

def start : Watched :=
  ⟨Cluster.start, []⟩

def step (q : Queue) (id : String) (s : Watched) (action : ClusterAction Unit) : Option Watched :=
  (s.cluster.step q action).map fun next =>
    ⟨next, s.results ++ (s.cluster.handled id action).toList⟩

def Allowed (job : Job) (handler : Nat → Option String) (s : Watched)
    (action : ClusterAction Unit) : Prop :=
  s.cluster.Undisturbed job action ∧ ∀ result ∈ s.cluster.handled job.id action,
      result = handler s.results.length

end Watched

def Job.afterFailures (job : Job) (errors : List String) : Job :=
  { job with
    attempt := errors.length
    lastError := errors.getLast?.getD job.lastError }

def Life.Recorded (job : Job) (results : List (Option String)) : Life → Prop
  | .absent => results = []
  | .queued copy | .received copy | .running copy | .waiting copy =>
    ∃ errors : List String, results = errors.map some ∧ (errors.length : Int) ≤ job.maxAttempts ∧
      copy = job.afterFailures errors
  | .failed copy error | .released copy error =>
    ∃ errors : List String, results = (errors ++ [error]).map some ∧
      (errors.length : Int) ≤ job.maxAttempts ∧ copy = job.afterFailures errors
  | .done =>
    ∃ errors : List String, results = errors.map some ++ [none] ∧
      (errors.length : Int) ≤ job.maxAttempts
  | .buried copy =>
    ∃ errors : List String, ∃ error : String, results = (errors ++ [error]).map some ∧
      (errors.length : Int) = job.maxAttempts ∧
      copy = { job.afterFailures errors with lastError := error }

/-- A job that `Enqueue` takes as it is and that has not been tried -/
structure Job.Untried (job : Job) : Prop where
  attempt : job.attempt = 0
  maxAttempts : 1 ≤ job.maxAttempts

variable {job : Job}

theorem Job.Untried.admitted (untried : job.Untried) : job.admitted = job := by
  have positive := untried.maxAttempts
  rw [Job.admitted, if_neg (by omega)]

theorem Job.Untried.afterFailures_nil (untried : job.Untried) : job.afterFailures [] = job := by
  have zero := untried.attempt
  cases job
  simp_all [Job.afterFailures]

theorem Job.afterFailures_append (job : Job) (errs : List String) (error : String) :
    job.afterFailures (errs ++ [error]) =
      { job.afterFailures errs with
        lastError := error
        attempt := (job.afterFailures errs).attempt + 1 } := by
  simp [Job.afterFailures]

theorem LifeStep.recorded (untried : job.Untried) {life later : Life} {res : Option (Option String)}
    {results : List (Option String)} (step : LifeStep job life res later)
    (spot : life.Recorded job results) : later.Recorded job (results ++ res.toList) := by
  cases step with
  | stay => simpa using spot
  | accept =>
    cases spot
    refine ⟨[], rfl, ?_, ?_⟩
    · have positive := untried.maxAttempts
      simp
      omega
    · rw [untried.admitted, untried.afterFailures_nil]
  | deliver copy | claim copy | release copy error | republish copy =>
    rw [toList_none, append_nil]
    exact spot
  | succeed copy =>
    obtain ⟨errs, rfl, few, -⟩ := spot
    exact ⟨errs, rfl, few⟩
  | fail copy error =>
    obtain ⟨errs, rfl, few, own⟩ := spot
    exact ⟨errs, by simp, few, own⟩
  | bury error exhausted =>
    obtain ⟨errs, rfl, few, rfl⟩ := spot
    refine ⟨errs, error, by simp, ?_, rfl⟩
    simp only [Job.afterFailures] at exhausted
    omega
  | retry error more =>
    obtain ⟨errs, rfl, few, rfl⟩ := spot
    refine ⟨errs ++ [error], by simp, ?_, (job.afterFailures_append errs error).symm⟩
    simp only [Job.afterFailures] at more
    simp
    omega

namespace Cluster

def Settled (c : Cluster Unit) (id : String) : Prop :=
  (∃ job ∈ c.accepted, job.id = id) ∧ ¬ c.Queued id ∧ ¬ c.InHand id ∧ ¬ c.Waiting id

variable {c : Cluster Unit} {q : Queue}

theorem queued_iff {id : String} : c.Queued id ↔ c.main.filterMap (Body.jobOf id) ≠ [] := by
  rw [Ne, filterMap_eq_nil_iff, not_forall]
  constructor
  · rintro ⟨job, listed, named⟩
    exact ⟨.job job, by simp [listed, Body.jobOf, named]⟩
  · rintro ⟨body, hit⟩
    rw [Classical.not_imp] at hit
    cases body with
    | job copy => exact ⟨copy, hit.1, by simpa [Body.jobOf] using hit.2⟩
    | malformed => exact absurd rfl hit.2

theorem inHand_iff {id : String} : c.InHand id ↔ (c.workers ()).point.lifeOf id ≠ none := by
  constructor
  · rintro ⟨⟨⟩, job, holds, named⟩
    match point : (c.workers ()).point with
    | .received (.job copy) | .running copy | .failed copy _
    | .released copy _ | .counted copy _ | .acked copy _ =>
      rw [point] at holds
      cases holds
      simp [Point.lifeOf, named]
    | .idle | .received .malformed | .succeeded _ | .finished _ =>
      rw [point] at holds
      cases holds
  · intro holds
    match point : (c.workers ()).point with
    | .received (.job copy) | .running copy | .failed copy _
    | .released copy _ | .counted copy _ | .acked copy _ =>
      rw [point] at holds
      exact ⟨(), copy, by rw [point]; rfl, by simpa [Point.lifeOf] using holds⟩
    | .idle | .received .malformed | .succeeded _ | .finished _ =>
      rw [point] at holds
      exact absurd rfl holds

theorem waiting_iff {id : String} : c.Waiting id ↔ c.retries.filterMap (Retry.jobOf id) ≠ [] := by
  rw [Ne, filterMap_eq_nil_iff, not_forall]
  simp only [Waiting, Retry.jobOf, Classical.not_imp]
  simp

variable {life : Life} {copy : Job}

theorem Lives.settled_iff {id : String} (lives : c.Lives q id life) :
    c.Settled id ↔ life = .done ∨ ∃ copy, life = .buried copy := by
  have known : (∃ job ∈ c.accepted, job.id = id) ↔ life ≠ .absent := by
    rw [Ne, ← lives.accepted]
    simp
  rw [Settled, known, queued_iff, inHand_iff, waiting_iff, lives.main, lives.hand, lives.retries]
  cases life <;> simp [Life.inMain, Life.inHand, Life.inRetries]

theorem Lives.exists_queued {id : String} (lives : c.Lives q id (.queued copy)) :
    ∃ pos : Nat, copy.id = id ∧ c.main[pos]? = some (.job copy) := by
  have hit : copy ∈ c.main.filterMap (Body.jobOf id) := by
    rw [lives.main]
    exact mem_singleton_self copy
  obtain ⟨body, listed, own⟩ := mem_filterMap.mp hit
  cases body with
  | job original =>
    simp only [Body.jobOf, ite_none_right_eq_some, some.injEq] at own
    obtain ⟨named, rfl⟩ := own
    obtain ⟨pos, queued⟩ := mem_iff_getElem?.mp listed
    exact ⟨pos, named, queued⟩
  | malformed => cases own

theorem Lives.exists_waiting {id : String} (lives : c.Lives q id (.waiting copy)) :
    ∃ (pos : Nat) (retry : Retry Unit), c.retries[pos]? = some retry ∧
      retry.job = copy ∧ copy.id = id := by
  have hit : copy ∈ c.retries.filterMap (Retry.jobOf id) := by
    rw [lives.retries]
    exact mem_singleton_self copy
  obtain ⟨retry, listed, own⟩ := mem_filterMap.mp hit
  simp only [Retry.jobOf, ite_none_right_eq_some, some.injEq] at own
  obtain ⟨named, rfl⟩ := own
  obtain ⟨pos, waiting⟩ := mem_iff_getElem?.mp listed
  exact ⟨pos, retry, waiting, rfl, named⟩

end Cluster

namespace Watched

variable {q : Queue} {job : Job} {handler : Nat → Option String} {s : Watched} {life : Life}

structure Tracked (q : Queue) (job : Job) (handler : Nat → Option String)
    (s : Watched) (life : Life) : Prop where
  lives : s.cluster.Lives q job.id life
  recorded : life.Recorded job s.results
  played : s.results = (List.range s.results.length).map handler

variable {action : ClusterAction Unit} {copy : Job}

variable {next : Cluster Unit}

theorem Tracked.take (untried : job.Untried) (tracked : Tracked q job handler s life)
 (stepped : s.cluster.step q action = some next) (ok : s.Allowed job handler action) :
    ∃ later, Tracked q job handler
        ⟨next, s.results ++ (s.cluster.handled job.id action).toList⟩ later ∧
      LifeStep job life (s.cluster.handled job.id action) later := by
  obtain ⟨later, lives, step⟩ := (move_of_step stepped).lives tracked.lives ok.1
  refine ⟨later, ⟨lives, step.recorded untried tracked.recorded, ?_⟩, step⟩
  have played := tracked.played
  cases res : s.cluster.handled job.id action with
  | none => simpa using played
  | some v =>
    have asPlanned := ok.2 v res
    simp only [toList_some, length_append, length_singleton, range_succ, map_append, map_singleton]
    rw [← played, asPlanned]

theorem tracked_of_reachable (untried : job.Untried)
    (reachable : Reachable (step q job.id) (Allowed job handler) start s) :
    ∃ life, Tracked q job handler s life := by
  induction reachable with
  | start => exact ⟨.absent, lives_start q job.id, rfl, rfl⟩
  | step old allows stepped ih =>
    obtain ⟨life, tracked⟩ := ih
    obtain ⟨cluster, moved, rfl⟩ := map_eq_some_iff.mp stepped
    obtain ⟨later, trackedLater, -⟩ := tracked.take untried moved allows
    exact ⟨later, trackedLater⟩

def remaining : Point → Nat
  | .idle => 0
  | .finished _ | .acked _ _ => 1
  | .succeeded _ | .counted _ _ => 2
  | .released _ _ => 3
  | .failed _ _ => 4
  | .running _ => 5
  | .received _ => 6

theorem exists_step_of_busy (q : Queue) (job : Job) {c : Cluster Unit}
    (busy : (c.workers ()).point ≠ .idle) (res : Option String) :
    ∃ action next, c.step q action = some next ∧ c.Undisturbed job action ∧
      (∀ ret ∈ c.handled job.id action, ret = res) ∧
      remaining (next.workers ()).point < remaining (c.workers ()).point := by
  cases point : (c.workers ()).point with
  | idle => exact absurd point busy
  | finished body =>
    refine ⟨.ack (), _, by rw [Cluster.step, point], trivial, by rintro _ ⟨⟩, ?_⟩
    exact Nat.one_pos
  | acked copy error =>
    refine ⟨.settle () false, _, by rw [Cluster.step, point], rfl, by rintro _ ⟨⟩, ?_⟩
    unfold settle
    dsimp only
    split <;> exact Nat.one_pos
  | succeeded copy =>
    refine ⟨.done (), _, by rw [Cluster.step, point], trivial, by rintro _ ⟨⟩, ?_⟩
    exact Nat.one_lt_two
  | counted copy error =>
    refine ⟨.ack (), _, by rw [Cluster.step, point], trivial, by rintro _ ⟨⟩, ?_⟩
    exact Nat.one_lt_two
  | released copy error =>
    refine ⟨.done (), _, by rw [Cluster.step, point], trivial, by rintro _ ⟨⟩, ?_⟩
    exact Nat.lt_succ_self 2
  | failed copy error =>
    refine ⟨.release () false, _, by rw [Cluster.step, point], rfl, by rintro _ ⟨⟩, ?_⟩
    unfold release
    split <;> exact Nat.lt_succ_self 3
  | running copy =>
    refine ⟨.finish () res, ?_⟩
    rw [handled_finish () res point]
    have ret : ∀ v ∈ (if copy.id = job.id then some res else none), v = res := by
      simp
    cases res with
    | none | some error =>
      refine ⟨_, by rw [Cluster.step, point], trivial, ret, ?_⟩
      simp [remaining, goTo, setWorker]
  | received body =>
    cases body with
    | malformed =>
      refine ⟨.claim () true, _, by rw [Cluster.step, point], trivial, by rintro _ ⟨⟩, ?_⟩
      exact show 1 < 6 by omega
    | job copy =>
      refine ⟨.claim () true, _, by rw [Cluster.step, point], trivial, by rintro _ ⟨⟩, ?_⟩
      rw [claim, if_neg (by simp)]
      exact Nat.lt_succ_self 5

def CanSettle (q : Queue) (job : Job) (handler : Nat → Option String) (s : Watched) : Prop :=
  ∃ t, Reachable (step q job.id) (Allowed job handler) s t ∧ t.cluster.Settled job.id

theorem Tracked.canSettle_of_step (untried : job.Untried) (tracked : Tracked q job handler s life)
    (action : ClusterAction Unit) (stepped : s.cluster.step q action = some next)
    (ok : s.Allowed job handler action)
    (after : ∀ results later, results = s.results ++ (s.cluster.handled job.id action).toList →
      Tracked q job handler ⟨next, results⟩ later →
      LifeStep job life (s.cluster.handled job.id action) later →
      CanSettle q job handler ⟨next, results⟩) : CanSettle q job handler s := by
  obtain ⟨later, trackedLater, step⟩ := tracked.take untried stepped ok
  obtain ⟨t, reaches, settled⟩ := after _ later rfl trackedLater step
  have first : Watched.step q job.id s action =
      some ⟨next, s.results ++ (s.cluster.handled job.id action).toList⟩ := by
    rw [Watched.step, stepped]
    rfl
  exact ⟨t, (Reachable.start.take action ok first).trans reaches, settled⟩

def distance (job : Job) (results : List (Option String)) (life : Life) : Nat :=
  8 * (job.maxAttempts.toNat + 1 - results.length) + match life with
    | .absent | .failed _ _ | .released _ _ | .waiting _ => 8
    | .queued _ => 7
    | .received _ | .running _ | .done | .buried _ => 0

theorem distance_le {later : Life} {res : Option (Option String)}
    {results : List (Option String)} (step : LifeStep job life res later)
    (spot : life.Recorded job results) :
    distance job (results ++ res.toList) later ≤ distance job results life := by
  cases step with
  | succeed copy =>
    simp [distance]
    omega
  | fail copy error =>
    obtain ⟨errs, rfl, few, -⟩ := spot
    simp [distance]
    omega
  | _ => simp [distance]

theorem Tracked.canSettle (untried : job.Untried)
    (tracked : Tracked q job handler s life) : CanSettle q job handler s := by
  -- every step brings the job nearer to its end, or the worker to its next message
  induction measure : distance job s.results life + remaining (s.cluster.workers ()).point
    using Nat.strong_induction_on generalizing s life with
  | _ steps ih =>
  subst measure
  by_cases idle : (s.cluster.workers ()).point = .idle
  · have hand := tracked.lives.hand
    rw [idle] at hand
    cases life with
    | absent =>
      refine tracked.canSettle_of_step untried (.enqueue job) rfl
        ⟨fun _ => ⟨rfl, tracked.lives.accepted.mpr rfl⟩, nofun⟩ fun results later same now step => ?_
      cases step with
      | stay => exact absurd (by simp) (now.lives.accepted.mpr rfl job.admitted (by simp))
      | accept => exact ih _ (by simp [distance, same, handled]) now rfl
    | queued copy =>
      obtain ⟨place, named, queued⟩ := tracked.lives.exists_queued
      refine tracked.canSettle_of_step untried (.deliver () place)
        (by rw [Cluster.step, idle, queued]) ⟨trivial, by rintro _ ⟨⟩⟩ fun results later same now step => ?_
      cases step with
      | stay => cases (if_pos named).symm.trans now.lives.hand
      | deliver => exact ih _ (by simp [distance, same, idle, remaining, handled]) now rfl
    | waiting copy =>
      obtain ⟨place, retry, waiting, rfl, named⟩ := tracked.lives.exists_waiting
      refine tracked.canSettle_of_step untried (.fire place)
        (by rw [Cluster.step, waiting]) ⟨trivial, by rintro _ ⟨⟩⟩ fun results later same now step => ?_
      cases step with
      | republish => exact ih _ (by simp [distance, same, handled]) now rfl
      | stay =>
        obtain ⟨inside, -⟩ := List.getElem?_eq_some_iff.mp waiting
        refine now.canSettle_of_step untried (.republish place)
          (by rw [Cluster.step, List.getElem?_set_self inside]; rfl)
          ⟨trivial, by rintro _ ⟨⟩⟩ fun again later sameAgain queued step => ?_
        cases step with
        | stay => simpa [Body.jobOf, named, Life.inMain] using queued.lives.main
        | republish =>
          exact ih _ (by simp [distance, same, sameAgain, handled]) queued rfl
    | received copy | running copy | failed copy error | released copy error => cases hand
    | done => exact ⟨s, .start, tracked.lives.settled_iff.mpr (.inl rfl)⟩
    | buried copy => exact ⟨s, .start, tracked.lives.settled_iff.mpr (.inr ⟨copy, rfl⟩)⟩
  · obtain ⟨action, next, stepped, undisturbed, returned, fewer⟩ :=
      exists_step_of_busy q job idle (handler s.results.length)
    refine tracked.canSettle_of_step untried action stepped ⟨undisturbed, returned⟩ ?_
    rintro results later rfl now step
    exact ih _ (Nat.add_lt_add_of_le_of_lt (distance_le step tracked.recorded) fewer) now rfl

section

variable (tracked : Tracked q job handler s life)
include tracked

theorem Tracked.handler_eq {i : Nat}
    {res : Option String} (ret : s.results[i]? = some res) : handler i = res := by
  obtain ⟨lt, -⟩ := List.getElem?_eq_some_iff.mp ret
  rw [tracked.played, getElem?_map, getElem?_range lt] at ret
  exact some.inj ret

theorem Tracked.handler_ne_none {errs : List String} {rest : List (Option String)}
    (results : s.results = errs.map some ++ rest) {i : Nat}
    (old : i < errs.length) : handler i ≠ none := by
  have ret : s.results[i]? = some (some errs[i]) := by
    rw [results, getElem?_append_left (by simpa using old), getElem?_map, getElem?_eq_getElem old]
    rfl
  rw [tracked.handler_eq ret]
  exact some_ne_none _

theorem Tracked.settled_cases
    {n : Nat} (maxAttempts : job.maxAttempts = n) (settled : s.cluster.Settled job.id) :
    (∃ k ≤ n, s.results.length = k + 1 ∧ (∀ i < k, handler i ≠ none) ∧ handler k = none ∧
        s.cluster.dead.filter (fun dead => dead.id = job.id) = []) ∨
      (s.results.length = n + 1 ∧ (∀ i < n + 1, handler i ≠ none)) := by
  rcases tracked.lives.settled_iff.mp settled with rfl | ⟨copy, rfl⟩
  · obtain ⟨errs, results, few⟩ := tracked.recorded
    refine .inl ⟨errs.length, by omega, by simp [results], ?_, ?_, tracked.lives.dead⟩
    · exact fun i old => tracked.handler_ne_none results old
    · exact tracked.handler_eq (by simp [results])
  · obtain ⟨errs, error, results, all, -⟩ := tracked.recorded
    refine .inr ⟨by simp [results]; omega, ?_⟩
    intro i old
    rw [← append_nil (map some _)] at results
    refine tracked.handler_ne_none results ?_
    simp
    omega

end

end Watched

/-- What a job with `n` attempts is to come to: it is executed until the
handler succeeds, or `n` times and then published once to the dead-letter
queue with its last error. -/
def Watched.Counted (s : Watched) (id : String) (handler : Nat → Option String) (n : Nat) : Prop :=
  (∀ k < n, (∀ i < k, handler i ≠ none) → handler k = none → s.results.length = k + 1 ∧
      s.cluster.dead.filter (fun dead => dead.id = id) = []) ∧
  ((∀ i < n, handler i ≠ none) → s.results.length = n ∧
    ∃ dead, s.cluster.dead.filter (fun dead => dead.id = id) = [dead] ∧
      handler (n - 1) = some dead.lastError)

open Watched in
theorem attempts_counted_iff (q : Queue) (job : Job) (n : Nat)
    (positive : 1 ≤ n) (untried : job.attempt = 0)
    (maxAttempts : job.maxAttempts = n) (handler : Nat → Option String) :
    ((∀ s, Reachable (Watched.step q job.id) (Allowed job handler) start s →
        CanSettle q job handler s) ∧
      ∀ s, Reachable (Watched.step q job.id) (Allowed job handler) start s →
        s.cluster.Settled job.id → s.Counted job.id handler n) ↔ ∃ k < n, handler k = none := by
  have fresh : job.Untried := ⟨untried, by omega⟩
  have canSettle : ∀ s, Reachable (Watched.step q job.id) (Allowed job handler) start s →
      CanSettle q job handler s := by
    intro s reachable
    obtain ⟨life, tracked⟩ := tracked_of_reachable fresh reachable
    exact tracked.canSettle fresh
  constructor
  · rintro ⟨-, counted⟩
    by_contra never
    simp only [not_exists, not_and] at never
    obtain ⟨s, reachable, settled⟩ := canSettle start .start
    obtain ⟨life, tracked⟩ := tracked_of_reachable fresh reachable
    have executed := ((counted s reachable settled).2 never).1
    rcases tracked.settled_cases maxAttempts settled with
      ⟨k, few, length, -, succeeds, -⟩ | ⟨length, -⟩
    · have last : k = n := by
        by_contra other
        exact never k (by omega) succeeds
      omega
    · omega
  · rintro ⟨first, inTime, succeeds⟩
    refine ⟨canSettle, ?_⟩
    intro s reachable settled
    obtain ⟨life, tracked⟩ := tracked_of_reachable fresh reachable
    refine ⟨?_, fun never => absurd succeeds (never first inTime)⟩
    intro k few failed success
    rcases tracked.settled_cases maxAttempts settled with
      ⟨last, -, length, failures, ends, dead⟩ | ⟨-, failures⟩
    · have same : last = k := by
        rcases Nat.lt_trichotomy last k with less | same | greater
        · exact absurd ends (failed last less)
        · exact same
        · exact absurd success (failures k greater)
      exact ⟨same ▸ length, dead⟩
    · exact absurd success (failures k (by omega))

def onceJob : Job :=
  ⟨"j", "s", "run_simulation", "", 0, 1, "", 0⟩

open Watched in
theorem attempts_counted_iff_once :
    onceJob.maxAttempts = 1 ∧ (∀ s, Reachable (Watched.step (Queue.new false 0) onceJob.id)
          (Allowed onceJob fun _ => none) start s →
        CanSettle (Queue.new false 0) onceJob (fun _ => none) s) ∧
      ∀ s, Reachable (Watched.step (Queue.new false 0) onceJob.id)
          (Allowed onceJob fun _ => none) start s → s.cluster.Settled onceJob.id →
        s.Counted onceJob.id (fun _ => none) 1 :=
  ⟨rfl, (attempts_counted_iff (Queue.new false 0) onceJob 1 (by decide) rfl rfl
    fun _ => none).mpr ⟨0, by decide, rfl⟩⟩

def failedExecution : List (ClusterAction Unit) :=
  [.deliver () 0, .claim () false, .finish () (some "boom"),
    .release () false, .done (), .ack (), .settle () false]

theorem executed_twice : (Transition.last (Watched.step (Queue.new false 0) onceJob.id)
        ([.enqueue onceJob, .count] ++ failedExecution) Watched.start).map
      (fun s => (s.results, s.cluster.dead)) = some ([some "boom"], []) ∧
    (Transition.last (Watched.step (Queue.new false 0) onceJob.id)
        ([.enqueue onceJob, .count] ++ failedExecution ++
          [.fire 0, .republish 0] ++ failedExecution) Watched.start).map
      (fun s => (s.results, s.cluster.main, s.cluster.retries, s.cluster.dead)) =
        some ([some "boom", some "boom"], [], [],
          [{ onceJob with attempt := 1, lastError := "boom" }]) := by
  decide +kernel

end Simulator
