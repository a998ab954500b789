import Simulator.JobAttempts

/-!
# The gauge of queued jobs

A refused job is never taken off, and a retried one each time its handler returns.
-/

namespace Simulator

open Transition Finset

def Body.jobs : Body → Nat
  | .job _ => 1
  | .malformed => 0

def Point.undone : Point → Nat
  | .received body => body.jobs
  | .running _ => 1
  | .failed _ _ => 1
  | .released _ _ => 1
  | .succeeded _ => 1
  | _ => 0

namespace Cluster

variable {W : Type}

def queuedJobs (c : Cluster W) : Nat :=
  (c.main.map Body.jobs).sum

variable {pos : Nat} {body : Body} {point : Point}

theorem queuedJobs_eraseIdx {c : Cluster W} (queued : c.main[pos]? = some body) :
    ((c.main.eraseIdx pos).map Body.jobs).sum + body.jobs =
      c.queuedJobs := by
  obtain ⟨lt, rfl⟩ := List.getElem?_eq_some_iff.mp queued
  have perm := (List.getElem_cons_eraseIdx_perm lt).map Body.jobs
  rw [queuedJobs, ← perm.sum_eq, List.map_cons, List.sum_cons]
  omega

def Quiet (c : Cluster W) : Prop :=
  c.main = [] ∧ (∀ w, (c.workers w).point = .idle) ∧ c.retries = []

variable [Fintype W]

def undone (c : Cluster W) : Nat :=
  ∑ w, (c.workers w).point.undone

/-- What is to happen in a history: the process is not restarted, no message
is delivered twice, no job is refused as a duplicate or retried, and no handler
returns while all jobs that are queued or being handled belong to calls of
`Enqueue` that have not counted them yet. -/
def GaugeSafe (q : Queue) (c : Cluster W) : ClusterAction W → Prop
  | .claim w fails => ∀ job, (c.workers w).point = .received (.job job) →
      q.coordinated = true → fails = false → processedKey job.id ∉ c.keys
  | .done _ => c.uncounted < c.queuedJobs + c.undone
  | .settle w _ => ∀ job error, (c.workers w).point = .acked job error →
      job.maxAttempts ≤ job.attempt
  | .crash _ => False
  | .redeliver _ => False
  | _ => True

/-- The gauge counts the jobs that are queued or being handled, except for
those that `Enqueue` has not counted yet. -/
structure Balanced (c : Cluster W) : Prop where
  counts : c.depth + c.uncounted = c.queuedJobs + c.undone
  nonnegative : 0 ≤ c.depth
  retries : c.retries = []

theorem balanced_start : (start : Cluster W).Balanced where
  counts := by simp [start, queuedJobs, undone, Worker.fresh, Point.undone]
  nonnegative := le_refl _
  retries := rfl

variable [DecidableEq W] {q : Queue} {c next : Cluster W}

theorem undone_setWorker (c : Cluster W) (w : W) (worker : Worker) :
    (c.setWorker w worker).undone + (c.workers w).point.undone =
      c.undone + worker.point.undone := by
  have updated : (fun v => ((c.setWorker w worker).workers v).point.undone) =
      Function.update (fun v => (c.workers v).point.undone) w
        worker.point.undone := by
    funext v
    by_cases eq : v = w
    · subst eq
      simp
    · rw [workers_setWorker_ne c eq, Function.update_of_ne eq]
  have rest := sum_erase_add univ (fun v => (c.workers v).point.undone) (mem_univ w)
  unfold undone
  rw [updated, sum_update_of_mem (mem_univ w), sdiff_singleton_eq_erase]
  omega

variable {w : W}

theorem Balanced.goOn (even : c.Balanced) {worker : Worker}
    (here : (c.workers w).point = point) (eq : worker.point.undone = point.undone)
    (main : next.main = c.main) (workers : next.workers = (c.setWorker w worker).workers)
    (retries : next.retries = c.retries) (depth : next.depth = c.depth)
    (uncounted : next.uncounted = c.uncounted) : next.Balanced where
  counts := by
    have moved := undone_setWorker c w worker
    have counts := even.counts
    rw [here] at moved
    have undone : next.undone = (c.setWorker w worker).undone := by
      unfold Cluster.undone
      rw [workers]
    rw [depth, uncounted, queuedJobs, main, ← queuedJobs, undone]
    omega
  nonnegative := by rw [depth]; exact even.nonnegative
  retries := by rw [retries]; exact even.retries

theorem Balanced.takeOff (even : c.Balanced) {after : Point}
    (here : (c.workers w).point = point) (held : point.undone = 1) (given : after.undone = 0)
    (counted : c.uncounted < c.queuedJobs + c.undone) :
    Balanced { c.goTo w after with depth := c.depth - 1 } where
  counts := by
    have moved : (c.goTo w after).undone + (c.workers w).point.undone =
        c.undone + after.undone := undone_setWorker c w _
    have counts := even.counts
    rw [here, held, given] at moved
    change c.depth - 1 + c.uncounted = c.queuedJobs + (c.goTo w after).undone
    omega
  nonnegative := by
    have counts := even.counts
    change 0 ≤ c.depth - 1
    omega
  retries := even.retries

theorem Balanced.deliver (even : c.Balanced)
    (here : (c.workers w).point = .idle) (queued : c.main[pos]? = some body) :
    Balanced { c.setWorker w { c.workers w with point := .received body, unacked := some body }
      with main := c.main.eraseIdx pos } where
  counts := by
    have moved : (c.setWorker w ⟨.received body, some body, (c.workers w).cancelled⟩).undone +
        (c.workers w).point.undone = c.undone + body.jobs := undone_setWorker c w _
    have counts := even.counts
    have erased := queuedJobs_eraseIdx queued
    have idle : Point.idle.undone = 0 := rfl
    rw [here, idle] at moved
    change c.depth + c.uncounted = ((c.main.eraseIdx pos).map Body.jobs).sum + (c.setWorker w
        ⟨.received body, some body, (c.workers w).cancelled⟩).undone
    omega
  nonnegative := even.nonnegative
  retries := even.retries

theorem Move.balanced {act : ClusterAction W} (move : Move q c act next)
    (even : c.Balanced) (safe : c.GaugeSafe q act) : next.Balanced := by
  have counts := even.counts
  have nonnegative := even.nonnegative
  cases move with
  | enqueue job | publishMalformed =>
    refine ⟨?_, nonnegative, even.retries⟩
    simp only [queuedJobs, List.map_append, List.sum_append, undone,
      List.map_singleton, List.sum_singleton, Body.jobs] at counts ⊢
    omega
  | count uncounted =>
    refine ⟨?_, ?_, even.retries⟩
    · change c.depth + 1 + (c.uncounted - 1 : Nat) = c.queuedJobs + c.undone
      omega
    · change 0 ≤ c.depth + 1
      omega
  | deliver w here queued => exact even.deliver here queued
  | dropMalformed w fails here | unclaimed w here noReply | claimed w here led free
  | succeed w here | fail w error here | release w here led | unreleased w here noReply
  | ackFailed w here | ackFinished w here | deadLetter w fails here exhausted =>
    exact even.goOn here rfl rfl rfl rfl rfl rfl
  | refused w here led taken =>
    exact absurd taken (safe _ here led rfl)
  | countFailed w here | countSucceeded w here => exact even.takeOff here rfl rfl safe
  | retry w fails here more =>
    have exhausted := safe _ _ here
    omega
  | fire waiting | abandon waiting notDue cancelled | republish waiting due =>
    rw [even.retries] at waiting
    simp at waiting
  | cancel w =>
    have eq : Point.undone (Worker.point
        { c.workers w with cancelled := true }) = (c.workers w).point.undone := rfl
    exact even.goOn rfl eq rfl rfl rfl rfl rfl
  | crash w | redeliver w outstanding => exact safe.elim
  | expire key => exact ⟨counts, nonnegative, even.retries⟩

theorem depth_balances (q : Queue) {c : Cluster W}
    (reachable : Reachable (step q) (GaugeSafe q) start c) :
    0 ≤ c.depth ∧ (c.Quiet → c.depth = 0) := by
  have even : c.Balanced := reachable.invariant balanced_start
    fun _ _ _ even safe stepped =>
      (move_of_step stepped).balanced even safe
  refine ⟨even.nonnegative, ?_⟩
  rintro ⟨empty, idle, -⟩
  have counts := even.counts
  have nonnegative := even.nonnegative
  have none : c.undone = 0 := by
    unfold undone
    simp [idle, Point.undone]
  rw [none, queuedJobs, empty] at counts
  simp only [List.map_nil, List.sum_nil] at counts
  omega

theorem depth_balances_once :
    ∃ c : Cluster Unit, c.accepted = [onceJob] ∧ c.successes = ["j"] ∧
      0 ≤ c.depth ∧ (c.Quiet → c.depth = 0) := by
  refine ⟨_, ?_, ?_, depth_balances (Queue.new false 0)
    (((((((Reachable.start.take (.enqueue onceJob) trivial rfl).take .count trivial rfl).take
      (.deliver () 0) trivial rfl).take (.claim () false) (fun _ _ led => nomatch led) rfl).take
      (.finish () none) trivial rfl).take (.done ()) (by unfold GaugeSafe; decide) rfl).take
      (.ack ()) trivial rfl)⟩
  · rfl
  · rfl

def gaugeAfter (q : Queue) (actions : List (ClusterAction Unit)) :
    Option (Int × List Body × Point × List (Retry Unit)) :=
  (Transition.last (step q) actions start).map fun c =>
    (c.depth, c.main, (c.workers ()).point, c.retries)

theorem depth_unbalanced :
    gaugeAfter (Queue.new false 0) ([.enqueue onceJob, .count] ++ failedExecution ++
          [.fire 0, .republish 0, .deliver () 0, .claim () false,
            .finish () none, .done (), .ack ()]) = some (-1, [], .idle, []) ∧
    gaugeAfter (Queue.new false 0)
        [.enqueue onceJob, .deliver () 0, .claim () false, .finish () none, .done (), .ack ()] =
      some (-1, [], .idle, []) ∧
    gaugeAfter (Queue.new true 0) [.enqueue onceJob, .count, .enqueue onceJob, .count,
          .deliver () 0, .claim () false, .finish () none, .done (), .ack (),
          .deliver () 0, .claim () false, .ack ()] = some (1, [], .idle, []) :=
  ⟨rfl, rfl, rfl⟩

end Cluster

end Simulator
