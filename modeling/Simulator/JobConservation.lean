import Simulator.JobClaims

/-!
# Where accepted jobs are

A step takes an accepted job out of all places where it can be in few ways only.
-/

namespace Simulator

open Transition List

def Point.job : Point → Option Job
  | .received (.job job) => some job
  | .running job => some job
  | .failed job _ => some job
  | .released job _ => some job
  | .counted job _ => some job
  | .acked job _ => some job
  | _ => none

/-- The same job after some failures, with no more retries than it has attempts. -/
def Job.Descends (job first : Job) : Prop :=
  ∃ attempt lastError, job = { first with attempt := attempt, lastError := lastError } ∧
    first.attempt ≤ attempt ∧ attempt ≤ max first.attempt first.maxAttempts

def Worker.Has (worker : Worker) (job : Job) : Prop :=
  worker.point.job = some job ∨ worker.unacked = some (.job job)

namespace Cluster

variable {W : Type}

def Queued (c : Cluster W) (id : String) : Prop :=
  ∃ job, Body.job job ∈ c.main ∧ job.id = id

def InHand (c : Cluster W) (id : String) : Prop :=
  ∃ w job, (c.workers w).point.job = some job ∧ job.id = id

def Waiting (c : Cluster W) (id : String) : Prop :=
  ∃ retry ∈ c.retries, retry.job.id = id

def DeadLettered (c : Cluster W) (id : String) : Prop :=
  ∃ job ∈ c.dead, job.id = id

def Succeeded (c : Cluster W) (id : String) : Prop :=
  id ∈ c.successes

def Unacked (c : Cluster W) (id : String) : Prop :=
  ∃ w job, (c.workers w).unacked = some (.job job) ∧ job.id = id

def InCustody (c : Cluster W) (id : String) : Prop :=
  c.Queued id ∨ c.InHand id ∨ c.Waiting id ∨ c.DeadLettered id ∨ c.Succeeded id

inductive Loses (q : Queue) (c : Cluster W) : ClusterAction W → String → Prop
  | refused (w : W) {job : Job} (here : (c.workers w).point = .received (.job job))
      (coordinated : q.coordinated = true) (taken : processedKey job.id ∈ c.keys) :
      Loses q c (.claim w false) job.id
  | unpublished (w : W) {job : Job} {error : String} (here : (c.workers w).point = .acked job error)
      (exhausted : job.maxAttempts ≤ job.attempt) : Loses q c (.settle w true) job.id
  | abandoned {place : Nat} {retry : Retry W} (waiting : c.retries[place]? = some retry)
      (cancelled : (c.workers retry.owner).cancelled = true) :
      Loses q c (.abandon place) retry.job.id
  | crashedWaiting {w : W} {retry : Retry W}
      (waiting : retry ∈ c.retries) (owned : retry.owner = w) : Loses q c (.crash w) retry.job.id
  | crashedInHand {w : W} {job : Job} (inHand : (c.workers w).point.job = some job)
      (settled : (c.workers w).unacked ≠ some (.job job)) : Loses q c (.crash w) job.id

variable [DecidableEq W] {q : Queue} {c next : Cluster W} {act : ClusterAction W} {id : String}

theorem Move.succeeded (move : Move q c act next) (old : c.Succeeded id) : next.Succeeded id := by
  cases move with
  | succeed w here => exact mem_append_left _ old
  | _ => exact old

theorem Move.deadLettered (move : Move q c act next)
    (old : c.DeadLettered id) : next.DeadLettered id := by
  cases move with
  | deadLetter w fails here exhausted =>
    obtain ⟨job, mem, eq⟩ := old
    refine ⟨job, ?_, eq⟩
    cases fails with
    | false => exact mem_append_left _ mem
    | true => exact mem
  | _ => exact old

theorem mem_eraseIdx_or {α : Type*} {xs : List α} {pos : Nat}
    {removed item : α} (at_place : xs[pos]? = some removed) (mem : item ∈ xs) :
    item ∈ xs.eraseIdx pos ∨ item = removed := by
  obtain ⟨other, held⟩ := mem_iff_getElem?.mp mem
  by_cases eq : other = pos
  · subst eq
    rw [at_place] at held
    exact .inr (Option.some.inj held).symm
  · exact .inl (mem_eraseIdx_iff_getElem?.mpr ⟨other, eq, held⟩)

theorem Move.queued (move : Move q c act next) (old : c.Queued id) :
    next.Queued id ∨ next.InHand id := by
  obtain ⟨job, mem, eq⟩ := old
  cases move with
  | enqueue | publishMalformed | crash | redeliver | republish =>
    exact .inl ⟨job, mem_append_left _ mem, eq⟩
  | deliver w here queued =>
    rcases mem_eraseIdx_or queued mem with remains | taken
    · exact .inl ⟨job, remains, eq⟩
    · refine .inr ⟨w, job, ?_, eq⟩
      simp [setWorker, ← taken, Point.job]
  | _ => exact .inl ⟨job, mem, eq⟩

theorem Move.waiting (move : Move q c act next) (old : c.Waiting id) :
    next.Waiting id ∨ next.Queued id ∨ Loses q c act id := by
  obtain ⟨retry, mem, eq⟩ := old
  subst eq
  cases move with
  | retry => exact .inl ⟨retry, mem_append_left _ mem, rfl⟩
  | @fire pos fired waiting =>
    refine .inl ?_
    obtain ⟨other, held⟩ := mem_iff_getElem?.mp mem
    by_cases eq : pos = other
    · subst eq
      rw [waiting] at held
      cases held
      refine ⟨_, List.mem_set (List.getElem?_eq_some_iff.mp waiting).1 _, ?_⟩
      rfl
    · refine ⟨retry, mem_iff_getElem?.mpr ⟨other, ?_⟩, rfl⟩
      rw [getElem?_set_ne eq]
      exact held
  | abandon waiting notDue cancelled =>
    rcases mem_eraseIdx_or waiting mem with remains | taken
    · exact .inl ⟨retry, remains, rfl⟩
    · subst taken
      exact .inr (.inr (.abandoned waiting cancelled))
  | republish waiting due =>
    rcases mem_eraseIdx_or waiting mem with remains | taken
    · exact .inl ⟨retry, remains, rfl⟩
    · subst taken
      exact .inr (.inl ⟨retry.job, by simp, rfl⟩)
  | crash w =>
    by_cases owned : retry.owner = w
    · exact .inr (.inr (.crashedWaiting mem owned))
    · refine .inl ⟨retry, ?_, rfl⟩
      simpa using ⟨mem, owned⟩
  | _ => exact .inl ⟨retry, mem, rfl⟩

variable {w : W} {point : Point} {job : Job} {worker : Worker}

theorem InHand.setWorker (old : c.InHand id) (worker : Worker)
    (kept : ∀ job, (c.workers w).point.job = some job → worker.point.job = some job) :
    (c.setWorker w worker).InHand id := by
  obtain ⟨v, job, inHand, eq⟩ := old
  refine ⟨v, job, ?_, eq⟩
  by_cases isWorker : v = w
  · subst isWorker
    rw [workers_setWorker_self]
    exact kept job inHand
  · rw [workers_setWorker_ne c isWorker]
    exact inHand

variable {after : Point}

section

variable (old : c.InHand id) (here : (c.workers w).point = point)
include old here

theorem InHand.goTo
    (kept : ∀ job, point.job = some job → after.job = some job) : (c.goTo w after).InHand id := by
  refine old.setWorker _ ?_
  rw [here]
  exact kept

theorem InHand.acknowledge (kept : ∀ job, point.job = some job → after.job = some job) :
    (c.acknowledge w after).InHand id := by
  refine old.setWorker _ ?_
  rw [here]
  exact kept

theorem InHand.leave (inHand : point.job = some job) (worker : Worker) :
    (c.setWorker w worker).InHand id ∨ id = job.id := by
  obtain ⟨v, other, otherInHand, eq⟩ := old
  by_cases isWorker : v = w
  · subst isWorker
    rw [here, inHand] at otherInHand
    cases otherInHand
    exact .inr eq.symm
  · refine .inl ⟨v, other, ?_, eq⟩
    rw [workers_setWorker_ne c isWorker]
    exact otherInHand

end

theorem Move.inHand_crash (old : c.InHand id) :
    InCustody { c.setWorker w .fresh with
        main := c.main ++ (c.workers w).unacked.toList
        retries := c.retries.filter (·.owner ≠ w) } id ∨
      Loses q c (.crash w) id := by
  obtain ⟨v, job, inHand, eq⟩ := old
  subst eq
  by_cases isWorker : v = w
  · subst isWorker
    by_cases outstanding : (c.workers v).unacked = some (.job job)
    · refine .inl (.inl ⟨job, mem_append_right _ ?_, rfl⟩)
      rw [outstanding]
      exact mem_singleton_self _
    · exact .inr (.crashedInHand inHand outstanding)
  · refine .inl (.inr (.inl ⟨v, job, ?_, rfl⟩))
    have kept := workers_setWorker_ne c isWorker .fresh
    exact (congrArg (fun worker => worker.point.job) kept).trans inHand

theorem Move.inHand (move : Move q c act next) (old : c.InHand id) :
    next.InCustody id ∨ Loses q c act id := by
  cases move with
  | deliver w here queued =>
    refine .inl (.inr (.inl (old.setWorker ⟨.received _, _, _⟩ ?_)))
    rw [here]
    exact fun _ nothing => nomatch nothing
  | dropMalformed w fails here | countSucceeded w here =>
    exact .inl (.inr (.inl (old.goTo here fun _ nothing => nomatch nothing)))
  | unclaimed w here noReply | claimed w here led free | fail w error here
  | release w here led | unreleased w here noReply | countFailed w here =>
    exact .inl (.inr (.inl (old.goTo here fun _ held => held)))
  | refused w here led taken =>
    rcases old.leave here rfl _ with stays | eq
    · exact .inl (.inr (.inl stays))
    · exact .inr (eq ▸ .refused w here led taken)
  | @succeed w job here =>
    rcases old.leave here rfl
      { c.workers w with point := .succeeded job } with stays | eq
    · exact .inl (.inr (.inl stays))
    · refine .inl (.inr (.inr (.inr (.inr ?_))))
      rw [eq]
      exact mem_append_right _ (mem_singleton_self _)
  | ackFailed w here =>
    exact .inl (.inr (.inl (old.acknowledge here fun _ held => held)))
  | ackFinished w here =>
    exact .inl (.inr (.inl (old.acknowledge here fun _ nothing => nomatch nothing)))
  | deadLetter w fails here exhausted =>
    rcases old.leave here rfl { c.workers w with point := .idle } with stays | eq
    · exact .inl (.inr (.inl stays))
    · subst eq
      cases fails with
      | false =>
        refine .inl (.inr (.inr (.inr (.inl ⟨_, mem_append_right _ (mem_singleton_self _), ?_⟩))))
        rfl
      | true => exact .inr (.unpublished w here exhausted)
  | retry w fails here more =>
    rcases old.leave here rfl { c.workers w with point := .idle } with stays | eq
    · exact .inl (.inr (.inl stays))
    · refine .inl (.inr (.inr (.inl ⟨_, mem_append_right _ (mem_singleton_self _), ?_⟩)))
      exact eq.symm
  | cancel w =>
    exact .inl (.inr (.inl (old.setWorker _ fun _ held => held)))
  | crash w => exact Move.inHand_crash old
  | redeliver w outstanding =>
    exact .inl (.inr (.inl (old.setWorker ⟨(c.workers w).point, none, _⟩ fun _ held => held)))
  | _ => exact .inl (.inr (.inl old))

theorem Move.inCustody (move : Move q c act next)
    (old : c.InCustody id) : next.InCustody id ∨ Loses q c act id := by
  rcases old with queued | inHand | waiting | dead | succeeded
  · rcases move.queued queued with stays | taken
    · exact .inl (.inl stays)
    · exact .inl (.inr (.inl taken))
  · exact move.inHand inHand
  · rcases move.waiting waiting with stays | published | lost
    · exact .inl (.inr (.inr (.inl stays)))
    · exact .inl (.inl published)
    · exact .inr lost
  · exact .inl (.inr (.inr (.inr (.inl (move.deadLettered dead)))))
  · exact .inl (.inr (.inr (.inr (.inr (move.succeeded succeeded)))))

def Conserved (c : Cluster W) : Prop :=
  ∀ job ∈ c.accepted, c.InCustody job.id

theorem Move.accepted (move : Move q c act next) (ok : job ∈ next.accepted) :
    job ∈ c.accepted ∨ next.Queued job.id := by
  cases move with
  | enqueue new =>
    rcases mem_append.mp ok with prior | isNew
    · exact .inl prior
    · rw [mem_singleton.mp isNew]
      exact .inr ⟨_, mem_append_right _ (mem_singleton_self _), rfl⟩
  | _ => exact .inl ok

theorem Move.conserved (move : Move q c act next) (old : c.Conserved)
    (kept : ∀ id, Loses q c act id → next.InCustody id) : next.Conserved := by
  intro job ok
  rcases move.accepted ok with prior | queued
  · rcases move.inCustody (old job prior) with stays | lost
    · exact stays
    · exact kept _ lost
  · exact .inl queued

def HoldsDelivery (worker : Worker) : Prop :=
  ∀ job, worker.point.job = some job →
    worker.unacked = some (.job job) ∨ ∃ error, worker.point = .acked job error

theorem HoldsDelivery.goTo (held : HoldsDelivery worker)
    (here : worker.point = point) (after : Point)
    (kept : ∀ job, after.job = some job → point.job = some job)
    (notYet : ∀ job error, point ≠ .acked job error) :
    HoldsDelivery { worker with point := after } := by
  intro job inHand
  rcases held job (by rw [here]; exact kept job inHand) with outstanding | ⟨error, acked⟩
  · exact .inl outstanding
  · exact absurd (here.symm.trans acked) (notYet job error)

theorem holdsDelivery_of_none (nothing : worker.point.job = none) : HoldsDelivery worker := by
  intro job inHand
  rw [nothing] at inHand
  cases inHand

theorem holdsDelivery_setWorker (held : ∀ w, HoldsDelivery (c.workers w))
    (new : HoldsDelivery worker) (v : W) : HoldsDelivery ((c.setWorker w worker).workers v) := by
  by_cases eq : v = w
  · subst eq
    rw [workers_setWorker_self]
    exact new
  · rw [workers_setWorker_ne c eq]
    exact held v

theorem Move.holdsDelivery (move : Move q c act next) (patient : ∀ w, act ≠ .redeliver w)
    (held : ∀ w, HoldsDelivery (c.workers w)) (v : W) : HoldsDelivery (next.workers v) := by
  cases move with
  | @deliver w pos body here queued =>
    refine holdsDelivery_setWorker held ?_ v
    intro job inHand
    cases body with
    | job delivered =>
      cases inHand
      exact .inl rfl
    | malformed => cases inHand
  | dropMalformed w fails here | refused w here led taken | succeed w here
  | countSucceeded w here | ackFinished w here | deadLetter w fails here exhausted
  | retry w fails here more | crash w =>
    exact holdsDelivery_setWorker held (holdsDelivery_of_none rfl) v
  | unclaimed w here noReply | claimed w here led free =>
    exact holdsDelivery_setWorker held ((held w).goTo here (.running _) (fun _ eq => eq) nofun) v
  | fail w error here =>
    exact holdsDelivery_setWorker held ((held w).goTo here (.failed _ _) (fun _ eq => eq) nofun) v
  | release w here led | unreleased w here noReply =>
    exact holdsDelivery_setWorker held ((held w).goTo here (.released _ _) (fun _ eq => eq) nofun) v
  | countFailed w here =>
    exact holdsDelivery_setWorker held ((held w).goTo here (.counted _ _) (fun _ eq => eq) nofun) v
  | @ackFailed w job error here =>
    refine holdsDelivery_setWorker held ?_ v
    intro other inHand
    cases inHand
    exact .inr ⟨error, rfl⟩
  | cancel w =>
    refine holdsDelivery_setWorker held ?_ v
    exact held w
  | redeliver w outstanding => exact absurd rfl (patient w)
  | _ => exact held v

omit [DecidableEq W] in
theorem unacked_or_acked (held : ∀ w, HoldsDelivery (c.workers w)) (inHand : c.InHand id) :
    c.Unacked id ∨ ∃ w job error, (c.workers w).point = .acked job error ∧ job.id = id := by
  obtain ⟨w, job, inHand, same⟩ := inHand
  rcases held w job inHand with outstanding | ⟨error, acked⟩
  · exact .inl ⟨w, job, outstanding, same⟩
  · exact .inr ⟨w, job, error, acked, same⟩

def KeyAccountedFor (c : Cluster W) (id : String) : Prop :=
  processedKey id ∈ c.keys → (∃ w, (c.workers w).point.claim = some id) ∨ c.Succeeded id

omit [DecidableEq W] in
theorem inHand_of_claim (claims : (c.workers w).point.claim = some id) :
    ∃ job, (c.workers w).point.job = some job ∧ job.id = id := by
  cases point : (c.workers w).point with
  | running job | failed job error =>
    rw [point] at claims
    exact ⟨job, rfl, Option.some.inj claims⟩
  | _ =>
    rw [point] at claims
    cases claims

theorem inCustody_of_refused (here : (c.workers w).point = .received (.job job))
    (taken : processedKey job.id ∈ c.keys) (accounted : c.KeyAccountedFor job.id) (after : Point) :
    (c.goTo w after).InCustody job.id := by
  rcases accounted taken with ⟨v, claims⟩ | succeeded
  · have differs : v ≠ w := by
      rintro rfl
      rw [here] at claims
      cases claims
    obtain ⟨other, holds, eq⟩ := inHand_of_claim claims
    refine .inr (.inl ⟨v, other, ?_, eq⟩)
    rw [goTo, workers_setWorker_ne c differs]
    exact holds
  · exact .inr (.inr (.inr (.inr succeeded)))

theorem Move.inCustody_of_refused (move : Move q c (.claim w false) next)
    (here : (c.workers w).point = .received (.job job)) (taken : processedKey job.id ∈ c.keys)
    (accounted : c.KeyAccountedFor job.id) : next.InCustody job.id := by
  cases move with
  | dropMalformed _ _ alsoHere | unclaimed _ alsoHere noReply
  | refused _ alsoHere led alsoTaken =>
    exact Cluster.inCustody_of_refused here taken accounted _
  | claimed _ alsoHere led free =>
    rw [here] at alsoHere
    cases alsoHere
    exact absurd taken free

/-- Every job in the cluster has a property, and the dead letters have used all
their attempts. -/
structure AllJobs (c : Cluster W) (p : Job → Prop) : Prop where
  main : ∀ job, .job job ∈ c.main → p job
  inHand : ∀ w job, (c.workers w).Has job → p job
  waiting : ∀ retry ∈ c.retries, p retry.job
  dead : ∀ job ∈ c.dead, p job ∧ job.maxAttempts ≤ job.attempt

namespace AllJobs

variable {p : Job → Prop} (all : c.AllJobs p)
include all

theorem setWorker (has : ∀ job, worker.Has job → p job) :
    (c.setWorker w worker).AllJobs p where
  main := all.main
  waiting := all.waiting
  dead := all.dead
  inHand v job held := by
    by_cases here : v = w
    · subst here
      rw [workers_setWorker_self] at held
      exact has job held
    · rw [workers_setWorker_ne c here] at held
      exact all.inHand v job held

theorem goTo (kept : ∀ job, point.job = some job → (c.workers w).point.job = some job) :
    (c.goTo w point).AllJobs p :=
  all.setWorker fun job held => all.inHand w job (held.imp_left (kept job))

theorem acknowledge (kept : ∀ job, point.job = some job → (c.workers w).point.job = some job) :
    (c.acknowledge w point).AllJobs p :=
  all.setWorker fun job held => all.inHand w job (held.imp (kept job) nofun)

/-- One step, for a property that accepted jobs have and failures keep. -/
theorem move (move : Move q c act next) (accepted : ∀ job ∈ next.accepted, p job)
    (failed : ∀ job error, p job → p { job with lastError := error })
    (retried : ∀ job error, p job → job.attempt < job.maxAttempts →
      p { job with lastError := error, attempt := job.attempt + 1 }) : next.AllJobs p := by
  cases move with
  | deadLetter w fails here exhausted =>
    have held := all.inHand w _ (.inl (congrArg Point.job here))
    refine { all.goTo (by rintro _ ⟨⟩) with dead := fun job mem => ?_ }
    grind [all.dead]
  | retry w fails here more =>
    have held := all.inHand w _ (.inl (congrArg Point.job here))
    refine { all.goTo (by rintro _ ⟨⟩) with waiting := fun retry mem => ?_ }
    grind [all.waiting]
  | unclaimed _ here _ | unreleased _ here _ | fail _ _ here | claimed _ here _ _ | release _ here _
  | countFailed _ here => exact { all.goTo (by rw [here]; exact fun _ held => held) with }
  | dropMalformed | refused | succeed | countSucceeded => exact { all.goTo (by rintro _ ⟨⟩) with }
  | ackFailed _ here => exact all.acknowledge (by rw [here]; exact fun _ held => held)
  | ackFinished => exact all.acknowledge (by rintro _ ⟨⟩)
  | cancel w => exact all.setWorker (all.inHand w)
  | count | expire => exact { all with }
  | enqueue | publishMalformed =>
    refine { all with main := fun job mem => ?_ }
    grind [all.main]
  | @deliver w place body here queued =>
    have mem := mem_of_getElem? queued
    refine { all.setWorker ?_ with
      main := fun job rest => all.main job (mem_of_mem_eraseIdx rest) }
    intro job held
    cases body with
    | job other => grind [all.main, Worker.Has, Point.job]
    | malformed => exact held.elim nofun nofun
  | fire waiting =>
    refine { all with waiting := fun retry mem => ?_ }
    grind [all.waiting, mem_or_eq_of_mem_set]
  | abandon waiting notDue cancelled =>
    exact { all with waiting := fun retry mem => all.waiting retry (mem_of_mem_eraseIdx mem) }
  | republish waiting due =>
    have back := all.waiting _ (mem_of_getElem? waiting)
    refine { all with
      waiting := fun retry mem => all.waiting retry (mem_of_mem_eraseIdx mem)
      main := fun job mem => ?_ }
    grind [all.main]
  | crash w =>
    have empty : (c.setWorker w .fresh).AllJobs p :=
      all.setWorker fun _ held => held.elim nofun nofun
    refine { empty with
      waiting := fun retry mem => all.waiting retry (mem_of_mem_filter mem)
      main := fun job mem => ?_ }
    grind [all.main, all.inHand w, Worker.Has]
  | redeliver w outstanding =>
    have taken : (c.setWorker w { c.workers w with unacked := none }).AllJobs p :=
      all.setWorker fun job held => all.inHand w job (held.imp_right nofun)
    refine { taken with main := fun job mem => ?_ }
    grind [all.main, all.inHand w, Worker.Has]

end AllJobs

/-- Whatever crashes, expires or is delivered twice, no job comes from nowhere, loses its
data or is retried too often. -/
theorem jobs_traced (reachable : Reachable (fun c action => c.step q action)
    (fun _ _ => True) (start : Cluster W) c) :
    c.AllJobs fun job => ∃ first ∈ c.accepted, job.Descends first := by
  have inherited : ∀ p : Job → Prop, (∀ job ∈ c.accepted, p job) →
      (∀ job error, p job → p { job with lastError := error }) →
      (∀ job error, p job → job.attempt < job.maxAttempts →
        p { job with lastError := error, attempt := job.attempt + 1 }) → c.AllJobs p := by
    induction reachable with
    | start => exact fun p _ _ _ =>
        ⟨by simp [start], fun _ _ held => held.elim nofun nofun, by simp [start], by simp [start]⟩
    | step _ _ stepped ih =>
      intro p accepted failed retried
      have move := move_of_step stepped
      refine (ih p (fun job mem => accepted job ?_) failed retried).move move accepted failed retried
      cases move with
      | enqueue => exact mem_append_left _ mem
      | _ => exact mem
  refine inherited _ ?_ ?_ ?_
  · intro job mem
    exact ⟨job, mem, job.attempt, job.lastError, rfl, le_rfl, le_max_left ..⟩
  · rintro _ error ⟨first, mem, attempt, _, rfl, least, most⟩
    exact ⟨first, mem, attempt, error, rfl, least, most⟩
  · rintro _ error ⟨first, mem, attempt, _, rfl, least, most⟩ retried
    refine ⟨first, mem, attempt + 1, error, rfl, by omega, ?_⟩
    exact (Int.add_one_le_of_lt retried).trans (le_max_right ..)

theorem jobs_traced_crash : ∃ c : Cluster Unit, c.main.length = 1 ∧
    c.AllJobs fun job => ∃ first ∈ c.accepted, job.Descends first := by
  have reached : Reachable (fun c action => c.step ⟨true, 1⟩ action) (fun _ _ => True)
      (start : Cluster Unit) _ :=
    Reachable.start
    |>.take (.enqueue ⟨"j", "s", "t", "", 0, 1, "", 0⟩) trivial rfl
    |>.take (.deliver () 0) trivial rfl
    |>.take (.crash ()) trivial rfl
  exact ⟨_, rfl, jobs_traced reached⟩

end Cluster

end Simulator
