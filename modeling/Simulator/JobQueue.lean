import Mathlib
import Simulator.TransitionRuns

/-!
# The job queue

The queue, Redis and all workers form one transition system; workers may be cancelled or
crash, and the broker may deliver an unacknowledged message again.
-/

namespace Simulator

/-- `Job`; the payload is its JSON text. -/
structure Job where
  id : String
  simulationID : String
  type : String
  payload : String
  attempt : Int
  maxAttempts : Int
  lastError : String
  createdAt : Int
deriving DecidableEq

/-- The body of a message, as `json.Unmarshal` finds it. -/
inductive Body
  | job (job : Job)
  | malformed
deriving DecidableEq

/-- `Queue`: whether there is a coordinator, and the base delay in
nanoseconds. -/
structure Queue where
  coordinated : Bool
  backoff : Int64

def Queue.new (coordinated : Bool) (backoff : Int64) : Queue where
  coordinated := coordinated
  backoff := if backoff ≤ 0 then 1000000000 else backoff

def Queue.backoffFor (q : Queue) (attempt : Int) : Int64 :=
  (fun d => d * 2)^[(attempt - 1).toNat] q.backoff

/-- The default of `Enqueue`. -/
def Job.admitted (job : Job) : Job :=
  if job.maxAttempts ≤ 0 then { job with maxAttempts := 1 } else job

@[simp]
theorem Job.id_admitted (job : Job) : job.admitted.id = job.id := by
  unfold Job.admitted
  split <;> rfl

def processedKey (id : String) : String :=
  "job:processed:" ++ id

theorem processedKey_injective : Function.Injective processedKey := by
  intro a b eq
  have lists := congrArg String.toList eq
  simp only [processedKey, String.toList_append] at lists
  exact String.toList_injective (List.append_cancel_left lists)

/-- Where the callback of `Consume` is. -/
inductive Point
  /-- waiting for a delivery -/
  | idle
  /-- before `Claim` -/
  | received (body : Body)
  /-- in the handler -/
  | running (job : Job)
  /-- the handler has returned an error; before `Release` -/
  | failed (job : Job) (error : String)
  /-- before `done` on the way to `handleFailure` -/
  | released (job : Job) (error : String)
  /-- in `handleFailure`, before `Ack` -/
  | counted (job : Job) (error : String)
  /-- in `handleFailure`, after `Ack` -/
  | acked (job : Job) (error : String)
  /-- the handler has returned nil; before `done` -/
  | succeeded (job : Job)
  /-- before the `Ack` with which the callback ends -/
  | finished (body : Body)
deriving DecidableEq

structure Worker where
  point : Point
  unacked : Option Body
  cancelled : Bool
deriving DecidableEq

def Worker.fresh : Worker :=
  ⟨.idle, none, false⟩

/-- The goroutine of `handleFailure`, with the worker whose context it
watches.  It is due once the delay is over and `select` has seen it. -/
structure Retry (W : Type) where
  owner : W
  job : Job
  delay : Int64
  due : Bool
deriving DecidableEq

/-- The broker, Redis, the workers with their retries and the `QueueDepth`
gauge; a number of calls of `Enqueue` have not counted their job yet.
`accepted` and `successes` record the jobs that `Enqueue` has published and
the IDs for which a handler has returned nil. -/
structure Cluster (W : Type) where
  main : List Body
  dead : List Job
  workers : W → Worker
  retries : List (Retry W)
  keys : List String
  depth : Int
  uncounted : Nat
  accepted : List Job
  successes : List String

inductive ClusterAction (W : Type)
  | enqueue (job : Job)
  | count
  | publishMalformed
  | deliver (w : W) (place : Nat)
  | claim (w : W) (fails : Bool)
  | finish (w : W) (error : Option String)
  | release (w : W) (fails : Bool)
  | done (w : W)
  | ack (w : W)
  | settle (w : W) (fails : Bool)
  | fire (place : Nat)
  | abandon (place : Nat)
  | republish (place : Nat)
  | cancel (w : W)
  | crash (w : W)
  | redeliver (w : W)
  | expire (key : String)

namespace Cluster

variable {W : Type} [DecidableEq W]

def start : Cluster W :=
  ⟨[], [], fun _ => .fresh, [], [], 0, 0, [], []⟩

def setWorker (c : Cluster W) (w : W) (worker : Worker) : Cluster W :=
  { c with workers := Function.update c.workers w worker }

@[simp]
theorem workers_setWorker_self (c : Cluster W) (w : W) (worker : Worker) :
    (c.setWorker w worker).workers w = worker := by
  simp [setWorker]

theorem workers_setWorker_ne (c : Cluster W) {v w : W} (differs : v ≠ w)
    (worker : Worker) : (c.setWorker w worker).workers v = c.workers v := by
  simp [setWorker, Function.update_of_ne differs]

def goTo (c : Cluster W) (w : W) (point : Point) : Cluster W :=
  c.setWorker w { c.workers w with point := point }

def acknowledge (c : Cluster W) (w : W) (point : Point) : Cluster W :=
  c.setWorker w { c.workers w with point := point, unacked := none }

/-- `Claim` and what the callback makes of its reply: an error is ignored, and
a key that exists means that the message is dropped. -/
def claim (q : Queue) (c : Cluster W) (w : W) (job : Job) (fails : Bool) : Cluster W :=
  if q.coordinated = true ∧ fails = false then
    if processedKey job.id ∈ c.keys then c.goTo w (.finished (.job job))
    else
      { c.goTo w (.running job) with keys := processedKey job.id :: c.keys }
  else c.goTo w (.running job)

/-- `Release`; its error is ignored. -/
def release (q : Queue) (c : Cluster W) (w : W) (job : Job) (error : String)
    (fails : Bool) : Cluster W :=
  if q.coordinated = true ∧ fails = false then
    { c.goTo w (.released job error) with
      keys := c.keys.filter (· ≠ processedKey job.id) }
  else c.goTo w (.released job error)

/-- The rest of `handleFailure`: the dead-letter queue or a retry. -/
def settle (q : Queue) (c : Cluster W) (w : W) (job : Job) (error : String)
    (fails : Bool) : Cluster W :=
  let job := { job with lastError := error }
  if job.maxAttempts ≤ job.attempt then
    { c.goTo w .idle with
      dead := if fails then c.dead else c.dead ++ [job] }
  else
    let job := { job with attempt := job.attempt + 1 }
    { c.goTo w .idle with
      retries := c.retries ++ [⟨w, job, q.backoffFor job.attempt, false⟩] }

def step (q : Queue) (c : Cluster W) : ClusterAction W → Option (Cluster W)
  | .enqueue job => some { c with
      main := c.main ++ [.job job.admitted]
      uncounted := c.uncounted + 1
      accepted := c.accepted ++ [job.admitted] }
  | .count =>
    if 0 < c.uncounted then
      some { c with depth := c.depth + 1, uncounted := c.uncounted - 1 }
    else none
  | .publishMalformed => some { c with main := c.main ++ [.malformed] }
  | .deliver w place =>
    match (c.workers w).point, c.main[place]? with
    | .idle, some body => some { c.setWorker w
        { c.workers w with point := .received body, unacked := some body }
        with main := c.main.eraseIdx place }
    | _, _ => none
  | .claim w fails =>
    match (c.workers w).point with
    | .received .malformed => some (c.goTo w (.finished .malformed))
    | .received (.job job) => some (c.claim q w job fails)
    | _ => none
  | .finish w error =>
    match (c.workers w).point with
    | .running job =>
      match error with
      | none => some { c.goTo w (.succeeded job) with
          successes := c.successes ++ [job.id] }
      | some error => some (c.goTo w (.failed job error))
    | _ => none
  | .release w fails =>
    match (c.workers w).point with
    | .failed job error => some (c.release q w job error fails)
    | _ => none
  | .done w =>
    match (c.workers w).point with
    | .released job error => some { c.goTo w (.counted job error) with
        depth := c.depth - 1 }
    | .succeeded job => some { c.goTo w (.finished (.job job)) with
        depth := c.depth - 1 }
    | _ => none
  | .ack w =>
    match (c.workers w).point with
    | .counted job error => some (c.acknowledge w (.acked job error))
    | .finished _ => some (c.acknowledge w .idle)
    | _ => none
  | .settle w fails =>
    match (c.workers w).point with
    | .acked job error => some (c.settle q w job error fails)
    | _ => none
  | .fire place =>
    match c.retries[place]? with
    | some retry => some { c with
        retries := c.retries.set place { retry with due := true } }
    | none => none
  | .abandon place =>
    match c.retries[place]? with
    | some retry =>
      if retry.due = false ∧ (c.workers retry.owner).cancelled = true then
        some { c with retries := c.retries.eraseIdx place }
      else none
    | none => none
  | .republish place =>
    match c.retries[place]? with
    | some retry =>
      if retry.due = true then
        some { c with
          retries := c.retries.eraseIdx place
          main := c.main ++ [.job retry.job] }
      else none
    | none => none
  | .cancel w => some (c.setWorker w { c.workers w with cancelled := true })
  | .crash w => some { c.setWorker w .fresh with
      main := c.main ++ (c.workers w).unacked.toList
      retries := c.retries.filter (·.owner ≠ w) }
  | .redeliver w =>
    match (c.workers w).unacked with
    | some body => some { c.setWorker w { c.workers w with unacked := none }
        with main := c.main ++ [body] }
    | none => none
  | .expire key => some { c with keys := c.keys.filter (· ≠ key) }

inductive Move (q : Queue) (c : Cluster W) :
    ClusterAction W → Cluster W → Prop
  | enqueue (job : Job) : Move q c (.enqueue job) { c with
      main := c.main ++ [.job job.admitted]
      uncounted := c.uncounted + 1
      accepted := c.accepted ++ [job.admitted] }
  | count (uncounted : 0 < c.uncounted) : Move q c .count
      { c with depth := c.depth + 1, uncounted := c.uncounted - 1 }
  | publishMalformed : Move q c .publishMalformed { c with main := c.main ++ [.malformed] }
  | deliver (w : W) {place : Nat} {body : Body} (here : (c.workers w).point = .idle)
      (queued : c.main[place]? = some body) : Move q c (.deliver w place) { c.setWorker w
          { c.workers w with point := .received body, unacked := some body }
        with main := c.main.eraseIdx place }
  | dropMalformed (w : W) (fails : Bool) (here : (c.workers w).point = .received .malformed) :
      Move q c (.claim w fails) (c.goTo w (.finished .malformed))
  | unclaimed (w : W) {fails : Bool} {job : Job} (here : (c.workers w).point = .received (.job job))
      (noReply : q.coordinated = false ∨ fails = true) :
      Move q c (.claim w fails) (c.goTo w (.running job))
  | refused (w : W) {job : Job} (here : (c.workers w).point = .received (.job job))
      (coordinated : q.coordinated = true) (taken : processedKey job.id ∈ c.keys) :
      Move q c (.claim w false) (c.goTo w (.finished (.job job)))
  | claimed (w : W) {job : Job} (here : (c.workers w).point = .received (.job job))
      (coordinated : q.coordinated = true) (free : processedKey job.id ∉ c.keys) :
      Move q c (.claim w false)
        { c.goTo w (.running job) with keys := processedKey job.id :: c.keys }
  | succeed (w : W) {job : Job} (here : (c.workers w).point = .running job) :
      Move q c (.finish w none) { c.goTo w (.succeeded job) with
        successes := c.successes ++ [job.id] }
  | fail (w : W) {job : Job} (error : String) (here : (c.workers w).point = .running job) :
      Move q c (.finish w (some error)) (c.goTo w (.failed job error))
  | release (w : W) {job : Job} {error : String} (here : (c.workers w).point = .failed job error)
      (coordinated : q.coordinated = true) :
      Move q c (.release w false) { c.goTo w (.released job error) with
        keys := c.keys.filter (· ≠ processedKey job.id) }
  | unreleased (w : W) {fails : Bool} {job : Job} {error : String}
      (here : (c.workers w).point = .failed job error)
      (noReply : q.coordinated = false ∨ fails = true) :
      Move q c (.release w fails) (c.goTo w (.released job error))
  | countFailed (w : W) {job : Job} {error : String}
      (here : (c.workers w).point = .released job error) : Move q c (.done w)
        { c.goTo w (.counted job error) with depth := c.depth - 1 }
  | countSucceeded (w : W) {job : Job} (here : (c.workers w).point = .succeeded job) :
      Move q c (.done w) { c.goTo w (.finished (.job job)) with depth := c.depth - 1 }
  | ackFailed (w : W) {job : Job} {error : String}
      (here : (c.workers w).point = .counted job error) :
      Move q c (.ack w) (c.acknowledge w (.acked job error))
  | ackFinished (w : W) {body : Body} (here : (c.workers w).point = .finished body) :
      Move q c (.ack w) (c.acknowledge w .idle)
  | deadLetter (w : W) (fails : Bool) {job : Job} {error : String}
      (here : (c.workers w).point = .acked job error) (exhausted : job.maxAttempts ≤ job.attempt) :
      Move q c (.settle w fails) { c.goTo w .idle with
        dead := if fails then c.dead
          else c.dead ++ [{ job with lastError := error }] }
  | retry (w : W) (fails : Bool) {job : Job} {error : String}
      (here : (c.workers w).point = .acked job error) (more : job.attempt < job.maxAttempts) :
      Move q c (.settle w fails) { c.goTo w .idle with
        retries := c.retries ++ [⟨w, { job with lastError := error, attempt := job.attempt + 1 },
          q.backoffFor (job.attempt + 1), false⟩] }
  | fire {place : Nat} {retry : Retry W} (waiting : c.retries[place]? = some retry) :
      Move q c (.fire place) { c with retries := c.retries.set place { retry with due := true } }
  | abandon {place : Nat} {retry : Retry W} (waiting : c.retries[place]? = some retry)
      (notDue : retry.due = false) (cancelled : (c.workers retry.owner).cancelled = true) :
      Move q c (.abandon place) { c with retries := c.retries.eraseIdx place }
  | republish {place : Nat} {retry : Retry W} (waiting : c.retries[place]? = some retry)
      (due : retry.due = true) : Move q c (.republish place) { c with
        retries := c.retries.eraseIdx place
        main := c.main ++ [.job retry.job] }
  | cancel (w : W) : Move q c (.cancel w) (c.setWorker w { c.workers w with cancelled := true })
  | crash (w : W) : Move q c (.crash w) { c.setWorker w .fresh with
      main := c.main ++ (c.workers w).unacked.toList
      retries := c.retries.filter (·.owner ≠ w) }
  | redeliver (w : W) {body : Body} (outstanding : (c.workers w).unacked = some body) :
      Move q c (.redeliver w) { c.setWorker w { c.workers w with unacked := none }
          with main := c.main ++ [body] }
  | expire (key : String) : Move q c (.expire key) { c with keys := c.keys.filter (· ≠ key) }

variable {job : Job}

theorem move_claim (q : Queue) (c : Cluster W) (w : W)
    (fails : Bool) (here : (c.workers w).point = .received (.job job)) :
    Move q c (.claim w fails) (c.claim q w job fails) := by
  unfold claim
  split
  · rename_i asked
    obtain ⟨led, answered⟩ := asked
    subst answered
    split
    · rename_i taken
      exact .refused w here led taken
    · rename_i free
      exact .claimed w here led free
  · rename_i notAsked
    refine .unclaimed w here ?_
    cases known : q.coordinated with
    | false => exact .inl rfl
    | true => exact .inr (by simpa [known] using notAsked)

variable {error : String}

theorem move_release (q : Queue) (c : Cluster W) (w : W) (fails : Bool)
    (here : (c.workers w).point = .failed job error) :
    Move q c (.release w fails) (c.release q w job error fails) := by
  unfold release
  split
  · rename_i asked
    obtain ⟨led, answered⟩ := asked
    subst answered
    exact .release w here led
  · rename_i notAsked
    refine .unreleased w here ?_
    cases known : q.coordinated with
    | false => exact .inl rfl
    | true => exact .inr (by simpa [known] using notAsked)

theorem move_settle (q : Queue) (c : Cluster W) (w : W) (fails : Bool)
    (here : (c.workers w).point = .acked job error) :
    Move q c (.settle w fails) (c.settle q w job error fails) := by
  unfold settle
  dsimp only
  split
  · rename_i exhausted
    exact .deadLetter w fails here exhausted
  · rename_i more
    exact .retry w fails here (Int.not_le.mp more)

theorem move_of_step {q : Queue} {c next : Cluster W}
    {act : ClusterAction W} (stepped : c.step q act = some next) : Move q c act next := by
  revert stepped
  -- one case for each branch of `step` that allows the action
  fun_cases step q c act <;> rintro ⟨⟩
  · exact .enqueue _
  · exact .count ‹_›
  · exact .publishMalformed
  · exact .deliver _ ‹_› ‹_›
  · exact .dropMalformed _ _ ‹_›
  · exact move_claim _ _ _ _ ‹_›
  · exact .succeed _ ‹_›
  · exact .fail _ _ ‹_›
  · exact move_release _ _ _ _ ‹_›
  · exact .countFailed _ ‹_›
  · exact .countSucceeded _ ‹_›
  · exact .ackFailed _ ‹_›
  · exact .ackFinished _ ‹_›
  · exact move_settle _ _ _ _ ‹_›
  · exact .fire ‹_›
  · rename_i given
    exact .abandon ‹_› given.1 given.2
  · exact .republish ‹_› ‹_›
  · exact .cancel _
  · exact .crash _
  · exact .redeliver _ ‹_›
  · exact .expire _

end Cluster

end Simulator
