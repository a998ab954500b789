import Simulator.JobConservation

/-!
# The life of one job

Seen from one job, a cluster with a single worker is a small machine.
-/

namespace Simulator

open Transition List Option

/-- Where a job is.  The worker holds it from `received` to `released`. -/
inductive Life
  | absent
  | queued (job : Job)
  | received (job : Job)
  | running (job : Job)
  /-- the key is still claimed -/
  | failed (job : Job) (error : String)
  | released (job : Job) (error : String)
  | waiting (job : Job)
  | done
  | buried (job : Job)

namespace Life

def inMain : Life → List Job
  | .queued job => [job]
  | _ => []

def inHand : Life → Option Life
  | .received job => some (.received job)
  | .running job => some (.running job)
  | .failed job error => some (.failed job error)
  | .released job error => some (.released job error)
  | _ => none

def inRetries : Life → List Job
  | .waiting job => [job]
  | _ => []

def inDead : Life → List Job
  | .buried job => [job]
  | _ => []

def claimable : Life → Bool
  | .running _ => false
  | .failed _ _ => false
  | .done => false
  | _ => true

theorem length_inMain (life : Life) : life.inMain.length ≤ 1 := by
  cases life <;> simp [inMain]

theorem length_inRetries (life : Life) : life.inRetries.length ≤ 1 := by
  cases life <;> simp [inRetries]

variable {life : Life} {job : Job}

theorem eq_of_inMain (queued : life.inMain = [job]) : life = .queued job := by
  cases life <;> simp_all [inMain]

theorem eq_of_inHand {held : Life} (hand : life.inHand = some held) : life = held := by
  cases life <;> simp_all [inHand]

theorem eq_of_inRetries (waiting : life.inRetries = [job]) : life = .waiting job := by
  cases life <;> simp_all [inRetries]

end Life

section

variable (id : String)

def Body.jobOf : Body → Option Job
  | .job copy => if copy.id = id then some copy else none
  | .malformed => none

def Point.lifeOf : Point → Option Life
  | .received (.job job) => if job.id = id then some (.received job) else none
  | .running job => if job.id = id then some (.running job) else none
  | .failed job error =>
    if job.id = id then some (.failed job error) else none
  | .released job error =>
    if job.id = id then some (.released job error) else none
  | .counted job error =>
    if job.id = id then some (.released job error) else none
  | .acked job error =>
    if job.id = id then some (.released job error) else none
  | _ => none

def Retry.jobOf {W : Type} (retry : Retry W) : Option Job :=
  if retry.job.id = id then some retry.job else none

end

variable {α β : Type} {xs : List α} {pos : Nat} {item : α}

section

variable (f : α → Option β) (here : xs[pos]? = some item)
include f here

theorem filterMap_eraseIdx_perm :
    (xs.filterMap f).Perm ((f item).toList ++ (xs.eraseIdx pos).filterMap f) := by
  obtain ⟨lt, rfl⟩ := List.getElem?_eq_some_iff.mp here
  have perm := ((getElem_cons_eraseIdx_perm lt).symm.filterMap f)
  rw [filterMap_cons] at perm
  cases single : f xs[pos] with
  | none | some b => simpa [single] using perm

theorem filterMap_eraseIdx_cases (single : (xs.filterMap f).length ≤ 1) : (f item = none ∧
        (xs.eraseIdx pos).filterMap f = xs.filterMap f) ∨
      ∃ b, f item = some b ∧ xs.filterMap f = [b] ∧ (xs.eraseIdx pos).filterMap f = [] := by
  have perm := filterMap_eraseIdx_perm f here
  have lengths := perm.length_eq
  cases own : f item with
  | none =>
    rw [own, toList_none, nil_append] at perm
    refine .inl ⟨rfl, ?_⟩
    match known : xs.filterMap f, single with
    | [], _ => exact (known ▸ perm).nil_eq.symm
    | [b], _ => exact perm_singleton.mp (known ▸ perm).symm
  | some b =>
    rw [own, toList_some, singleton_append] at perm
    rw [own, toList_some, singleton_append, length_cons] at lengths
    have rest : (xs.eraseIdx pos).filterMap f = [] := length_eq_zero_iff.mp (by omega)
    rw [rest] at perm
    exact .inr ⟨b, rfl, perm_singleton.mp perm, rest⟩

theorem filterMap_set (new : α) (eq : f new = f item) :
    (xs.set pos new).filterMap f = xs.filterMap f := by
  induction xs generalizing pos with
  | nil => rfl
  | cons first rest ih =>
    cases pos with
    | zero =>
      cases here
      rw [set_cons_zero, filterMap_cons, filterMap_cons, eq]
    | succ pos =>
      rw [set_cons_succ, filterMap_cons, filterMap_cons, ih here]

end

namespace Cluster

structure Lives (q : Queue) (c : Cluster Unit) (id : String) (life : Life) :
    Prop where
  main : c.main.filterMap (Body.jobOf id) = life.inMain
  hand : (c.workers ()).point.lifeOf id = life.inHand
  retries : c.retries.filterMap (Retry.jobOf id) = life.inRetries
  dead : c.dead.filter (fun job => job.id = id) = life.inDead
  accepted : (∀ job ∈ c.accepted, job.id ≠ id) ↔ life = .absent
  key : life.claimable = true ∨ q.coordinated = false → processedKey id ∉ c.keys
  uncancelled : (c.workers ()).cancelled = false

theorem lives_start (q : Queue) (id : String) : (start : Cluster Unit).Lives q id .absent where
  main := rfl
  hand := rfl
  retries := rfl
  dead := rfl
  accepted := by simp [start]
  key := by simp [start]
  uncancelled := rfl

def Undisturbed (job : Job) (c : Cluster Unit) : ClusterAction Unit → Prop
  | .enqueue other => other.id = job.id → other = job ∧ ∀ old ∈ c.accepted, old.id ≠ job.id
  | .release _ fails => fails = false
  | .settle _ fails => fails = false
  | .cancel _ => False
  | .crash _ => False
  | .redeliver _ => False
  | _ => True

def handled (c : Cluster Unit) (id : String) :
    ClusterAction Unit → Option (Option String)
  | .finish _ error =>
    match (c.workers ()).point with
    | .running job => if job.id = id then some error else none
    | _ => none
  | _ => none

end Cluster

inductive LifeStep (job : Job) : Life → Option (Option String) → Life → Prop
  | stay (life : Life) : LifeStep job life none life
  | accept : LifeStep job .absent none (.queued job.admitted)
  | deliver (copy : Job) : LifeStep job (.queued copy) none (.received copy)
  | claim (copy : Job) : LifeStep job (.received copy) none (.running copy)
  | succeed (copy : Job) : LifeStep job (.running copy) (some none) .done
  | fail (copy : Job) (error : String) :
      LifeStep job (.running copy) (some (some error)) (.failed copy error)
  | release (copy : Job) (error : String) :
      LifeStep job (.failed copy error) none (.released copy error)
  | bury {copy : Job} (error : String) (exhausted : copy.maxAttempts ≤ copy.attempt) :
      LifeStep job (.released copy error) none (.buried { copy with lastError := error })
  | retry {copy : Job} (error : String) (more : copy.attempt < copy.maxAttempts) :
      LifeStep job (.released copy error) none (.waiting
        { copy with lastError := error, attempt := copy.attempt + 1 })
  | republish (copy : Job) : LifeStep job (.waiting copy) none (.queued copy)

namespace Cluster

variable {q : Queue} {c next : Cluster Unit} {id : String} {life later : Life}

def work (c : Cluster Unit) (worker : Worker) (keys : List String)
    (depth : Int) (successes : List String) : Cluster Unit :=
  { c.setWorker () worker with
    keys := keys
    depth := depth
    successes := successes }

theorem Lives.work (lives : c.Lives q id life) {worker : Worker}
    {keys : List String} {depth : Int} {successes : List String}
    (uncancelled : worker.cancelled = (c.workers ()).cancelled)
    (hand : worker.point.lifeOf id = later.inHand) (sameMain : later.inMain = life.inMain)
    (sameRetries : later.inRetries = life.inRetries) (sameDead : later.inDead = life.inDead)
    (sameAbsent : later = .absent ↔ life = .absent)
    (key : later.claimable = true ∨ q.coordinated = false → processedKey id ∉ keys) :
    (c.work worker keys depth successes).Lives q id later where
  main := lives.main.trans sameMain.symm
  hand := hand
  retries := lives.retries.trans sameRetries.symm
  dead := lives.dead.trans sameDead.symm
  accepted := lives.accepted.trans sameAbsent.symm
  key := key
  uncancelled := uncancelled.trans lives.uncancelled

variable {point : Point}

theorem Lives.workElsewhere (lives : c.Lives q id life)
    (here : (c.workers ()).point = point) (apart : point.lifeOf id = none)
    (worker : Worker) (keys : List String) (depth : Int) (successes : List String)
    (uncancelled : worker.cancelled = (c.workers ()).cancelled)
    (hand : worker.point.lifeOf id = none)
    (kept : processedKey id ∉ c.keys → processedKey id ∉ keys) :
    (c.work worker keys depth successes).Lives q id life := by
  have empty : life.inHand = none := by
    rw [← lives.hand, here, apart]
  exact lives.work uncancelled (hand.trans empty.symm) rfl rfl rfl Iff.rfl
    fun claimable => kept (lives.key claimable)

theorem Lives.eq_of_point (lives : c.Lives q id life)
    {held : Life} (here : (c.workers ()).point = point)
    (holds : point.lifeOf id = some held) : life = held :=
  Life.eq_of_inHand (by rw [← lives.hand, here, holds])

theorem handled_finish {copy : Job} (w : Unit) (error : Option String)
    (here : (c.workers ()).point = .running copy) :
    c.handled id (.finish w error) =
      if copy.id = id then some error else none := by
  simp only [handled, here]

section

variable {job copy : Job} {error : String} {pos : Nat} {point : Point} {act : ClusterAction Unit}

section

variable (lives : c.Lives q job.id life)
include lives

theorem Lives.deliver
    {body : Body} (here : (c.workers ()).point = .idle) (queued : c.main[pos]? = some body) :
    ∃ later, Lives q { c.setWorker () { c.workers () with
          point := .received body, unacked := some body }
        with main := c.main.eraseIdx pos } job.id later ∧
      LifeStep job life none later := by
  have empty : life.inHand = none := by rw [← lives.hand, here]; rfl
  have single : (c.main.filterMap (Body.jobOf job.id)).length ≤ 1 := by
    rw [lives.main]
    exact life.length_inMain
  rcases filterMap_eraseIdx_cases (Body.jobOf job.id) queued single with
    ⟨other, kept⟩ | ⟨copy, own, only, rest⟩
  · refine ⟨life, ⟨kept.trans lives.main, ?_, lives.retries, lives.dead,
      lives.accepted, lives.key, ?_⟩, .stay life⟩
    · rw [empty]
      cases body with
      | job copy =>
        simp only [Body.jobOf, ite_eq_right_iff, reduceCtorEq, imp_false] at other
        simp [Point.lifeOf, other]
      | malformed => simp [Point.lifeOf]
    · simpa using lives.uncancelled
  · obtain rfl := Life.eq_of_inMain (lives.main.symm.trans only)
    refine ⟨.received copy, ⟨rest, ?_, lives.retries, lives.dead, ?_, lives.key, ?_⟩, .deliver copy⟩
    · cases body with
      | job original =>
        simp only [Body.jobOf, ite_none_right_eq_some, some.injEq] at own
        obtain ⟨named, rfl⟩ := own
        simp [Point.lifeOf, named, Life.inHand]
      | malformed => cases own
    · exact lives.accepted.trans (by simp)
    · simpa using lives.uncancelled

theorem Lives.goOn {old : Point} {held later : Life}
    {res shown : Option (Option String)} (here : (c.workers ()).point = old)
    (step : LifeStep job held res later)
    (holds : old.lifeOf job.id = if copy.id = job.id then some held else none)
    (after : Point) (keys : List String) (depth : Int) (successes : List String)
    (hand : after.lifeOf job.id = if copy.id = job.id then later.inHand else none)
    (places : later.inMain = held.inMain ∧ later.inRetries = held.inRetries ∧
      later.inDead = held.inDead ∧ (later = .absent ↔ held = .absent))
    (isShown : shown = if copy.id = job.id then res else none) (key : copy.id = job.id →
      (held.claimable = true ∨ q.coordinated = false → processedKey job.id ∉ c.keys) →
      later.claimable = true ∨ q.coordinated = false → processedKey job.id ∉ keys)
    (kept : copy.id ≠ job.id → processedKey job.id ∉ c.keys → processedKey job.id ∉ keys) :
    ∃ later, (c.work { c.workers () with point := after } keys depth successes).Lives q job.id
      later ∧ LifeStep job life shown later := by
  by_cases own : copy.id = job.id
  · rw [if_pos own] at holds hand isShown
    obtain rfl := lives.eq_of_point here holds
    exact ⟨later, lives.work rfl hand places.1 places.2.1 places.2.2.1 places.2.2.2
      (key own lives.key), isShown ▸ step⟩
  · rw [if_neg own] at holds hand isShown
    exact ⟨life, lives.workElsewhere here holds _ keys depth successes rfl hand (kept own),
      isShown ▸ .stay life⟩

theorem Lives.claim {fails : Bool} (move : Move q c (.claim () fails) next) :
    ∃ later, next.Lives q job.id later ∧ LifeStep job life none later := by
  cases move with
  | dropMalformed w fails here =>
    exact ⟨life, lives.workElsewhere here rfl { c.workers () with point := .finished .malformed }
      c.keys c.depth c.successes rfl rfl id, .stay life⟩
  | @unclaimed w fails copy here noReply =>
    exact lives.goOn here (.claim copy) rfl (.running copy) c.keys c.depth c.successes rfl
      ⟨rfl, rfl, rfl, by simp⟩ (ite_self none).symm
      (fun _ unclaimed _ => unclaimed (.inl rfl)) fun _ => id
  | @refused w copy here led taken =>
    by_cases own : copy.id = job.id
    · have unclaimed := lives.key
      rw [lives.eq_of_point here (if_pos own)] at unclaimed
      rw [own] at taken
      exact absurd taken (unclaimed (.inl rfl))
    · exact ⟨life, lives.workElsewhere here (if_neg own)
        { c.workers () with point := .finished (.job copy) } c.keys c.depth
        c.successes rfl rfl id, .stay life⟩
  | @claimed w copy here led free =>
    refine lives.goOn here (.claim copy) rfl (.running copy) (processedKey copy.id :: c.keys)
      c.depth c.successes rfl ⟨rfl, rfl, rfl, by simp⟩ (ite_self none).symm ?_ ?_
    · simp [Life.claimable, led]
    · intro other absent
      rw [mem_cons, not_or]
      exact ⟨fun eq => other (processedKey_injective eq).symm, absent⟩

theorem Lives.finish {res : Option String} (move : Move q c (.finish () res) next) :
    ∃ later, next.Lives q job.id later ∧
      LifeStep job life (c.handled job.id (.finish () res)) later := by
  have unclaimed {later : Life} (claimed : later.claimable = false) {copy : Job} :
      copy.id = job.id → (Life.claimable (.running copy) = true ∨ q.coordinated = false →
        processedKey job.id ∉ c.keys) →
      later.claimable = true ∨ q.coordinated = false → processedKey job.id ∉ c.keys := by
    rintro _ old (claimable | uncoordinated)
    · rw [claimed] at claimable
      cases claimable
    · exact old (.inr uncoordinated)
  cases move with
  | @succeed w copy here =>
    exact lives.goOn here (.succeed copy) rfl (.succeeded copy) c.keys c.depth
      (c.successes ++ [copy.id]) (ite_self none).symm ⟨rfl, rfl, rfl, by simp⟩
      (handled_finish () none here) (unclaimed rfl) fun _ => id
  | @fail w copy error here =>
    exact lives.goOn here (.fail copy error) rfl (.failed copy error) c.keys c.depth c.successes
      rfl ⟨rfl, rfl, rfl, by simp⟩ (handled_finish () (some error) here) (unclaimed rfl) fun _ => id

theorem Lives.release (move : Move q c (.release () false) next) :
    ∃ later, next.Lives q job.id later ∧ LifeStep job life none later := by
  cases move with
  | @release w copy error here led =>
    refine lives.goOn here (.release copy error) rfl (.released copy error)
      (c.keys.filter (· ≠ processedKey copy.id)) c.depth c.successes rfl
      ⟨rfl, rfl, rfl, by simp⟩ (ite_self none).symm ?_ ?_
    · intro own
      simp [own]
    · intro _ absent listed
      exact absent (mem_filter.mp listed).1
  | @unreleased w fails copy error here noReply =>
    have uncoordinated : q.coordinated = false := by simpa using noReply
    exact lives.goOn here (.release copy error) rfl (.released copy error) c.keys c.depth
      c.successes rfl ⟨rfl, rfl, rfl, by simp⟩ (ite_self none).symm
      (fun _ unclaimed _ => unclaimed (.inr uncoordinated)) fun _ => id

theorem Lives.stayInHand (here : (c.workers ()).point = point) (worker : Worker) (depth : Int)
    (uncancelled : worker.cancelled = (c.workers ()).cancelled)
    (eq : worker.point.lifeOf job.id = point.lifeOf job.id) :
    (c.work worker c.keys depth c.successes).Lives q job.id life := by
  have hand : worker.point.lifeOf job.id = life.inHand := by
    rw [eq, ← here, lives.hand]
  exact lives.work uncancelled hand rfl rfl rfl Iff.rfl lives.key

theorem Lives.doneOrAck (move : Move q c act next)
    (kind : act = .done () ∨ act = .ack ()) : next.Lives q job.id life := by
  cases move with
  | @countFailed w copy error here =>
    exact lives.stayInHand here
      { c.workers () with point := .counted copy error } (c.depth - 1) rfl
      rfl
  | @countSucceeded w copy here =>
    exact lives.stayInHand here
      { c.workers () with point := .finished (.job copy) } (c.depth - 1) rfl
      rfl
  | @ackFailed w copy error here =>
    exact lives.stayInHand here { c.workers () with point := .acked copy error, unacked := none }
      c.depth rfl rfl
  | @ackFinished w body here =>
    exact lives.stayInHand here
      { c.workers () with point := .idle, unacked := none } c.depth rfl rfl
  | _ => simp at kind

theorem Lives.settle (move : Move q c (.settle () false) next) :
    ∃ later, next.Lives q job.id later ∧ LifeStep job life none later := by
  cases move with
  | @deadLetter w fails copy error here exhausted =>
    by_cases own : copy.id = job.id
    · have holds : (Point.acked copy error).lifeOf job.id =
          some (.released copy error) := if_pos own
      obtain rfl := lives.eq_of_point here holds
      refine ⟨.buried { copy with lastError := error }, ⟨lives.main, rfl, lives.retries, ?_,
          lives.accepted.trans (by simp), fun _ => lives.key (.inl rfl),
          lives.uncancelled⟩, .bury error exhausted⟩
      have none := lives.dead
      simp only [Bool.false_eq_true, if_false, filter_append, none]
      simp [Life.inDead, own]
    · have apart : (Point.acked copy error).lifeOf job.id = none := if_neg own
      have empty : life.inHand = none := by
        rw [← lives.hand, here, apart]
      refine ⟨life, { lives with hand := empty.symm, dead := ?_ }, .stay life⟩
      have eq := lives.dead
      simp only [Bool.false_eq_true, if_false, filter_append, eq]
      simp [own]
  | @retry w fails copy error here more =>
    by_cases own : copy.id = job.id
    · have holds : (Point.acked copy error).lifeOf job.id =
          some (.released copy error) := if_pos own
      obtain rfl := lives.eq_of_point here holds
      refine ⟨.waiting { copy with lastError := error, attempt := copy.attempt + 1 },
        ⟨lives.main, rfl, ?_, lives.dead, lives.accepted.trans (by simp),
          fun _ => lives.key (.inl rfl), lives.uncancelled⟩, .retry error more⟩
      have none := lives.retries
      simp only [filterMap_append, none]
      simp [Life.inRetries, Retry.jobOf, own]
    · have apart : (Point.acked copy error).lifeOf job.id = none := if_neg own
      have empty : life.inHand = none := by
        rw [← lives.hand, here, apart]
      refine ⟨life, { lives with hand := empty.symm, retries := ?_ }, .stay life⟩
      have eq := lives.retries
      simp only [filterMap_append, eq]
      simp [Retry.jobOf, own]

theorem Lives.republish {retry : Retry Unit} (waiting : c.retries[pos]? = some retry) :
    ∃ later, Lives q { c with
        retries := c.retries.eraseIdx pos
        main := c.main ++ [.job retry.job] } job.id later ∧
      LifeStep job life none later := by
  have single : (c.retries.filterMap (Retry.jobOf job.id)).length ≤ 1 := by
    rw [lives.retries]
    exact life.length_inRetries
  rcases filterMap_eraseIdx_cases (Retry.jobOf job.id) waiting single with
    ⟨other, kept⟩ | ⟨copy, own, only, rest⟩
  · refine ⟨life, { lives with main := ?_, retries := kept.trans lives.retries }, .stay life⟩
    simp only [Retry.jobOf, ite_eq_right_iff, reduceCtorEq, imp_false] at other
    rw [filterMap_append, lives.main]
    simp [Body.jobOf, other]
  · obtain rfl := Life.eq_of_inRetries (lives.retries.symm.trans only)
    simp only [Retry.jobOf, ite_none_right_eq_some, some.injEq] at own
    obtain ⟨named, rfl⟩ := own
    refine ⟨.queued retry.job, ⟨?_, lives.hand, rest, lives.dead,
      lives.accepted.trans (by simp), fun _ => lives.key (.inl rfl),
      lives.uncancelled⟩, .republish retry.job⟩
    rw [filterMap_append, lives.main]
    simp [Body.jobOf, named, Life.inMain]

theorem Lives.enqueue {other : Job} (once : other.id = job.id →
      other = job ∧ ∀ old ∈ c.accepted, old.id ≠ job.id) :
    ∃ later, Lives q { c with
        main := c.main ++ [.job other.admitted]
        uncounted := c.uncounted + 1
        accepted := c.accepted ++ [other.admitted] } job.id later ∧
      LifeStep job life none later := by
  by_cases own : other.id = job.id
  · obtain ⟨rfl, new⟩ := once own
    obtain rfl := lives.accepted.mp new
    refine ⟨.queued other.admitted, ⟨?_, lives.hand, lives.retries,
      lives.dead, ?_, fun _ => lives.key (.inl rfl), lives.uncancelled⟩, .accept⟩
    · rw [filterMap_append, lives.main]
      simp [Body.jobOf, Life.inMain]
    · simp
  · refine ⟨life, { lives with main := ?_, accepted := ?_ }, .stay life⟩
    · rw [filterMap_append, lives.main]
      simp [Body.jobOf, own]
    · rw [← lives.accepted]
      simp [mem_append, or_imp, forall_and, own]

end

theorem Move.lives (move : Move q c act next)
    (lives : c.Lives q job.id life) (undisturbed : c.Undisturbed job act) :
    ∃ later, next.Lives q job.id later ∧ LifeStep job life (c.handled job.id act) later := by
  cases act with
  | enqueue other =>
    cases move
    exact lives.enqueue undisturbed
  | count =>
    cases move
    exact ⟨life, { lives with }, .stay life⟩
  | publishMalformed =>
    cases move
    refine ⟨life, { lives with main := ?_ }, .stay life⟩
    rw [filterMap_append, lives.main]
    simp [Body.jobOf]
  | deliver w pos =>
    cases move with
    | deliver w here queued => exact lives.deliver here queued
  | claim w fails => exact lives.claim move
  | finish w error => exact lives.finish move
  | release w fails =>
    cases undisturbed
    exact lives.release move
  | done w => exact ⟨life, lives.doneOrAck move (.inl rfl), .stay life⟩
  | ack w => exact ⟨life, lives.doneOrAck move (.inr rfl), .stay life⟩
  | settle w fails =>
    cases undisturbed
    exact lives.settle move
  | fire pos =>
    cases move with
    | @fire _ retry waiting =>
      refine ⟨life, { lives with retries := ?_ }, .stay life⟩
      exact (filterMap_set (Retry.jobOf job.id) waiting
        { retry with due := true } rfl).trans lives.retries
  | abandon pos =>
    cases move with
    | abandon waiting notDue cancelled =>
      rw [lives.uncancelled] at cancelled
      cases cancelled
  | republish pos =>
    cases move with
    | republish waiting due => exact lives.republish waiting
  | cancel w | crash w | redeliver w => exact undisturbed.elim
  | expire key =>
    cases move
    refine ⟨life, { lives with key := ?_ }, .stay life⟩
    intro claimable listed
    exact lives.key claimable (mem_filter.mp listed).1

end

end Cluster

end Simulator
