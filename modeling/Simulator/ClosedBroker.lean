import Mathlib.Logic.Function.Basic
import Simulator.TransitionRuns

/-!
# The broker in memory after `Close`

`Publish` looks at `closed`, takes its queue and sends, each under a hold of the mutex
of its own or none.
-/

namespace Simulator

open Transition Option Function

/-- `memQueue`: the bodies in the channel, and whether `done` is closed. -/
structure MemQueue where
  ch : List (List UInt8)
  done : Bool
deriving DecidableEq

namespace MemQueue

def capacity : Nat := 1024

/-- A queue as `getQueue` makes it. -/
def fresh : MemQueue := ⟨[], false⟩

end MemQueue

namespace Memory

/-- Where a call is.  `Publish` is about to look at `closed`, about to take its
queue, or in its `select`; `Consume` is about to take its queue, in its
`select`, or in the handler.  `late` notes that the call was made after
`Close`. -/
inductive Call
  | checking (queue : String) (body : List UInt8)
  | looking (queue : String) (body : List UInt8)
  | sending (queue : String) (body : List UInt8)
  | finding (queue : String) (late : Bool)
  | receiving (queue : String) (late : Bool)
  | handling (queue : String) (late : Bool) (body : List UInt8)

/-- The moves: the calls, their locked steps, the cases of the two `select`
statements, and the return of a handler.  A handler that requeues its message
makes a call of `Publish`. -/
inductive Move
  | publish (t : Nat) (queue : String) (body : List UInt8)
  | consume (t : Nat) (queue : String)
  | close
  | advance (t : Nat)
  | send (t : Nat)
  | receive (t : Nat)
  | errClosed (t : Nat)
  | cancelled (t : Nat)
  | handled (t : Nat)

end Memory

/-- `Memory` with the calls in flight.  `lateSend` notes that a `Publish` has
returned without an error after it has sent its body to a closed broker. -/
structure Memory where
  queues : String → Option MemQueue
  closed : Bool
  calls : Nat → Option Memory.Call
  lateSend : Bool

namespace Memory

/-- `NewMemory` -/
def new : Memory :=
  ⟨fun _ => none, false, fun _ => none, false⟩

def goTo (m : Memory) (t : Nat) (call : Option Call) : Memory :=
  { m with calls := Function.update m.calls t call }

def setQueue (m : Memory) (name : String) (q : MemQueue) : Memory :=
  { m with queues := Function.update m.queues name (some q) }

def getQueue (m : Memory) (name : String) : Memory :=
  match m.queues name with
  | some _ => m
  | none => m.setQueue name .fresh

def close (m : Memory) : Memory :=
  if m.closed then m
  else { m with
    closed := true
    queues := fun name => (m.queues name).map fun q => { q with done := true } }

/-- The queue of a call in a `select`. -/
def selects (m : Memory) (t : Nat) : Option MemQueue :=
  match m.calls t with
  | some (.sending queue _) => m.queues queue
  | some (.receiving queue _) => m.queues queue
  | _ => none

def step (m : Memory) : Move → Option Memory
  | .publish t queue body =>
    if m.calls t = none then some (m.goTo t (some (.checking queue body))) else none
  | .consume t queue =>
    if m.calls t = none then some (m.goTo t (some (.finding queue m.closed))) else none
  | .close => some m.close
  | .advance t =>
    match m.calls t with
    | some (.checking queue body) =>
      if m.closed then some (m.goTo t none) else some (m.goTo t (some (.looking queue body)))
    | some (.looking queue body) => some ((m.getQueue queue).goTo t (some (.sending queue body)))
    | some (.finding queue late) => some ((m.getQueue queue).goTo t (some (.receiving queue late)))
    | _ => none
  | .send t =>
    match m.calls t, m.selects t with
    | some (.sending queue body), some q =>
      if q.ch.length < MemQueue.capacity then
        some { (m.setQueue queue { q with ch := q.ch ++ [body] }).goTo t none with
          lateSend := m.lateSend || m.closed }
      else none
    | _, _ => none
  | .receive t =>
    match m.calls t, m.selects t with
    | some (.receiving queue late), some ⟨body :: rest, done⟩ =>
      some ((m.setQueue queue ⟨rest, done⟩).goTo t (some (.handling queue late body)))
    | _, _ => none
  | .errClosed t =>
    match m.selects t with
    | some ⟨_, true⟩ => some (m.goTo t none)
    | _ => none
  | .cancelled t => if (m.selects t).isSome then some (m.goTo t none) else none
  | .handled t =>
    match m.calls t with
    | some (.handling queue late _) => some (m.goTo t (some (.receiving queue late)))
    | _ => none

/-- No `Publish` has sent after `Close`, and every `Consume` called after
`Close` that waits can return `ErrClosed`. -/
def StaysClosed (m : Memory) : Prop :=
  m.lateSend = false ∧ ∀ t queue, m.calls t = some (.receiving queue true) →
    (m.step (.errClosed t)).isSome = true

/-- `Close` is called when no `Publish` is past its look at `closed` and every
queue that a `Consume` is about to take exists, and after `Close` there is a
`Consume` only for queues that exist. -/
def Orderly (m : Memory) : Move → Prop
  | .close => (∀ t queue body, m.calls t ≠ some (.looking queue body) ∧
        m.calls t ≠ some (.sending queue body)) ∧
      ∀ t queue late, m.calls t = some (.finding queue late) → (m.queues queue).isSome = true
  | .consume _ queue => m.closed = true → (m.queues queue).isSome = true
  | _ => True

def Call.Fits (m : Memory) : Call → Prop
  | .checking _ _ => True
  | .looking _ _ => m.closed = false
  | .sending _ _ => m.closed = false
  | .finding queue late =>
    (late = true → m.closed = true) ∧ (m.closed = true → (m.queues queue).isSome = true)
  | .receiving queue late => (late = true → m.closed = true) ∧ (m.queues queue).isSome = true
  | .handling queue late _ => (late = true → m.closed = true) ∧ (m.queues queue).isSome = true

structure Tight (m : Memory) : Prop where
  quiet : m.lateSend = false
  fits : ∀ t call, m.calls t = some call → call.Fits m
  done : m.closed = true → ∀ name q, m.queues name = some q → q.done = true

variable {m next : Memory}

@[simp]
theorem calls_goTo (m : Memory) (t : Nat) (call : Option Call) :
    (m.goTo t call).calls = update m.calls t call :=
  rfl

@[simp]
theorem queues_setQueue (m : Memory) (name : String) (q : MemQueue) :
    (m.setQueue name q).queues = update m.queues name (some q) :=
  rfl

variable {call : Call} {name : String}

theorem Call.Fits.mono (fits : call.Fits m) (closed : next.closed = m.closed)
    (grows : ∀ name, (m.queues name).isSome = true → (next.queues name).isSome = true) :
    call.Fits next := by
  cases call with
  | checking => trivial
  | looking | sending => exact closed.trans fits
  | finding queue late =>
    unfold Call.Fits at fits ⊢
    rw [closed]
    exact ⟨fits.1, fun isClosed => grows queue (fits.2 isClosed)⟩
  | receiving queue late | handling queue late body =>
    unfold Call.Fits at fits ⊢
    rw [closed]
    exact ⟨fits.1, grows queue fits.2⟩

theorem Tight.goTo (tight : m.Tight) (next : Memory) (closed : next.closed = m.closed)
    (calls : next.calls = m.calls) (quiet : next.lateSend = false)
    (grows : ∀ name, (m.queues name).isSome = true → (next.queues name).isSome = true)
    (done : next.closed = true → ∀ name q, next.queues name = some q → q.done = true)
    (t : Nat) {call : Option Call} (own : ∀ c, call = some c → c.Fits next) :
    (next.goTo t call).Tight where
  quiet := quiet
  fits := by
    intro u c held
    have fits : c.Fits next := by
      by_cases eq : u = t
      · subst eq
        rw [calls_goTo, update_self] at held
        exact own c held
      · rw [calls_goTo, update_of_ne eq, calls] at held
        exact (tight.fits u c held).mono closed grows
    exact fits
  done := done

theorem Tight.goesOn (tight : m.Tight) (t : Nat) {call : Option Call}
    (own : ∀ c, call = some c → c.Fits m) : (m.goTo t call).Tight :=
  tight.goTo m rfl rfl tight.quiet (fun _ isSome => isSome) tight.done t own

theorem isSome_setQueue (name : String) (q : MemQueue) {other : String}
    (isSome : (m.queues other).isSome = true) :
    ((m.setQueue name q).queues other).isSome = true := by
  by_cases eq : other = name
  · subst eq
    simp
  · simpa [eq] using isSome

theorem Tight.setQueue (tight : m.Tight) {q : MemQueue}
    (held : m.queues name = some q) (ch : List (List UInt8)) :
    m.closed = true → ∀ other changed,
      (m.setQueue name { q with ch := ch }).queues other = some changed → changed.done = true := by
  intro closed other changed hit
  by_cases eq : other = name
  · subst eq
    rw [queues_setQueue, update_self, some.injEq] at hit
    rw [← hit]
    exact tight.done closed other q held
  · rw [queues_setQueue, update_of_ne eq] at hit
    exact tight.done closed other changed hit

theorem getQueue_cases (m : Memory) (name : String) :
    ((m.queues name).isSome = true ∧ m.getQueue name = m) ∨
      (m.queues name = none ∧ m.getQueue name = m.setQueue name .fresh) := by
  unfold getQueue
  cases held : m.queues name with
  | none => exact .inr ⟨rfl, rfl⟩
  | some q => exact .inl ⟨rfl, rfl⟩

theorem Tight.getQueue (tight : m.Tight)
    (known : m.closed = true → (m.queues name).isSome = true) (t : Nat)
    (own : ∀ after : Memory, after.closed = m.closed →
      (after.queues name).isSome = true → call.Fits after) :
    ((m.getQueue name).goTo t (some call)).Tight := by
  rcases m.getQueue_cases name with ⟨isSome, eq⟩ | ⟨missing, made⟩
  · rw [eq]
    refine tight.goesOn t ?_
    rintro c ⟨⟩
    exact own m rfl isSome
  · rw [made]
    have isOpen : m.closed = false := by
      rw [missing] at known
      simpa using known
    refine tight.goTo (m.setQueue name .fresh) rfl rfl tight.quiet
      (fun _ => isSome_setQueue _ _) ?_ t ?_
    · intro closed
      exact absurd (isOpen.symm.trans closed) Bool.false_ne_true
    · rintro c ⟨⟩
      exact own _ rfl (by simp)

theorem Tight.close (tight : m.Tight) (orderly : m.Orderly .close) : m.close.Tight := by
  unfold Memory.close
  split
  · exact tight
  · refine ⟨tight.quiet, fun t call held => ?_, fun _ name q hit => ?_⟩
    · have fits := tight.fits t call held
      cases call with
      | checking => trivial
      | looking queue body => exact absurd held (orderly.1 t queue body).1
      | sending queue body => exact absurd held (orderly.1 t queue body).2
      | finding queue late =>
        exact ⟨fun _ => rfl, fun _ => by
          simpa using orderly.2 t queue late held⟩
      | receiving queue late | handling queue late body =>
        exact ⟨fun _ => rfl, by simpa using fits.2⟩
    · obtain ⟨old, _, rfl⟩ := map_eq_some_iff.mp hit
      rfl

theorem tight_step {move : Move} (tight : m.Tight) (orderly : m.Orderly move)
    (step : m.step move = some next) : next.Tight := by
  revert step
  -- one case for each branch of `step` that allows the move
  fun_cases m.step move <;> rintro ⟨⟩
  · refine tight.goesOn _ ?_
    rintro c ⟨⟩
    trivial
  · refine tight.goesOn _ ?_
    rintro c ⟨⟩
    exact ⟨id, orderly⟩
  · exact tight.close orderly
  · exact tight.goesOn _ nofun
  · refine tight.goesOn _ ?_
    rintro c ⟨⟩
    exact Bool.eq_false_iff.mpr ‹_›
  · rename_i t queue body held
    have isOpen : m.closed = false := tight.fits t _ held
    refine tight.getQueue (fun closed => ?_) t fun after eq _ => eq.trans isOpen
    exact absurd (isOpen.symm.trans closed) Bool.false_ne_true
  · rename_i t queue late held
    obtain ⟨lateClosed, known⟩ := tight.fits t _ held
    refine tight.getQueue known t fun after eq isSome => ⟨fun late => ?_, isSome⟩
    exact eq.trans (lateClosed late)
  · rename_i t queue body q selected held _
    have isOpen : m.closed = false := tight.fits t _ held
    have quiet : (m.lateSend || m.closed) = false := by rw [tight.quiet, isOpen]; rfl
    rw [selects, held] at selected
    exact tight.goTo { m.setQueue queue { q with ch := q.ch ++ [body] } with
        lateSend := m.lateSend || m.closed } rfl rfl quiet
      (fun _ => isSome_setQueue _ _) (tight.setQueue selected _) t nofun
  · rename_i t queue late body rest done selected held
    rw [selects, held] at selected
    obtain ⟨lateClosed, isSome⟩ := tight.fits t _ held
    refine tight.goTo (m.setQueue queue ⟨rest, done⟩) rfl rfl tight.quiet
      (fun _ => isSome_setQueue _ _) (tight.setQueue selected _) t ?_
    rintro c ⟨⟩
    exact ⟨lateClosed, isSome_setQueue _ _ isSome⟩
  · exact tight.goesOn _ nofun
  · exact tight.goesOn _ nofun
  · rename_i t queue late body held
    have fits := tight.fits t _ held
    refine tight.goesOn t ?_
    rintro c ⟨⟩
    exact fits

theorem tight_of_reachable (reachable : Reachable step Orderly new m) : m.Tight := by
  induction reachable with
  | start => exact ⟨rfl, by rintro t call ⟨⟩, by rintro ⟨⟩⟩
  | step old orderly stepped ih => exact tight_step ih orderly stepped

theorem stays_closed (reachable : Reachable step Orderly new m) : m.StaysClosed := by
  have tight := tight_of_reachable reachable
  refine ⟨tight.quiet, fun t queue held => ?_⟩
  obtain ⟨lateClosed, isSome⟩ := tight.fits t _ held
  obtain ⟨⟨ch, done⟩, hit⟩ := isSome_iff_exists.mp isSome
  have isDone : done = true := tight.done (lateClosed rfl) queue _ hit
  subst isDone
  simp [step, selects, held, hit]

theorem stays_closed_published :
    ∃ m, last step [.publish 0 "q" [1], .advance 0, .advance 0, .send 0, .close,
        .consume 1 "q", .advance 1] new = some m ∧ m.closed = true ∧
      m.calls 1 = some (.receiving "q" true) ∧ m.StaysClosed :=
  ⟨_, rfl, rfl, rfl, stays_closed (Reachable.start
    |>.take (.publish 0 "q" [1]) trivial rfl
    |>.take (.advance 0) trivial rfl
    |>.take (.advance 0) trivial rfl
    |>.take (.send 0) trivial rfl
    |>.take .close ⟨fun
      | 0, _, _ => ⟨nofun, nofun⟩
      | _ + 1, _, _ => ⟨nofun, nofun⟩, fun
      | 0, _, _ => nofun
      | _ + 1, _, _ => nofun⟩ rfl
    |>.take (.consume 1 "q") (fun _ => rfl) rfl
    |>.take (.advance 1) trivial rfl)⟩

theorem reopened :
    (∃ m, last step [.publish 0 "q" [1], .advance 0, .close, .advance 0, .send 0] new = some m ∧
      m.lateSend = true) ∧ ∃ m, last step [.close, .consume 0 "q", .advance 0] new = some m ∧
      m.calls 0 = some (.receiving "q" true) ∧ m.step (.errClosed 0) = none :=
  ⟨⟨_, rfl, rfl⟩, _, rfl, rfl, rfl⟩

end Memory

end Simulator
