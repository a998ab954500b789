import Mathlib
import Simulator.TransitionRuns

/-!
# Consuming from RabbitMQ across outages

`RabbitMQ.Consume` reconnects if `consumeOnce` returned `errChannelClosed`, and returns
every other error.
-/

namespace Simulator

open Transition

/-- What `Consume` and `consumeOnce` can return. -/
inductive ConsumeError
  | context
  | channelClosed
  | operation (text : String)
deriving DecidableEq

/-- `errors.Is(err, errChannelClosed)`.  The errors of the operations wrap
those of the library. -/
def ConsumeError.isChannelClosed : ConsumeError → Bool
  | .channelClosed => true
  | _ => false

/-- Where `Consume` is: `check` is the head of its loop, `declare` to `handling`
are in `consumeOnce`, `failed` is after it. -/
inductive ConsumePoint
  | check
  | declare
  | qos
  | subscribe
  | receiving
  | handling
  | failed (err : ConsumeError)
  | waiting
  | reconnecting
  | returned (err : ConsumeError)
deriving DecidableEq

/-- A call of `Consume`.  `current` tells whether the channel of the broker is
open, `captured` whether the one that `consumeOnce` works on is.  The backoff is
in seconds. -/
structure Consumer where
  queue : String
  point : ConsumePoint
  current : Bool
  captured : Bool
  cancelled : Bool
  backoff : Nat
deriving DecidableEq

inductive ConsumeMove
  | loseConnection
  | publishReconnects (succeeds : Bool)
  | cancel
  | check
  | operate (detail : String)
  | deliver
  | handled
  | closeDelivery
  | stopReceiving
  | judge
  | elapse
  | stopWaiting
  | reconnect (succeeds : Bool)

namespace Consumer

/-- A call of `Consume` on a broker that is connected. -/
def start (queue : String) : Consumer :=
  ⟨queue, .check, true, true, false, 1⟩

def operation (c : Consumer) : Option (ConsumePoint × String) :=
  match c.point with
  | .declare => some (.qos, "broker: declare " ++ c.queue.quote ++ ": ")
  | .qos => some (.subscribe, "broker: qos: ")
  | .subscribe =>
    some (.receiving, "broker: consume " ++ c.queue.quote ++ ": ")
  | _ => none

def nextBackoff (backoff : Nat) (succeeds : Bool) : Nat :=
  if succeeds then 1
  else if backoff < 30 then backoff * 2
  else backoff

def step (c : Consumer) : ConsumeMove → Option Consumer
  | .loseConnection => some { c with current := false, captured := false }
  | .publishReconnects succeeds =>
    some { c with current := succeeds, captured := false }
  | .cancel => some { c with cancelled := true }
  | .check =>
    match c.point with
    | .check =>
      if c.cancelled then some { c with point := .returned .context }
      else some { c with point := .declare, captured := c.current }
    | _ => none
  | .operate detail =>
    match c.operation with
    | some (next, text) =>
      if c.captured then some { c with point := next }
      else some { c with point := .failed (.operation (text ++ detail)) }
    | none => none
  | .deliver =>
    match c.point with
    | .receiving => some { c with point := .handling }
    | _ => none
  | .handled =>
    match c.point with
    | .handling => some { c with point := .receiving }
    | _ => none
  | .closeDelivery =>
    match c.point, c.captured with
    | .receiving, false => some { c with point := .failed .channelClosed }
    | _, _ => none
  | .stopReceiving =>
    match c.point, c.cancelled with
    | .receiving, true => some { c with point := .failed .context }
    | _, _ => none
  | .judge =>
    match c.point with
    | .failed err =>
      if c.cancelled then some { c with point := .returned .context }
      else if err.isChannelClosed then some { c with point := .waiting }
      else some { c with point := .returned err }
    | _ => none
  | .elapse =>
    match c.point with
    | .waiting => some { c with point := .reconnecting }
    | _ => none
  | .stopWaiting =>
    match c.point, c.cancelled with
    | .waiting, true => some { c with point := .returned .context }
    | _, _ => none
  | .reconnect succeeds =>
    match c.point with
    | .reconnecting =>
      some { c with
        point := .check
        current := succeeds
        captured := false
        backoff := nextBackoff c.backoff succeeds }
    | _ => none

def OpenChannels (c : Consumer) : ConsumeMove → Prop
  | .operate _ => c.captured = true ∨ c.cancelled = true
  | _ => True

instance (c : Consumer) (m : ConsumeMove) : Decidable (c.OpenChannels m) :=
  match m with
  | .operate _ =>
    inferInstanceAs (Decidable (c.captured = true ∨ c.cancelled = true))
  | .loseConnection | .publishReconnects _ | .cancel | .check | .deliver
  | .handled | .closeDelivery | .stopReceiving | .judge | .elapse
  | .stopWaiting | .reconnect _ => inferInstanceAs (Decidable True)

inductive Moves (c : Consumer) : ConsumeMove → Consumer → Prop
  | lose : Moves c .loseConnection { c with current := false, captured := false }
  | publish {succeeds : Bool} : Moves c (.publishReconnects succeeds)
        { c with current := succeeds, captured := false }
  | cancel : Moves c .cancel { c with cancelled := true }
  | leave (here : c.point = .check) (cancelled : c.cancelled = true) :
      Moves c .check { c with point := .returned .context }
  | enter (here : c.point = .check) :
      Moves c .check { c with point := .declare, captured := c.current }
  | operate {target : ConsumePoint} {text detail : String}
      (operates : c.operation = some (target, text)) (opened : c.captured = true) :
      Moves c (.operate detail) { c with point := target }
  | fail {target : ConsumePoint} {text detail : String}
      (operates : c.operation = some (target, text)) (closed : c.captured = false) :
      Moves c (.operate detail) { c with point := .failed (.operation (text ++ detail)) }
  | deliver (here : c.point = .receiving) : Moves c .deliver { c with point := .handling }
  | handled (here : c.point = .handling) : Moves c .handled { c with point := .receiving }
  | closeDelivery (here : c.point = .receiving) (closed : c.captured = false) :
      Moves c .closeDelivery { c with point := .failed .channelClosed }
  | stopReceiving (here : c.point = .receiving) (cancelled : c.cancelled = true) :
      Moves c .stopReceiving { c with point := .failed .context }
  | obey {err : ConsumeError} (here : c.point = .failed err) (cancelled : c.cancelled = true) :
      Moves c .judge { c with point := .returned .context }
  | recover {err : ConsumeError} (here : c.point = .failed err)
      (closed : err.isChannelClosed = true) : Moves c .judge { c with point := .waiting }
  | giveUp {err : ConsumeError} (here : c.point = .failed err) (notCancelled : c.cancelled = false)
      (otherwise : err.isChannelClosed = false) : Moves c .judge { c with point := .returned err }
  | elapse (here : c.point = .waiting) : Moves c .elapse { c with point := .reconnecting }
  | stopWaiting (here : c.point = .waiting) (cancelled : c.cancelled = true) :
      Moves c .stopWaiting { c with point := .returned .context }
  | reconnect {succeeds : Bool} (here : c.point = .reconnecting) : Moves c (.reconnect succeeds)
        { c with
          point := .check
          current := succeeds
          captured := false
          backoff := nextBackoff c.backoff succeeds }

theorem moves_of_step {c next : Consumer} {m : ConsumeMove}
    (stepped : c.step m = some next) : c.Moves m next := by
  revert stepped
  -- one case for each branch of `step` that makes the move
  fun_cases step c m <;> rintro ⟨⟩
  · exact .lose
  · exact .publish
  · exact .cancel
  · exact .leave ‹_› ‹_›
  · exact .enter ‹_›
  · exact .operate ‹_› ‹_›
  · exact .fail ‹_› (Bool.eq_false_iff.mpr ‹_›)
  · exact .deliver ‹_›
  · exact .handled ‹_›
  · exact .closeDelivery ‹_› ‹_›
  · exact .stopReceiving ‹_› ‹_›
  · exact .obey ‹_› ‹_›
  · exact .recover ‹_› ‹_›
  · rename_i notCancelled otherwise
    exact .giveUp ‹_› (Bool.eq_false_iff.mpr notCancelled) (Bool.eq_false_iff.mpr otherwise)
  · exact .elapse ‹_›
  · exact .stopWaiting ‹_› ‹_›
  · exact .reconnect ‹_›

/-- `consumeOnce` has failed for want of a channel, or the context is
cancelled. -/
def Excused (c : Consumer) : Prop :=
  match c.point with
  | .failed err => err.isChannelClosed = true ∨ c.cancelled = true
  | .returned _ => c.cancelled = true
  | _ => True

def Doubled (backoff : Nat) : Prop :=
  ∃ exponent ≤ 5, backoff = 2 ^ exponent

variable {backoff : Nat}

theorem Doubled.next (doubled : Doubled backoff)
    (succeeds : Bool) : Doubled (nextBackoff backoff succeeds) := by
  obtain ⟨exponent, bound, rfl⟩ := doubled
  unfold nextBackoff
  split
  · exact ⟨0, by omega, rfl⟩
  · split
    · rename_i below
      have notFive : exponent ≠ 5 := by
        rintro rfl
        omega
      exact ⟨exponent + 1, by omega, (Nat.pow_succ ..).symm⟩
    · exact ⟨exponent, bound, rfl⟩

theorem Doubled.le (doubled : Doubled backoff) : backoff ≤ 32 := by
  obtain ⟨exponent, bound, rfl⟩ := doubled
  exact Nat.pow_le_pow_right (by omega) bound

variable {c next : Consumer} {m : ConsumeMove}

theorem operation_cases {target : ConsumePoint} {text : String}
    (operates : c.operation = some (target, text)) :
    target = .qos ∨ target = .subscribe ∨ target = .receiving := by
  unfold operation at operates
  split at operates <;> cases operates <;> simp

theorem doubled_step (doubled : Doubled c.backoff)
    (moved : c.Moves m next) : Doubled next.backoff := by
  cases moved with
  | reconnect here => exact doubled.next _
  | _ => exact doubled

theorem excused_step (excused : c.Excused) (opened : c.OpenChannels m)
    (moved : c.Moves m next) : next.Excused := by
  cases moved with
  | lose | publish => exact excused
  | cancel =>
    unfold Excused
    split
    · exact .inr rfl
    · rfl
    · trivial
  | operate operates hit =>
    rcases operation_cases operates with rfl | rfl | rfl <;> trivial
  | fail operates closed =>
    rw [OpenChannels, closed] at opened
    exact .inr (opened.resolve_left Bool.false_ne_true)
  | leave here cancelled | obey here cancelled | stopWaiting here cancelled => exact cancelled
  | stopReceiving here cancelled => exact .inr cancelled
  | closeDelivery here closed => exact .inl rfl
  | giveUp here notCancelled otherwise =>
    rw [Excused, here] at excused
    simp [notCancelled, otherwise] at excused
  | _ => trivial

theorem returns_of_closed (operates : c.operation.isSome = true)
    (closed : c.captured = false) (notCancelled : c.cancelled = false) :
    ∃ err last, Reachable step (fun _ _ => True) c last ∧
      last.point = .returned err ∧ last.cancelled = false := by
  obtain ⟨⟨target, text⟩, hit⟩ := Option.isSome_iff_exists.mp operates
  have fails : c.step (.operate "closed") =
      some { c with point := .failed (.operation (text ++ "closed")) } := by
    simp [step, hit, closed]
  have returns : ({ c with
      point := .failed (.operation (text ++ "closed")) } : Consumer).step .judge = some { c with
          point := .returned (.operation (text ++ "closed")) } := by
    simp [step, notCancelled, ConsumeError.isChannelClosed]
  exact ⟨_, _, (Reachable.start.take _ trivial fails).take _ trivial returns, rfl, notCancelled⟩

variable {queue : String}

theorem doubled_of_reachable (reachable : Reachable step (fun _ _ => True) (start queue) c) :
    Doubled c.backoff := by
  induction reachable with
  | start => exact ⟨0, by omega, rfl⟩
  | step old _ stepped ih => exact doubled_step ih (moves_of_step stepped)

theorem excused_of_reachable (reachable : Reachable step OpenChannels (start queue) c) :
    c.Excused := by
  induction reachable with
  | start => trivial
  | step old opened stepped ih =>
    exact excused_step ih opened (moves_of_step stepped)

theorem consume_outlives_outages (queue : String) :
    (∀ c, Reachable step (fun _ _ => True) (start queue) c → c.backoff ≤ 32) ∧
    (∀ c, Reachable step OpenChannels (start queue) c →
      ∀ err, c.point = .returned err → c.cancelled = true) ∧
    ∀ c, Reachable step (fun _ _ => True) (start queue) c →
      c.operation.isSome = true → c.captured = false → c.cancelled = false →
      ∃ err last, Reachable step (fun _ _ => True) c last ∧
        last.point = .returned err ∧ last.cancelled = false := by
  refine ⟨?_, ?_, ?_⟩
  · intro c reachable
    exact (doubled_of_reachable reachable).le
  · intro c reachable err ret
    have excused := excused_of_reachable reachable
    rw [Excused, ret] at excused
    exact excused
  · intro c _ operates closed notCancelled
    exact returns_of_closed operates closed notCancelled

def recovery : List ConsumeMove :=
  [.check, .operate "", .operate "", .operate "", .deliver, .loseConnection,
    .handled, .closeDelivery, .judge, .elapse, .reconnect true, .check,
    .operate "", .operate "", .operate "", .cancel, .stopReceiving, .judge]

theorem consume_outlives_outages_recovery :
    ∃ c, run step (fun c m => decide (c.OpenChannels m)) recovery (start "jobs") = some c ∧
      c.backoff ≤ 32 ∧ c.point = .returned .context ∧ c.cancelled = true := by
  have reached : run step (fun c m => decide (c.OpenChannels m)) recovery
      (start "jobs") = some _ := rfl
  have reachable := (reachable_of_run reached).mono fun _ _ ok => of_decide_eq_true ok
  have anyhow := reachable.mono fun _ _ _ => trivial
  obtain ⟨delay, excused, _⟩ := consume_outlives_outages "jobs"
  exact ⟨_, reached, delay _ anyhow, rfl, excused _ reachable _ rfl⟩

def failedReconnect : List ConsumeMove :=
  [.check, .operate "", .operate "", .operate "", .loseConnection,
    .closeDelivery, .judge, .elapse, .reconnect false, .check,
    .operate "Exception (504) Reason: \"channel/connection is not open\"", .judge]

theorem consume_gives_up :
    ∃ c, run step (fun _ _ => true) failedReconnect (start "jobs") = some c ∧ c.cancelled = false ∧
      c.point = .returned (.operation ("broker: declare " ++ "jobs".quote ++ ": " ++
        "Exception (504) Reason: \"channel/connection is not open\"")) :=
  ⟨_, rfl, rfl, rfl⟩

end Consumer

end Simulator
