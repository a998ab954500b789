import Mathlib.Order.Nat

/-!
# Rate limits

`ratelimit.Middleware` counts the requests of a client in Redis, under a key that
expires some seconds after the first one.  Requests of other clients have other keys.
-/

namespace Simulator

namespace RateLimit

/-- The counter in Redis and the last millisecond at which it is there -/
abbrev Entry := Option (Nat × Nat)

/-- The script of `Redis.RateLimit`.  `EXPIRE` with no seconds deletes the key. -/
def increment (entry : Entry) (now seconds : Nat) : Nat × Entry :=
  match entry.filter (now ≤ ·.2) with
  | some (n, deadline) => (n + 1, some (n + 1, deadline))
  | none => (1, if seconds = 0 then none else some (1, now + seconds * 1000))

/-- A call of Redis without an answer is an error; it may have been executed. -/
inductive Contact
  | answered
  | lost (executed : Bool)
deriving DecidableEq

structure Arrival where
  time : Nat
  contact : Contact

variable (limit : Int) (seconds : Nat)

/-- Whether `Middleware` passes the request on; it does so when Redis fails. -/
def middleware (entry : Entry) (a : Arrival) : Bool × Entry :=
  let (n, after) := increment entry a.time seconds
  match a.contact with
  | .answered => (n ≤ limit, after)
  | .lost executed => (true, if executed then after else entry)

/-- The requests with what was decided about each -/
def serve (entry : Entry) : List Arrival → List (Arrival × Bool)
  | [] => []
  | a :: arrivals =>
    let (passed, after) := middleware limit seconds entry a
    (a, passed) :: serve after arrivals

/-- A request that was counted and passed on in the window from `start` -/
def admitted (start : Nat) (x : Arrival × Bool) : Bool :=
  x.1.contact = .answered ∧ x.2 = true ∧ start ≤ x.1.time ∧ x.1.time ≤ start + seconds * 1000

/-- How many more requests can be admitted in a window -/
def allowance (start now : Nat) (entry : Entry) : Nat :=
  if start + seconds * 1000 < now then 0
  else
    match entry with
    | none => if start ≤ now then limit.toNat else 2 * limit.toNat
    | some (n, deadline) =>
      if start + seconds * 1000 ≤ deadline then limit.toNat - n
      else if start ≤ deadline then limit.toNat - n + limit.toNat
      else 2 * limit.toNat

variable {seconds} {arrivals : List Arrival} {now : Nat} (start : Nat)

theorem allowance_anti (entry : Entry) {later : Nat} (le : now ≤ later) :
    allowance limit seconds start later entry ≤ allowance limit seconds start now entry := by
  rcases entry with _ | ⟨n, deadline⟩ <;>
  · simp only [allowance]
    split_ifs <;> omega

theorem increment_le (now : Nat) (whole : seconds ≠ 0) (entry : Entry) :
    (if (increment entry now seconds).1 ≤ limit ∧ start ≤ now ∧ now ≤ start + seconds * 1000
        then 1 else 0) +
        allowance limit seconds start now (increment entry now seconds).2 ≤
      allowance limit seconds start now entry := by
  rcases entry with _ | ⟨n, deadline⟩
  · simp only [increment, Option.filter_none, whole, if_false, allowance]
    split_ifs <;> omega
  · by_cases live : now ≤ deadline
    · simp only [increment, Option.filter, live, decide_true, if_true, allowance]
      split_ifs <;> omega
    · simp only [increment, Option.filter, live, decide_false, Bool.false_eq_true, whole, if_false,
        allowance]
      split_ifs <;> omega

theorem countP_admitted_le (whole : seconds ≠ 0) (entry : Entry)
    (sorted : arrivals.Pairwise (·.time ≤ ·.time)) (later : ∀ a ∈ arrivals, now ≤ a.time) :
    (serve limit seconds entry arrivals).countP (admitted seconds start) ≤
      allowance limit seconds start now entry := by
  induction arrivals generalizing now entry with
  | nil => exact Nat.zero_le _
  | cons a arrivals ih =>
    have rest := fun entry => ih entry sorted.of_cons (List.pairwise_cons.mp sorted).1
    have charged := increment_le limit start a.time whole entry
    refine le_trans ?_ (allowance_anti limit start entry (later a List.mem_cons_self))
    simp only [serve, middleware, List.countP_cons]
    cases contact : a.contact with
    | answered =>
      have counted := rest (increment entry a.time seconds).2
      simp only [admitted, contact, true_and, decide_eq_true_eq]
      omega
    | lost executed =>
      simp only [admitted, contact, reduceCtorEq, false_and, decide_false, Bool.false_eq_true,
        if_false, Nat.add_zero]
      cases executed with
      | true => exact (rest (increment entry a.time seconds).2).trans (by omega)
      | false => exact rest entry

/-- Every window lets at most twice the limit through: it meets at most two lives of
the counter. -/
theorem admitted_le_twice_limit (whole : seconds ≠ 0)
    (sorted : arrivals.Pairwise (·.time ≤ ·.time)) :
    (serve limit seconds none arrivals).countP (admitted seconds start) ≤ 2 * limit.toNat := by
  refine (countP_admitted_le limit start whole none sorted fun a _ => Nat.zero_le a.time).trans ?_
  simp only [allowance]
  split_ifs <;> omega

theorem admitted_le_twice_limit_border :
    (serve 1 1 none [⟨1000, .answered⟩, ⟨2000, .answered⟩, ⟨2001, .answered⟩]).countP
      (admitted 1 1000) ≤ 2 :=
  admitted_le_twice_limit 1 1000 (by decide) (by decide)

end RateLimit

end Simulator
