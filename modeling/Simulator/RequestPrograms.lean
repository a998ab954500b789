import Mathlib.Logic.Basic

/-!
# Programs that act through requests

The only access of a `Program` to a state is a sequence of requests.  `Ensures` holds
whatever the replies are, `Meets` of a run from a given state.
-/

namespace Requests

/-- A computation with requests of type `O` and replies of type `R`. -/
inductive Program (O R α : Type)
  | ret (result : α)
  | ask (op : O) (rest : R → Program O R α)
  | fail (detail : String)

namespace Program

variable {O R S α β : Type}

def bind (program : Program O R α) (next : α → Program O R β) : Program O R β :=
  match program with
  | .ret result => next result
  | .ask op rest => .ask op fun reply => (rest reply).bind next
  | .fail detail => .fail detail

instance : Monad (Program O R) where
  pure := .ret
  bind := .bind

def request (op : O) (decode : R → Option α) : Program O R α :=
  .ask op fun reply =>
    match decode reply with
    | some result => .ret result
    | none => .fail "unexpected reply"

/-- `n` rounds of a loop. -/
def iterate (step : α → Program O R α) : Nat → α → Program O R α
  | 0, a => .ret a
  | n + 1, a => (step a).bind (iterate step n)

/-- Run a program; `none` is a failure of a request or of the program. -/
def run (exec : O → S → Option (R × S)) :
    Program O R α → S → Option (α × S)
  | .ret result, s => some (result, s)
  | .ask op rest, s =>
    match exec op s with
    | none => none
    | some (reply, after) => (rest reply).run exec after
  | .fail _, _ => none

section Run

variable {exec : O → S → Option (R × S)}

theorem run_bind (program : Program O R α) (next : α → Program O R β) (s : S) :
    (program.bind next).run exec s = (program.run exec s).bind fun ended =>
        (next ended.1).run exec ended.2 := by
  induction program generalizing s with
  | ret result | fail msg => rfl
  | ask op rest ih =>
    simp only [bind, run]
    cases exec op s with
    | none => rfl
    | some answered => exact ih _ _

abbrev SameResult (related : S → S → Prop) : Option (α × S) → Option (α × S) → Prop :=
  Option.Rel fun left right => left.1 = right.1 ∧ related left.2 right.2

theorem run_related {related : S → S → Prop} (respects : ∀ op s t, related s t →
      SameResult related (exec op s) (exec op t))
    (program : Program O R α) {s t : S} (start : related s t) :
    SameResult related (program.run exec s) (program.run exec t) := by
  induction program generalizing s t with
  | ret result => exact .some ⟨rfl, start⟩
  | fail msg => exact .none
  | ask op rest ih =>
    have answers := respects op s t start
    simp only [run]
    cases left : exec op s with
    | none =>
      rw [left] at answers
      cases right : exec op t with
      | none => exact .none
      | some answered => rw [right] at answers; cases answers
    | some answered =>
      rw [left] at answers
      cases right : exec op t with
      | none => rw [right] at answers; cases answers
      | some other =>
        rw [right] at answers
        obtain ⟨reply, after⟩ := answered
        obtain ⟨_, _⟩ := other
        cases answers with
        | some eq =>
          obtain ⟨rfl, stillRelated⟩ := eq
          exact ih reply stillRelated

theorem run_iterate_add (step : α → Program O R α) (k m : Nat) (a : α) (s : S) :
    (iterate step (k + m) a).run exec s = ((iterate step k a).run exec s).bind fun ended =>
        (iterate step m ended.1).run exec ended.2 := by
  induction k generalizing a s with
  | zero => rw [Nat.zero_add]; rfl
  | succ k ih =>
    rw [Nat.succ_add]
    simp only [iterate, run_bind, ih, Option.bind_assoc]

end Run

def Ensures (allowed : O → Prop) (post : α → Prop) : Program O R α → Prop
  | .ret result => post result
  | .ask op rest => allowed op ∧ ∀ reply, (rest reply).Ensures allowed post
  | .fail _ => True

section Rules

variable {allowed : O → Prop} {post : α → Prop} {after : β → Prop} {program : Program O R α}
  {next : α → Program O R β} {a : α}

theorem Ensures.bind (first : program.Ensures allowed post)
    (rest : ∀ result, post result → (next result).Ensures allowed after) :
    (program.bind next).Ensures allowed after := by
  induction program with
  | ret result => exact rest result first
  | fail msg => trivial
  | ask op continued ih =>
    exact ⟨first.1, fun reply => ih reply (first.2 reply)⟩

theorem Ensures.seq (first : program.Ensures allowed fun _ => True)
    (rest : ∀ result, (next result).Ensures allowed after) :
    (program.bind next).Ensures allowed after :=
  first.bind fun result _ => rest result

theorem Ensures.mono {weaker : α → Prop}
    (ensures : program.Ensures allowed post) (implies : ∀ result, post result → weaker result) :
    program.Ensures allowed weaker := by
  induction program with
  | ret result => exact implies result ensures
  | fail msg => trivial
  | ask op rest ih =>
    exact ⟨ensures.1, fun reply => ih reply (ensures.2 reply)⟩

variable {op : O} {decode : R → Option α}

theorem Ensures.request (permitted : allowed op) (holds : ∀ result, post result) :
    (Program.request op decode).Ensures allowed post := by
  refine ⟨permitted, fun reply => ?_⟩
  dsimp only
  cases decode reply with
  | none => trivial
  | some result => exact holds result

theorem Ensures.request_bind (permitted : allowed op)
    (rest : ∀ result, (next result).Ensures allowed after) :
    (Program.request op decode >>= next).Ensures allowed after :=
  (Ensures.request permitted fun _ => trivial).seq rest

theorem Ensures.foldlM {body : α → β → Program O R α}
    (round : ∀ a b, post a → (body a b).Ensures allowed post)
    (xs : List β) (start : post a) : (xs.foldlM body a).Ensures allowed post := by
  induction xs generalizing a with
  | nil => exact start
  | cons item xs ih =>
    rw [List.foldlM_cons]
    exact (round a item start).bind fun result holds => ih holds

theorem Ensures.iterate {step : α → Program O R α}
    (round : ∀ a, post a → (step a).Ensures allowed post) (n : Nat)
    (start : post a) : (Program.iterate step n a).Ensures allowed post := by
  induction n generalizing a with
  | zero => exact start
  | succ n ih => exact (round a start).bind fun result holds => ih holds

theorem Ensures.iterate_succ {step : α → Program O R α} {pre : α → Prop}
    (round : ∀ a, pre a → (step a).Ensures allowed post)
    (again : ∀ a, post a → pre a) (n : Nat) (start : pre a) :
    (Program.iterate step (n + 1) a).Ensures allowed post :=
  (round a start).bind fun _ holds =>
    Ensures.iterate (fun cur held => round cur (again cur held)) n holds

theorem Ensures.run {exec : O → S → Option (R × S)} (inv : S → Prop)
    (keeps : ∀ op s reply t, allowed op → inv s → exec op s = some (reply, t) → inv t)
    (ensures : program.Ensures allowed post)
    {s t : S} {result : α} (start : inv s) (ran : program.run exec s = some (result, t)) :
    inv t ∧ post result := by
  induction program generalizing s with
  | ret v =>
    cases ran
    exact ⟨start, ensures⟩
  | fail msg => cases ran
  | ask op rest ih =>
    simp only [Program.run] at ran
    cases answered : exec op s with
    | none => rw [answered] at ran; cases ran
    | some reply =>
      rw [answered] at ran
      exact ih reply.1 (ensures.2 reply.1) (keeps op s reply.1 reply.2 ensures.1 start answered) ran

end Rules

/-- A run ends as described.  `mayFail` says whether it may fail instead. -/
def Meets (exec : O → S → Option (R × S)) (mayFail : Prop)
    (post : α → S → Prop) (program : Program O R α) (s : S) : Prop :=
  match program.run exec s with
  | none => mayFail
  | some (result, t) => post result t

section MeetsRules

variable {exec : O → S → Option (R × S)} {mayFail : Prop} {post : α → S → Prop}
  {after : β → S → Prop} {s : S} {program : Program O R α} {a : α} {t : S} {result : α}
  {next : α → Program O R β}

theorem Meets.of_run (meets : program.Meets exec mayFail post s)
    (ran : program.run exec s = some (result, t)) : post result t := by
  rwa [Meets, ran] at meets

theorem meets_of_run (ends : ∀ result t, program.run exec s = some (result, t) →
      post result t) : program.Meets exec True post s := by
  unfold Meets
  split
  · trivial
  · rename_i result t ran
    exact ends result t ran

theorem Meets.exists_run (meets : program.Meets exec False post s) :
    ∃ result t, program.run exec s = some (result, t) ∧ post result t := by
  unfold Meets at meets
  split at meets
  · exact meets.elim
  · rename_i result t ran
    exact ⟨result, t, ran, meets⟩

theorem Meets.bind (first : program.Meets exec mayFail post s) (rest : ∀ result t, post result t →
      (next result).Meets exec mayFail after t) :
    (program.bind next).Meets exec mayFail after s := by
  unfold Meets at first ⊢
  rw [run_bind]
  cases ran : program.run exec s with
  | none => rwa [ran] at first
  | some ended =>
    rw [ran] at first
    exact rest ended.1 ended.2 first

variable {op : O} {decode : R → Option α}

theorem meets_request (holds : ∀ reply t v, exec op s = some (reply, t) → decode reply = some v →
      post v t) : (Program.request op decode).Meets exec True post s := by
  refine meets_of_run fun v t ran => ?_
  simp only [Program.request, Program.run] at ran
  split at ran
  · cases ran
  · rename_i reply mid answered
    cases dec : decode reply with
    | none => rw [dec] at ran; cases ran
    | some result =>
      rw [dec] at ran
      cases ran
      exact holds reply t v answered dec

theorem meets_request_bind
    (rest : ∀ reply t v, exec op s = some (reply, t) → decode reply = some v →
      (next v).Meets exec True after t) :
    (Program.request op decode >>= next).Meets exec True after s :=
  Meets.bind (meets_request rest) fun _ _ continued => continued

theorem meets_of_run_eq (ran : program.run exec s = some (result, t)) (holds : post result t) :
    program.Meets exec mayFail post s := by
  unfold Meets
  rw [ran]
  exact holds

theorem meets_bind_of_run (ran : program.run exec s = some (result, t))
    (rest : (next result).Meets exec mayFail after t) :
    (program.bind next).Meets exec mayFail after s := by
  unfold Meets
  rw [run_bind, ran]
  exact rest

theorem Meets.mono {weaker : α → S → Prop} (meets : program.Meets exec mayFail post s)
    (implies : ∀ result t, post result t → weaker result t) :
    program.Meets exec mayFail weaker s := by
  unfold Meets at meets ⊢
  split at meets
  · exact meets
  · exact implies _ _ meets

theorem meets_foldlM {body : α → β → Program O R α} {xs : List β}
    (round : ∀ item ∈ xs, ∀ a t, post a t →
      (body a item).Meets exec mayFail post t) (start : post a s) :
    (xs.foldlM body a).Meets exec mayFail post s := by
  induction xs generalizing a s with
  | nil => exact start
  | cons item xs ih =>
    rw [List.foldlM_cons]
    refine (round item List.mem_cons_self a s start).bind ?_
    intro result t holds
    exact ih (fun other mem => round other (List.mem_cons_of_mem item mem)) holds

theorem meets_iterate {step : α → Program O R α}
    (round : ∀ a t, post a t → (step a).Meets exec mayFail post t) (n : Nat)
    (start : post a s) : (iterate step n a).Meets exec mayFail post s := by
  induction n generalizing a s with
  | zero => exact start
  | succ n ih =>
    exact (round a s start).bind fun result t holds => ih holds

theorem meets_iterate_succ {step : α → Program O R α} (pre : α → S → Prop)
    (round : ∀ a t, pre a t → (step a).Meets exec mayFail post t)
    (again : ∀ a t, post a t → pre a t) (n : Nat) (start : pre a s) :
    (iterate step (n + 1) a).Meets exec mayFail post s :=
  (round a s start).bind fun _ _ holds =>
    meets_iterate (fun cur t held => round cur t (again cur t held)) n holds

end MeetsRules

end Program

end Requests
