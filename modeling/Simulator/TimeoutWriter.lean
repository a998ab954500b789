import Simulator.TransitionRuns
import Mathlib.Tactic.Common

/-!
# The request timeout

The handler looks at `timedOut` and then sets `wrote`, the callback looks at `wrote` and
then sets `timedOut`.
-/

namespace Simulator

open Transition

namespace TimeoutWriter

inductive Call
  | writeHeader (status : Int)
  | write (body : String)
deriving DecidableEq

/-- Where the handler is in a call: after the load of `timedOut`, or after
the store to `wrote`. -/
inductive HandlerPoint
  | idle
  | loaded (call : Call)
  | stored (call : Call)
  | returned
deriving DecidableEq

def HandlerPoint.isLoaded : HandlerPoint → Bool
  | .loaded _ => true
  | _ => false

/-- Where the callback of the context is.  `AfterFunc` starts it when the
context is done, unless `stop` was called before. -/
inductive CallbackPoint
  | waiting
  | started
  | loaded
  | stored
  | contentType
  | status
  | finished
  | skipped
deriving DecidableEq

inductive Output
  | handler (call : Call)
  | timeout (call : Call)
deriving DecidableEq

structure State where
  timedOut : Bool
  wrote : Bool
  handler : HandlerPoint
  callback : CallbackPoint
  contentType : Option String
  output : List Output
deriving DecidableEq

def start : State :=
  ⟨false, false, .idle, .waiting, none, []⟩

inductive Action
  | call (call : Call)
  | handler
  | returns
  | contextDone
  | callback
deriving DecidableEq

def timeoutBody : String :=
  "\x7b\"error\":\x7b\"code\":\"timeout\",\"message\":\"request timed out\"\x7d\x7d"

def step (s : State) : Action → Option State
  | .call call =>
    if s.handler = .idle then
      if s.timedOut then some s else some { s with handler := .loaded call }
    else none
  | .handler =>
    match s.handler with
    | .loaded call => some { s with wrote := true, handler := .stored call }
    | .stored call => some { s with handler := .idle, output := s.output ++ [.handler call] }
    | _ => none
  | .returns =>
    if s.handler = .idle then
      -- the deferred `stop` comes before `cancel`
      some { s with
        handler := .returned
        callback := if s.callback = .waiting then .skipped else s.callback }
    else none
  | .contextDone =>
    if s.callback = .waiting then some { s with callback := .started } else none
  | .callback =>
    match s.callback with
    | .started => some { s with callback := if s.wrote then .skipped else .loaded }
    | .loaded => some { s with timedOut := true, callback := .stored }
    | .stored => some { s with contentType := some "application/json", callback := .contentType }
    | .contentType =>
      some { s with callback := .status, output := s.output ++ [.timeout (.writeHeader 503)] }
    | .status =>
      some { s with callback := .finished, output := s.output ++ [.timeout (.write timeoutBody)] }
    | _ => none

def apart (s : State) : Action → Bool
  | .call _ => s.callback ≠ .loaded
  | .callback => !(s.callback = .started && s.handler.isLoaded)
  | _ => true

def Answers (s : State) : Prop :=
  s.callback ∈ [.loaded, .stored, .contentType, .status, .finished]

structure Decided (s : State) : Prop where
  handlerWrote : ∀ call, .handler call ∈ s.output → s.wrote = true
  stored : ∀ call, s.handler = .stored call → s.wrote = true
  timeoutWrote : ∀ call, .timeout call ∈ s.output → Answers s
  timedOut : Answers s → s.callback ≠ .loaded → s.timedOut = true
  exclusive : Answers s → s.wrote = false ∧ s.handler.isLoaded = false

variable {s next : State}

theorem decided_of_silent (silent : ¬ Answers next) (unanswered : ∀ call, .timeout call ∉ next.output)
    (handlerWrote : ∀ call, .handler call ∈ next.output → next.wrote = true)
    (stored : ∀ call, next.handler = .stored call → next.wrote = true) : Decided next :=
  ⟨handlerWrote, stored, fun call mem => (unanswered call mem).elim,
    fun answers => (silent answers).elim, fun answers => (silent answers).elim⟩

theorem Decided.unanswered (decided : Decided s) (early : s.callback = .waiting ∨ s.callback = .started)
    (call : Call) : .timeout call ∉ s.output := by
  intro mem
  have answers := decided.timeoutWrote call mem
  rcases early with here | here
  · simp [Answers, here] at answers
  · simp [Answers, here] at answers

theorem Decided.goesOn (decided : Decided s) (answers : Answers s) (past : s.callback ≠ .loaded)
    (point : CallbackPoint) (contentType : Option String) (call : Call)
    (later : point ∈ [.loaded, .stored, .contentType, .status, .finished]) (added : List Output)
    (own : added ⊆ [.timeout call]) :
    Decided { s with callback := point, contentType := contentType, output := s.output ++ added } where
  handlerWrote := by
    intro other mem
    rcases List.mem_append.mp mem with old | new
    · exact decided.handlerWrote other old
    · cases List.mem_singleton.mp (own new)
  stored := decided.stored
  timeoutWrote _ _ := later
  timedOut _ _ := decided.timedOut answers past
  exclusive _ := decided.exclusive answers

theorem decided_step {act : Action} (decided : Decided s)
    (isApart : apart s act = true) (stepped : step s act = some next) : Decided next := by
  revert stepped
  -- one case for each branch of `step` that allows the action
  fun_cases step s act <;> rintro ⟨⟩
  · exact decided
  · rename_i notYet
    refine ⟨decided.handlerWrote, nofun, decided.timeoutWrote, decided.timedOut, ?_⟩
    intro answers
    exact (notYet (decided.timedOut answers (of_decide_eq_true isApart))).elim
  · rename_i call here
    refine ⟨fun _ _ => rfl, fun _ _ => rfl, decided.timeoutWrote, decided.timedOut, ?_⟩
    intro answers
    have idle := (decided.exclusive answers).2
    rw [here] at idle
    cases idle
  · rename_i call here
    refine ⟨fun _ _ => decided.stored call here, nofun, ?_, decided.timedOut, fun answers =>
      ⟨(decided.exclusive answers).1, rfl⟩⟩
    intro other mem
    exact decided.timeoutWrote other (by simpa using mem)
  · by_cases waits : s.callback = .waiting
    · rw [if_pos waits]
      exact decided_of_silent (by simp [Answers]) (decided.unanswered (.inl waits))
        decided.handlerWrote nofun
    · rw [if_neg waits]
      exact ⟨decided.handlerWrote, nofun, decided.timeoutWrote, decided.timedOut, fun answers =>
        ⟨(decided.exclusive answers).1, rfl⟩⟩
  · exact decided_of_silent (by simp [Answers]) (decided.unanswered (.inl ‹_›))
      decided.handlerWrote decided.stored
  · rename_i here
    have unanswered := decided.unanswered (.inr here)
    by_cases wrote : s.wrote = true
    · rw [if_pos wrote]
      exact decided_of_silent (by simp [Answers]) unanswered decided.handlerWrote decided.stored
    · rw [if_neg wrote]
      exact ⟨decided.handlerWrote, decided.stored, fun call mem => (unanswered call mem).elim,
        fun _ notLoaded => (notLoaded rfl).elim,
        fun _ => ⟨by simpa using wrote, by simpa [apart, here] using isApart⟩⟩
  · rename_i here
    exact ⟨decided.handlerWrote, decided.stored, fun _ _ => by simp [Answers], fun _ _ => rfl,
      fun _ => decided.exclusive (by simp [Answers, here])⟩
  · rename_i here
    have := decided.goesOn (by simp [Answers, here]) (by simp [here]) .contentType
      (some "application/json") (.writeHeader 503) (by simp) [] (by simp)
    simpa using this
  · rename_i here
    exact decided.goesOn (by simp [Answers, here]) (by simp [here]) .status _ _ (by simp) _
      (List.Subset.refl _)
  · rename_i here
    exact decided.goesOn (by simp [Answers, here]) (by simp [here]) .finished _ _ (by simp) _
      (List.Subset.refl _)

theorem one_response
    (reachable : Transition.Reachable step (fun s action => apart s action = true) start s) :
    ¬ ((∃ call, .handler call ∈ s.output) ∧ ∃ call, .timeout call ∈ s.output) := by
  have decided : Decided s := by
    apply reachable.invariant
    · exact decided_of_silent (by simp [Answers, start]) nofun nofun nofun
    · intro state action next decided isApart stepped
      exact decided_step decided isApart stepped
  rintro ⟨⟨_, fromHandler⟩, _, fromTimeout⟩
  have wrote := decided.handlerWrote _ fromHandler
  rw [(decided.exclusive (decided.timeoutWrote _ fromTimeout)).1] at wrote
  cases wrote

theorem one_response_suppressed :
    ∃ s, Transition.run step apart [.contextDone, .callback, .callback, .call (.writeHeader 200),
        .callback, .callback, .callback, .returns] start = some s ∧
      s.output = [.timeout (.writeHeader 503), .timeout (.write timeoutBody)] ∧
      ¬ ((∃ call, .handler call ∈ s.output) ∧ ∃ call, .timeout call ∈ s.output) := by
  have ran : run step apart [.contextDone, .callback, .callback,
      .call (.writeHeader 200), .callback, .callback, .callback, .returns] start = some _ := rfl
  exact ⟨_, ran, rfl, one_response (reachable_of_run ran)⟩

theorem two_responses :
    ∃ s, Transition.Reachable step (fun _ _ => True) start s ∧
      s.output = [.timeout (.writeHeader 503), .timeout (.write timeoutBody),
        .handler (.writeHeader 200)] := by
  have ran : run step (fun _ _ => true) [.call (.writeHeader 200), .contextDone,
      .callback, .callback, .callback, .callback, .callback, .handler, .handler] start = some _ :=
    rfl
  exact ⟨_, (reachable_of_run ran).mono fun _ _ _ => trivial, rfl⟩

end TimeoutWriter

end Simulator
