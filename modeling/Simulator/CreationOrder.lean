import Simulator.EntityLifecycle

/-!
# The order of iteration over entities

The dense list is in creation order as long as every entity that is destroyed is one of
the two youngest.
-/

namespace Simulator

open SparseIndex List Option

namespace EntityManager

/-- `Each`, with the state that the callback works on -/
def each {σ : Type} (m : EntityManager) (fn : σ → EntityID → σ) (s : σ) : σ :=
  m.dense.foldl fn s

structure InOrder (log : List Entry) (m : EntityManager) : Prop where
  nodup : m.ids.Nodup
  live : ∀ id, id ∈ m.ids ↔ Outstanding log id
  order : m.ids.Sublist (issued log)
  visits : m.each (fun visited id => visited ++ [id]) [] = m.ids

def Recent : List Call → EntityManager → Prop
  | [], _ => True
  | call :: rest, m =>
    (∀ id ∈ m.dense, call = .destroy id → id ∈ m.dense.drop (m.dense.length - 2)) ∧
      match m.call call with
      | none => True
      | some (_, after) => Recent rest after

variable {log : List Entry} {m after : EntityManager}

theorem Tracks.inOrder_iff (tracks : Tracks log m) : InOrder log m ↔ m.dense.Sublist (issued log) := by
  refine ⟨InOrder.order, fun order => ⟨tracks.consistent.dense_nodup, tracks.live_iff, order, ?_⟩⟩
  simp [each, ids, ← flatMap_def]

theorem sublist_release_iff {id : EntityID} {pos : Nat} (tracks : Tracks log m)
    (order : m.dense.Sublist (issued log)) (held : m.dense[pos]? = some id) :
    (swapErase m.dense pos).Sublist (issued log) ↔ id ∈ m.dense.drop (m.dense.length - 2) := by
  have nodup := tracks.consistent.dense_nodup
  obtain ⟨lt, heldEq⟩ := List.getElem?_eq_some_iff.mp held
  have erased : (m.dense.eraseIdx pos).Sublist (issued log) :=
    (eraseIdx_sublist m.dense pos).trans order
  have eq : (swapErase m.dense pos).Perm (m.dense.eraseIdx pos) :=
    ((perm_swapErase held).symm.trans (heldEq ▸ (getElem_cons_eraseIdx_perm lt).symm)).cons_inv
  have young : id ∈ m.dense.drop (m.dense.length - 2) ↔ m.dense.length ≤ pos + 2 := by
    rw [mem_drop_iff_getElem]
    constructor
    · rintro ⟨i, within, sameEntity⟩
      have := (nodup.getElem_inj_iff).mp (sameEntity.trans heldEq.symm)
      omega
    · intro late
      exact ⟨pos - (m.dense.length - 2), by omega, by simp [heldEq, show m.dense.length - 2 +
        (pos - (m.dense.length - 2)) = pos by omega]⟩
  rw [young, ← swapErase_eq_eraseIdx_iff nodup lt]
  constructor
  · intro swapped
    exact (tracks.issued_nodup.perm_iff_eq_of_sublist swapped erased).mp eq
  · intro equal
    rw [equal]
    exact erased

variable {call : Call} {x : Entry}

theorem call_sublist_iff (tracks : Tracks log m)
    (order : m.dense.Sublist (issued log)) (called : m.call call = some (x, after)) :
    after.dense.Sublist (issued (log ++ [x])) ↔
      ∀ id ∈ m.dense, call = .destroy id → id ∈ m.dense.drop (m.dense.length - 2) := by
  cases call with
  | create =>
    obtain ⟨⟨id, made⟩, created, eq⟩ := map_eq_some_iff.mp called
    cases eq
    rw [(tracks.consistent.creates created).dense_eq, issued_concat]
    simp [Entry.issued?, order.append (List.Sublist.refl [id])]
  | reload =>
    rw [EntityManager.call, tracks.consistent.restore_snapshot] at called
    cases called
    simpa [Entry.issued?] using order
  | destroy id =>
    cases called
    cases isAlive : m.aliveLocked id with
    | false =>
      have dead : id ∉ m.dense := by
        rw [← alive_iff_mem tracks.consistent tracks.current, alive, isAlive]
        exact Bool.false_ne_true
      rw [destroy_of_not_alive isAlive]
      simp only [issued_concat, Entry.issued?, toList_none, append_nil, order, true_iff]
      rintro _ live ⟨⟩
      exact (dead live).elim
    | true =>
      obtain ⟨pos, spot⟩ := exists_position_of_alive isAlive
      have live := (alive_iff_mem tracks.consistent tracks.current id).mp isAlive
      have held := dense_of_position tracks.current live spot
      rw [destroy_of_alive isAlive spot]
      simp only [issued_concat, Entry.issued?, toList_none, append_nil]
      refine (sublist_release_iff tracks order held).trans ⟨?_, fun young => young id live rfl⟩
      rintro young _ _ ⟨⟩
      exact young

theorem runCalls_cons {next : EntityManager} (rest : List Call)
    (called : m.call call = some (x, next)) :
    runCalls (call :: rest) m = (runCalls rest next).map fun (log, last) => (x :: log, last) := by
  rw [runCalls, called, bind_some]

theorem inOrder_run_iff (tracks : Tracks log m) (order : m.dense.Sublist (issued log))
    (calls : List Call) (few : (issued log).length + calls.count .create < 2 ^ 31) :
    (∀ first second, calls = first ++ second → ∃ behind after,
      runCalls first m = some (behind, after) ∧ InOrder (log ++ behind) after) ↔
        Recent calls m := by
  have atStart : InOrder (log ++ []) m := by simpa using tracks.inOrder_iff.mpr order
  induction calls generalizing log m with
  | nil =>
    refine ⟨fun _ => trivial, fun _ first second split => ?_⟩
    rw [(append_eq_nil_iff.mp split.symm).1]
    exact ⟨[], m, rfl, atStart⟩
  | cons call rest ih =>
    have countEq : (call :: rest).count .create = [call].count .create + rest.count .create := by
      rw [← count_append, singleton_append]
    obtain ⟨x, next, called, tracked, issuedEq⟩ := tracks.call call (by omega)
    have later := fun nextOrder => ih tracked nextOrder (by omega)
      (by simpa using tracked.inOrder_iff.mpr nextOrder)
    simp only [Recent, called]
    rw [← call_sublist_iff tracks order called]
    constructor
    · intro all
      obtain ⟨behind, after, ran, inOrder⟩ := all [call] rest rfl
      rw [runCalls_cons [] called] at ran
      cases ran
      refine ⟨inOrder.order, (later inOrder.order).mp fun first second split => ?_⟩
      obtain ⟨behind, after, ran, inOrder⟩ := all (call :: first) second (by rw [split]; rfl)
      rw [runCalls_cons first called] at ran
      obtain ⟨⟨log, last⟩, ran, eq⟩ := map_eq_some_iff.mp ran
      cases eq
      exact ⟨_, _, ran, by simpa using inOrder⟩
    · rintro ⟨nextOrder, recent⟩ first second split
      cases first with
      | nil => exact ⟨[], m, rfl, atStart⟩
      | cons other first =>
        obtain ⟨rfl, restEq⟩ := cons.inj split
        obtain ⟨behind, after, ran, inOrder⟩ := (later nextOrder).mpr recent first second restEq
        exact ⟨x :: behind, after, by rw [runCalls_cons first called, ran]; rfl,
          by simpa using inOrder⟩

theorem iteration_in_order_iff (calls : List Call) (few : calls.count .create < 2 ^ 31) :
    (∀ first second, calls = first ++ second →
      ∃ log m, runCalls first new = some (log, m) ∧ InOrder log m) ↔ Recent calls new := by
  have := inOrder_run_iff tracks_new (nil_sublist _) calls (by simpa [issued] using few)
  simpa using this

def youngDestroyed : List Call :=
  [.create, .create, .create, .destroy (EntityID.ofParts 1 1), .destroy (EntityID.ofParts 2 1)]

theorem iteration_in_order_iff_young :
    Recent youngDestroyed new ∧ ∀ first second, youngDestroyed = first ++ second →
      ∃ log m, runCalls first new = some (log, m) ∧ InOrder log m := by
  have recent : Recent youngDestroyed new := by
    refine ⟨nofun, nofun, nofun, ?_, ?_, trivial⟩
    · rintro _ _ ⟨⟩
      decide
    · rintro _ _ ⟨⟩
      decide
  exact ⟨recent, (iteration_in_order_iff _ (by decide)).mpr recent⟩

theorem iteration_out_of_order :
    ∃ log m, runCalls [.create, .create, .create, .destroy (EntityID.ofParts 0 1)] new =
        some (log, m) ∧ m.ids = [EntityID.ofParts 2 1, EntityID.ofParts 1 1] ∧ ¬ InOrder log m :=
  ⟨_, _, rfl, rfl, fun inOrder => absurd inOrder.order (by decide)⟩

end EntityManager

end Simulator
