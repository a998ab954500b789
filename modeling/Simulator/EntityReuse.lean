import Simulator.EntityLifecycle

/-!
# Reuse of entity indices

The generation of an index is a 32-bit word, which comes back after enough calls of
`Create`.
-/

namespace Simulator

open SparseIndex List Option EntityID

namespace EntityManager

/-- The index the next `Create` takes. -/
def upcoming (m : EntityManager) : UInt32 :=
  m.free.getLast?.getD m.next

/-- `Create` neither wraps the generation of its index nor appends at a
position outside of `int32`. -/
def Room (m : EntityManager) : Prop :=
  m.dense.length + 1 < 2 ^ 31 ∧ (m.generation m.upcoming.toNat).toNat + 1 < 2 ^ 32

/-- Every `Create` of the sequence has room when its turn comes. -/
def Roomy : List Call → EntityManager → Prop
  | [], _ => True
  | call :: rest, m =>
    (call = .create → m.Room) ∧
      match m.call call with
      | none => True
      | some (_, after) => Roomy rest after

structure Ages (log : List Entry) (m : EntityManager) : Prop where
  consistent : m.Consistent
  current : m.Current
  covered : m.Covered
  length_le : m.versions.length ≤ m.next.toNat + 1
  next_le : m.next.toNat ≤ 2 ^ 31
  issued_le : ∀ id ∈ issued log, id.version.toNat ≤ (m.generation id.key).toNat
  issued_pos : ∀ id ∈ issued log, 0 < id.version.toNat
  live_issued : ∀ id ∈ m.dense, id ∈ issued log
  spent : ∀ id, .destroyed id true ∈ log → id ∈ issued log ∧ id ∉ m.dense

theorem ages_new : Ages [] new where
  consistent := consistent_new
  current := by simp [Current, new]
  covered := by simp [Covered, new]
  length_le := by simp [new]
  next_le := by simp [new]
  issued_le := by simp [issued]
  issued_pos := by simp [issued]
  live_issued := by simp [new]
  spent := by simp

theorem Covered.next_le_length {m : EntityManager} (covered : m.Covered)
    (noneFree : m.free = []) : m.next.toNat ≤ m.dense.length := by
  have subset : range m.next.toNat ⊆ m.keys := by
    intro i mem
    rcases covered i (mem_range.mp mem) with inFree | live
    · simp [noneFree] at inFree
    · exact live
  have fits := (nodup_range.subperm subset).length_le
  simpa [keys] using fits

theorem Creates.upcoming_eq {m after : EntityManager} {id : EntityID}
    (creates : Creates m id after) : m.upcoming = id.index := by
  rcases creates.allocated with ⟨freeEq, _⟩ | ⟨noneFree, _, indexEq, _⟩
  · simp [upcoming, freeEq]
  · simp [upcoming, noneFree, indexEq]

section Created

variable {log : List Entry} {m after : EntityManager} {id : EntityID}

theorem Creates.toNat_version (creates : Creates m id after) (room : m.Room) :
    id.version.toNat = (m.generation id.key).toNat + 1 := by
  have small := room.2
  rw [creates.upcoming_eq] at small
  rw [creates.version_eq, UInt32.toNat_add]
  simp only [key]
  simp
  omega

theorem Creates.generation_mono (creates : Creates m id after) (room : m.Room) (i : Nat) :
    (m.generation i).toNat ≤ (after.generation i).toNat := by
  by_cases eq : i = id.key
  · subst eq
    rw [creates.generation_self, creates.toNat_version room]
    omega
  · rw [creates.generation_other i eq]

theorem Ages.next_created (ages : Ages log m) (creates : Creates m id after) (room : m.Room) :
    m.next.toNat ≤ after.next.toNat ∧ after.next.toNat ≤ 2 ^ 31 := by
  have small := ages.next_le
  rcases creates.allocated with ⟨_, nextEq⟩ | ⟨noneFree, _, _, nextEq⟩
  · rw [nextEq]
    omega
  · have live := ages.covered.next_le_length noneFree
    have few := room.1
    have nextNat : after.next.toNat = m.next.toNat + 1 := by
      rw [nextEq, UInt32.toNat_add]
      simp
      omega
    omega

theorem Ages.not_issued (ages : Ages log m) (creates : Creates m id after)
    (room : m.Room) : id ∉ issued log := by
  intro again
  have := ages.issued_le id again
  have := creates.toNat_version room
  omega

theorem Ages.created (ages : Ages log m) (made : m.create = some (id, after)) (room : m.Room) :
    Ages (log ++ [.created id]) after := by
  have creates := ages.consistent.creates made
  obtain ⟨nextMono, nextLe⟩ := ages.next_created creates room
  have small := ages.next_le
  have lengthLe := ages.length_le
  have grownLe := creates.length_le
  have issuedEq : issued (log ++ [.created id]) = issued log ++ [id] := by
    simp [Entry.issued?]
  have fresh := ages.not_issued creates room
  refine ⟨ages.consistent.create made (by omega), creates.current ages.consistent ages.current,
    creates.covered ages.covered (by omega), by omega, nextLe, ?_, ?_, ?_, ?_⟩
  · intro other mem
    rw [issuedEq, mem_append, mem_singleton] at mem
    rcases mem with old | rfl
    · exact (ages.issued_le other old).trans (creates.generation_mono room _)
    · rw [creates.generation_self]
  · intro other mem
    rw [issuedEq, mem_append, mem_singleton] at mem
    rcases mem with old | rfl
    · exact ages.issued_pos other old
    · rw [creates.toNat_version room]
      omega
  · intro other live
    rw [creates.dense_eq, mem_append] at live
    rw [issuedEq, mem_append]
    exact live.imp_left (ages.live_issued other)
  · intro other destroyed
    rw [mem_append, mem_singleton] at destroyed
    rcases destroyed with old | no
    · obtain ⟨wasIssued, dead⟩ := ages.spent other old
      rw [issuedEq, creates.dense_eq, mem_append, mem_append, mem_singleton]
      refine ⟨.inl wasIssued, ?_⟩
      rintro (live | rfl)
      · exact dead live
      · exact fresh wasIssued
    · cases no

end Created

variable {log : List Entry} {m : EntityManager}

section

variable (ages : Ages log m)
include ages

theorem Ages.released {id : EntityID} {pos : Nat} (live : id ∈ m.dense)
    (spot : position m.sparse id.key = some pos) :
    Ages (log ++ [.destroyed id true]) (m.release id pos spot) := by
  have issuedEq : issued (log ++ [.destroyed id true]) = issued log := by
    simp [Entry.issued?]
  have left (other : EntityID) : other ∈ (m.release id pos spot).dense ↔
        other ∈ m.dense ∧ other ≠ id := mem_release_iff ages.consistent ages.current live spot
  refine ⟨ages.consistent.release spot, current_release ages.current live spot,
    ages.covered.release ages.current live spot, ages.length_le,
    ages.next_le, by rw [issuedEq]; exact ages.issued_le,
    by rw [issuedEq]; exact ages.issued_pos, ?_, ?_⟩
  · intro other remains
    rw [issuedEq]
    exact ages.live_issued other ((left other).mp remains).1
  · intro other destroyed
    rw [mem_append, mem_singleton] at destroyed
    rw [issuedEq, left other]
    rcases destroyed with old | now
    · obtain ⟨wasIssued, dead⟩ := ages.spent other old
      exact ⟨wasIssued, fun still => dead still.1⟩
    · cases now
      exact ⟨ages.live_issued id live, fun still => still.2 rfl⟩

theorem Ages.silent {x : Entry} (issues : x.issued? = none)
    (spends : ∀ id, x ≠ .destroyed id true) : Ages (log ++ [x]) m := by
  have issuedEq : issued (log ++ [x]) = issued log := by
    simp [issues]
  refine { ages with
    issued_le := by rw [issuedEq]; exact ages.issued_le
    issued_pos := by rw [issuedEq]; exact ages.issued_pos
    live_issued := by rw [issuedEq]; exact ages.live_issued
    spent := ?_ }
  intro id destroyed
  rw [mem_append, mem_singleton] at destroyed
  rw [issuedEq]
  rcases destroyed with old | now
  · exact ages.spent id old
  · exact (spends id now.symm).elim

theorem Ages.destroyed (id : EntityID) :
    Ages (log ++ [.destroyed id (m.destroy id).1]) (m.destroy id).2 := by
  cases isAlive : m.aliveLocked id with
  | false =>
    rw [destroy_of_not_alive isAlive]
    exact ages.silent rfl (by simp)
  | true =>
    obtain ⟨pos, spot⟩ := exists_position_of_alive isAlive
    rw [destroy_of_alive isAlive spot]
    exact ages.released ((alive_iff_mem ages.consistent ages.current id).mp isAlive) spot

theorem Ages.call (call : Call) (room : call = .create → m.Room) :
    ∃ x after, m.call call = some (x, after) ∧ Ages (log ++ [x]) after := by
  cases call with
  | create =>
    obtain ⟨⟨id, after⟩, made⟩ := isSome_iff_exists.mp ages.consistent.create_isSome
    exact ⟨.created id, after, by simp [EntityManager.call, made], ages.created made (room rfl)⟩
  | destroy id => exact ⟨_, _, rfl, ages.destroyed id⟩
  | reload =>
    refine ⟨.reloaded, m, ?_, ages.silent rfl (by simp)⟩
    simp [EntityManager.call, ages.consistent.restore_snapshot]

theorem Ages.runCalls (calls : List Call) (roomy : Roomy calls m) :
    ∃ behind after, runCalls calls m = some (behind, after) ∧ Ages (log ++ behind) after := by
  induction calls generalizing log m with
  | nil => exact ⟨[], m, rfl, by simpa using ages⟩
  | cons call rest ih =>
    obtain ⟨room, later⟩ := roomy
    obtain ⟨x, next, called, aged⟩ := ages.call call room
    rw [called] at later
    obtain ⟨behind, after, ran, last⟩ := ih aged later
    refine ⟨x :: behind, after, ?_, by simpa using last⟩
    simp [EntityManager.runCalls, called, ran]

end

theorem destroyed_stays_dead (calls : List Call) (roomy : Roomy calls new) :
    ∃ log m, runCalls calls new = some (log, m) ∧ (∀ id, .destroyed id true ∈ log →
        m.alive id = false ∧ (m.destroy id).1 = false) ∧ ∀ id, .created id ∈ log → id ≠ ⟨0⟩ := by
  obtain ⟨log, m, ran, ages⟩ := ages_new.runCalls calls roomy
  rw [nil_append] at ages
  refine ⟨log, m, ran, ?_, ?_⟩
  · intro id destroyed
    have dead : m.alive id = false := by
      rw [← Bool.not_eq_true, alive_iff_mem ages.consistent ages.current id]
      exact (ages.spent id destroyed).2
    exact ⟨dead, by rw [destroy_of_not_alive dead]⟩
  · rintro id made rfl
    have pos := ages.issued_pos ⟨0⟩ (mem_filterMap.mpr ⟨_, made, rfl⟩)
    simp [version] at pos

theorem destroyed_stays_dead_recycled :
    Roomy [.create, .destroy ⟨1⟩, .create, .destroy ⟨1⟩] new ∧
    ∃ log m, runCalls [.create, .destroy ⟨1⟩, .create, .destroy ⟨1⟩] new = some (log, m) ∧
      (∀ id, .destroyed id true ∈ log → m.alive id = false ∧ (m.destroy id).1 = false) ∧
      ∀ id, .created id ∈ log → id ≠ ⟨0⟩ :=
  have roomy : Roomy [.create, .destroy ⟨1⟩, .create, .destroy ⟨1⟩] new :=
    ⟨fun _ => ⟨by decide, by decide⟩, nofun, fun _ => ⟨by decide, by decide⟩, nofun, trivial⟩
  ⟨roomy, destroyed_stays_dead _ roomy⟩

theorem runCalls_append {first second : List Call} {next after :
    EntityManager} {front back : List Entry}
    (ranFirst : runCalls first m = some (front, next))
    (ranSecond : runCalls second next = some (back, after)) :
    runCalls (first ++ second) m = some (front ++ back, after) := by
  induction first generalizing front m with
  | nil =>
    cases ranFirst
    exact ranSecond
  | cons call rest ih =>
    rw [runCalls, bind_eq_some_iff] at ranFirst
    obtain ⟨⟨x, mid⟩, called, ranRest⟩ := ranFirst
    rw [map_eq_some_iff] at ranRest
    obtain ⟨⟨log, last⟩, ran, eq⟩ := ranRest
    cases eq
    rw [cons_append, runCalls, called, bind_some, ih ran]
    rfl

def cycled (version : UInt32) : EntityManager where
  versions := [version]
  sparse := [0]
  dense := []
  free := [0]
  next := 1
  count := 0
  aligned := new.aligned
  points := new.points
  inRange := new.inRange

/-- One entity created and destroyed `n` times, from this generation on. -/
def cycles : Nat → UInt32 → List Call
  | 0, _ => []
  | n + 1, version =>
    .create :: .destroy (EntityID.ofParts 0 (version + 1)) :: cycles n (version + 1)

def cycleLog : Nat → UInt32 → List Entry
  | 0, _ => []
  | n + 1, version =>
    .created (EntityID.ofParts 0 (version + 1)) ::
      .destroyed (EntityID.ofParts 0 (version + 1)) true :: cycleLog n (version + 1)

def occupied (version : UInt32) : EntityManager where
  versions := [version]
  sparse := [1]
  dense := [EntityID.ofParts 0 version]
  free := []
  next := 1
  count := 1
  aligned := rfl
  points := by
    intro key place recorded
    rw [position_eq_some_iff, List.getElem?_singleton] at recorded
    split at recorded <;> simp_all
  inRange := by simp

theorem create_cycled (ver : UInt32) : (cycled ver).create =
      some (ofParts 0 (ver + 1), occupied (ver + 1)) :=
  rfl

theorem alive_occupied (ver : UInt32) : (occupied ver).alive (ofParts 0 ver) = true := by
  simp [alive, aliveLocked, occupied, position]

theorem destroy_occupied (version : UInt32) :
    (occupied version).destroy (ofParts 0 version) = (true, cycled version) := by
  have recorded : position (occupied version).sparse (ofParts 0 version).key = some 0 := by
    simp [occupied, position]
  rw [destroy_of_alive (alive_occupied version) recorded]
  congr 1
  apply EntityManager.ext <;> simp [release, occupied, cycled, redirect, keys, swapErase]

theorem runCalls_cycles (n : Nat) (ver : UInt32) :
    runCalls (cycles n ver) (cycled ver) =
      some (cycleLog n ver, cycled (ver + UInt32.ofNat n)) := by
  induction n generalizing ver with
  | zero => simp [cycles, cycleLog, runCalls]
  | succ n ih =>
    have last : ver + 1 + UInt32.ofNat n = ver + UInt32.ofNat (n + 1) := by
      rw [UInt32.ofNat_add, add_assoc, add_comm 1]
      rfl
    simp only [cycles, cycleLog, runCalls, call, create_cycled,
      destroy_occupied, map_some, bind_some, ih, last]

theorem mem_cycleLog {n k : Nat} (within : k < n) (ver : UInt32) :
    .created (ofParts 0 (ver + UInt32.ofNat (k + 1))) ∈ cycleLog n ver ∧
      .destroyed (ofParts 0 (ver + UInt32.ofNat (k + 1))) true ∈ cycleLog n ver := by
  induction n generalizing k ver with
  | zero => omega
  | succ n ih =>
    cases k with
    | zero => exact ⟨.head _, .tail _ (.head _)⟩
    | succ k =>
      have shifted : ver + UInt32.ofNat (k + 1 + 1) = ver + 1 + UInt32.ofNat (k + 1) := by
        rw [UInt32.ofNat_add (k + 1), add_assoc, add_comm 1]
        rfl
      rw [shifted]
      obtain ⟨made, destroyed⟩ := ih (k := k) (by omega) (ver + 1)
      exact ⟨.tail _ (.tail _ made), .tail _ (.tail _ destroyed)⟩

theorem first_identifier_returns :
    ∃ calls log m, runCalls calls new = some (log, m) ∧
      .destroyed ⟨1⟩ true ∈ log ∧ m.alive ⟨1⟩ = true ∧
      (m.destroy ⟨1⟩).1 = true ∧ .created ⟨0⟩ ∈ log := by
  have first : runCalls [.create, .destroy ⟨1⟩] new =
      some ([.created ⟨1⟩, .destroyed ⟨1⟩ true], cycled 1) := rfl
  have wrapped : (1 : UInt32) + UInt32.ofNat (2 ^ 32 - 1) = 0 := by decide
  have around := runCalls_cycles (2 ^ 32 - 1) 1
  rw [wrapped] at around
  have again : runCalls [.create] (cycled 0) = some ([.created ⟨1⟩], occupied 1) := rfl
  have zero := (mem_cycleLog (show 2 ^ 32 - 2 < 2 ^ 32 - 1 by decide) 1).1
  have isZero : ofParts 0 (1 + UInt32.ofNat (2 ^ 32 - 2 + 1)) = ⟨0⟩ := by decide
  rw [isZero] at zero
  refine ⟨_, _, _, runCalls_append first (runCalls_append around again),
    .tail _ (.head _), alive_occupied 1, ?_, ?_⟩
  · exact congrArg Prod.fst (destroy_occupied 1)
  · exact mem_append_right _ (mem_append_left _ zero)

end EntityManager

end Simulator
