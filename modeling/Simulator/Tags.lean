import Simulator.EntityManager
import Simulator.NameTable

/-!
# Tags

The tag store keeps one bitset of tags for each tagged entity.  A registry restored from a
list with duplicates is not `Consistent`.
-/

namespace Simulator

open NameTable List

/-- `Tag`, the position of a name in registration order -/
abbrev Tag := Nat

@[ext]
structure TagRegistry where
  names : List String
  byName : String → Option Tag

namespace TagRegistry

/-- `NewTagRegistry` -/
def new : TagRegistry where
  names := []
  byName := fun _ => none

def register (t : TagRegistry) (name : String) : Tag × TagRegistry :=
  match t.byName name with
  | some id => (id, t)
  | none =>
    (t.names.length,
      { names := t.names ++ [name]
        byName := Function.update t.byName name (some t.names.length) })

def name (t : TagRegistry) (tag : Tag) : String :=
  t.names[tag]?.getD ""

def snapshot (t : TagRegistry) : List String :=
  t.names

def restore (names : List String) : TagRegistry where
  names := names
  byName := numbering names

def Consistent (t : TagRegistry) : Prop :=
  Registered t.names t.byName

theorem consistent_new : new.Consistent := by
  intro name tag
  simp [new]

variable {t : TagRegistry}

theorem Consistent.register (valid : t.Consistent)
    (name : String) : (t.register name).2.Consistent := by
  unfold TagRegistry.register
  split
  · exact valid
  · rename_i fresh
    exact Registered.append valid fresh

theorem Consistent.restore_snapshot (valid : t.Consistent) : restore t.snapshot = t := by
  apply TagRegistry.ext
  · rfl
  · exact (registered_numbering (Registered.nodup valid)).byName_eq valid

end TagRegistry

@[ext]
structure TagStore where
  sets : EntityID → Option (List UInt64)

namespace TagStore

/-- `NewTagStore` -/
def new : TagStore where
  sets := fun _ => none

def wordOf (tag : Tag) : Nat :=
  tag / 64

def maskOf (tag : Tag) : UInt64 :=
  1 <<< UInt64.ofNat (tag % 64)

def add (s : TagStore) (e : EntityID) (tag : Tag) : TagStore :=
  let words := (s.sets e).getD []
  let padded := words ++ List.replicate (wordOf tag + 1 - words.length) 0
  let word := padded[wordOf tag]?.getD 0
  ⟨Function.update s.sets e (some (padded.set (wordOf tag) (word ||| maskOf tag)))⟩

def remove (s : TagStore) (e : EntityID) (tag : Tag) : TagStore :=
  match s.sets e with
  | none => s
  | some words =>
    match words[wordOf tag]? with
    | none => s
    | some word =>
      ⟨Function.update s.sets e (some (words.set (wordOf tag) (word &&& ~~~maskOf tag)))⟩

def has (s : TagStore) (e : EntityID) (tag : Tag) : Bool :=
  match s.sets e with
  | none => false
  | some words =>
    match words[wordOf tag]? with
    | none => false
    | some word => word &&& maskOf tag != 0

def removeEntity (s : TagStore) (e : EntityID) : TagStore :=
  ⟨Function.update s.sets e none⟩

def snapshot (s : TagStore) : EntityID → Option (List UInt64) :=
  s.sets

def restore (sets : EntityID → Option (List UInt64)) : TagStore where
  sets := sets

/-- The bit of a tag; the words beyond the slice are zero. -/
def bitAt (words : List UInt64) (tag : Tag) : Bool :=
  (words[wordOf tag]?.getD 0).toBitVec.getLsbD (tag % 64)

theorem toBitVec_maskOf (tag : Nat) : (maskOf tag).toBitVec = BitVec.twoPow 64 (tag % 64) := by
  rw [BitVec.twoPow_eq, maskOf, UInt64.toBitVec_shiftLeft, BitVec.shiftLeft_eq']
  congr 1
  simp

theorem and_maskOf_ne_zero (word : UInt64) (tag : Nat) :
    (word &&& maskOf tag != 0) = word.toBitVec.getLsbD (tag % 64) := by
  have nonzero : BitVec.twoPow 64 (tag % 64) ≠ 0#64 := by
    intro zero
    have bit := congrArg (·.getLsbD (tag % 64)) zero
    simp [Nat.mod_lt] at bit
  rw [Bool.eq_iff_iff, bne_iff_ne, ne_eq, ← UInt64.toBitVec_inj, UInt64.toBitVec_and,
    toBitVec_maskOf, BitVec.and_twoPow]
  cases word.toBitVec.getLsbD (tag % 64) <;> simp [nonzero]

theorem has_eq (s : TagStore) (e : EntityID) (tag : Tag) :
    s.has e tag = bitAt ((s.sets e).getD []) tag := by
  unfold has bitAt
  cases s.sets e with
  | none => simp
  | some words =>
    cases hit : words[wordOf tag]? with
    | none => simp [hit]
    | some word => simp [hit, and_maskOf_ne_zero]

theorem bitAt_append_replicate (words : List UInt64) (count : Nat) (tag : Tag) :
    bitAt (words ++ replicate count 0) tag = bitAt words tag := by
  unfold bitAt
  congr 2
  rw [getElem?_append]
  split
  · rfl
  · rw [getElem?_replicate, getElem?_eq_none (Nat.le_of_not_lt ‹_›)]
    split <;> rfl

section

variable {words : List UInt64} {word changed : UInt64} {tag other : Nat}

theorem bitAt_set (lt : wordOf tag < words.length) :
    bitAt (words.set (wordOf tag) changed) other = if wordOf tag = wordOf other then
      changed.toBitVec.getLsbD (other % 64) else bitAt words other := by
  unfold bitAt
  split
  · rename_i here
    rw [← here, getElem?_set_self lt, Option.getD_some]
  · rename_i apart
    rw [getElem?_set_ne apart]

theorem mod_eq_iff (here : wordOf tag = wordOf other) : other % 64 = tag % 64 ↔ other = tag := by
  unfold wordOf at here
  omega

theorem bitAt_set_or (hit : words[wordOf tag]? = some word) :
    bitAt (words.set (wordOf tag) (word ||| maskOf tag)) other =
      (decide (other = tag) || bitAt words other) := by
  rw [bitAt_set (List.getElem?_eq_some_iff.mp hit).1]
  split
  · rename_i here
    simp [bitAt, ← here, hit, toBitVec_maskOf, Nat.mod_lt, mod_eq_iff here, Bool.or_comm]
  · rename_i apart
    have ne : other ≠ tag := fun eq => apart (congrArg wordOf eq.symm)
    simp [ne]

variable {s : TagStore} {e entity : EntityID}

theorem has_add : (s.add e tag).has entity other =
    (decide (entity = e ∧ other = tag) || s.has entity other) := by
  rw [has_eq, has_eq, add]
  by_cases here : entity = e
  · subst entity
    obtain ⟨word, hit⟩ : ∃ word, ((s.sets e).getD [] ++ replicate
        (wordOf tag + 1 - ((s.sets e).getD []).length) 0)[wordOf tag]? = some word :=
      ⟨_, getElem?_eq_getElem (by simp; omega)⟩
    simp only [Function.update_self, Option.getD_some, hit]
    rw [bitAt_set_or hit, bitAt_append_replicate]
    simp
  · simp [here]

theorem has_removeEntity : (s.removeEntity e).has entity other =
    (!decide (entity = e) && s.has entity other) := by
  rw [has_eq, has_eq, removeEntity]
  by_cases here : entity = e
  · simp [here, bitAt]
  · simp [here]

end

end TagStore

end Simulator
