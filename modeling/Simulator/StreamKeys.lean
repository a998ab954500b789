import Simulator.RandomStreams
import Simulator.WordPermutations

/-!
# The keys of named streams

The separator of keys is the byte `0xff`, which no UTF-8 text contains but which a string
of the language may.
-/

namespace Simulator

open WordPermutations List UInt64

namespace RNG

/-- All that `Derive` writes to its hash. -/
def keyBytes (seed : UInt64) (keys : List (List UInt8)) : List UInt8 :=
  putUint64 seed ++ keys.flatMap (0xff :: ·)

theorem derive_eq (seed : UInt64) (keys : List (List UInt8)) :
    derive seed keys = ⟨fnvWrite 14695981039346656037 (keyBytes seed keys)⟩ := by
  have keysWritten (hash : UInt64) :
      keys.foldl (fun hash key => fnvWrite (fnvWrite hash [0xff]) key) hash =
        fnvWrite hash (keys.flatMap (0xff :: ·)) := by
    induction keys generalizing hash with
    | nil => rfl
    | cons key keys ih =>
      rw [foldl_cons, ih]
      simp [fnvWrite]
  rw [derive, keysWritten, keyBytes]
  simp [fnvWrite]

theorem putUint64_injective : Function.Injective putUint64 := by
  intro a b eq
  have below := a.toNat_lt
  have bounded := b.toNat_lt
  simp only [putUint64, cons.injEq, and_true, ← UInt8.toNat_inj, toNat_toUInt8,
    UInt64.toNat_shiftRight, UInt64.reduceToNat, Nat.reduceMod, Nat.shiftRight_eq_div_pow] at eq
  rw [← UInt64.toNat_inj]
  omega

theorem separated_eq (keys : List (List UInt8)) :
    keys.flatMap (0xff :: ·) = [0xff].intercalate ([] :: keys) := by
  induction keys with
  | nil => rfl
  | cons key keys ih =>
    rw [flatMap_cons, ih]
    cases keys <;> simp [intercalate]

theorem mul_prime_injective :
    Function.Injective fun word : UInt64 => word * 1099511628211 :=
  mul_injective (show (1099511628211 : UInt64) * 0xCE965057AFF6957B = 1 by decide)

theorem fnvWrite_cons (hash : UInt64) (byte : UInt8) (bytes : List UInt8) :
    fnvWrite hash (byte :: bytes) = fnvWrite ((hash ^^^ byte.toUInt64) * 1099511628211) bytes :=
  rfl

theorem fnvWrite_injective (bytes : List UInt8) : Function.Injective (fnvWrite · bytes) := by
  induction bytes with
  | nil => exact fun _ _ eq => eq
  | cons byte bytes ih =>
    intro hash other eq
    exact (xor_left_inj _).mp (mul_prime_injective (ih eq))

theorem fnvWrite_ne {bytes others : List UInt8} (sameLength : bytes.length = others.length)
    (once : ∃! pos : Nat, bytes[pos]? ≠ others[pos]?) (hash : UInt64) :
    fnvWrite hash bytes ≠ fnvWrite hash others := by
  induction bytes generalizing others hash with
  | nil =>
    obtain ⟨pos, differ, _⟩ := once
    rw [eq_nil_of_length_eq_zero sameLength.symm] at differ
    exact absurd rfl differ
  | cons byte bytes ih =>
    obtain ⟨pos, differ, unique⟩ := once
    cases others with
    | nil => cases sameLength
    | cons other others =>
      rw [fnvWrite_cons, fnvWrite_cons]
      by_cases eq : byte = other
      · -- the differing byte comes later, with the same state before it
        subst other
        cases pos with
        | zero => exact absurd rfl differ
        | succ pos =>
          refine ih (Nat.succ.inj sameLength) ⟨pos, differ, fun later differs => ?_⟩ _
          exact Nat.succ.inj (unique (later + 1) differs)
      · -- the differing byte is this one, and the rest is the same
        have rest : bytes = others := by
          apply ext_getElem?
          intro later
          by_contra differs
          have here : 0 = pos := unique 0 (by simpa using eq)
          have there : later + 1 = pos := unique (later + 1) differs
          omega
        subst others
        intro equal
        have states := mul_prime_injective (fnvWrite_injective bytes equal)
        exact eq (UInt8.toUInt64_inj.mp ((xor_right_inj _).mp states))

/-- Two names whose bytes differ in one place have different streams. -/
theorem nearby_streams_distinct {first second : UInt64} {keys others : List (List UInt8)}
    (sameLength : (keyBytes first keys).length = (keyBytes second others).length)
    (once : ∃! place : Nat, (keyBytes first keys)[place]? ≠ (keyBytes second others)[place]?) :
    (derive first keys).state ≠ (derive second others).state := by
  simp only [derive_eq]
  exact fnvWrite_ne sameLength once _

theorem nearby_streams_distinct_seeds : (derive 0 [[101]]).state ≠ (derive 1 [[101]]).state := by
  refine nearby_streams_distinct rfl ⟨0, by decide, fun pos differ => ?_⟩
  cases pos with
  | zero => rfl
  | succ pos => exact absurd rfl differ

end RNG

end Simulator
