import Mathlib.Algebra.Order.Floor.Div
import Mathlib.Data.FinEnum
import Mathlib.SetTheory.Cardinal.Finite

/-!
# Permutations and intervals of 64-bit words

Shifts and units permute the words; those with a multiple in an interval are counted.
-/

namespace WordPermutations

open UInt64

theorem xorShift_injective {shift : UInt64} (pos : 0 < shift.toNat) (small : shift.toNat < 64) :
    Function.Injective fun word : UInt64 => word ^^^ (word >>> shift) := by
  intro x y (eq : x ^^^ x >>> shift = y ^^^ y >>> shift)
  -- the difference of the two words is its own shift
  have fixed : (x ^^^ y) >>> shift = x ^^^ y := by
    rw [UInt64.shiftRight_xor]
    calc x >>> shift ^^^ y >>> shift = x ^^^ (x ^^^ x >>> shift) ^^^ y >>> shift := by
          rw [← UInt64.xor_assoc, UInt64.xor_self, UInt64.zero_xor]
      _ = x ^^^ (y ^^^ y >>> shift) ^^^ y >>> shift := by rw [eq]
      _ = x ^^^ y := by
          rw [UInt64.xor_assoc, UInt64.xor_assoc, UInt64.xor_self, UInt64.xor_zero]
  have halved := congrArg UInt64.toNat fixed
  rw [UInt64.toNat_shiftRight, Nat.mod_eq_of_lt small, Nat.shiftRight_eq_div_pow] at halved
  have zero : (x ^^^ y).toNat = 0 := by
    by_contra nonzero
    have smaller : (x ^^^ y).toNat / 2 ^ shift.toNat < (x ^^^ y).toNat :=
      Nat.div_lt_self (by omega) (Nat.one_lt_two_pow (by omega))
    omega
  exact UInt64.xor_eq_zero_iff.mp (UInt64.toNat_inj.mp zero)

variable {unit inverse : UInt64}

theorem mul_injective (inverts : unit * inverse = 1) :
    Function.Injective fun word : UInt64 => word * unit := by
  intro x y eq
  have both : x * unit * inverse = y * unit * inverse := congrArg (· * inverse) eq
  simpa [UInt64.mul_assoc, inverts] using both

theorem existsUnique_multiple (inverts : unit * inverse = 1) (start : Nat) (word : UInt64) :
    ∃! count, (start ≤ count ∧ count < start + 2 ^ 64) ∧ ofNat count * unit = word := by
  have exactly (count : Nat) :
      ofNat count * unit = word ↔ count % 2 ^ 64 = (word * inverse).toNat := by
    have quotient : word * inverse * unit = word := by
      rw [UInt64.mul_assoc, UInt64.mul_comm inverse, inverts, UInt64.mul_one]
    rw [← UInt64.toNat_ofNat', UInt64.toNat_inj]
    constructor
    · intro multiple
      exact mul_injective inverts (multiple.trans quotient.symm)
    · intro eq
      rw [eq, quotient]
  have bounded := (word * inverse).toNat_lt
  refine ⟨start + ((word * inverse).toNat + (2 ^ 64 - start % 2 ^ 64)) % 2 ^ 64, ?_, ?_⟩
  · refine ⟨by omega, ?_⟩
    rw [exactly]
    omega
  · rintro count ⟨lt, multiple⟩
    rw [exactly] at multiple
    omega

theorem card_between {first count : Nat} (fits : first + count ≤ 2 ^ 64) :
    Nat.card {word : UInt64 // first ≤ word.toNat ∧ word.toNat < first + count} = count := by
  have v (i : Fin count) : (ofNat (first + i)).toNat = first + i := by
    rw [toNat_ofNat', Nat.mod_eq_of_lt (by omega)]
  refine Eq.trans (Nat.card_eq_of_bijective (fun i : Fin count =>
    ⟨ofNat (first + i), by rw [v]; omega⟩) ⟨?_, ?_⟩).symm (Nat.card_fin count)
  · intro i other eq
    have words := congrArg toNat (Subtype.mk.inj eq)
    rw [v, v] at words
    omega
  · rintro ⟨word, above, below⟩
    refine ⟨⟨word.toNat - first, by omega⟩, Subtype.ext (UInt64.toNat_inj.mp ?_)⟩
    rw [v]
    exact Nat.add_sub_cancel' above

theorem card_multiples_between {factor low count : Nat} (pos : 0 < factor)
    (fits : low + factor * count ≤ factor * 2 ^ 64) :
    Nat.card {word : UInt64 // low ≤ factor * word.toNat ∧
      factor * word.toNat < low + factor * count} = count := by
  have last : (low + factor * count) ⌈/⌉ factor = low ⌈/⌉ factor + count := by
    rw [Nat.ceilDiv_eq_add_pred_div, Nat.ceilDiv_eq_add_pred_div,
      show low + factor * count + factor - 1 = low + factor - 1 + factor * count by omega,
      Nat.add_mul_div_left _ _ pos]
  rw [← ceilDiv_le_iff_le_mul pos, last] at fits
  refine (Nat.card_congr (Equiv.subtypeEquivRight fun word => ?_)).trans (card_between fits)
  simp only [← last, ← not_le, ceilDiv_le_iff_le_mul pos]

end WordPermutations
