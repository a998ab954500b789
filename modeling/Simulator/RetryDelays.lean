import Simulator.JobQueue

/-!
# The delays between retries

The delay is the balanced residue of the number of nanoseconds that was meant.
-/

namespace Simulator

namespace Queue

theorem toInt_doubled (d : Int64) (n : Nat) :
    ((fun d => d * 2)^[n] d).toInt = (d.toInt * 2 ^ n).bmod (2 ^ 64) := by
  induction n with
  | zero =>
    have low := Int64.le_toInt d
    have high := Int64.toInt_lt d
    simp only [Function.iterate_zero, id_eq, Int.pow_zero, Int.mul_one]
    exact (Int.bmod_eq_of_le (by omega) (by omega)).symm
  | succ n ih =>
    rw [Function.iterate_succ_apply', Int64.toInt_mul, ih,
      Int.bmod_mul_bmod, Int.pow_succ, Int.mul_assoc]
    rfl

theorem backoff_new {d : Int64} (pos : 0 < d) (led : Bool) : (Queue.new led d).backoff = d := by
  have notReplaced : ¬ d ≤ 0 := by
    rw [Int64.lt_iff_toInt_lt] at pos
    rw [Int64.le_iff_toInt_le]
    omega
  exact if_neg notReplaced

theorem toInt_backoffFor (q : Queue) (attempt : Int) : (q.backoffFor attempt).toInt =
      (q.backoff.toInt * 2 ^ (attempt - 1).toNat).bmod (2 ^ 64) :=
  toInt_doubled q.backoff _

theorem toInt_backoffFor_of_lt (q : Queue) (attempt : Int) (pos : 0 < q.backoff.toInt)
    (fits : q.backoff.toInt * 2 ^ (attempt - 1).toNat < 2 ^ 63) : (q.backoffFor attempt).toInt =
      q.backoff.toInt * 2 ^ (attempt - 1).toNat := by
  have meant : 0 < q.backoff.toInt * 2 ^ (attempt - 1).toNat :=
    Int.mul_pos pos (Int.pow_pos (by omega))
  rw [toInt_backoffFor]
  exact Int.bmod_eq_of_le (by omega) (by omega)

theorem pow_next {attempt : Int} (first : 1 ≤ attempt) :
    (2 : Int) ^ attempt.toNat = 2 ^ (attempt - 1).toNat * 2 := by
  rw [← Int.pow_succ]
  congr 1
  omega

theorem backoffFor_grows_iff (coordinated : Bool) (d : Int64)
    (positive : 0 < d) (attempt : Int) (first : 1 ≤ attempt) :
    (((Queue.new coordinated d).backoffFor attempt).toInt = d.toInt * 2 ^ (attempt - 1).toNat ∧
        0 < (Queue.new coordinated d).backoffFor attempt ∧
        (Queue.new coordinated d).backoffFor attempt <
          (Queue.new coordinated d).backoffFor (attempt + 1)) ↔
      d.toInt * 2 ^ attempt.toNat < 2 ^ 63 := by
  have base := backoff_new positive coordinated
  rw [Int64.lt_iff_toInt_lt] at positive
  generalize Queue.new coordinated d = q at base ⊢
  subst base
  have meant : 0 < q.backoff.toInt * 2 ^ (attempt - 1).toNat :=
    Int.mul_pos positive (Int.pow_pos (by omega))
  have doubled : q.backoff.toInt * 2 ^ attempt.toNat =
      q.backoff.toInt * 2 ^ (attempt - 1).toNat * 2 := by
    rw [pow_next first, Int.mul_assoc]
  have below := Int64.toInt_lt (q.backoffFor attempt)
  rw [Int64.lt_iff_toInt_lt, Int64.lt_iff_toInt_lt]
  constructor
  · rintro ⟨asMeant, -, grows⟩
    by_contra tooLarge
    -- The doubled delay has lost its sign bit and is negative.
    have wrapped : (q.backoffFor (attempt + 1)).toInt =
        q.backoff.toInt * 2 ^ attempt.toNat - 2 ^ 64 := by
      rw [toInt_backoffFor, Int.add_sub_cancel, ← Int.sub_bmod_right]
      exact Int.bmod_eq_of_le (by omega) (by omega)
    omega
  · intro fits
    have now := q.toInt_backoffFor_of_lt attempt positive (by omega)
    have next := q.toInt_backoffFor_of_lt (attempt + 1) positive
      (by rw [Int.add_sub_cancel]; exact fits)
    rw [Int.add_sub_cancel] at next
    rw [now, next]
    exact ⟨rfl, meant, by omega⟩

theorem backoffFor_grows_iff_second : (0 : Int64) < 1000000000 ∧
      (((Queue.new false 1000000000).backoffFor 1).toInt =
          (1000000000 : Int64).toInt * 2 ^ (1 - 1 : Int).toNat ∧
        0 < (Queue.new false 1000000000).backoffFor 1 ∧ (Queue.new false 1000000000).backoffFor 1 <
          (Queue.new false 1000000000).backoffFor (1 + 1)) :=
  ⟨by decide, (backoffFor_grows_iff false 1000000000 (by decide) 1 (by decide)).mpr (by decide)⟩

theorem backoffFor_negative : (Queue.new false 1000000000).backoffFor 35 = -1266874889709551616 ∧
      (Queue.new false 1000000000).backoffFor 35 < 0 := by
  decide

end Queue

end Simulator
