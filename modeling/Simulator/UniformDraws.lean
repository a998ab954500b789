import Simulator.RandomStreams
import Simulator.WordPermutations

/-!
# Random draws: their period and their distribution

The state of a generator walks over all words, so `Uint64n` meets one that it accepts.
-/

namespace Simulator

open WordPermutations UInt64

theorem mix64_injective : Function.Injective mix64 := by
  have first := @xorShift_injective 30 (by decide) (by decide)
  have second := @xorShift_injective 27 (by decide) (by decide)
  have third := @xorShift_injective 31 (by decide) (by decide)
  have firstMul : (0xBF58476D1CE4E5B9 : UInt64) * 0x96DE1B173F119089 = 1 := by decide
  have secondMul : (0x94D049BB133111EB : UInt64) * 0x319642B2D24D8EC3 = 1 := by decide
  exact third.comp ((mul_injective secondMul).comp
    (second.comp ((mul_injective firstMul).comp first)))

theorem mix64_bijective : Function.Bijective mix64 :=
  Finite.injective_iff_bijective.mp mix64_injective

namespace RNG

def after (r : RNG) : Nat → RNG
  | 0 => r
  | count + 1 => (r.after count).uint64.2

def draw (r : RNG) (number : Nat) : UInt64 :=
  (r.after number).uint64.1

theorem state_after (r : RNG) (count : Nat) :
    (r.after count).state = r.state + ofNat count * golden := by
  induction count with
  | zero => simp [after]
  | succ count ih =>
    rw [UInt64.ofNat_add, UInt64.add_mul, ← UInt64.add_assoc, ← ih]
    simp [after, uint64]

theorem draw_eq (r : RNG) (number : Nat) :
    r.draw number = mix64 (r.state + ofNat (number + 1) * golden) :=
  congrArg mix64 (r.state_after (number + 1))

theorem existsUnique_draw (r : RNG) (start : Nat) (word : UInt64) :
    ∃! number, (start ≤ number ∧ number < start + 2 ^ 64) ∧ r.draw number = word := by
  obtain ⟨state, rfl⟩ := mix64_bijective.2 word
  have inverts : golden * 0xF1DE83E19937733D = 1 := by decide
  have exactly (number : Nat) : r.draw number = mix64 state ↔
      ofNat (number + 1) * golden = state - r.state := by
    rw [draw_eq, mix64_injective.eq_iff, UInt64.eq_sub_iff_add_eq, UInt64.add_comm]
  obtain ⟨count, ⟨lt, reached⟩, unique⟩ :=
    existsUnique_multiple inverts (start + 1) (state - r.state)
  refine ⟨count - 1, ⟨by omega, ?_⟩, ?_⟩
  · rw [exactly, Nat.sub_add_cancel (by omega)]
    exact reached
  · rintro number ⟨within, drawn⟩
    have := unique (number + 1) ⟨by omega, (exactly number).mp drawn⟩
    omega

theorem streams_distinct :
    Function.Bijective mix64 ∧
    (∀ seed a b, a ≠ b → (deriveU64 seed a).state ≠ (deriveU64 seed b).state) ∧
    (∀ stream first second, first ≠ second →
      (deriveU64 first stream).state ≠ (deriveU64 second stream).state) ∧
    ∀ (r : RNG) (start : Nat) (word : UInt64),
      ∃! number, (start ≤ number ∧ number < start + 2 ^ 64) ∧ r.draw number = word := by
  refine ⟨mix64_bijective, ?_, ?_, existsUnique_draw⟩
  · intro seed a b ne eq
    have shifted := mix64_injective ((xor_right_inj _).mp eq)
    exact ne ((UInt64.add_left_inj _).mp shifted)
  · intro stream first second ne eq
    exact ne (mix64_injective ((xor_left_inj _).mp eq))

/-- The plain acceptance test: the low word of the product reaches the
remainder of `2 ^ 64` by the bound. -/
def Accepted (n word : UInt64) : Prop :=
  2 ^ 64 % n.toNat ≤ (mul64 word n).2.toNat

def FirstAccepted (r : RNG) (n : UInt64) (number : Nat) : Prop :=
  Accepted n (r.draw number) ∧ ∀ earlier < number, ¬ Accepted n (r.draw earlier)

section Bounded

variable {n : UInt64}

theorem toNat_hi (word n : UInt64) : (mul64 word n).1.toNat = n.toNat * word.toNat / 2 ^ 64 := by
  have small : n.toNat * word.toNat / 2 ^ 64 < 2 ^ 64 :=
    Nat.div_lt_of_lt_mul (Nat.mul_lt_mul'' n.toNat_lt word.toNat_lt)
  rw [mul64, toNat_ofNat', Nat.mul_comm, Nat.mod_eq_of_lt small]

section

variable (positive : 0 < n)
include positive

theorem toNat_threshold : (-n % n).toNat = 2 ^ 64 % n.toNat := by
  have nonzero : 0 < n.toNat := positive
  have bounded := n.toNat_lt
  have negated : (-n).toNat = 2 ^ 64 - n.toNat := by
    rw [toNat_neg, size]
    omega
  rw [UInt64.toNat_mod, negated, ← Nat.mod_eq_sub_mod (by omega)]

theorem accepted_iff (word : UInt64) :
    ¬ (mul64 word n).2 < -n % n ↔ Accepted n word := by
  rw [UInt64.not_lt, UInt64.le_iff_toNat_le, toNat_threshold positive]
  rfl

theorem accepted_of_le {word : UInt64} (reaches : ¬ (mul64 word n).2 < n) :
    Accepted n word := by
  have below := Nat.mod_lt (2 ^ 64) (show 0 < n.toNat from positive)
  rw [UInt64.not_lt, UInt64.le_iff_toNat_le] at reaches
  exact below.le.trans reaches

theorem hi_lt (word : UInt64) : (mul64 word n).1 < n := by
  rw [lt_iff_toNat_lt, toNat_hi]
  rw [Nat.div_lt_iff_lt_mul (by decide)]
  exact Nat.mul_lt_mul_of_pos_left word.toNat_lt positive

theorem accepted_and_hi_iff (word v : UInt64) :
    Accepted n word ∧ (mul64 word n).1 = v ↔
      2 ^ 64 * v.toNat + 2 ^ 64 % n.toNat ≤ n.toNat * word.toNat ∧
        n.toNat * word.toNat < 2 ^ 64 * v.toNat + 2 ^ 64 := by
  have low : (mul64 word n).2.toNat = n.toNat * word.toNat % 2 ^ 64 := by
    rw [mul64, UInt64.toNat_mul, Nat.mul_comm]
  have remainder := Nat.mod_lt (2 ^ 64) (show 0 < n.toNat from positive)
  have bounded := n.toNat_lt
  rw [← UInt64.toNat_inj, toNat_hi, Accepted, low]
  omega

theorem card_accepted {v : UInt64} (lt : v < n) :
    Nat.card {word : UInt64 // Accepted n word ∧ (mul64 word n).1 = v} = 2 ^ 64 / n.toNat := by
  have nonzero : 0 < n.toNat := positive
  have split := Nat.div_add_mod (2 ^ 64) n.toNat
  have fits : 2 ^ 64 * (v.toNat + 1) ≤ n.toNat * 2 ^ 64 := by
    rw [Nat.mul_comm n.toNat]
    exact Nat.mul_le_mul_left _ (lt_iff_toNat_lt.mp lt)
  refine (Nat.card_congr (Equiv.subtypeEquivRight fun word => ?_)).trans
    (card_multiples_between nonzero
      (show 2 ^ 64 * v.toNat + 2 ^ 64 % n.toNat + n.toNat * (2 ^ 64 / n.toNat) ≤ _ by omega))
  rw [accepted_and_hi_iff positive]
  omega

end

variable {r : RNG} {number : Nat}

theorem exists_firstAccepted (positive : 0 < n) (r : RNG) :
    ∃ number < 2 ^ 64, FirstAccepted r n number := by
  classical
  have some : 0 < Nat.card {word : UInt64 // Accepted n word ∧ (mul64 word n).1 = 0} := by
    rw [card_accepted positive positive]
    exact Nat.div_pos n.toNat_lt.le positive
  obtain ⟨⟨word, ok, _⟩⟩ := (Nat.card_pos_iff.mp some).1
  obtain ⟨reached, ⟨lt, drawn⟩, _⟩ := r.existsUnique_draw 0 word
  have exists_accepted : ∃ number, Accepted n (r.draw number) := ⟨reached, drawn ▸ ok⟩
  refine ⟨Nat.find exists_accepted, ?_, Nat.find_spec exists_accepted, ?_⟩
  · have := Nat.find_min' exists_accepted (drawn ▸ ok : Accepted n (r.draw reached))
    omega
  · intro prior old
    exact Nat.find_min exists_accepted old

theorem redraw_eq (positive : 0 < n) (first : FirstAccepted r n number) (cur fuel : Nat)
    (old : cur ≤ number) (enough : number < cur + fuel) :
    redraw n (-n % n) fuel (mul64 (r.draw cur) n) (r.after (cur + 1)) =
      some ((mul64 (r.draw number) n).1, r.after (number + 1)) := by
  induction fuel generalizing cur with
  | zero => omega
  | succ fuel ih =>
    unfold redraw
    by_cases ok : Accepted n (r.draw cur)
    · have reached : cur = number := by
        by_contra other
        exact first.2 cur (by omega) ok
      rw [if_neg ((accepted_iff positive _).mpr ok), reached]
    · rw [if_pos (not_not.mp fun refused => ok ((accepted_iff positive _).mp refused))]
      have further : cur ≠ number := by
        rintro rfl
        exact ok first.1
      exact ih _ (by omega) (by omega)

theorem uint64n_eq (positive : 0 < n) (first : FirstAccepted r n number) (lt : number < 2 ^ 64) :
    r.uint64n n = .ok ((mul64 (r.draw number) n).1, r.after (number + 1)) := by
  unfold uint64n
  rw [if_neg (UInt64.pos_iff_ne_zero.mp positive)]
  -- the number of rounds is a variable here, so that nothing evaluates the loop
  obtain ⟨fuel, bound⟩ : ∃ fuel, fuel = 2 ^ 64 := ⟨_, rfl⟩
  rw [← bound] at lt ⊢
  simp only
  split
  · have loop : redraw n (-n % n) fuel ((mul64 r.uint64.1 n).1, (mul64 r.uint64.1 n).2)
        r.uint64.2 = some ((mul64 (r.draw number) n).1, r.after (number + 1)) :=
      redraw_eq positive first 0 fuel (Nat.zero_le number) (by omega)
    rw [loop]
  · rename_i reaches
    have reached : number = 0 := by
      by_contra later
      exact first.2 0 (by omega) (accepted_of_le positive reaches)
    rw [reached]
    rfl

theorem rejection_loop_ends (positive : 0 < n) (r : RNG) :
    ∃ count value, 0 < count ∧ count ≤ 2 ^ 64 ∧ (∀ fuel, count ≤ fuel →
        redraw n (-n % n) fuel (mul64 r.uint64.1 n) r.uint64.2 = some (value, r.after count)) ∧
      r.uint64n n = .ok (value, r.after count) := by
  obtain ⟨number, lt, first⟩ := exists_firstAccepted positive r
  refine ⟨number + 1, (mul64 (r.draw number) n).1, by omega, by omega, ?_,
    uint64n_eq positive first lt⟩
  intro fuel enough
  exact redraw_eq positive first 0 fuel (Nat.zero_le number) (by omega)

theorem rejection_loop_ends_three :
    ∃ count value, 0 < count ∧ (RNG.mk 0).uint64n 3 = .ok (value, (RNG.mk 0).after count) := by
  obtain ⟨count, value, positive, _, _, drawn⟩ := rejection_loop_ends (n := 3) (by decide) ⟨0⟩
  exact ⟨count, value, positive, drawn⟩

structure Uniform {β : Type} (n : UInt64) (result : UInt64 → β) (range : β → Prop)
    (drawn : RNG → Except String (β × RNG)) : Prop where
  counts : ∀ v, range v → Nat.card {word : UInt64 // ¬ (mul64 word n).2 < -n % n ∧
    result (mul64 word n).1 = v} = 2 ^ 64 / n.toNat
  fast : ∀ word, ¬ (mul64 word n).2 < n ∨ ¬ (mul64 word n).2 < -n % n ↔ Accepted n word
  returns : ∀ r, ∃ number, FirstAccepted r n number ∧
    drawn r = .ok (result (mul64 (r.draw number) n).1, r.after (number + 1))
  inRange : ∀ word, range (result (mul64 word n).1)

theorem uniform_of_equiv {β : Type} {res : UInt64 → β} {range : β → Prop}
    {drawn : RNG → Except String (β × RNG)} (positive : 0 < n) (back : β → UInt64)
    (inverse : ∀ word v, res word = v ↔ word = back v) (ranges : ∀ v, range v ↔ back v < n)
    (converts : ∀ r value after,
      r.uint64n n = .ok (value, after) → drawn r = .ok (res value, after)) :
    Uniform n res range drawn where
  counts := by
    intro v lt
    simp only [accepted_iff positive, inverse]
    exact card_accepted positive ((ranges v).mp lt)
  fast := by
    intro word
    rw [accepted_iff positive]
    exact ⟨fun either => either.elim (accepted_of_le positive) id, .inr⟩
  returns := by
    intro r
    obtain ⟨number, lt, first⟩ := exists_firstAccepted positive r
    exact ⟨number, first, converts r _ _ (uint64n_eq positive first lt)⟩
  inRange := by
    intro word
    rw [ranges, ← (inverse _ _).mp rfl]
    exact hi_lt positive word

theorem toInt64_range {m : Int64} (positive : 0 < m) (v : Int64) :
    0 ≤ v ∧ v < m ↔ v.toUInt64 < m.toUInt64 := by
  have value (x : Int64) : x.toInt = if 2 * x.toUInt64.toNat < 2 ^ 64 then
      (x.toUInt64.toNat : Int) else x.toUInt64.toNat - (2 ^ 64 : Nat) :=
    BitVec.toInt_eq_toNat_cond x.toBitVec
  have := v.toUInt64.toNat_lt
  have := m.toUInt64.toNat_lt
  rw [Int64.lt_iff_toInt_lt, Int64.toInt_zero, value] at positive
  rw [Int64.le_iff_toInt_le, Int64.lt_iff_toInt_lt, Int64.toInt_zero, value, value, lt_iff_toNat_lt]
  split at positive <;> split <;> omega

theorem bounded_draws_uniform {n : UInt64} {m : Int64} (positive : 0 < n) (signed : 0 < m) :
    Uniform n id (· < n) (uint64n · n) ∧
    Uniform m.toUInt64 UInt64.toInt64 (fun v => 0 ≤ v ∧ v < m) (int63n · m) := by
  constructor
  · exact uniform_of_equiv positive id (fun _ _ => .rfl) (fun _ => .rfl) fun _ _ _ drawn => drawn
  · have unsigned : 0 < m.toUInt64 := (toInt64_range signed 0).mp ⟨Int64.le_refl 0, signed⟩
    apply uniform_of_equiv unsigned Int64.toUInt64 _ (toInt64_range signed)
    · intro r value after drawn
      rw [int63n, if_neg (Int64.not_le.mpr signed), drawn]
      rfl
    · intro word v
      constructor
      · rintro rfl
        exact (toUInt64_toInt64 word).symm
      · rintro rfl
        exact Int64.toInt64_toUInt64 v

theorem bounded_draws_uniform_three :
    Uniform 3 id (· < 3) (uint64n · 3) ∧
    Uniform (3 : Int64).toUInt64 UInt64.toInt64 (fun v => 0 ≤ v ∧ v < 3) (int63n · 3) :=
  bounded_draws_uniform (by decide) (by decide)

end Bounded

end RNG

end Simulator
