import Simulator.GoValues

/-!
# Floating-point arithmetic of the models

Conversion from integers and comparison are defined on bit patterns; the rest is a
parameter, `FloatOps`.
-/

namespace Simulator

namespace Float64

/-- `n / 2 ^ shift`, rounded to nearest with ties to even. -/
def roundShift (n shift : Nat) : Nat :=
  let quotient := n / 2 ^ shift
  let remainder := n % 2 ^ shift
  if 2 * remainder < 2 ^ shift ∨ 2 * remainder = 2 ^ shift ∧ quotient % 2 = 0 then
    quotient
  else
    quotient + 1

/-- The 53-bit significand of a positive integer.  Rounding up may give
`2 ^ 53`, which carries into the exponent. -/
def significand (n : Nat) : Nat :=
  if n.log2 ≤ 52 then n * 2 ^ (52 - n.log2)
  else roundShift n (n.log2 - 52)

/-- `float64(n)` -/
def ofNat (n : Nat) : Float64 :=
  if n = 0 then zero
  else if 1024 ≤ n.log2 then ⟨UInt64.ofNat infinite⟩
  else ⟨UInt64.ofNat ((n.log2 + 1022) * 2 ^ 52 + significand n)⟩

def neg (x : Float64) : Float64 :=
  ⟨x.bits + 0x8000000000000000⟩

/-- `float64(n)` for a signed integer -/
def ofInt : Int → Float64
  | .ofNat n => ofNat n
  | .negSucc n => neg (ofNat (n + 1))

theorem roundShift_le (n shift : Nat) : roundShift n shift ≤ n / 2 ^ shift + 1 := by
  simp only [roundShift]
  split <;> omega

theorem significand_le (n : Nat) : significand n ≤ 2 ^ 53 := by
  have below : n < 2 ^ (n.log2 + 1) := Nat.lt_log2_self
  unfold significand
  split
  · rename_i small
    have scaled : n * 2 ^ (52 - n.log2) < 2 ^ (n.log2 + 1) * 2 ^ (52 - n.log2) :=
      Nat.mul_lt_mul_of_pos_right below (Nat.two_pow_pos _)
    rw [← Nat.pow_add, show n.log2 + 1 + (52 - n.log2) = 53 by omega] at scaled
    exact Nat.le_of_lt scaled
  · rename_i large
    have quotient : n / 2 ^ (n.log2 - 52) < 2 ^ 53 := by
      rw [Nat.div_lt_iff_lt_mul (Nat.two_pow_pos _), ← Nat.pow_add,
        show 53 + (n.log2 - 52) = n.log2 + 1 by omega]
      exact below
    exact Nat.le_trans (roundShift_le n _) quotient

theorem bits_ofNat {n : Nat} (pos : n ≠ 0) :
    0 < (ofNat n).bits.toNat ∧ (ofNat n).bits.toNat < 2 ^ 63 := by
  unfold ofNat
  rw [if_neg pos]
  split
  · decide
  · rename_i finite
    have carried := significand_le n
    simp only [UInt64.toNat_ofNat']
    omega

theorem ofInt_eq_ofInt_zero_iff {n : Int} : ofInt n = ofInt 0 ↔ n = 0 := by
  constructor
  · intro eq
    have bits : (ofInt n).bits.toNat = 0 := by rw [eq]; rfl
    cases n with
    | ofNat n =>
      by_contra nonzero
      have pos : n ≠ 0 := by
        rintro rfl
        exact nonzero rfl
      have above := (bits_ofNat pos).1
      simp only [ofInt] at bits
      omega
    | negSucc n =>
      have bounds := bits_ofNat (Nat.succ_ne_zero n)
      simp only [ofInt, neg, UInt64.toNat_add, Nat.succ_eq_add_one] at bits bounds
      have sign : (0x8000000000000000 : UInt64).toNat = 2 ^ 63 := rfl
      omega
  · rintro rfl
    rfl

/-- `x <= y` -/
def lessEq (x y : Float64) : Bool :=
  x.less y || x.equal y

/-- `math.Inf(1)` -/
def posInf : Float64 :=
  ⟨0x7FF0000000000000⟩

/-- `math.Inf(-1)` -/
def negInf : Float64 :=
  ⟨0xFFF0000000000000⟩

/-- `math.NaN()` -/
def nan : Float64 :=
  ⟨0x7FF8000000000001⟩

/-- `math.Signbit` -/
def signbit (x : Float64) : Bool :=
  2 ^ 63 ≤ x.bits.toNat

/-- `math.Max` -/
def max (x y : Float64) : Float64 :=
  if x = posInf ∨ y = posInf then posInf
  else if x.isNaN || y.isNaN then nan
  else if x.equal zero && x.equal y then
    if x.signbit then y else x
  else if y.less x then x
  else y

/-- `math.Min` -/
def min (x y : Float64) : Float64 :=
  if x = negInf ∨ y = negInf then negInf
  else if x.isNaN || y.isNaN then nan
  else if x.equal zero && x.equal y then
    if x.signbit then x else y
  else if x.less y then x
  else y

end Float64

/-- The operations `+`, `-`, `*` and `/` on `float64`, `int(x)`, and the verb
`%f`. -/
structure FloatOps where
  add : Float64 → Float64 → Float64
  sub : Float64 → Float64 → Float64
  mul : Float64 → Float64 → Float64
  div : Float64 → Float64 → Float64
  truncate : Float64 → Int
  format : Float64 → String

end Simulator
