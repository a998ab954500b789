import Simulator.FloatArithmetic

/-!
# Random streams

`splitmix64`, and the streams derived from a seed; a draw returns the generator after it.
-/

namespace Simulator

def golden : UInt64 :=
  0x9E3779B97F4A7C15

def mix64 (z : UInt64) : UInt64 :=
  let z := (z ^^^ (z >>> 30)) * 0xBF58476D1CE4E5B9
  let z := (z ^^^ (z >>> 27)) * 0x94D049BB133111EB
  z ^^^ (z >>> 31)

/-- `bits.Mul64` -/
def mul64 (x y : UInt64) : UInt64 × UInt64 :=
  (UInt64.ofNat (x.toNat * y.toNat / 2 ^ 64), x * y)

structure RNG where
  state : UInt64
deriving DecidableEq

namespace RNG

/-- `Uint64`, which spells `mix64` out -/
def uint64 (r : RNG) : UInt64 × RNG :=
  let state := r.state + golden
  (mix64 state, ⟨state⟩)

/-- The loop of `Uint64n`: draw again while the low word is below the
threshold.  The generator has period `2 ^ 64`. -/
def redraw (n threshold : UInt64) :
    Nat → UInt64 × UInt64 → RNG → Option (UInt64 × RNG)
  | 0, _, _ => none
  | fuel + 1, (hi, lo), r =>
    if lo < threshold then
      let (x, r) := r.uint64
      redraw n threshold fuel (mul64 x n) r
    else
      some (hi, r)

def uint64n (r : RNG) (n : UInt64) : Except String (UInt64 × RNG) :=
  if n = 0 then .error "rng: Uint64n called with zero bound"
  else
    let (x, r) := r.uint64
    let (hi, lo) := mul64 x n
    if lo < n then
      match redraw n (-n % n) (2 ^ 64) (hi, lo) r with
      | some drawn => .ok drawn
      | none => .error "rng: no draw is accepted"
    else
      .ok (hi, r)

def int63n (r : RNG) (n : Int64) : Except String (Int64 × RNG) :=
  if n ≤ 0 then .error "rng: Int63n called with non-positive bound"
  else (fun (v, r) => (v.toInt64, r)) <$> r.uint64n n.toUInt64

def float64 (F : FloatOps) (r : RNG) : Float64 × RNG :=
  let (x, r) := r.uint64
  (F.mul (.ofNat (x >>> 11).toNat) ⟨0x3CA0000000000000⟩, r)

def deriveU64 (seed stream : UInt64) : RNG :=
  ⟨mix64 seed ^^^ mix64 (stream + golden)⟩

/-- `binary.LittleEndian.PutUint64` -/
def putUint64 (v : UInt64) : List UInt8 :=
  [v.toUInt8, (v >>> 8).toUInt8, (v >>> 16).toUInt8, (v >>> 24).toUInt8, (v >>> 32).toUInt8,
    (v >>> 40).toUInt8, (v >>> 48).toUInt8, (v >>> 56).toUInt8]

/-- `Write` of the 64-bit FNV-1a hash -/
def fnvWrite (hash : UInt64) (bytes : List UInt8) : UInt64 :=
  bytes.foldl (fun hash byte => (hash ^^^ byte.toUInt64) * 1099511628211) hash

/-- `Derive`; a string is the list of its bytes -/
def derive (seed : UInt64) (keys : List (List UInt8)) : RNG :=
  ⟨keys.foldl (fun hash key => fnvWrite (fnvWrite hash [0xff]) key)
    (fnvWrite 14695981039346656037 (putUint64 seed))⟩

end RNG

end Simulator
