/-!
# Double-precision numbers by their bits

A `Binary64` is the 64-bit pattern of a double: a sign, eleven exponent bits and 52 fraction bits. A
finite one has the value `significand · 2 ^ exponent`. All arithmetic here is exact, on natural
numbers:

* `ofRatio` rounds a quotient to the nearest double, a tie to the even significand;
* `ofDecimal` is the double nearest to `digits · 10 ^ scale`;
* `mul` and `div` are the rounded product and quotient of finite doubles.
-/

namespace Dataflow

/-- A double, as its bit pattern: sign, exponent and fraction, from the highest bit to the lowest.
-/
structure Binary64 where
  bits : UInt64
deriving DecidableEq, Inhabited

namespace Binary64

/-! ### Fields -/

/-- The sign bit is set. -/
def isNegative (x : Binary64) : Bool := Nat.pow 2 63 ≤ x.bits.toNat

/-- The eleven exponent bits. -/
def exponentField (x : Binary64) : Nat := x.bits.toNat / Nat.pow 2 52 % Nat.pow 2 11

/-- The 52 fraction bits. -/
def fractionField (x : Binary64) : Nat := x.bits.toNat % Nat.pow 2 52

/-- Neither an infinity nor a NaN. -/
def isFinite (x : Binary64) : Bool := x.exponentField < 2047

/-- Not a number. -/
def isNaN (x : Binary64) : Bool := !x.isFinite && x.fractionField != 0

/-- The integer factor of a finite double's magnitude. -/
def significand (x : Binary64) : Nat :=
  if x.exponentField = 0 then x.fractionField else x.fractionField + Nat.pow 2 52

/-- The power of two of a finite double's magnitude. -/
def exponent (x : Binary64) : Int := (max 1 x.exponentField : Nat) - 1075

/-- The magnitude of a finite double as a fraction: numerator and denominator. -/
def magnitude (x : Binary64) : Nat × Nat :=
  if 0 ≤ x.exponent then (x.significand * Nat.pow 2 x.exponent.toNat, 1)
  else (x.significand, Nat.pow 2 (-x.exponent).toNat)

/-- A finite double without a fractional part. -/
def isIntegral (x : Binary64) : Bool :=
  x.isFinite && x.magnitude.1 % x.magnitude.2 == 0

/-! ### Rounding -/

/-- The quotient rounded to the nearest integer, a half to the even neighbour. -/
def roundHalfEven (num den : Nat) : Nat :=
  let q := num / den
  let r := num % den
  if 2 * r < den then q
  else if den < 2 * r then q + 1
  else if q % 2 = 0 then q else q + 1

/-- The exponent of the largest power of two not above a positive quotient. -/
def floorLog2 (num den : Nat) : Int :=
  let e : Int := (Nat.log2 num : Int) - Nat.log2 den
  let reached := if 0 ≤ e then den * Nat.pow 2 e.toNat ≤ num else den ≤ num * Nat.pow 2 (-e).toNat
  if reached then e else e - 1

/-- A bit pattern for a magnitude, which is an infinity once it leaves the finite ones. -/
def ofMagnitudeBits (negative : Bool) (n : Nat) : Binary64 :=
  ⟨UInt64.ofNat (min n (2047 * Nat.pow 2 52) + if negative then Nat.pow 2 63 else 0)⟩

/-- The zero of a sign. -/
def zero (negative : Bool) : Binary64 := ofMagnitudeBits negative 0

/-- The infinity of a sign. -/
def infinity (negative : Bool) : Binary64 := ofMagnitudeBits negative (2047 * Nat.pow 2 52)

/-- The double nearest to `num / den`, a tie to the even significand. The pattern of a magnitude is
its exponent, counted from the least one, times `2 ^ 52`, plus the significand: a significand that
rounds up to the next power of two carries into the exponent by itself. -/
def ofRatio (negative : Bool) (num den : Nat) : Binary64 :=
  if num = 0 then zero negative
  else
    let q : Int := max (floorLog2 num den - 52) (-1074)
    let m := if 0 ≤ q then roundHalfEven num (den * Nat.pow 2 q.toNat)
      else roundHalfEven (num * Nat.pow 2 (-q).toNat) den
    ofMagnitudeBits negative ((q + 1074).toNat * Nat.pow 2 52 + m)

/-- The double nearest to `digits · 10 ^ scale`. Beyond the range of the finite doubles no power is
computed: the number of digits alone tells that the value is infinite or vanishes. -/
def ofDecimal (negative : Bool) (digits : Nat) (scale : Int) : Binary64 :=
  let top : Int := (Nat.toDigits 10 digits).length + scale
  if digits = 0 || top < -330 then zero negative
  else if 330 < top then infinity negative
  else if 0 ≤ scale then ofRatio negative (digits * Nat.pow 10 scale.toNat) 1
  else ofRatio negative digits (Nat.pow 10 (-scale).toNat)

/-- The double nearest to a natural number. -/
def ofNat (n : Nat) : Binary64 := ofRatio false n 1

/-- The same magnitude with the other sign. -/
def neg (x : Binary64) : Binary64 :=
  ⟨UInt64.ofNat (if x.isNegative then x.bits.toNat - Nat.pow 2 63 else x.bits.toNat + Nat.pow 2 63)⟩

/-- The rounded product of two finite doubles. -/
def mul (x y : Binary64) : Binary64 :=
  ofRatio (x.isNegative != y.isNegative)
    (x.magnitude.1 * y.magnitude.1) (x.magnitude.2 * y.magnitude.2)

/-- The rounded quotient of two finite doubles, the second one not zero. -/
def div (x y : Binary64) : Binary64 :=
  ofRatio (x.isNegative != y.isNegative)
    (x.magnitude.1 * y.magnitude.2) (x.magnitude.2 * y.magnitude.1)

end Binary64

end Dataflow
