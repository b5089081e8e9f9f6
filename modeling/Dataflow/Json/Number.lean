import Dataflow.Json.Basic
import Dataflow.Number.Decimal

/-!
# What a numeral is worth

A numeral without point and power is an integer, if 64 bits hold it. Any other is a double: the
leading digits that fit in 64 bits are rounded to a double, and that is multiplied or divided by a
power of ten.
-/

namespace Dataflow

/-- A number as a reader takes it: an integer of at most 64 bits, or a double. -/
inductive Number
  | integer (n : Int)
  | float (x : Binary64)
deriving DecidableEq, Inhabited

namespace Numeral

/-- Extend a number by further digits while it fits in 64 bits; also how many digits are left over.
-/
def accumulate : Nat → List Nat → Nat × Nat
  | s, [] => (s, 0)
  | s, d :: ds =>
    if 10 * s + d < UInt64.size then accumulate (10 * s + d) ds else (s, (d :: ds).length)

/-- The leading digits that fit in 64 bits, and the power of ten that goes with them. -/
def significand (n : Numeral) : Nat × Int :=
  let whole := (Nat.toDigits 10 n.whole).map fun c => c.toNat - '0'.toNat
  let (s, dropped) := accumulate 0 whole
  let (s, unread) := accumulate s (n.fraction.map Fin.val)
  (s, (dropped : Int) - ((n.fraction.length - unread : Nat) : Int))

/-- Divide by a power of ten, in steps that a double can hold. -/
def scaleDown (x : Binary64) (k : Nat) : Binary64 :=
  if k ≤ 308 then x.div (.ofDecimal false 1 k)
  else if x.significand = 0 then x
  else scaleDown (x.div (.ofDecimal false 1 308)) (k - 308)
termination_by k

/-- Multiply by a power of ten; none if the result is no finite double. -/
def scaleUp? (x : Binary64) (k : Nat) : Option Binary64 :=
  if k ≤ 308 then
    let y := x.mul (.ofDecimal false 1 k)
    if y.isFinite then some y else none
  else if x.significand = 0 then some x
  else none

/-- The double that a numeral stands for; none beyond the finite ones. -/
def float? (n : Numeral) : Option Binary64 :=
  let (s, k) := n.significand
  let k := k + n.exponent.getD 0
  let x := Binary64.ofNat s
  let y? := if 0 ≤ k then scaleUp? x k.toNat else some (scaleDown x (-k).toNat)
  y?.map fun y => if n.negative then y.neg else y

/-- The number that a numeral stands for; none beyond the finite doubles. Minus zero is a double. -/
def number? (n : Numeral) : Option Number :=
  if n.fraction.isEmpty && n.exponent.isNone then
    if !n.negative && n.whole < UInt64.size then some (.integer n.whole)
    else if n.negative && 0 < n.whole && n.whole ≤ Nat.pow 2 63 then
      some (.integer (-(n.whole : Int)))
    else n.float?.map .float
  else n.float?.map .float

end Numeral

end Dataflow
