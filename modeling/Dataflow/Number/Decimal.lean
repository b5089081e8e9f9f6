import Dataflow.Number.Binary64

/-!
# Decimal texts of doubles

* `shortest` finds the decimal with the fewest digits among those that read back as a given double,
  and of these the nearest to it; where two are equally near, the format says which one it takes;
* `positional` writes a decimal without an exponent;
* `scientific` writes it with an exponent once it is very large or very small.
-/

namespace Dataflow

/-- The number `digits · 10 ^ scale`. -/
structure Decimal where
  digits : Nat
  scale : Int
deriving DecidableEq, Inhabited

namespace Decimal

/-! ### The shortest decimal that reads back -/

/-- The reals that round to a positive double `m · 2 ^ q`, in units of `2 ^ (q - 2)`: the lower end,
the double itself, the upper end, and whether the ends round to it too. Below a power of two the gap
to the next smaller double is half as wide. -/
structure Interval where
  low : Nat
  mid : Nat
  high : Nat
  closed : Bool

/-- The interval of a finite double. -/
def Interval.ofBinary64 (x : Binary64) : Interval :=
  let m := x.significand
  let narrow := m = Nat.pow 2 52 ∧ -1074 < x.exponent
  { low := 4 * m - (if narrow then 1 else 2)
    mid := 4 * m
    high := 4 * m + 2
    closed := m % 2 == 0 }

/-- A point `c` of the grid `10 ^ k` lies in the interval, whose unit is `num / den` grid steps. -/
def Interval.contains (i : Interval) (num den c : Nat) : Bool :=
  if i.closed then i.low * num ≤ c * den && c * den ≤ i.high * num
  else i.low * num < c * den && c * den < i.high * num

/-- Which of two equally near neighbours is taken: the greater or the even one. -/
inductive Tie
  | up
  | even
deriving DecidableEq, Inhabited

/-- The one of `c` and `c + 1` that is taken when both are equally near. -/
def Tie.pick (tie : Tie) (c : Nat) : Nat :=
  match tie with
  | up => c + 1
  | even => if c % 2 = 0 then c else c + 1

/-- The one of `c` and `c + 1` that is nearer to `num / den`, which lies between them. -/
def Tie.nearer (tie : Tie) (num den c : Nat) : Nat :=
  let twice := 2 * (num - c * den)
  if twice < den then c else if twice = den then tie.pick c else c + 1

/-- The point of a grid in the interval that is nearest to its double, if there is one. It suffices
to look at the two neighbours of the double on the grid. -/
def Interval.nearest? (i : Interval) (tie : Tie) (num den : Nat) : Option Nat :=
  let c := i.mid * num / den
  match i.contains num den c, i.contains num den (c + 1) with
  | false, false => none
  | true, false => some c
  | false, true => some (c + 1)
  | true, true => some (tie.nearer (i.mid * num) den c)

/-- The unit `2 ^ u` in steps of the grid `10 ^ k`, as a fraction. -/
def gridRatio (u k : Int) : Nat × Nat :=
  (Nat.pow 2 u.toNat * Nat.pow 10 (-k).toNat, Nat.pow 2 (-u).toNat * Nat.pow 10 k.toNat)

/-- The coarsest grid from `10 ^ k` down that has a point in the interval, with its nearest point.
-/
def search (i : Interval) (tie : Tie) (u : Int) : Nat → Int → Decimal
  | 0, k => ⟨0, k⟩
  | fuel + 1, k =>
    let (num, den) := gridRatio u k
    match i.nearest? tie num den with
    | some c => ⟨c, k⟩
    | none => search i tie u fuel (k - 1)

/-- The shortest decimal that reads back as the magnitude of a finite double, nearest to it. The
search starts above the double and ends at the latest on the grid `10 ^ (-1074)`, which holds every
double. -/
def shortest (tie : Tie) (x : Binary64) : Decimal :=
  if x.significand = 0 then ⟨0, 0⟩
  else
    let bitsAbove : Int := (Nat.log2 x.significand : Int) + 1 + x.exponent
    let top := bitsAbove * 30103 / 100000 + 1
    search (.ofBinary64 x) tie (x.exponent - 2) (top + 1076).toNat top

/-! ### Texts -/

/-- The digits of a natural number. -/
def digitChars (n : Nat) : List Char := Nat.toDigits 10 n

/-- A decimal without an exponent: zeros fill the places up to the point, and an integral value has
no point. -/
def positional (d : Decimal) : List Char :=
  let ds := digitChars d.digits
  if 0 ≤ d.scale then ds ++ List.replicate (if d.digits = 0 then 0 else d.scale.toNat) '0'
  else
    let places := (-d.scale).toNat
    if places < ds.length then ds.take (ds.length - places) ++ '.' :: ds.drop (ds.length - places)
    else ['0', '.'] ++ List.replicate (places - ds.length) '0' ++ ds

/-- A decimal as a data format writes it: positional, with a fraction, from `10 ^ (-5)` up to below
`10 ^ 16`, else one digit before the point and a signed exponent. -/
def scientific (d : Decimal) : List Char :=
  let ds := digitChars d.digits
  let e : Int := ds.length + d.scale - 1
  if d.digits = 0 then ['0', '.', '0']
  else if -5 ≤ e ∧ e ≤ 15 then
    if 0 ≤ d.scale then d.positional ++ ['.', '0'] else d.positional
  else
    let fraction := if ds.length ≤ 1 then [] else '.' :: ds.drop 1
    ds.take 1 ++ fraction ++ ['e', if 0 ≤ e then '+' else '-'] ++ digitChars e.natAbs

end Decimal

namespace Binary64

/-- The sign of a double as text. -/
def signChars (x : Binary64) : List Char := if x.isNegative then ['-'] else []

/-- Infinities and NaN have names; a finite double is its sign and the text of its magnitude. -/
def textWith (finite : Binary64 → List Char) (x : Binary64) : String :=
  String.ofList <|
    if x.isFinite then x.signChars ++ finite x
    else if x.isNaN then ['N', 'a', 'N'] else x.signChars ++ ['i', 'n', 'f']

/-- The shortest text that reads back, never with an exponent, without a fraction when integral. A
tie goes up. -/
def plainText (x : Binary64) : String := x.textWith fun x => (Decimal.shortest .up x).positional

/-- The text of a number literal: an integral value in full with `.0`, any other as its shortest
text. A tie goes up. -/
def literalText (x : Binary64) : String :=
  x.textWith fun x =>
    if x.isIntegral then Decimal.digitChars (x.magnitude.1 / x.magnitude.2) ++ ['.', '0']
    else (Decimal.shortest .up x).positional

/-- The shortest text that reads back, with an exponent when very large or very small. A tie goes to
the even digit. -/
def dataText (x : Binary64) : String := x.textWith fun x => (Decimal.shortest .even x).scientific

end Binary64

end Dataflow
