/-
The shortest decimal text that reads back as a given double.

The real numbers that round to a double form an interval around it, whose ends belong to it exactly when the
significand is even (`Magnitude.interval`). On a decimal grid `10 ^ power` only the two neighbours of the number can be
the nearest point of the interval; the coarsest grid with a neighbour inside it wins, of two such neighbours the nearer
one, and of two that are equally near the even one (`Magnitude.shortest`).

`Layout` says how the digits are set out: which exponents are written positionally, and how the others are marked.
-/
import Graft.Decimal.Double

namespace Graft.Decimal

/-- the number `digits * 10 ^ power` -/
structure Scaled where
  digits : Nat
  power : Int
  deriving DecidableEq

/-- the numbers that round to a magnitude, as fractions over one denominator -/
structure Interval where
  low : Nat
  value : Nat
  high : Nat
  unit : Nat
  closed : Bool

namespace Interval

/-- whether the fraction `num / den` lies in the interval -/
def contains (i : Interval) (num den : Nat) : Bool :=
  let x := num * i.unit
  if i.closed then i.low * den ≤ x && x ≤ i.high * den
  else i.low * den < x && x < i.high * den

/-- the nearest point of the grid `10 ^ power` that lies in the interval, if one does -/
def onGrid? (i : Interval) (power : Int) : Option Scaled :=
  let up := Nat.pow 10 power.toNat
  let down := Nat.pow 10 (-power).toNat
  let below := i.value * down / (i.unit * up)
  let above := below + 1
  let isIn (d : Nat) : Bool := d != 0 && i.contains (d * up) down
  let rest := i.value * down % (i.unit * up)
  let nearer :=
    if 2 * rest < i.unit * up then below
    else if i.unit * up < 2 * rest then above
    else if below % 2 = 0 then below
    else above
  if isIn below && isIn above then some ⟨nearer, power⟩
  else if isIn below then some ⟨below, power⟩
  else if isIn above then some ⟨above, power⟩
  else none

end Interval

namespace Magnitude

/-- the numbers that round to `m` -/
def interval (m : Magnitude) : Interval :=
  let up := Nat.pow 2 m.exponent.toNat
  let narrow := m.significand = significandLimit / 2 ∧ leastExponent < m.exponent
  { low := (4 * m.significand - (if narrow then 1 else 2)) * up
    value := 4 * m.significand * up
    high := (4 * m.significand + 2) * up
    unit := 4 * Nat.pow 2 (-m.exponent).toNat
    closed := m.significand % 2 = 0 }

/-- a power of ten above a positive magnitude, and not much above it -/
def powerAbove (m : Magnitude) : Int :=
  ((m.significand.log2 : Int) + m.exponent) * 30103 / 100000 + 2

/-- the shortest decimal that reads back as a positive magnitude -/
def shortest (m : Magnitude) : Scaled :=
  let grids := (List.range 24).map fun (k : Nat) => m.powerAbove - (k : Int)
  (grids.findSome? m.interval.onGrid?).getD ⟨m.significand, m.exponent⟩

end Magnitude

/-- how the digits of a number are set out -/
structure Layout where
  /-- the least exponent of ten that is written positionally -/
  leastPlain : Int
  /-- the greatest exponent of ten that is written positionally -/
  greatestPlain : Int
  /-- what stands before an exponent that is not negative -/
  positiveMark : String
  /-- what stands before the size of a negative exponent -/
  negativeMark : String

namespace Layout

private def zeros (n : Nat) : String := String.ofList (List.replicate n '0')

/-- digits with a point after the first `n` of them, filled with zeros; the exponent is that of the first digit -/
def plain (digits : List Char) (exponent : Int) : String :=
  if exponent < 0 then
    "0." ++ zeros (-exponent - 1).toNat ++ String.ofList digits
  else
    let n := exponent.toNat + 1
    let whole := digits.take n
    let fraction := digits.drop n
    String.ofList whole ++ zeros (n - whole.length) ++ "."
      ++ (if fraction.isEmpty then "0" else String.ofList fraction)

/-- digits with a point after the first, and an exponent -/
def marked (layout : Layout) (digits : List Char) (exponent : Int) : String :=
  let lead := String.ofList (digits.take 1)
  let fraction := digits.drop 1
  lead ++ (if fraction.isEmpty then "" else "." ++ String.ofList fraction)
    ++ (if exponent < 0 then layout.negativeMark else layout.positiveMark) ++ toString exponent.natAbs

/-- the text of a positive decimal -/
def write (layout : Layout) (s : Scaled) : String :=
  let digits := (toString s.digits).toList
  let exponent := s.power + (digits.length : Int) - 1
  if layout.leastPlain ≤ exponent ∧ exponent ≤ layout.greatestPlain then plain digits exponent
  else layout.marked digits exponent

/-- the text of a double -/
def text (layout : Layout) (x : Double) : String :=
  let sign := if x.negative then "-" else ""
  if x.magnitude.significand = 0 then sign ++ "0.0"
  else sign ++ layout.write x.magnitude.shortest

end Layout

end Graft.Decimal
