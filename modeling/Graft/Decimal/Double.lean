/-
Double precision numbers, kept exactly.

A `Double` is a sign and a magnitude `significand * 2 ^ exponent` of 53 bits, so that all arithmetic on it is
arithmetic on natural numbers. `Magnitude.nearest` rounds a fraction to the nearest magnitude, a half going to the even
neighbour; products and quotients are rounded fractions. `Magnitude.scaled` multiplies by a power of ten in the way
the exchange format asks for: by one rounded power where the exponent lies within `308`, otherwise by repeated
division, so its result is not always the nearest double to the decimal that was written.
-/

namespace Graft.Decimal

/-- the size of a finite double, `significand * 2 ^ exponent` -/
structure Magnitude where
  significand : Nat
  exponent : Int
  deriving DecidableEq

/-- a finite double precision number -/
structure Double where
  negative : Bool
  magnitude : Magnitude
  deriving DecidableEq

/-- the least exponent, that of the numbers next to zero -/
def leastExponent : Int := -1074

/-- the greatest exponent, that of the largest finite numbers -/
def greatestExponent : Int := 971

/-- the least number of more than 53 bits, `2 ^ 53` -/
def significandLimit : Nat := 9007199254740992

/-- a quotient rounded to the nearest whole number, a half to the even one -/
def roundedQuotient (num den : Nat) : Nat :=
  let q := num / den
  let r := num % den
  if 2 * r < den then q
  else if den < 2 * r then q + 1
  else if q % 2 = 0 then q
  else q + 1

namespace Magnitude

def zero : Magnitude := ⟨0, leastExponent⟩

/-- the magnitude as a fraction: its numerator -/
def numerator (m : Magnitude) : Nat := m.significand * Nat.pow 2 m.exponent.toNat

/-- the magnitude as a fraction: its denominator -/
def denominator (m : Magnitude) : Nat := Nat.pow 2 (-m.exponent).toNat

/-- the exponent at which a positive fraction has a significand of 53 bits, if that is not too small -/
def exponentFor (num den : Nat) : Int :=
  let low : Int := (num.log2 : Int) - (den.log2 : Int) - 53
  let fits := num * Nat.pow 2 (-low).toNat / (den * Nat.pow 2 low.toNat) < significandLimit
  max leastExponent (if fits then low else low + 1)

/-- the magnitude nearest to a fraction; none when it is too large to be finite -/
def nearest (num den : Nat) : Option Magnitude :=
  if num = 0 then some zero
  else
    let e := exponentFor num den
    let q := roundedQuotient (num * Nat.pow 2 (-e).toNat) (den * Nat.pow 2 e.toNat)
    let m : Magnitude := if q = significandLimit then ⟨significandLimit / 2, e + 1⟩ else ⟨q, e⟩
    if greatestExponent < m.exponent then none else some m

def times (a b : Magnitude) : Option Magnitude :=
  nearest (a.numerator * b.numerator) (a.denominator * b.denominator)

def dividedBy (a b : Magnitude) : Option Magnitude :=
  nearest (a.numerator * b.denominator) (a.denominator * b.numerator)

/-- the double nearest to a power of ten -/
def powerOfTen (k : Nat) : Option Magnitude := nearest (Nat.pow 10 k) 1

/-- the largest power of ten that is used in one step -/
def widestPower : Nat := 308

/-- the magnitude times a power of ten; none when that is too large to be finite -/
def scaled (m : Magnitude) (power : Int) : Option Magnitude :=
  if power.natAbs ≤ widestPower then do
    let p ← powerOfTen power.natAbs
    if 0 ≤ power then m.times p else m.dividedBy p
  else if m.significand = 0 then some m
  else if 0 ≤ power then none
  else do
    let p ← powerOfTen widestPower
    let smaller ← m.dividedBy p
    smaller.scaled (power + widestPower)
termination_by power.natAbs
decreasing_by
  simp only [widestPower] at *
  omega

end Magnitude

end Graft.Decimal
