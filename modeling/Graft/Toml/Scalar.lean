/-
Numbers, dates and times of a TOML text.

Each reader takes the text that is left and gives what is left after the value, or nothing when there is no such value.
Underscores may stand between two digits. An integer fits 64 signed bits, a float is not so large as to be infinite
unless it is negative or says so, and dates are those of the calendar.
-/
import Graft.Decimal.Double
import Graft.Text.Numeral

namespace Graft.Toml

open Graft.Decimal

/-- the digits after a first one, with single underscores between them, and what is left -/
def moreDigits (isDigit : Char → Bool) : List Char → Option (List Char × List Char)
  | [] => some ([], [])
  | ['_'] => none
  | '_' :: c :: cs => if isDigit c then (moreDigits isDigit cs).map fun (ds, rest) => (c :: ds, rest) else none
  | c :: cs =>
    if isDigit c then (moreDigits isDigit cs).map fun (ds, rest) => (c :: ds, rest)
    else some ([], c :: cs)

/-- a run of digits and what is left -/
def digits (isDigit : Char → Bool) : List Char → Option (List Char × List Char)
  | c :: cs => if isDigit c then (moreDigits isDigit cs).map fun (ds, rest) => (c :: ds, rest) else none
  | [] => none

/-- an optional sign: whether it is a minus, and what is left -/
def sign : List Char → Bool × List Char
  | '+' :: cs => (false, cs)
  | '-' :: cs => (true, cs)
  | cs => (false, cs)

/-- a decimal without leading zeros: whether it is negative, its digits, and what is left -/
def decimal (cs : List Char) : Option (Bool × List Char × List Char) :=
  let (negative, cs) := sign cs
  match cs with
  | '0' :: rest => some (negative, ['0'], rest)
  | cs => (digits Char.isDigit cs).map fun (ds, rest) => (negative, ds, rest)

/-! ## Integers -/

/-- an integer with a mark of its radix -/
def markedInteger (radix : Nat) (cs : List Char) : Option (List Char) := do
  let (ds, rest) ← digits (fun c => (Text.digitIn radix c).isSome) cs
  let n ← Text.value? radix ds
  if n < Text.signedLimit then some rest else none

/-- an integer, and what is left after it -/
def integer (cs : List Char) : Option (List Char) :=
  match cs with
  | '0' :: 'x' :: ds => markedInteger 16 ds
  | '0' :: 'o' :: ds => markedInteger 8 ds
  | '0' :: 'b' :: ds => markedInteger 2 ds
  | _ => do
    let (negative, ds, rest) ← decimal cs
    let n ← Text.value? 10 ds
    if n < Text.signedLimit ∨ negative ∧ n = Text.signedLimit then some rest else none

/-! ## Floats -/

/-- the exponent of a float, if there is one -/
def exponent (cs : List Char) : Option (Option Int × List Char) :=
  let read (cs : List Char) : Option (Option Int × List Char) := do
    let (negative, cs) := sign cs
    let (ds, rest) ← digits Char.isDigit cs
    let n ← Text.value? 10 ds
    return (some (if negative then -(n : Int) else n), rest)
  match cs with
  | 'e' :: cs => read cs
  | 'E' :: cs => read cs
  | cs => some (none, cs)

/-- whether the number of these digits, a power of ten and so many places is too large for a finite double -/
def isInfinite (ds : List Char) (power : Int) : Bool :=
  let significant := ds.dropWhile (· == '0')
  let top : Int := significant.length + power
  if significant.isEmpty then false
  else if 309 < top then true
  else if top < 309 then false
  else
    let n := (Text.value? 10 significant).getD 0
    (Magnitude.nearest (n * Nat.pow 10 power.toNat) (Nat.pow 10 (-power).toNat)).isNone

/-- a float written in digits -/
def digitFloat (cs : List Char) : Option (List Char) := do
  let (negative, whole, rest) ← decimal cs
  let (fraction, rest) ← match rest with
    | '.' :: rest => digits Char.isDigit rest
    | rest => some ([], rest)
  let (power, rest) ← exponent rest
  if fraction.isEmpty ∧ power.isNone then none
  else if !negative ∧ isInfinite (whole ++ fraction) (power.getD 0 - fraction.length) then none
  else some rest

/-- a float that says that it is infinite or no number -/
def namedFloat (cs : List Char) : Option (List Char) :=
  match (sign cs).2 with
  | 'i' :: 'n' :: 'f' :: rest => some rest
  | 'n' :: 'a' :: 'n' :: rest => some rest
  | _ => none

/-- a float, and what is left after it -/
def float (cs : List Char) : Option (List Char) := (digitFloat cs).or (namedFloat cs)

/-! ## Dates and times -/

/-- a number of two digits within bounds, and what is left -/
def twoDigits (low high : Nat) : List Char → Option (Nat × List Char)
  | a :: b :: rest => do
    let n ← if a.isDigit ∧ b.isDigit then Text.value? 10 [a, b] else none
    if low ≤ n ∧ n ≤ high then some (n, rest) else none
  | _ => none

/-- passes over one character -/
def expect (c : Char) : List Char → Option (List Char)
  | d :: rest => if c = d then some rest else none
  | [] => none

def isLeapYear (year : Nat) : Bool := year % 4 == 0 && (year % 100 != 0 || year % 400 == 0)

def daysOfMonth (year month : Nat) : Nat :=
  if month = 2 then (if isLeapYear year then 29 else 28)
  else if month = 4 ∨ month = 6 ∨ month = 9 ∨ month = 11 then 30
  else 31

/-- a date -/
def date (cs : List Char) : Option (List Char) := do
  let (century, rest) ← twoDigits 0 99 cs
  let (year, rest) ← twoDigits 0 99 rest
  let (month, rest) ← twoDigits 1 12 (← expect '-' rest)
  let (day, rest) ← twoDigits 1 31 (← expect '-' rest)
  if day ≤ daysOfMonth (100 * century + year) month then some rest else none

/-- the fraction of a second, if there is one -/
def secondFraction : List Char → List Char
  | '.' :: c :: rest => if c.isDigit then rest.dropWhile Char.isDigit else '.' :: c :: rest
  | cs => cs

/-- a time of day; a minute may have a leap second -/
def time (cs : List Char) : Option (List Char) := do
  let (_, rest) ← twoDigits 0 23 cs
  let (_, rest) ← twoDigits 0 59 (← expect ':' rest)
  let (_, rest) ← twoDigits 0 60 (← expect ':' rest)
  return secondFraction rest

/-- the distance from the standard time, if it is given -/
def offset (cs : List Char) : Option (List Char) :=
  let distance (cs : List Char) : Option (List Char) := do
    let (_, rest) ← twoDigits 0 23 cs
    let (_, rest) ← twoDigits 0 59 (← expect ':' rest)
    return rest
  match cs with
  | 'Z' :: rest => some rest
  | 'z' :: rest => some rest
  | '+' :: rest => distance rest
  | '-' :: rest => distance rest
  | cs => some cs

/-- the time after a date, if there is one -/
def timeAfterDate (cs : List Char) : List Char :=
  let read (cs : List Char) : Option (List Char) := do offset (← time cs)
  match cs with
  | 'T' :: rest => (read rest).getD cs
  | 't' :: rest => (read rest).getD cs
  | ' ' :: rest => (read rest).getD cs
  | _ => cs

/-- a date, a time or both, and what is left -/
def dateTime (cs : List Char) : Option (List Char) := ((date cs).map timeAfterDate).or (time cs)

end Graft.Toml
