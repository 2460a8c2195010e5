/-
Numerals: reading a whole number written in ASCII digits, with an upper bound, and the words that hold them.

`value?` reads a non-empty run of digits in a radix and nothing else. `integer?` reads a signed decimal that fits a
64-bit word; `unsigned?` reads an unsigned number below `2 ^ 128` in any radix up to sixteen, where a leading plus sign
is allowed and a minus sign is not.
-/

namespace Graft.Text

/-- the least number beyond the signed 64-bit range, `2 ^ 63` -/
def signedLimit : Nat := 9223372036854775808

/-- the least number beyond the unsigned 128-bit range, `2 ^ 128` -/
def unsignedLimit : Nat := 340282366920938463463374607431768211456

/-- a whole number as a 32-bit word, if it is one -/
def word? (n : Int) : Option UInt32 :=
  if 0 ≤ n ∧ n < UInt32.size then some (UInt32.ofNat n.toNat) else none

/-- the value of an ASCII digit, letters standing for ten to fifteen -/
def digitValue (c : Char) : Option Nat :=
  let n := c.toNat
  if 48 ≤ n ∧ n ≤ 57 then some (n - 48)
  else if 97 ≤ n ∧ n ≤ 102 then some (n - 87)
  else if 65 ≤ n ∧ n ≤ 70 then some (n - 55)
  else none

/-- the value of a digit of the radix -/
def digitIn (radix : Nat) (c : Char) : Option Nat :=
  (digitValue c).filter (· < radix)

/-- the value of a run of digits read after `acc`, unless some character is no digit -/
def digitsValue? (radix : Nat) (acc : Nat) : List Char → Option Nat
  | [] => some acc
  | c :: cs => (digitIn radix c).bind fun d => digitsValue? radix (radix * acc + d) cs

/-- the value of a non-empty run of digits -/
def value? (radix : Nat) (cs : List Char) : Option Nat :=
  if cs.isEmpty then none else digitsValue? radix 0 cs

/-- a decimal with an optional sign that lies in the signed 64-bit range -/
def integer? (cs : List Char) : Option Int :=
  match cs with
  | '-' :: rest => ((value? 10 rest).filter (· ≤ signedLimit)).map fun n => -(n : Int)
  | '+' :: rest => ((value? 10 rest).filter (· < signedLimit)).map Int.ofNat
  | _ => ((value? 10 cs).filter (· < signedLimit)).map Int.ofNat

/-- an unsigned numeral below `2 ^ 128`; a leading plus sign is allowed -/
def unsigned? (radix : Nat) (cs : List Char) : Option Nat :=
  let digits := match cs with
    | '+' :: rest => rest
    | _ => cs
  (value? radix digits).filter (· < unsignedLimit)

/-- an ASCII capital as its small letter; any other character as it is -/
def lowerAscii (c : Char) : Char :=
  if 65 ≤ c.toNat ∧ c.toNat ≤ 90 then Char.ofNat (c.toNat + 32) else c

theorem value?_nil (radix : Nat) : value? radix [] = none := rfl

end Graft.Text
