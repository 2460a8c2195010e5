/-
Integer literals in any of their spellings, and their decimal numeral.

A literal may have blanks around it, a suffix of the letters `l` and `u`, underscores between its digits, and a mark of
its radix: `0x`, `0o`, `0b` or a plain leading zero for octal. `decimal` gives the numeral of its value when that is
below `2 ^ 128`, and the text as it was written otherwise.
-/
import Graft.Text.Blank
import Graft.Text.Numeral

namespace Graft.Text.IntegerLiteral

/-- whether a letter belongs to a suffix -/
def isSuffix (c : Char) : Bool := c == 'l' || c == 'L' || c == 'u' || c == 'U'

/-- the literal without blanks at its ends, suffix and underscores -/
def core (literal : List Char) : List Char :=
  (dropEndWhile isSuffix (trim literal)).filter (· != '_')

/-- the radix of a literal in small letters, and its digits -/
def radix : List Char → Nat × List Char
  | '0' :: 'x' :: digits => (16, digits)
  | '0' :: 'o' :: digits => (8, digits)
  | '0' :: 'b' :: digits => (2, digits)
  | '0' :: c :: digits => (8, c :: digits)
  | digits => (10, digits)

/-- the value of a literal, when it is one and is below `2 ^ 128` -/
def value? (literal : List Char) : Option Nat :=
  let (r, digits) := radix ((core literal).map lowerAscii)
  unsigned? r digits

/-- the decimal numeral of a literal, or the text as written when it has no value -/
def decimal (literal : String) : String :=
  match value? literal.toList with
  | some n => toString n
  | none => literal

end Graft.Text.IntegerLiteral
