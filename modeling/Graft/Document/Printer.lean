/-
Writing a document, indented.

`put` sets a value in front of the text that follows it, which is how the reader meets it and costs one pass over the
output. The name of the kind is written first, two blanks are one level of indentation, and of the characters in a
string only quotes, backslashes and those below the blank are escaped.
-/
import Graft.Document.Basic
import Graft.Decimal.Shortest

namespace Graft.Document

open Graft.Decimal

/-- Doubles are written positionally from `0.00001` up to fifteen digits before the point. -/
def Number.layout : Layout := ⟨-5, 15, "e+", "e-"⟩

def Number.text : Number → String
  | .int n => toString n
  | .real x => Number.layout.text x

/-- the hexadecimal digit of a value below sixteen -/
def hexDigit (n : Nat) : Char := Char.ofNat (if n < 10 then n + 48 else n + 87)

/-- sets one character of a string in front of the rest -/
def putChar (c : Char) (rest : List Char) : List Char :=
  match c with
  | '"' => '\\' :: '"' :: rest
  | '\\' => '\\' :: '\\' :: rest
  | '\x08' => '\\' :: 'b' :: rest
  | '\x0c' => '\\' :: 'f' :: rest
  | '\n' => '\\' :: 'n' :: rest
  | '\r' => '\\' :: 'r' :: rest
  | '\t' => '\\' :: 't' :: rest
  | c =>
    if c.toNat < 0x20 then
      '\\' :: 'u' :: '0' :: '0' :: hexDigit (c.toNat / 16) :: hexDigit (c.toNat % 16) :: rest
    else c :: rest

/-- sets a quoted string in front of the rest -/
def putString (text : String) (rest : List Char) : List Char :=
  '"' :: text.toList.foldr putChar ('"' :: rest)

/-- begins a line at a level of indentation -/
def putLine (level : Nat) (rest : List Char) : List Char :=
  '\n' :: (List.replicate (2 * level) ' ' ++ rest)

/-- sets a key and its colon in front of the rest -/
def putKey (name : String) (rest : List Char) : List Char :=
  putString name (':' :: ' ' :: rest)

mutual

/-- sets a value, written at a level of indentation, in front of the rest -/
def put (level : Nat) : Value → List Char → List Char
  | .null, rest => 'n' :: 'u' :: 'l' :: 'l' :: rest
  | .bool true, rest => 't' :: 'r' :: 'u' :: 'e' :: rest
  | .bool false, rest => 'f' :: 'a' :: 'l' :: 's' :: 'e' :: rest
  | .number n, rest => n.text.toList ++ rest
  | .string text, rest => putString text rest
  | .array [], rest => '[' :: ']' :: rest
  | .array (v :: vs), rest =>
    '[' :: putLine (level + 1) (put (level + 1) v (putItems (level + 1) vs (putLine level (']' :: rest))))
  | .object ⟨none, []⟩, rest => '\x7b' :: '\x7d' :: rest
  | .object ⟨none, (name, v) :: fields⟩, rest =>
    '\x7b' :: putLine (level + 1) (putKey name
      (put (level + 1) v (putFields (level + 1) fields (putLine level ('\x7d' :: rest)))))
  | .object ⟨some tag, fields⟩, rest =>
    '\x7b' :: putLine (level + 1) (putKey discriminator
      (putString tag (putFields (level + 1) fields (putLine level ('\x7d' :: rest)))))
termination_by structural v => v

/-- sets the further items of a list in front of the rest -/
def putItems (level : Nat) : List Value → List Char → List Char
  | [], rest => rest
  | v :: vs, rest => ',' :: putLine level (put level v (putItems level vs rest))
termination_by structural vs => vs

/-- sets the further members of an object in front of the rest -/
def putFields (level : Nat) : List (String × Value) → List Char → List Char
  | [], rest => rest
  | (name, v) :: fields, rest =>
    ',' :: putLine level (putKey name (put level v (putFields level fields rest)))
termination_by structural fields => fields

end

/-- the indented text of a value -/
def Value.pretty (v : Value) : String := String.ofList (put 0 v [])

end Graft.Document
