/-
Strings of a TOML text.

A basic string is in double quotes and has escapes, a literal one is in single quotes and has none; in three quotes
either may run over lines. Line endings inside are read as line feeds, one right after the opening quotes is dropped,
and in a basic string a backslash at the end of a line joins it to the next text. Up to two quotes may stand directly
before the three that close.
-/
import Graft.Text.Numeral

namespace Graft.Toml

/-- whether a character may stand in a string or a comment as it is -/
def isPlain (c : Char) : Bool := c == '\t' || (0x20 ≤ c.toNat && c.toNat != 0x7F)

/-- whether a character is a blank within a line -/
def isBlank (c : Char) : Bool := c == ' ' || c == '\t'

def skipBlanks (cs : List Char) : List Char := cs.dropWhile isBlank

/-- passes over a line ending -/
def lineEnd? : List Char → Option (List Char)
  | '\n' :: rest => some rest
  | '\r' :: '\n' :: rest => some rest
  | _ => none

/-- the character of a number, if it is one that can stand in a text -/
def scalar? (n : Nat) : Option Char :=
  if n < 0xD800 ∨ 0xDFFF < n ∧ n < 0x110000 then some (Char.ofNat n) else none

/-- the character given by so many hexadecimal digits -/
def hexEscape (count : Nat) (cs : List Char) : Option (Char × List Char) := do
  let ds := cs.take count
  let n ← if ds.length = count then Text.value? 16 ds else none
  let c ← scalar? n
  return (c, cs.drop count)

/-- the character of an escape after its backslash, and what is left -/
def escape : List Char → Option (Char × List Char)
  | 'b' :: rest => some ('\x08', rest)
  | 't' :: rest => some ('\t', rest)
  | 'n' :: rest => some ('\n', rest)
  | 'f' :: rest => some ('\x0c', rest)
  | 'r' :: rest => some ('\r', rest)
  | '"' :: rest => some ('"', rest)
  | '\\' :: rest => some ('\\', rest)
  | 'u' :: rest => hexEscape 4 rest
  | 'U' :: rest => hexEscape 8 rest
  | _ => none

/-- drops line endings and blanks -/
def skipLines : List Char → List Char
  | ' ' :: rest => skipLines rest
  | '\t' :: rest => skipLines rest
  | '\n' :: rest => skipLines rest
  | '\r' :: '\n' :: rest => skipLines rest
  | cs => cs

/-- passes over blanks, a line ending and what is blank after it, as a joined line has them after its backslash -/
def joinedLine? (cs : List Char) : Option (List Char) := (lineEnd? (skipBlanks cs)).map skipLines

/-- the rest of a basic string on one line, after its opening quote -/
def basic : Nat → List Char → Option (List Char × List Char)
  | 0, _ => none
  | fuel + 1, cs =>
    match cs with
    | '"' :: rest => some ([], rest)
    | '\\' :: rest => do
      let (c, rest) ← escape rest
      let (text, rest) ← basic fuel rest
      return (c :: text, rest)
    | c :: rest =>
      if isPlain c then (basic fuel rest).map fun (text, rest) => (c :: text, rest) else none
    | [] => none

/-- the rest of a literal string on one line, after its opening quote -/
def literal : List Char → Option (List Char × List Char)
  | '\'' :: rest => some ([], rest)
  | c :: rest => if isPlain c then (literal rest).map fun (text, rest) => (c :: text, rest) else none
  | [] => none

/-- the end of a string over lines, at its three quotes and up to two before them -/
def closing? (quote : Char) (cs : List Char) : Option (List Char × List Char) :=
  let n := (cs.takeWhile (· == quote)).length
  if n < 3 then none
  else
    let inside := min (n - 3) 2
    some (List.replicate inside quote, cs.drop (inside + 3))

/-- the rest of a basic string over lines -/
def basicLines : Nat → List Char → Option (List Char × List Char)
  | 0, _ => none
  | fuel + 1, cs =>
    match closing? '"' cs, lineEnd? cs, cs with
    | some done, _, _ => some done
    | none, some rest, _ => (basicLines fuel rest).map fun (text, rest) => ('\n' :: text, rest)
    | none, none, '\\' :: rest =>
      match joinedLine? rest with
      | some rest => basicLines fuel rest
      | none => do
        let (c, rest) ← escape rest
        let (text, rest) ← basicLines fuel rest
        return (c :: text, rest)
    | none, none, c :: rest =>
      if isPlain c then (basicLines fuel rest).map fun (text, rest) => (c :: text, rest) else none
    | none, none, [] => none

/-- the rest of a literal string over lines -/
def literalLines : Nat → List Char → Option (List Char × List Char)
  | 0, _ => none
  | fuel + 1, cs =>
    match closing? '\'' cs, lineEnd? cs, cs with
    | some done, _, _ => some done
    | none, some rest, _ => (literalLines fuel rest).map fun (text, rest) => ('\n' :: text, rest)
    | none, none, c :: rest =>
      if isPlain c then (literalLines fuel rest).map fun (text, rest) => (c :: text, rest) else none
    | none, none, [] => none

/-- drops one line ending, if there is one -/
def dropLineEnd (cs : List Char) : List Char := (lineEnd? cs).getD cs

/-- a string of any sort, and what is left after it -/
def string (cs : List Char) : Option (String × List Char) :=
  let fuel := cs.length + 1
  let read : Option (List Char × List Char) :=
    match cs with
    | '"' :: '"' :: '"' :: rest => basicLines fuel (dropLineEnd rest)
    | '"' :: rest => basic fuel rest
    | '\'' :: '\'' :: '\'' :: rest => literalLines fuel (dropLineEnd rest)
    | '\'' :: rest => literal rest
    | _ => none
  read.map fun (text, rest) => (String.ofList text, rest)

/-- a key in quotes, which is on one line -/
def quotedKey (cs : List Char) : Option (String × List Char) :=
  let read : Option (List Char × List Char) :=
    match cs with
    | '"' :: rest => basic (cs.length + 1) rest
    | '\'' :: rest => literal rest
    | _ => none
  read.map fun (text, rest) => (String.ofList text, rest)

end Graft.Toml
