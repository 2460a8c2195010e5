/-
Reading a TOML text.

Values nest to a limited depth, and keys have a limited number of parts. A text is a list of lines: blank ones and
comments, headers of tables and of elements of an array of tables, and pairs of a key and a value. `State` is the
table that they make up so far and the path of the header that is open, and `line` is one step.
-/
import Graft.Toml.Quoted
import Graft.Toml.Scalar
import Graft.Toml.Table

namespace Graft.Toml

/-- the depth that values do not reach, and the number of parts that keys do not have -/
def depthLimit : Nat := 80

/-! ## Keys -/

/-- whether a character may stand in a key without quotes -/
def isBare (c : Char) : Bool := c.isAlphanum || c == '_' || c == '-'

/-- one part of a key, and what is left -/
def keyPart (cs : List Char) : Option (String × List Char) :=
  match cs with
  | '"' :: _ => quotedKey cs
  | '\'' :: _ => quotedKey cs
  | _ =>
    let name := cs.takeWhile isBare
    if name.isEmpty then none else some (String.ofList name, cs.dropWhile isBare)

/-- the parts of a key with dots and blanks between them, and what is left -/
def keyParts : Nat → List Char → Option (List String × List Char)
  | 0, _ => none
  | fuel + 1, cs => do
    let (part, rest) ← keyPart (skipBlanks cs)
    match skipBlanks rest with
    | '.' :: rest =>
      let (parts, rest) ← keyParts fuel rest
      return (part :: parts, rest)
    | rest => return ([part], rest)

/-- a key: the parts before the last, the last, and what is left -/
def key (cs : List Char) : Option (List String × String × List Char) := do
  let (parts, rest) ← keyParts (cs.length + 1) cs
  let last ← parts.getLast?
  if parts.length < depthLimit then some (parts.dropLast, last, rest) else none

/-! ## Values -/

/-- passes over a comment, if there is one -/
def skipComment : List Char → List Char
  | '#' :: rest => rest.dropWhile isPlain
  | cs => cs

/-- passes over blanks, line endings and comments that end with their line -/
def skipBlankLines : Nat → List Char → List Char
  | 0, cs => cs
  | fuel + 1, cs =>
    match lineEnd? (skipComment (skipBlanks cs)) with
    | some rest => skipBlankLines fuel rest
    | none => skipBlanks cs

/-- the values that are written in one piece -/
def scalar (cs : List Char) : Option (Item × List Char) :=
  match cs with
  | 't' :: 'r' :: 'u' :: 'e' :: rest => some (.boolean, rest)
  | 'f' :: 'a' :: 'l' :: 's' :: 'e' :: rest => some (.boolean, rest)
  | '"' :: _ => (string cs).map fun (text, rest) => (.string text, rest)
  | '\'' :: _ => (string cs).map fun (text, rest) => (.string text, rest)
  | _ =>
    ((dateTime cs).map fun rest => (.dateTime, rest)).or
      (((float cs).map fun rest => (.float, rest)).or ((integer cs).map fun rest => (.integer, rest)))

mutual

/-- a value inside so many others, and what is left -/
def value : Nat → Nat → List Char → Option (Item × List Char)
  | 0, _, _ => none
  | fuel + 1, depth, cs =>
    match cs with
    | '[' :: rest =>
      if depth + 1 < depthLimit then do
        let (items, rest) ← items fuel (depth + 1) rest
        return (.array items, rest)
      else none
    | '\x7b' :: rest =>
      if depth + 1 < depthLimit then do
        let (entries, rest) ← match skipBlanks rest with
          | '\x7d' :: rest => some ([], rest)
          | rest => pairs fuel (depth + 1) [] rest
        return (.table .inline entries, rest)
      else none
    | cs => scalar cs

/-- the items of an array up to its closing bracket; a comma may stand after the last -/
def items : Nat → Nat → List Char → Option (List Item × List Char)
  | 0, _, _ => none
  | fuel + 1, depth, cs => do
    match skipBlankLines fuel cs with
    | ']' :: rest => return ([], rest)
    | rest =>
      let (item, rest) ← value fuel depth rest
      match skipBlankLines fuel rest with
      | ',' :: rest =>
        let (more, rest) ← items fuel depth rest
        return (item :: more, rest)
      | ']' :: rest => return ([item], rest)
      | _ => none

/-- the pairs of a table in braces up to its closing brace, added to the entries so far -/
def pairs : Nat → Nat → Entries → List Char → Option (Entries × List Char)
  | 0, _, _, _ => none
  | fuel + 1, depth, entries, cs => do
    let (path, name, rest) ← key cs
    let rest ← expect '=' rest
    let (item, rest) ← value fuel depth (skipBlanks rest)
    let entries ← putDotted path name item entries
    match skipBlanks rest with
    | ',' :: rest => pairs fuel depth entries rest
    | '\x7d' :: rest => return (entries, rest)
    | _ => none

end

/-! ## Lines -/

/-- the entries so far, and the path of the header that is open -/
structure State where
  entries : Entries
  header : List String

/-- passes over the end of a line, with a comment before it -/
def lineTail (cs : List Char) : Option (List Char) :=
  match skipComment (skipBlanks cs) with
  | [] => some []
  | rest => lineEnd? rest

/-- the header of an element of an array of tables, after its opening brackets -/
def elementHeader (state : State) (cs : List Char) : Option (State × List Char) := do
  let (path, name, rest) ← key cs
  let rest ← lineTail (← expect ']' (← expect ']' rest))
  return (⟨← under (openElement name) path state.entries, path ++ [name]⟩, rest)

/-- the header of a table, after its opening bracket -/
def tableHeader (state : State) (cs : List Char) : Option (State × List Char) := do
  let (path, name, rest) ← key cs
  let rest ← lineTail (← expect ']' rest)
  return (⟨← under (openTable name) path state.entries, path ++ [name]⟩, rest)

/-- a pair of a key and a value, which goes into the table whose header is open -/
def pair (state : State) (cs : List Char) : Option (State × List Char) := do
  let (path, name, rest) ← key cs
  let rest ← expect '=' rest
  let (item, rest) ← value (2 * rest.length + 2) 0 (skipBlanks rest)
  let rest ← lineTail rest
  return (⟨← under (putDotted path name item) state.header state.entries, state.header⟩, rest)

/-- one line, which is not empty -/
def line (state : State) (cs : List Char) : Option (State × List Char) :=
  match skipBlanks cs with
  | '[' :: '[' :: rest => elementHeader state rest
  | '[' :: rest => tableHeader state rest
  | '#' :: rest => (lineTail ('#' :: rest)).map fun rest => (state, rest)
  | '\n' :: rest => some (state, rest)
  | '\r' :: rest => (lineEnd? ('\r' :: rest)).map fun rest => (state, rest)
  | [] => some (state, [])
  | rest => pair state rest

/-- the lines of a text, one after the other -/
def lines : Nat → State → List Char → Option State
  | 0, _, _ => none
  | fuel + 1, state, cs =>
    if cs.isEmpty then some state
    else do
      let (state, rest) ← line state cs
      lines fuel state rest

/-- the entries of a text; a byte order mark at its start is passed over -/
def read (text : String) : Option Entries :=
  let cs := match text.toList with
    | '\uFEFF' :: rest => rest
    | cs => cs
  (lines (cs.length + 1) ⟨[], []⟩ cs).map State.entries

end Graft.Toml
