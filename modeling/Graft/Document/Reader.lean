/-
Reading a document.

The text is a list of characters, and what is left of it is the state: each reader takes what is left and gives the
value with what is left after it, or a `Stop`, which says why reading ended and how many bytes of what was left had
been looked at. Line and column are counted from the text afterwards (`Malformed.ofStop`), so that no reader keeps
track of them. Nesting is not limited: the number that the readers count down starts above twice the length of the
text, and of every two steps down at least one takes a character.

Main definitions: `readValue` and `read`. Numbers follow `Numeral`: all digits of the whole part and of the fraction
form one significand of 64 bits, digits that would overflow it are dropped, and the significand is scaled by a power
of ten.
-/
import Graft.Document.Basic
import Graft.Source.Offset

namespace Graft.Document

open Graft.Decimal

/-- why a text is no document -/
inductive Reason where
  | endInValue
  | endInString
  | endInList
  | endInObject
  | expectedValue
  | expectedLiteral
  | invalidNumber
  | numberOutOfRange
  | controlCharacter
  | invalidEscape
  | loneSurrogate
  | endOfSurrogate
  | trailingComma
  | expectedCommaOrBracket
  | keyNotString
  | expectedColon
  | expectedCommaOrBrace
  | trailingCharacters
  deriving DecidableEq

/-- the wording of a reason -/
def Reason.text : Reason → String
  | endInValue => "EOF while parsing a value"
  | endInString => "EOF while parsing a string"
  | endInList => "EOF while parsing a list"
  | endInObject => "EOF while parsing an object"
  | expectedValue => "expected value"
  | expectedLiteral => "expected ident"
  | invalidNumber => "invalid number"
  | numberOutOfRange => "number out of range"
  | controlCharacter => "control character (\\u0000-\\u001F) found while parsing a string"
  | invalidEscape => "invalid escape"
  | loneSurrogate => "lone leading surrogate in hex escape"
  | endOfSurrogate => "unexpected end of hex escape"
  | trailingComma => "trailing comma"
  | expectedCommaOrBracket => "expected `,` or `]`"
  | keyNotString => "key must be a string"
  | expectedColon => "expected `:`"
  | expectedCommaOrBrace => "expected `,` or `\x7d`"
  | trailingCharacters => "trailing characters"

/-- an end of reading: why, before what, and how many bytes of that had been looked at -/
structure Stop where
  reason : Reason
  rest : List Char
  seen : Nat

/-- stops at a character that was looked at and not taken, or taken as one byte -/
def stopAt {α : Type} (reason : Reason) (rest : List Char) : Except Stop α := .error ⟨reason, rest, 1⟩

/-- stops before the next character is looked at -/
def stopBefore {α : Type} (reason : Reason) (rest : List Char) : Except Stop α := .error ⟨reason, rest, 0⟩

/-- blanks between the tokens of a document -/
def isSpace (c : Char) : Bool := c == ' ' || c == '\n' || c == '\t' || c == '\r'

def skipSpace (cs : List Char) : List Char := cs.dropWhile isSpace

/-! ## Numbers -/

namespace Numeral

/-- the greatest significand -/
def greatestSignificand : Nat := UInt64.size - 1

/-- the greatest exponent that is counted -/
def greatestExponent : Nat := 2147483647

/-- digits read up to a bound: their value, their number, and what is left -/
structure Digits where
  value : Nat
  count : Nat
  rest : List Char

/-- reads digits after the value `value` as long as the result does not exceed `bound` -/
def takeDigits (bound : Nat) (value count : Nat) : List Char → Digits
  | [] => ⟨value, count, []⟩
  | c :: cs =>
    if c.isDigit ∧ 10 * value + (c.toNat - 48) ≤ bound then
      takeDigits bound (10 * value + (c.toNat - 48)) (count + 1) cs
    else ⟨value, count, c :: cs⟩

/-- whether a digit comes next -/
def digitNext : List Char → Bool
  | c :: _ => c.isDigit
  | [] => false

/-- the double that a significand and a power of ten denote -/
def scale (negative : Bool) (significand : Nat) (power : Int) (rest : List Char) : Except Stop (Number × List Char) :=
  match (Magnitude.nearest significand 1).bind (·.scaled power) with
  | some m => .ok (.real ⟨negative, m⟩, rest)
  | none => stopBefore .numberOutOfRange rest

/-- reads what follows an exponent mark -/
def readExponent (negative : Bool) (significand : Nat) (power : Int) (cs : List Char) : Except Stop (Number × List Char) :=
  let (down, cs) := match cs with
    | '+' :: cs => (false, cs)
    | '-' :: cs => (true, cs)
    | cs => (false, cs)
  match cs with
  | [] => stopBefore .endInValue []
  | c :: rest =>
    if !c.isDigit then stopAt .invalidNumber (c :: rest)
    else
      let e := takeDigits greatestExponent 0 0 (c :: rest)
      if digitNext e.rest then
        if significand ≠ 0 ∧ !down then stopAt .numberOutOfRange e.rest
        else .ok (.real ⟨negative, .zero⟩, e.rest.dropWhile Char.isDigit)
      else scale negative significand (if down then power - e.value else power + e.value) e.rest

/-- reads an exponent if there is one, and ends the number -/
def readEnding (negative : Bool) (significand : Nat) (power : Int) : List Char → Except Stop (Number × List Char)
  | 'e' :: cs => readExponent negative significand power cs
  | 'E' :: cs => readExponent negative significand power cs
  | cs => scale negative significand power cs

/-- reads what follows a decimal point -/
def readFraction (negative : Bool) (significand : Nat) (power : Int) (cs : List Char) : Except Stop (Number × List Char) :=
  let f := takeDigits greatestSignificand significand 0 cs
  if digitNext f.rest then
    readEnding negative f.value (power - f.count) (f.rest.dropWhile Char.isDigit)
  else if f.count = 0 then
    stopAt (if f.rest.isEmpty then .endInValue else .invalidNumber) f.rest
  else readEnding negative f.value (power - f.count) f.rest

/-- the number that a whole literal denotes; `-0` and what 64 bits cannot hold are doubles -/
def whole (negative : Bool) (significand : Nat) (rest : List Char) : Except Stop (Number × List Char) :=
  if !negative then .ok (.int significand, rest)
  else if 0 < significand ∧ significand ≤ Text.signedLimit then .ok (.int (-(significand : Int)), rest)
  else scale true significand 0 rest

/-- reads what follows the digits of the whole part, `dropped` of which did not fit -/
def readTail (negative : Bool) (significand dropped : Nat) : List Char → Except Stop (Number × List Char)
  | '.' :: cs => readFraction negative significand dropped cs
  | 'e' :: cs => readExponent negative significand dropped cs
  | 'E' :: cs => readExponent negative significand dropped cs
  | cs => if dropped = 0 then whole negative significand cs else scale negative significand dropped cs

/-- reads a number after its sign -/
def readNumber (negative : Bool) (cs : List Char) : Except Stop (Number × List Char) :=
  match cs with
  | [] => stopBefore .endInValue []
  | '0' :: rest =>
    if digitNext rest then stopAt .invalidNumber rest
    else readTail negative 0 0 rest
  | c :: rest =>
    if !c.isDigit then stopAt .invalidNumber (c :: rest)
    else
      let d := takeDigits greatestSignificand 0 0 (c :: rest)
      let excess := d.rest.takeWhile Char.isDigit
      readTail negative d.value excess.length (d.rest.dropWhile Char.isDigit)

end Numeral

/-! ## Strings -/

/-- the value of four hexadecimal digits -/
def hexValue (a b c d : Char) : Option Nat := Text.value? 16 [a, b, c, d]

/-- the character of a one-letter escape -/
def plainEscape : Char → Option Char
  | '"' => some '"'
  | '\\' => some '\\'
  | '/' => some '/'
  | 'b' => some '\x08'
  | 'f' => some '\x0c'
  | 'n' => some '\n'
  | 'r' => some '\r'
  | 't' => some '\t'
  | _ => none

/-- reads four hexadecimal digits, which are looked at as four bytes -/
def readHex (cs : List Char) : Except Stop (Nat × List Char) :=
  if Source.byteLength cs < 4 then .error ⟨.endInString, [], 0⟩
  else match cs with
    | a :: b :: c :: d :: rest =>
      match hexValue a b c d with
      | some n => .ok (n, rest)
      | none => .error ⟨.invalidEscape, cs, 4⟩
    | _ => .error ⟨.invalidEscape, cs, 4⟩

/-- reads what follows the four digits of a leading surrogate -/
def readTrailingSurrogate (high : Nat) (cs : List Char) : Except Stop (Char × List Char) :=
  match cs with
  | [] => stopBefore .endInString []
  | '\\' :: [] => stopBefore .endInString []
  | '\\' :: 'u' :: digits => do
    let (low, rest) ← readHex digits
    if 0xDC00 ≤ low ∧ low ≤ 0xDFFF then
      return (Char.ofNat (0x10000 + (high - 0xD800) * 0x400 + (low - 0xDC00)), rest)
    else .error ⟨.loneSurrogate, digits, 4⟩
  | '\\' :: rest => stopAt .endOfSurrogate rest
  | _ => stopAt .endOfSurrogate cs

/-- reads an escape after its backslash -/
def readEscape (cs : List Char) : Except Stop (Char × List Char) :=
  match cs with
  | [] => stopBefore .endInString []
  | 'u' :: digits => do
    let (n, rest) ← readHex digits
    if 0xDC00 ≤ n ∧ n ≤ 0xDFFF then .error ⟨.loneSurrogate, digits, 4⟩
    else if 0xD800 ≤ n ∧ n ≤ 0xDBFF then readTrailingSurrogate n rest
    else return (Char.ofNat n, rest)
  | c :: rest =>
    match plainEscape c with
    | some e => .ok (e, rest)
    | none => stopAt .invalidEscape cs

/-- reads the rest of a string after its opening quote -/
def readString : Nat → List Char → Except Stop (List Char × List Char)
  | 0, cs => stopBefore .endInString cs
  | fuel + 1, cs =>
    match cs with
    | [] => stopBefore .endInString []
    | '"' :: rest => .ok ([], rest)
    | '\\' :: rest => do
      let (c, rest) ← readEscape rest
      let (text, rest) ← readString fuel rest
      return (c :: text, rest)
    | c :: rest =>
      if c.toNat < 0x20 then stopAt .controlCharacter cs
      else do
        let (text, rest) ← readString fuel rest
        return (c :: text, rest)

/-! ## Values -/

/-- matches the rest of a literal -/
def readLiteral (value : Value) : List Char → List Char → Except Stop (Value × List Char)
  | [], cs => .ok (value, cs)
  | _ :: _, [] => stopBefore .endInValue []
  | e :: es, c :: cs => if c = e then readLiteral value es cs else stopAt .expectedLiteral (c :: cs)

/-- passes over the colon after a key -/
def readColon (cs : List Char) : Except Stop (List Char) :=
  match skipSpace cs with
  | ':' :: rest => .ok rest
  | [] => stopAt .endInObject []
  | rest => stopAt .expectedColon rest

/-- what comes before the next item of a list: its end, or an item after the comma that it needs -/
def nextItem (first : Bool) (cs : List Char) : Except Stop (List Char ⊕ List Char) :=
  match skipSpace cs with
  | ']' :: rest => .ok (.inl rest)
  | [] => stopAt .endInList []
  | c :: rest =>
    if first then .ok (.inr (c :: rest))
    else if c = ',' then
      match skipSpace rest with
      | [] => stopAt .endInValue []
      | ']' :: rest => stopAt .trailingComma (']' :: rest)
      | rest => .ok (.inr rest)
    else stopAt .expectedCommaOrBracket (c :: rest)

/-- what comes before the next member of an object: its end, or a key without its opening quote -/
def nextMember (first : Bool) (cs : List Char) : Except Stop (List Char ⊕ List Char) :=
  let key (cs : List Char) : Except Stop (List Char ⊕ List Char) :=
    match cs with
    | '"' :: rest => .ok (.inr rest)
    | [] => stopAt .endInValue []
    | '\x7d' :: rest => stopAt .trailingComma ('\x7d' :: rest)
    | rest => stopAt .keyNotString rest
  match skipSpace cs with
  | '\x7d' :: rest => .ok (.inl rest)
  | [] => stopAt .endInObject []
  | c :: rest =>
    if first then key (c :: rest)
    else if c = ',' then key (skipSpace rest)
    else stopAt .expectedCommaOrBrace (c :: rest)

mutual

/-- reads one value -/
def readValue : Nat → List Char → Except Stop (Value × List Char)
  | 0, cs => stopBefore .endInValue cs
  | fuel + 1, cs =>
    match skipSpace cs with
    | [] => stopAt .endInValue []
    | 'n' :: rest => readLiteral .null ['u', 'l', 'l'] rest
    | 't' :: rest => readLiteral (.bool true) ['r', 'u', 'e'] rest
    | 'f' :: rest => readLiteral (.bool false) ['a', 'l', 's', 'e'] rest
    | '"' :: rest => do
      let (text, rest) ← readString fuel rest
      return (.string (String.ofList text), rest)
    | '[' :: rest => do
      let (items, rest) ← readItems fuel true rest
      return (.array items, rest)
    | '\x7b' :: rest => do
      let (members, rest) ← readMembers fuel true rest
      return (.object (Node.ofMembers members), rest)
    | '-' :: rest => do
      let (n, rest) ← Numeral.readNumber true rest
      return (.number n, rest)
    | c :: rest =>
      if c.isDigit then do
        let (n, rest) ← Numeral.readNumber false (c :: rest)
        return (.number n, rest)
      else stopAt .expectedValue (c :: rest)

/-- reads the items of a list up to its closing bracket -/
def readItems : Nat → Bool → List Char → Except Stop (List Value × List Char)
  | 0, _, cs => stopBefore .endInList cs
  | fuel + 1, first, cs => do
    match ← nextItem first cs with
    | .inl rest => return ([], rest)
    | .inr rest =>
      let (item, rest) ← readValue fuel rest
      let (items, rest) ← readItems fuel false rest
      return (item :: items, rest)

/-- reads the members of an object up to its closing brace -/
def readMembers : Nat → Bool → List Char → Except Stop (List (String × Value) × List Char)
  | 0, _, cs => stopBefore .endInObject cs
  | fuel + 1, first, cs => do
    match ← nextMember first cs with
    | .inl rest => return ([], rest)
    | .inr rest =>
      let (name, rest) ← readString fuel rest
      let rest ← readColon rest
      let (value, rest) ← readValue fuel rest
      let (members, rest) ← readMembers fuel false rest
      return ((String.ofList name, value) :: members, rest)

end

/-! ## Whole texts -/

/-- a text that is no document: why, and where reading ended -/
structure Malformed where
  reason : Reason
  line : Nat
  column : Nat
  deriving DecidableEq

namespace Malformed

/-- the line and the column, counted in bytes, of the byte at `index`, when reading stands at byte `here` of a line -/
def lineColumn (index : Nat) : List Char → Nat → Nat → Nat → Nat × Nat
  | [], _, line, start => (line, index - start)
  | c :: cs, here, line, start =>
    if index ≤ here then (line, index - start)
    else if c = '\n' then lineColumn index cs (here + 1) (line + 1) (here + 1)
    else lineColumn index cs (here + c.utf8Size) line start

/-- where in the text reading ended -/
def ofStop (text : List Char) (stop : Stop) : Malformed :=
  let total := Source.byteLength text
  let index := min total (total - Source.byteLength stop.rest + stop.seen)
  let (line, column) := lineColumn index text 0 1 0
  ⟨stop.reason, line, column⟩

/-- why and where, in words -/
def explanation (m : Malformed) : String :=
  m.reason.text ++ " at line " ++ toString m.line ++ " column " ++ toString m.column

def message (m : Malformed) : String :=
  "malformed JSON document: " ++ m.explanation

end Malformed

/-- reads the characters of a whole text as one value with nothing but blanks after it -/
def readAll (text : List Char) : Except Stop Value := do
  let (value, rest) ← readValue (2 * text.length + 2) text
  match skipSpace rest with
  | [] => return value
  | rest => stopAt .trailingCharacters rest

/-- reads a document -/
def read (text : String) : Except Malformed Value :=
  (readAll text.toList).mapError (Malformed.ofStop text.toList)

end Graft.Document
