/-
From a position to a byte of the source.

Columns count characters and offsets count bytes of UTF-8. A position is found by passing over the lines before its
own (`afterLines`) and then over the characters before it on that line (`alongLine`); the place just after the last
character of a line has a column too. `Position.locate` gives the offset together with what follows it, from which
both the offset and the span of the character there are read off.
-/
import Graft.Position

namespace Graft

namespace Source

/-- the bytes that a text takes -/
def byteLength (cs : List Char) : Nat := cs.foldr (fun c n => c.utf8Size + n) 0

/-- passes over `n` line breaks: the bytes passed and what follows, if there are that many -/
def afterLines : Nat → List Char → Option (Nat × List Char)
  | 0, cs => some (0, cs)
  | _ + 1, [] => none
  | n + 1, c :: cs =>
    (if c = '\n' then afterLines n cs else afterLines (n + 1) cs).map fun (k, rest) => (c.utf8Size + k, rest)

/-- passes over `n` characters of one line: the bytes passed and what follows, if the line is that long -/
def alongLine : Nat → List Char → Option (Nat × List Char)
  | 0, cs => some (0, cs)
  | _ + 1, [] => none
  | n + 1, c :: cs =>
    if c = '\n' then none
    else (alongLine n cs).map fun (k, rest) => (c.utf8Size + k, rest)

end Source

namespace Position

open Source

/-- the byte offset of a position and the text from there on; none when the position is not in the text -/
def locate (p : Position) (source : List Char) : Option (Nat × List Char) :=
  if p.line = 0 ∨ p.column = 0 then none
  else do
    let (before, line) ← afterLines (p.line.toNat - 1) source
    let (within, rest) ← alongLine (p.column.toNat - 1) line
    return (before + within, rest)

/-- the byte offset of a position -/
def byteOffset (p : Position) (source : String) : Option Nat :=
  (p.locate source.toList).map (·.1)

/-- the span of the character at a position; empty at the end of the text -/
def spanIn (p : Position) (source : String) : Option Span :=
  (p.locate source.toList).map fun (start, rest) =>
    ⟨UInt32.ofNat start, UInt32.ofNat (start + (rest.head?.map Char.utf8Size).getD 0)⟩

end Position

end Graft
