/-
Source positions: a line and a column, both counted from one in 32-bit words, with zero for "not known".

A position whose line is zero was never filled in. Moving a position to the right stops at the last column that a
word can hold (`Position.shifted`), so no shift ever wraps round. Positions are ordered by line, then by column
(`Position.le`), and `Position.distinct` lists the positions of a collection once each in that order.
-/

namespace Graft

/-- a line and a column, counted from one -/
structure Position where
  line : UInt32
  column : UInt32
  deriving DecidableEq, Inhabited

namespace Position

/-- the position of a node that has no place in the source -/
def unknown : Position := ⟨0, 0⟩

/-- whether the position was filled in -/
def isKnown (p : Position) : Bool := p.line != 0

/-- the last column that can be written down -/
def lastColumn : Nat := UInt32.size - 1

/-- the same line, so many columns further right, stopping at the last column -/
def shifted (p : Position) (distance : UInt32) : Position :=
  { p with column := UInt32.ofNat (min (p.column.toNat + distance.toNat) lastColumn) }

/-- the text `line:column` -/
def text (p : Position) : String :=
  toString p.line.toNat ++ ":" ++ toString p.column.toNat

/-- the order of positions in a text: by line, then by column -/
def le (p q : Position) : Bool :=
  p.line < q.line || (p.line == q.line && p.column ≤ q.column)

/-- drops each entry that repeats the one before it -/
def dropRepeats : List Position → List Position
  | [] => []
  | [p] => [p]
  | p :: q :: rest => if p = q then dropRepeats (q :: rest) else p :: dropRepeats (q :: rest)

/-- the positions of a list in order, each once -/
def distinct (ps : List Position) : List Position :=
  dropRepeats (ps.mergeSort le)

theorem shifted_line (p : Position) (d : UInt32) : (p.shifted d).line = p.line := rfl

/-- A shift adds columns up to the last one. -/
theorem shifted_column_toNat (p : Position) (d : UInt32) :
    (p.shifted d).column.toNat = min (p.column.toNat + d.toNat) lastColumn :=
  UInt32.toNat_ofNat_of_lt' (Nat.lt_of_le_of_lt (Nat.min_le_right _ _) (by decide))

end Position

/-- a stretch of bytes in a source text, from `start` up to but not including `stop`, both 32-bit words -/
structure Span where
  start : UInt32
  stop : UInt32
  deriving DecidableEq, Inhabited

namespace Span

/-- the number of bytes -/
def length (s : Span) : UInt32 := s.stop - s.start

/-- whether there are no bytes -/
def isEmpty (s : Span) : Bool := s.start == s.stop

end Span

end Graft
