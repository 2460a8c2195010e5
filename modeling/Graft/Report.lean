/-
The report of a syntax error against the source that it was found in.

A position that lies in the source becomes a label on the character there; any other is told in a note. So a report has
one label or one note, never both.
-/
import Graft.Conversion

namespace Graft

/-- whether a label shows the place of an error, or a place that has to do with it -/
inductive LabelStyle where
  | primary
  | secondary
  deriving DecidableEq

/-- a stretch of a file, with what is to be said about it -/
structure Label where
  style : LabelStyle
  file : Nat
  span : Span
  message : String
  deriving DecidableEq

/-- an error to be shown with its source -/
structure Report where
  message : String
  labels : List Label
  notes : List String
  deriving DecidableEq

/-- the report of a syntax error in a file -/
def CompileDiagnostic.report (d : CompileDiagnostic) (file : Nat) (source : String) : Report :=
  match d.pos.spanIn source with
  | some span => ⟨d.message, [⟨.primary, file, span, "syntax error here"⟩], []⟩
  | none =>
    ⟨d.message, [],
      ["reported at line " ++ toString d.pos.line.toNat ++ ", column " ++ toString d.pos.column.toNat]⟩

/-- A report has one label or one note. -/
theorem CompileDiagnostic.report_parts (d : CompileDiagnostic) (file : Nat) (source : String) :
    (d.report file source).labels.length + (d.report file source).notes.length = 1 := by
  unfold report
  split <;> rfl

end Graft
