/-
The statements of a document are converted each on its own.

`convertModule_append`: a document whose list of statements is two lists in a row has the statements and the notes of the
two documents in a row; in strict mode it is refused for the fault of the first that is refused.
-/
import Graft.Proofs.Agree
import Graft.Proofs.Modes

namespace Graft.Convert

open Graft.Document Attempt

/-- a document with these fields and these statements -/
def documentOf (fields : List (String × Value)) (stats : List Value) : Node :=
  (⟨some statListTag, fields⟩ : Node).insert "stats" (.array stats)

theorem topLevel_agree {names : List String} {root root' : Node} (h : Agree names root root') :
    topLevel root = topLevel root' := by
  funext stat
  unfold topLevel
  simp only [Fragment.stmts_agree h.blame]

/-- The statements of a document do not depend on what its list of statements is. -/
theorem convertModule_documentOf (fields : List (String × Value)) (stats : List Value) :
    convertModule (documentOf fields stats) = Module.mk <$> gather (topLevel (documentOf fields [])) stats := by
  have htag : (documentOf fields stats).isTagged statListTag = true := by simp [documentOf, Node.isTagged, Node.insert]
  have hstats : (documentOf fields stats).present? "stats" = some (.array stats) := by
    simp [Node.present?, documentOf, Node.get?_insert_self, Value.isAbsent]
  have hroot : topLevel (documentOf fields stats) = topLevel (documentOf fields []) :=
    @topLevel_agree [] _ _ (agree_insert_insert (by simp [positionFields]) (by simp) _ _ _)
  unfold convertModule itemsField
  simp [htag, hstats, hroot, Value.items?, orDefect]

theorem convertModule_documentOf_append (fields : List (String × Value)) (xs ys : List Value) :
    convertModule (documentOf fields (xs ++ ys)) = do
      let first ← convertModule (documentOf fields xs)
      let second ← convertModule (documentOf fields ys)
      return ⟨first.body ++ second.body⟩ := by
  simp [convertModule_documentOf, gather_append]

theorem lenient_documentOf (fields : List (String × Value)) (stats : List Value) :
    Lenient (convertModule (documentOf fields stats)) := by
  rw [convertModule_documentOf]
  exact lenient_statements _ stats

/-- **Statements are converted independently.** For a document whose statements are those of two others in a row, with
the same other fields: permissive mode gives the statements of the first followed by those of the second, and the notes
of the first followed by those of the second; strict mode does the same where it converts both, and otherwise refuses the
document for the fault of the first, or else of the second. -/
theorem convertModule_append (fields : List (String × Value)) (xs ys : List Value) :
    (∃ first second noted noted',
      (convertModule (documentOf fields xs)).run (.fresh .permissive) = (.ok ⟨first⟩, ⟨.permissive, noted⟩) ∧
      (convertModule (documentOf fields ys)).run (.fresh .permissive) = (.ok ⟨second⟩, ⟨.permissive, noted'⟩) ∧
      (convertModule (documentOf fields (xs ++ ys))).run (.fresh .permissive) =
        (.ok ⟨first ++ second⟩, ⟨.permissive, noted ++ noted'⟩)) ∧
    (convertModule (documentOf fields (xs ++ ys))).run (.fresh .strict) =
      (match ((convertModule (documentOf fields xs)).run (.fresh .strict)).1,
          ((convertModule (documentOf fields ys)).run (.fresh .strict)).1 with
        | .error fault, _ => .error fault
        | .ok _, .error fault => .error fault
        | .ok first, .ok second => .ok ⟨first.body ++ second.body⟩, .fresh .strict) := by
  refine ⟨?_, ?_⟩
  · obtain ⟨noted, first, hfirst⟩ := (lenient_documentOf fields xs).outcome
    obtain ⟨noted', second, hsecond⟩ := (lenient_documentOf fields ys).outcome
    refine ⟨first.body, second.body, noted, noted', ?_, ?_, ?_⟩
    · rw [run_fresh, hfirst]
    · rw [run_fresh, hsecond]
    · rw [run_fresh, convertModule_documentOf_append, outcome_bind, hfirst]
      simp only [outcome_bind, hsecond]
      simp
  · simp only [run_fresh, notes_strict, convertModule_documentOf_append]
    rw [outcome_bind]
    cases (convertModule (documentOf fields xs) .strict).result with
    | error fault => rfl
    | ok first =>
      simp only [outcome_bind]
      cases (convertModule (documentOf fields ys) .strict).result with
      | error fault => rfl
      | ok second => rfl

end Graft.Convert
