/-
The outcomes that a conversion can have.

The envelope of a conversion says what came of a text. `Answers` lists the ways in which it is decided, by what the text
reads as: there is no other (`answers_ofText`). From it `ofText_outcomes` reads off what a caller may rely on: the version
comes back, a module and an error exclude each other, notes come with a module in permissive mode only, and which documents
give a module, an error, or neither.
-/
import Graft.Conversion
import Graft.Proofs.Modes

namespace Graft.Conversion

open Graft.Document Graft.Convert

/-! ## Roots -/

/-- a document that is neither a list of statements nor the report of a syntax error: it is no node, it is a node of
another kind, or it is a list of statements that are no array -/
inductive Unexpected : Value → Prop where
  | notANode {document : Value} : document.node? = none → Unexpected document
  | otherKind {root : Node} : root.isTagged statListTag = false → root.isTagged CompileDiagnostic.tag = false →
      Unexpected (.object root)
  | noArray {root : Node} {stats : Value} : root.isTagged statListTag = true → root.present? "stats" = some stats →
      stats.items? = none → Unexpected (.object root)

/-- A node has one tag. -/
theorem not_reported {root : Node} (h : root.isTagged statListTag = true) :
    root.isTagged CompileDiagnostic.tag = false := by
  obtain htag : root.tag = some statListTag := beq_iff_eq.1 h
  simp [Node.isTagged, htag, statListTag, CompileDiagnostic.tag]

theorem not_unfit_iff {root : Node} :
    ¬ Unfit root ↔ root.isTagged statListTag = true ∧
      (root.present? "stats" = none ∨ ∃ items, root.present? "stats" = some (.array items)) := by
  unfold Unfit
  rw [not_or, Bool.not_eq_false]
  refine and_congr_right fun _ => ?_
  cases hstats : root.present? "stats" with
  | none => simp
  | some stats => cases stats <;> simp [Value.items?]

theorem unexpected_of_unfit {root : Node} (h : Unfit root) (hreport : root.isTagged CompileDiagnostic.tag = false) :
    Unexpected (.object root) := by
  cases htag : root.isTagged statListTag with
  | false => exact .otherKind htag hreport
  | true =>
    obtain hkind | ⟨stats, hstats, hitems⟩ := h
    · rw [htag] at hkind
      cases hkind
    · exact .noArray htag hstats hitems

/-- An unexpected document is none of those that are converted or report an error. -/
theorem Unexpected.root {root : Node} (h : Unexpected (.object root)) :
    Unfit root ∧ root.isTagged CompileDiagnostic.tag = false := by
  cases h with
  | notANode hnode => cases hnode
  | otherKind htag hreport => exact ⟨.inl htag, hreport⟩
  | noArray htag hstats hitems => exact ⟨.inr ⟨_, hstats, hitems⟩, not_reported htag⟩

/-! ## How a conversion is decided -/

/-- what comes of a text that reads like this -/
inductive Answers (mode : Mode) (version : UInt64) : Except Malformed Value → Conversion → Prop where
  /-- the text is no document -/
  | unreadable (cause : Malformed) : Answers mode version (.error cause) (failure version (.document cause))
  /-- the document reports a syntax error -/
  | reported {root : Node} : root.isTagged CompileDiagnostic.tag = true →
      Answers mode version (.ok (.object root)) (failure version (.compile (.ofNode root)))
  /-- the document is converted, without a fault in strict mode -/
  | converted {root : Node} {notes : List Fault} {m : Module} : ¬ Unfit root →
      convertModule root .permissive = ⟨notes, .ok m⟩ → (mode = .strict → notes = []) →
      Answers mode version (.ok (.object root)) (success version m notes)
  /-- strict mode meets a fault in it -/
  | faulty {root : Node} {fault : Fault} {rest : List Fault} {m : Module} : ¬ Unfit root → mode = .strict →
      convertModule root .permissive = ⟨fault :: rest, .ok m⟩ →
      Answers mode version (.ok (.object root)) (failure version (.conversion fault))
  /-- the document is not one to be converted -/
  | refused {document : Value} (fault : Fault) : Unexpected document →
      Answers mode version (.ok document) (refused mode version fault)

theorem ofValue_object {root : Node} (h : root.isTagged CompileDiagnostic.tag = false) (mode : Mode) (version : UInt64) :
    ofValue mode version (.object root) =
      match (convertModule root mode).result with
      | .ok m => success version m (convertModule root mode).notes
      | .error fault => Conversion.refused mode version fault := by
  unfold ofValue
  simp only [h]
  rfl

/-- A list of statements gives a module, or in strict mode the first of its faults. -/
theorem answers_fit {root : Node} (h : ¬ Unfit root) (mode : Mode) (version : UInt64) :
    Answers mode version (.ok (.object root)) (ofValue mode version (.object root)) := by
  rw [ofValue_object (not_reported (not_unfit_iff.1 h).1)]
  obtain ⟨hunfit, -⟩ | ⟨-, notes, m, hroot⟩ := convertModule_permissive root
  · exact absurd hunfit h
  cases mode with
  | permissive =>
    rw [hroot]
    exact .converted h hroot nofun
  | strict =>
    rw [Attempt.outcome_strict, hroot]
    cases notes with
    | nil => exact .converted h hroot fun _ => rfl
    | cons fault rest => exact .faulty h rfl hroot

theorem answers_unfit {root : Node} (h : Unfit root) (hreport : root.isTagged CompileDiagnostic.tag = false) (mode : Mode)
    (version : UInt64) : Answers mode version (.ok (.object root)) (ofValue mode version (.object root)) := by
  rw [ofValue_object hreport]
  obtain ⟨-, fault, hroot⟩ | ⟨hfit, -⟩ := convertModule_cases root
  · rw [hroot]
    exact .refused fault (unexpected_of_unfit h hreport)
  · exact absurd h hfit

theorem answers_ofValue (mode : Mode) (version : UInt64) (document : Value) :
    Answers mode version (.ok document) (ofValue mode version document) := by
  cases document with
  | object root =>
    cases hreport : root.isTagged CompileDiagnostic.tag with
    | true =>
      have hvalue : ofValue mode version (.object root) = failure version (.compile (.ofNode root)) := by
        simp [ofValue, hreport]
      exact hvalue ▸ .reported hreport
    | false =>
      by_cases h : Unfit root
      · exact answers_unfit h hreport mode version
      · exact answers_fit h mode version
  | _ => exact .refused _ (.notANode rfl)

theorem answers_ofText (mode : Mode) (version : UInt64) (text : String) :
    Answers mode version (read text) (ofText mode version text) := by
  unfold ofText
  cases read text with
  | error cause => exact .unreadable cause
  | ok document => exact answers_ofValue mode version document

/-! ## What callers rely on -/

namespace Answers

variable {mode : Mode} {version : UInt64} {reading : Except Malformed Value} {c : Conversion}

theorem version_eq (h : Answers mode version reading c) : c.version = version := by
  cases h with
  | refused fault => cases mode <;> rfl
  | _ => rfl

theorem exclusive (h : Answers mode version reading c) : c.module? = none ∨ c.error? = none := by
  cases h with
  | converted => exact .inr rfl
  | refused fault => cases mode <;> exact .inl rfl
  | _ => exact .inl rfl

theorem noted (h : Answers mode version reading c) (hnotes : c.notes ≠ []) :
    c.module?.isSome = true ∧ mode = .permissive := by
  cases h with
  | converted _ _ hstrict =>
    cases mode with
    | permissive => exact ⟨rfl, rfl⟩
    | strict => exact absurd (hstrict rfl) hnotes
  | refused fault => cases mode <;> exact absurd rfl hnotes
  | _ => exact absurd rfl hnotes

theorem not_empty (h : Answers mode version reading c) (hmode : mode = .strict) : c.isEmpty = false := by
  subst hmode
  cases h <;> rfl

theorem module_iff (h : Answers mode version reading c) :
    c.module?.isSome = true ↔ ∃ root, reading = .ok (.object root) ∧ ¬ Unfit root ∧
      (mode = .strict → (convertModule root .permissive).notes = []) := by
  cases h with
  | unreadable cause => exact iff_of_false nofun nofun
  | reported hreport =>
    refine iff_of_false nofun ?_
    rintro ⟨root, hroot, hfit, -⟩
    cases hroot
    rw [not_reported (not_unfit_iff.1 hfit).1] at hreport
    cases hreport
  | converted hfit hroot hstrict => exact iff_of_true rfl ⟨_, rfl, hfit, by rwa [hroot]⟩
  | faulty hfit hmode hroot =>
    refine iff_of_false nofun ?_
    rintro ⟨root, hsame, -, hnotes⟩
    cases hsame
    have hnil := hnotes hmode
    rw [hroot] at hnil
    cases hnil
  | refused fault hdocument =>
    refine iff_of_false (by cases mode <;> nofun) ?_
    rintro ⟨root, hsame, hfit, -⟩
    cases hsame
    exact hfit hdocument.root.1

theorem error_iff (h : Answers .permissive version reading c) :
    c.error?.isSome = true ↔
      (∃ cause, reading = .error cause) ∨
        ∃ root, reading = .ok (.object root) ∧ root.isTagged CompileDiagnostic.tag = true := by
  cases h with
  | unreadable cause => exact iff_of_true rfl (.inl ⟨cause, rfl⟩)
  | reported hreport => exact iff_of_true rfl (.inr ⟨_, rfl, hreport⟩)
  | converted hfit =>
    refine iff_of_false nofun ?_
    rintro (⟨cause, hsame⟩ | ⟨root, hsame, hreport⟩) <;> cases hsame
    rw [not_reported (not_unfit_iff.1 hfit).1] at hreport
    cases hreport
  | faulty _ hmode => cases hmode
  | refused fault hdocument =>
    refine iff_of_false nofun ?_
    rintro (⟨cause, hsame⟩ | ⟨root, hsame, hreport⟩) <;> cases hsame
    rw [hdocument.root.2] at hreport
    cases hreport

theorem of_unexpected {document : Value} (h : Answers mode version (.ok document) c) (hdocument : Unexpected document) :
    ∃ fault, c = Conversion.refused mode version fault := by
  cases h with
  | reported hreport =>
    rw [hdocument.root.2] at hreport
    cases hreport
  | converted hfit => exact absurd hdocument.root.1 hfit
  | faulty hfit => exact absurd hdocument.root.1 hfit
  | refused fault => exact ⟨fault, rfl⟩

end Answers

/-- **The outcomes of a conversion.** For every text, in either mode: the version comes back; there is no module beside an
error; there are notes only with a module, in permissive mode; in strict mode there is a module or an error. There is a
module exactly when the text is a list of statements, with nothing or an array in `stats`, and in strict mode nothing is
noted for it in permissive mode. Permissive mode gives an error exactly for a text that cannot be read and for the report of
a syntax error. Every other document, which is no list of statements, gives nothing in permissive mode, and the fault for
which it is not converted in strict mode. -/
theorem ofText_outcomes (mode : Mode) (version : UInt64) (text : String) :
    (ofText mode version text).version = version ∧
    ((ofText mode version text).module? = none ∨ (ofText mode version text).error? = none) ∧
    ((ofText mode version text).notes ≠ [] → (ofText mode version text).module?.isSome = true ∧ mode = .permissive) ∧
    (mode = .strict → (ofText mode version text).isEmpty = false) ∧
    ((ofText mode version text).module?.isSome = true ↔
      ∃ root, read text = .ok (.object root) ∧ root.isTagged "StatList" = true ∧
        (root.present? "stats" = none ∨ ∃ items, root.present? "stats" = some (.array items)) ∧
        (mode = .strict → ((convertModule root).run (.fresh .permissive)).2.notes = [])) ∧
    (mode = .permissive → ((ofText mode version text).error?.isSome = true ↔
      (∃ cause, read text = .error cause) ∨
        ∃ root, read text = .ok (.object root) ∧ root.isTagged "CompileError" = true)) ∧
    ∀ document, read text = .ok document →
      (document.node? = none ∨
        (∃ root, document = .object root ∧ root.isTagged "StatList" = false ∧ root.isTagged "CompileError" = false) ∨
        ∃ root stats, document = .object root ∧ root.isTagged "StatList" = true ∧
          root.present? "stats" = some stats ∧ stats.items? = none) →
      (mode = .permissive → (ofText mode version text).isEmpty = true) ∧
        (mode = .strict → ∃ fault, (ofText mode version text).error? = some (.conversion fault)) := by
  have h := answers_ofText mode version text
  refine ⟨h.version_eq, h.exclusive, h.noted, h.not_empty, ?_, ?_, ?_⟩
  · rw [h.module_iff]
    refine exists_congr fun root => and_congr_right fun _ => ?_
    rw [not_unfit_iff, and_assoc, Attempt.run_fresh]
    rfl
  · rintro rfl
    exact h.error_iff
  · intro document hread hother
    have hdocument : Unexpected document := by
      obtain hnode | ⟨root, rfl, htag, hreport⟩ | ⟨root, stats, rfl, htag, hstats, hitems⟩ := hother
      · exact .notANode hnode
      · exact .otherKind htag hreport
      · exact .noArray htag hstats hitems
    rw [hread] at h
    obtain ⟨fault, hrefused⟩ := h.of_unexpected hdocument
    rw [hrefused]
    exact ⟨by rintro rfl; rfl, by rintro rfl; exact ⟨fault, rfl⟩⟩

end Graft.Conversion
