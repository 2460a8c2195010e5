/-
The report of a syntax error, whatever position it was found at.

Positions come with the document and may be anything. One that lies in the source (`LiesIn`) becomes a primary label on
the character there, and any other is told in a note.

- `spanIn_eq_some_iff`: a span starts after what its position stands after, and ends after one character more.
- `span_covers`: in a source of less than `2 ^ 32` bytes both ends are offsets that fit a word, so that nothing wraps round
  and the span can be cut out of the source.
- `report_renderable`: what a report consists of, and what its label covers.
-/
import Graft.Proofs.Offsets
import Graft.Report

namespace Graft

open Source

namespace Position

variable {p : Position} {source : String} {span : Span}

/-- the line is one of the text, and the column one of the line or the one just after it -/
def LiesIn (p : Position) (source : String) : Prop :=
  1 ≤ p.line.toNat ∧ 1 ≤ p.column.toNat ∧
    ∃ line, (lines source.toList)[p.line.toNat - 1]? = some line ∧ p.column.toNat ≤ 1 + line.length

/-- the span can be cut out of the text, and what is cut out is the character at the position -/
structure Covers (p : Position) (source : String) (span : Span) : Prop where
  ordered : span.start.toNat ≤ span.stop.toNat
  inside : span.stop.toNat ≤ source.utf8ByteSize
  start_valid : String.Pos.Raw.IsValid source ⟨span.start.toNat⟩
  stop_valid : String.Pos.Raw.IsValid source ⟨span.stop.toNat⟩
  /-- one character is covered, which is the next after those that the position stands after; there may be none -/
  covered : ∃ before covered rest, source.toList = before ++ covered ++ rest ∧ p.StandsAfter before ∧
    byteLength before = span.start.toNat ∧ byteLength (before ++ covered) = span.stop.toNat ∧
      (covered.length = 1 ∨ covered = [] ∧ rest = [])
  /-- nothing is covered exactly at the end of the text -/
  empty_iff : span.isEmpty = true ↔ p.StandsAfter source.toList

/-- A position stands after at most one start of a text. -/
theorem StandsAfter.start_unique {before before' rest rest' : List Char} (hsource : source.toList = before ++ rest)
    (hsource' : source.toList = before' ++ rest') (h : p.StandsAfter before) (h' : p.StandsAfter before') :
    before = before' := by
  have hoffset : p.byteOffset source = some (byteLength before) :=
    (byteOffset_eq_some_iff p source _).2 ⟨before, rest, hsource, rfl, h⟩
  have hoffset' : p.byteOffset source = some (byteLength before') :=
    (byteOffset_eq_some_iff p source _).2 ⟨before', rest', hsource', rfl, h'⟩
  exact eq_of_byteLength (hsource.symm.trans hsource') (Option.some.inj (hoffset.symm.trans hoffset'))

theorem spanIn_eq_some_iff (p : Position) (source : String) (span : Span) :
    p.spanIn source = some span ↔
      ∃ before rest, source.toList = before ++ rest ∧ p.StandsAfter before ∧
        span = ⟨UInt32.ofNat (byteLength before), UInt32.ofNat (byteLength (before ++ rest.take 1))⟩ := by
  have hwidth (before rest : List Char) :
      byteLength before + (rest.head?.map Char.utf8Size).getD 0 = byteLength (before ++ rest.take 1) := by
    cases rest <;> simp
  have hspan (before rest : List Char) :
      (⟨UInt32.ofNat (byteLength before), UInt32.ofNat (byteLength before + (rest.head?.map Char.utf8Size).getD 0)⟩ : Span) =
        ⟨UInt32.ofNat (byteLength before), UInt32.ofNat (byteLength (before ++ rest.take 1))⟩ := by
    rw [hwidth]
  rw [spanIn, Option.map_eq_some_iff]
  constructor
  · rintro ⟨⟨start, rest⟩, hlocate, rfl⟩
    obtain ⟨before, hsource, rfl, hp⟩ := (locate_eq_some_iff p _ rest start).1 hlocate
    exact ⟨before, rest, hsource, hp, hspan before rest⟩
  · rintro ⟨before, rest, hsource, hp, rfl⟩
    exact ⟨(byteLength before, rest), (locate_eq_some_iff p _ rest _).2 ⟨before, hsource, rfl, hp⟩, hspan before rest⟩

theorem isSome_spanIn_iff (p : Position) (source : String) : (p.spanIn source).isSome ↔ p.LiesIn source := by
  have hoffset : (p.spanIn source).isSome = (p.byteOffset source).isSome := by
    rw [spanIn, byteOffset, Option.isSome_map, Option.isSome_map]
  rw [hoffset]
  exact isSome_byteOffset_iff p source

/-- In a text whose length fits a word, the span at a position covers the character there. -/
theorem span_covers (hsize : source.utf8ByteSize < UInt32.size) (h : p.spanIn source = some span) :
    p.Covers source span := by
  obtain ⟨before, rest, hsource, hp, rfl⟩ := (spanIn_eq_some_iff p source span).1 h
  have hcut : source.toList = before ++ rest.take 1 ++ rest.drop 1 := by
    rw [List.append_assoc, List.take_append_drop, hsource]
  have hordered : byteLength before ≤ byteLength (before ++ rest.take 1) := by
    rw [byteLength_append]
    exact Nat.le_add_right _ _
  have hinside : byteLength (before ++ rest.take 1) ≤ source.utf8ByteSize := byteLength_le hcut
  have hstart : (UInt32.ofNat (byteLength before)).toNat = byteLength before :=
    UInt32.toNat_ofNat_of_lt' (by omega)
  have hstop : (UInt32.ofNat (byteLength (before ++ rest.take 1))).toNat = byteLength (before ++ rest.take 1) :=
    UInt32.toNat_ofNat_of_lt' (by omega)
  constructor
  · rw [hstart, hstop]
    exact hordered
  · rw [hstop]
    exact hinside
  · rw [hstart]
    exact (isValid_iff source _).2 ⟨before, rest, hsource, rfl⟩
  · rw [hstop]
    exact (isValid_iff source _).2 ⟨_, _, hcut, rfl⟩
  · refine ⟨before, rest.take 1, rest.drop 1, hcut, hp, hstart.symm, hstop.symm, ?_⟩
    cases rest with
    | nil => exact .inr ⟨rfl, rfl⟩
    | cons c rest => exact .inl rfl
  · have hnone : byteLength (rest.take 1) = 0 ↔ rest = [] := by
      rw [byteLength_eq_zero]
      cases rest <;> simp
    rw [Span.isEmpty, beq_iff_eq, ← UInt32.toNat_inj, hstart, hstop, byteLength_append, Nat.left_eq_add, hnone]
    constructor
    · rintro rfl
      rwa [hsource, List.append_nil]
    · intro hend
      have hall : before = source.toList := hp.start_unique hsource (List.append_nil _).symm hend
      rw [hall] at hsource
      exact List.self_eq_append_right.1 hsource

end Position

namespace CompileDiagnostic

/-! ## Main result -/

/-- **A report can always be shown.** Whatever the message and the position of a syntax error are, and for every source of
less than `2 ^ 32` bytes:
- The report has one primary label and no notes, or no labels and one note.
- It has a label exactly if the position lies in the source.
- The label is in the file that the report is for. It can be cut out of the source, covers the one character at the
  position, and is empty exactly at the end of the text. -/
theorem report_renderable (d : CompileDiagnostic) (file : Nat) {source : String}
    (hsize : source.utf8ByteSize < UInt32.size) :
    ((∃ label, (d.report file source).labels = [label] ∧ label.style = .primary ∧ (d.report file source).notes = []) ∨
      (d.report file source).labels = [] ∧ ∃ note, (d.report file source).notes = [note]) ∧
    ((d.report file source).labels ≠ [] ↔ d.pos.LiesIn source) ∧
    ∀ label ∈ (d.report file source).labels, label.file = file ∧ d.pos.Covers source label.span := by
  have hlabel := Position.isSome_spanIn_iff d.pos source
  unfold report
  cases hspan : d.pos.spanIn source with
  | none =>
    rw [hspan] at hlabel
    refine ⟨.inr ⟨rfl, _, rfl⟩, ?_, nofun⟩
    simpa using hlabel
  | some span =>
    rw [hspan] at hlabel
    refine ⟨.inl ⟨_, rfl, rfl, rfl⟩, ?_, ?_⟩
    · simpa using hlabel
    · intro label hmem
      obtain rfl := List.mem_singleton.1 hmem
      exact ⟨rfl, Position.span_covers hsize hspan⟩

/-- a text whose first character takes two bytes, and whose last is a newline -/
def endedLine : String := "é!\n"

/-- The label for the place after the last character of a line covers the newline, and that for the start of the line after
it nothing. The greatest position that there is goes into a note. -/
theorem report_renderable_endedLine :
    endedLine.utf8ByteSize < UInt32.size ∧
    (∃ label, (report ⟨"m", ⟨1, 3⟩⟩ 0 endedLine).labels = [label] ∧ Position.Covers ⟨1, 3⟩ endedLine label.span ∧
      label.span = ⟨3, 4⟩) ∧
    (∃ label, (report ⟨"m", ⟨2, 1⟩⟩ 0 endedLine).labels = [label] ∧ Position.Covers ⟨2, 1⟩ endedLine label.span ∧
      label.span.isEmpty = true) ∧
    (report ⟨"m", ⟨4294967295, 4294967295⟩⟩ 0 endedLine).labels = [] := by
  have hsize : endedLine.utf8ByteSize < UInt32.size := by decide
  obtain ⟨-, -, hcolumn⟩ := report_renderable ⟨"m", ⟨1, 3⟩⟩ 0 hsize
  obtain ⟨-, -, hline⟩ := report_renderable ⟨"m", ⟨2, 1⟩⟩ 0 hsize
  obtain ⟨-, hlies, -⟩ := report_renderable ⟨"m", ⟨4294967295, 4294967295⟩⟩ 0 hsize
  refine ⟨hsize, ⟨⟨.primary, 0, ⟨3, 4⟩, "syntax error here"⟩, by decide, (hcolumn _ (by decide)).2, rfl⟩,
    ⟨⟨.primary, 0, ⟨4, 4⟩, "syntax error here"⟩, by decide, (hline _ (by decide)).2, rfl⟩, ?_⟩
  by_contra hlabels
  obtain ⟨-, -, line, hsome, -⟩ := hlies.1 hlabels
  have hnone : (lines endedLine.toList)[4294967294]? = none := by decide
  exact absurd (hnone.symm.trans hsome) nofun

end CompileDiagnostic

end Graft
