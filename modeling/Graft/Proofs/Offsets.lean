/-
Positions and the bytes of a text.

A position stands after some characters at the start of a text (`StandsAfter`): its line is one more than the newlines
among them, and its column one more than the characters of them after the last newline (`lastLine`). The offset of a
position is the number of bytes of exactly those characters (`locate_eq_some_iff`), so that everything about offsets is
read off two facts:
- the characters before an offset are determined by their bytes (`eq_of_byteLength`), and so is the position;
- the line of a position is a line of the text as it is split at newlines (`getElem?_lines`), and the position is within
  its length.

- `byteOffset_bijective`: positions that are in the text and boundaries of its characters are one to one.
-/
import Mathlib.Data.List.DropRight
import Graft.Source.Offset

namespace Graft

namespace Source

variable {cs xs ys before within rest : List Char} {c : Char} {start n : Nat}

/-! ## Bytes -/

@[simp] theorem byteLength_nil : byteLength [] = 0 := rfl

@[simp] theorem byteLength_cons (c : Char) (cs : List Char) : byteLength (c :: cs) = c.utf8Size + byteLength cs := rfl

@[simp] theorem byteLength_append (xs ys : List Char) : byteLength (xs ++ ys) = byteLength xs + byteLength ys := by
  induction xs with
  | nil => simp
  | cons x xs ih => simp [ih, Nat.add_assoc]

/-- Every character takes a byte at least. -/
theorem byteLength_eq_zero : byteLength cs = 0 ↔ cs = [] := by
  cases cs with
  | nil => simp
  | cons c cs =>
    have hpos := c.utf8Size_pos
    simp only [byteLength_cons, List.cons_ne_nil, iff_false]
    omega

theorem utf8ByteSize_ofList (cs : List Char) : (String.ofList cs).utf8ByteSize = byteLength cs := by
  induction cs with
  | nil => rfl
  | cons c cs ih => rw [String.ofList_cons, String.utf8ByteSize_append, String.utf8ByteSize_singleton, ih, byteLength_cons]

/-- What stands at the start of a text is known from its bytes. -/
theorem eq_of_byteLength {xs' ys' : List Char} (h : xs ++ ys = xs' ++ ys') (hbytes : byteLength xs = byteLength xs') :
    xs = xs' := by
  rcases List.append_eq_append_iff.1 h with ⟨more, rfl, -⟩ | ⟨more, rfl, -⟩
  · obtain rfl : more = [] := byteLength_eq_zero.1 (by simpa using hbytes)
    exact (List.append_nil xs).symm
  · obtain rfl : more = [] := byteLength_eq_zero.1 (by simpa using hbytes)
    exact List.append_nil xs'

/-- The boundaries of characters are the numbers of bytes of what a text starts with. -/
theorem isValid_iff (source : String) (o : Nat) :
    String.Pos.Raw.IsValid source ⟨o⟩ ↔ ∃ before rest, source.toList = before ++ rest ∧ byteLength before = o := by
  rw [String.Pos.Raw.isValid_iff_exists_append]
  constructor
  · rintro ⟨first, second, rfl, ho⟩
    refine ⟨first.toList, second.toList, String.toList_append, ?_⟩
    rw [← utf8ByteSize_ofList, String.ofList_toList]
    exact (congrArg String.Pos.Raw.byteIdx ho).symm
  · rintro ⟨before, rest, hsource, rfl⟩
    refine ⟨String.ofList before, String.ofList rest, ?_, ?_⟩
    · rw [← String.ofList_append, ← hsource, String.ofList_toList]
    · rw [← utf8ByteSize_ofList]
      rfl

theorem byteLength_le {source : String} (h : source.toList = before ++ rest) :
    byteLength before ≤ source.utf8ByteSize := by
  have hsource : source.utf8ByteSize = byteLength (before ++ rest) := by
    rw [← h, ← utf8ByteSize_ofList, String.ofList_toList]
  rw [hsource, byteLength_append]
  exact Nat.le_add_right _ _

/-! ## The last line of what comes before a place -/

/-- the characters after the last newline -/
def lastLine (cs : List Char) : List Char := cs.rtakeWhile (· ≠ '\n')

theorem newline_notMem_lastLine (cs : List Char) : '\n' ∉ lastLine cs := by
  intro h
  simpa using List.mem_rtakeWhile_imp h

theorem lastLine_eq_self (h : '\n' ∉ cs) : lastLine cs = cs := by
  refine List.rtakeWhile_eq_self_iff.2 fun c hc => ?_
  have hne : c ≠ '\n' := by
    rintro rfl
    exact h hc
  simpa using hne

theorem lastLine_append (h : '\n' ∉ ys) : lastLine (xs ++ ys) = lastLine xs ++ ys := by
  induction ys using List.reverseRecOn with
  | nil => simp
  | append_singleton ys y ih =>
    have hy : y ≠ '\n' := by
      rintro rfl
      simp at h
    have hys : '\n' ∉ ys := fun hmem => h (List.mem_append_left _ hmem)
    rw [← List.append_assoc, lastLine, List.rtakeWhile_concat_pos _ _ _ (by simpa using hy)]
    rw [← lastLine, ih hys, List.append_assoc]

/-- What comes before a newline does not count. -/
theorem lastLine_append_newline (xs ys : List Char) : lastLine (xs ++ '\n' :: ys) = lastLine ys := by
  induction ys using List.reverseRecOn with
  | nil => simp [lastLine]
  | append_singleton ys y ih =>
    have hassoc : xs ++ '\n' :: (ys ++ [y]) = (xs ++ '\n' :: ys) ++ [y] := by simp
    unfold lastLine at ih ⊢
    rw [hassoc, List.rtakeWhile_concat, List.rtakeWhile_concat, ih]

/-- What comes before the last line ends with a newline, if there is anything. -/
theorem exists_lastLine (before : List Char) :
    ∃ lead within, before = lead ++ within ∧ lastLine lead = [] ∧ '\n' ∉ within ∧ lastLine before = within := by
  refine ⟨before.rdropWhile (· ≠ '\n'), lastLine before, List.rdropWhile_append_rtakeWhile.symm, ?_,
    newline_notMem_lastLine before, rfl⟩
  exact List.rtakeWhile_eq_nil_iff.2 (List.rdropWhile_last_not _ _)

theorem lastLine_cons_newline (cs : List Char) : lastLine ('\n' :: cs) = lastLine cs := lastLine_append_newline [] cs

theorem lastLine_cons_of_mem (c : Char) (h : '\n' ∈ cs) : lastLine (c :: cs) = lastLine cs := by
  obtain ⟨xs, ys, rfl⟩ := List.append_of_mem h
  rw [← List.cons_append, lastLine_append_newline, lastLine_append_newline]

/-! ## Over lines and along a line -/

/-- Passing over line breaks leads to the start of a line, after so many newlines. -/
theorem afterLines_sound {lines : Nat} (h : afterLines lines cs = some (start, rest)) :
    ∃ lead, cs = lead ++ rest ∧ byteLength lead = start ∧ lead.count '\n' = lines ∧ lastLine lead = [] := by
  induction cs generalizing lines start with
  | nil =>
    cases lines with
    | zero =>
      cases h
      exact ⟨[], rfl, rfl, rfl, rfl⟩
    | succ lines => cases h
  | cons c cs ih =>
    cases lines with
    | zero =>
      cases h
      exact ⟨[], rfl, rfl, rfl, rfl⟩
    | succ lines =>
      rw [afterLines, Option.map_eq_some_iff] at h
      obtain ⟨⟨bytes, rest⟩, h, heq⟩ := h
      cases heq
      by_cases hc : c = '\n'
      · subst hc
        rw [if_pos rfl] at h
        obtain ⟨lead, rfl, rfl, rfl, hlead⟩ := ih h
        exact ⟨'\n' :: lead, rfl, rfl, by simp, by rw [lastLine_cons_newline, hlead]⟩
      · rw [if_neg hc] at h
        obtain ⟨lead, rfl, rfl, hcount, hlead⟩ := ih h
        have hmem : '\n' ∈ lead := List.count_pos_iff.1 (by omega)
        exact ⟨c :: lead, rfl, rfl, by rw [List.count_cons_of_ne hc, hcount], by rw [lastLine_cons_of_mem c hmem, hlead]⟩

/-- Every start of a line is reached. -/
theorem afterLines_complete {lead : List Char} (hlead : lastLine lead = []) (rest : List Char) :
    afterLines (lead.count '\n') (lead ++ rest) = some (byteLength lead, rest) := by
  induction lead with
  | nil => simp [afterLines]
  | cons c lead ih =>
    by_cases hc : c = '\n'
    · subst hc
      rw [lastLine_cons_newline] at hlead
      simp [afterLines, ih hlead]
    · have hmem : '\n' ∈ lead := by
        by_contra hnone
        rw [lastLine_eq_self (by simp [hnone, Ne.symm hc])] at hlead
        cases hlead
      rw [lastLine_cons_of_mem c hmem] at hlead
      obtain ⟨lines, hlines⟩ := Nat.exists_eq_add_one.2 (List.count_pos_iff.2 hmem)
      have hrest := ih hlead
      rw [hlines] at hrest
      rw [List.count_cons_of_ne hc, hlines, List.cons_append, afterLines, if_neg hc, hrest]
      rfl

/-- Passing over characters of a line stays in it. -/
theorem alongLine_sound (h : alongLine n cs = some (start, rest)) :
    ∃ within, cs = within ++ rest ∧ byteLength within = start ∧ within.length = n ∧ '\n' ∉ within := by
  induction cs generalizing n start with
  | nil =>
    cases n with
    | zero =>
      cases h
      exact ⟨[], rfl, rfl, rfl, List.not_mem_nil⟩
    | succ n => cases h
  | cons c cs ih =>
    cases n with
    | zero =>
      cases h
      exact ⟨[], rfl, rfl, rfl, List.not_mem_nil⟩
    | succ n =>
      by_cases hc : c = '\n'
      · rw [alongLine, if_pos hc] at h
        cases h
      · rw [alongLine, if_neg hc, Option.map_eq_some_iff] at h
        obtain ⟨⟨bytes, rest⟩, h, heq⟩ := h
        cases heq
        obtain ⟨within, rfl, rfl, rfl, hwithin⟩ := ih h
        exact ⟨c :: within, rfl, rfl, rfl, by simp [hwithin, Ne.symm hc]⟩

theorem alongLine_complete (h : '\n' ∉ within) (rest : List Char) :
    alongLine within.length (within ++ rest) = some (byteLength within, rest) := by
  induction within with
  | nil => simp [alongLine]
  | cons c within ih =>
    rw [List.mem_cons, not_or] at h
    simp [alongLine, Ne.symm h.1, ih h.2]

/-! ## The lines of a text -/

/-- the lines of a text, of which there is one more than newlines -/
def lines (cs : List Char) : List (List Char) := cs.splitOn '\n'

theorem lines_cons (c : Char) (cs : List Char) :
    lines (c :: cs) = if c = '\n' then [] :: lines cs else (lines cs).modifyHead (c :: ·) := by
  rw [lines, List.splitOn_cons_eq_if_modifyHead]
  simp [lines]

theorem length_lines (cs : List Char) : (lines cs).length = cs.count '\n' + 1 := by
  induction cs with
  | nil => rfl
  | cons c cs ih =>
    rw [lines_cons]
    by_cases hc : c = '\n'
    · subst hc
      simp [ih]
    · rw [if_neg hc, List.length_modifyHead, ih, List.count_cons_of_ne hc]

theorem getElem?_lines_zero (cs : List Char) : (lines cs)[0]? = some (cs.takeWhile (· ≠ '\n')) := by
  induction cs with
  | nil => rfl
  | cons c cs ih =>
    rw [lines_cons]
    by_cases hc : c = '\n'
    · simp [hc]
    · cases hlines : lines cs with
      | nil => simp [hlines] at ih
      | cons line rest =>
        rw [hlines] at ih
        simp_all

/-- A line of the text is what stands on the line that is reached over the breaks before it. -/
theorem getElem?_lines (n : Nat) (cs : List Char) :
    (lines cs)[n]? = (afterLines n cs).map fun reached => reached.2.takeWhile (· ≠ '\n') := by
  induction cs generalizing n with
  | nil => cases n <;> simp [lines, afterLines]
  | cons c cs ih =>
    cases n with
    | zero => rw [getElem?_lines_zero, afterLines]; rfl
    | succ n =>
      rw [lines_cons, afterLines, Option.map_map]
      by_cases hc : c = '\n'
      · rw [if_pos hc, if_pos hc, List.getElem?_cons_succ, ih]
        rfl
      · rw [if_neg hc, if_neg hc, List.getElem?_modifyHead, ih]
        rw [if_neg (Nat.succ_ne_zero n)]
        rfl

theorem isSome_alongLine (n : Nat) (cs : List Char) :
    (alongLine n cs).isSome ↔ n ≤ (cs.takeWhile (· ≠ '\n')).length := by
  induction cs generalizing n with
  | nil => cases n <;> simp [alongLine]
  | cons c cs ih =>
    cases n with
    | zero => simp [alongLine]
    | succ n =>
      by_cases hc : c = '\n'
      · simp [alongLine, hc]
      · simp [alongLine, hc, ih]

end Source

namespace Position

open Source

variable {p q : Position} {before rest : List Char} {o : Nat}

/-- the line is one more than the newlines of these characters, and the column one more than those after the last newline -/
structure StandsAfter (p : Position) (before : List Char) : Prop where
  line : p.line.toNat = before.count '\n' + 1
  column : p.column.toNat = (lastLine before).length + 1

/-- At most one position stands after some characters. -/
theorem StandsAfter.unique (hp : p.StandsAfter before) (hq : q.StandsAfter before) : p = q := by
  obtain ⟨line, column⟩ := p
  obtain ⟨line', column'⟩ := q
  have hline : line = line' := UInt32.toNat_inj.1 (hp.line.trans hq.line.symm)
  have hcolumn : column = column' := UInt32.toNat_inj.1 (hp.column.trans hq.column.symm)
  rw [hline, hcolumn]

/-- Where the numbers fit, there is one. -/
theorem exists_standsAfter (hline : before.count '\n' + 1 < UInt32.size)
    (hcolumn : (lastLine before).length + 1 < UInt32.size) : ∃ p : Position, p.StandsAfter before :=
  ⟨⟨UInt32.ofNat (before.count '\n' + 1), UInt32.ofNat ((lastLine before).length + 1)⟩,
    UInt32.toNat_ofNat_of_lt' hline, UInt32.toNat_ofNat_of_lt' hcolumn⟩

/-- A position is found after what it stands after, and nowhere else. -/
theorem locate_eq_some_iff (p : Position) (source rest : List Char) (o : Nat) :
    p.locate source = some (o, rest) ↔
      ∃ before, source = before ++ rest ∧ byteLength before = o ∧ p.StandsAfter before := by
  constructor
  · intro h
    unfold locate at h
    split at h
    · cases h
    · rename_i hknown
      rw [not_or] at hknown
      have hline : p.line.toNat ≠ 0 := fun hzero => hknown.1 (UInt32.toNat_inj.1 hzero)
      have hcolumn : p.column.toNat ≠ 0 := fun hzero => hknown.2 (UInt32.toNat_inj.1 hzero)
      obtain ⟨⟨start, line⟩, hlines, h⟩ := Option.bind_eq_some_iff.1 h
      obtain ⟨⟨bytes, rest'⟩, halong, h⟩ := Option.bind_eq_some_iff.1 h
      cases h
      obtain ⟨lead, rfl, rfl, hcount, hlead⟩ := afterLines_sound hlines
      obtain ⟨within, rfl, rfl, hlength, hwithin⟩ := alongLine_sound halong
      refine ⟨lead ++ within, by simp, by simp, ?_, ?_⟩
      · rw [List.count_append, List.count_eq_zero.2 hwithin, hcount]
        omega
      · rw [lastLine_append hwithin, hlead, List.nil_append, hlength]
        omega
  · rintro ⟨before, rfl, rfl, hline, hcolumn⟩
    have hknown : ¬ (p.line = 0 ∨ p.column = 0) := by
      rintro (h | h)
      · simp [h] at hline
      · simp [h] at hcolumn
    obtain ⟨lead, within, rfl, hlead, hwithin, hlast⟩ := exists_lastLine before
    rw [List.count_append, List.count_eq_zero.2 hwithin, Nat.add_zero] at hline
    have hlines : afterLines (p.line.toNat - 1) (lead ++ within ++ rest) = some (byteLength lead, within ++ rest) := by
      rw [hline, Nat.add_sub_cancel, List.append_assoc]
      exact afterLines_complete hlead _
    have halong : alongLine (p.column.toNat - 1) (within ++ rest) = some (byteLength within, rest) := by
      rw [hcolumn, hlast, Nat.add_sub_cancel]
      exact alongLine_complete hwithin rest
    rw [locate, if_neg hknown, byteLength_append]
    simp only [hlines, halong, Option.bind_eq_bind, Option.bind_some]
    rfl

theorem byteOffset_eq_some_iff (p : Position) (source : String) (o : Nat) :
    p.byteOffset source = some o ↔
      ∃ before rest, source.toList = before ++ rest ∧ byteLength before = o ∧ p.StandsAfter before := by
  rw [byteOffset, Option.map_eq_some_iff]
  constructor
  · rintro ⟨⟨_, rest⟩, hlocate, rfl⟩
    obtain ⟨before, hsource, hbytes, hp⟩ := (locate_eq_some_iff p _ rest _).1 hlocate
    exact ⟨before, rest, hsource, hbytes, hp⟩
  · rintro ⟨before, rest, hsource, hbytes, hp⟩
    exact ⟨(o, rest), (locate_eq_some_iff p _ rest o).2 ⟨before, hsource, hbytes, hp⟩, rfl⟩

/-- A position has an offset exactly if its line is one of the text and its column one of the line, or the one after. -/
theorem isSome_byteOffset_iff (p : Position) (source : String) :
    (p.byteOffset source).isSome ↔ 1 ≤ p.line.toNat ∧ 1 ≤ p.column.toNat ∧
      ∃ line, (lines source.toList)[p.line.toNat - 1]? = some line ∧ p.column.toNat ≤ 1 + line.length := by
  have hknown : ¬ (p.line = 0 ∨ p.column = 0) ↔ 1 ≤ p.line.toNat ∧ 1 ≤ p.column.toNat := by
    rw [not_or, Nat.one_le_iff_ne_zero, Nat.one_le_iff_ne_zero]
    exact and_congr (not_congr UInt32.toNat_inj.symm) (not_congr UInt32.toNat_inj.symm)
  rw [byteOffset, Option.isSome_map, ← and_assoc, ← hknown, locate]
  by_cases h : p.line = 0 ∨ p.column = 0
  · simp [h]
  · rw [if_neg h, getElem?_lines]
    cases hlines : afterLines (p.line.toNat - 1) source.toList with
    | none => simp
    | some reached =>
      obtain ⟨start, line⟩ := reached
      have halong := isSome_alongLine (p.column.toNat - 1) line
      have hcolumn : p.column.toNat ≤ 1 + (line.takeWhile (· ≠ '\n')).length ↔
          p.column.toNat - 1 ≤ (line.takeWhile (· ≠ '\n')).length := by omega
      simp only [Option.bind_eq_bind, Option.bind_some, Option.map_some, Option.some.injEq, exists_eq_left', hcolumn,
        ← halong]
      cases alongLine (p.column.toNat - 1) line <;> simp [h]

/-- Two positions at one offset stand after the same characters. -/
theorem byteOffset_inj {source : String} (hp : p.byteOffset source = some o) (hq : q.byteOffset source = some o) :
    p = q := by
  obtain ⟨before, rest, hsource, hbytes, hp⟩ := (byteOffset_eq_some_iff p source o).1 hp
  obtain ⟨before', rest', hsource', hbytes', hq⟩ := (byteOffset_eq_some_iff q source o).1 hq
  obtain rfl : before = before' := eq_of_byteLength (hsource.symm.trans hsource') (hbytes.trans hbytes'.symm)
  exact hp.unique hq

/-- Where the numbers of a boundary fit, one position is found there. -/
theorem existsUnique_byteOffset {source : String} (hsource : source.toList = before ++ rest)
    (hline : before.count '\n' + 1 < UInt32.size) (hcolumn : (lastLine before).length + 1 < UInt32.size) :
    ∃! p : Position, p.byteOffset source = some (byteLength before) := by
  obtain ⟨p, hp⟩ := exists_standsAfter hline hcolumn
  have hoffset : p.byteOffset source = some (byteLength before) :=
    (byteOffset_eq_some_iff p source _).2 ⟨before, rest, hsource, rfl, hp⟩
  exact ⟨p, hoffset, fun q hq => byteOffset_inj hq hoffset⟩

/-! ## Main result -/

/-- **Positions and character boundaries are one to one.** For every text:
- The offset of a position is at most the length of the text and a boundary of its characters. The line is one more than
  the newlines before it, and the column one more than the characters after the last of them.
- A position has an offset exactly if its line is one of the text and its column one of the line, or the one just after it.
  There is one line more than newlines.
- At every boundary whose line and column can be written down there is exactly one position, and never more than one.
- The place that the lines before a position lead to is a boundary too, so that the text can be cut there. -/
theorem byteOffset_bijective (source : String) :
    (∀ (p : Position) o, p.byteOffset source = some o → o ≤ source.utf8ByteSize ∧ String.Pos.Raw.IsValid source ⟨o⟩ ∧
      ∃ before rest, source.toList = before ++ rest ∧ byteLength before = o ∧
        p.line.toNat = before.count '\n' + 1 ∧ p.column.toNat = (lastLine before).length + 1) ∧
    (∀ p : Position, (p.byteOffset source).isSome ↔ 1 ≤ p.line.toNat ∧ 1 ≤ p.column.toNat ∧
      ∃ line, (lines source.toList)[p.line.toNat - 1]? = some line ∧ p.column.toNat ≤ 1 + line.length) ∧
    (lines source.toList).length = source.toList.count '\n' + 1 ∧
    (∀ o, String.Pos.Raw.IsValid source ⟨o⟩ → ∃ before rest, source.toList = before ++ rest ∧ byteLength before = o ∧
      (before.count '\n' + 1 < UInt32.size → (lastLine before).length + 1 < UInt32.size →
        ∃! p : Position, p.byteOffset source = some o)) ∧
    (∀ (p q : Position) o, p.byteOffset source = some o → q.byteOffset source = some o → p = q) ∧
    ∀ n start rest, afterLines n source.toList = some (start, rest) →
      start ≤ source.utf8ByteSize ∧ String.Pos.Raw.IsValid source ⟨start⟩ := by
  refine ⟨fun p o hoffset => ?_, fun p => isSome_byteOffset_iff p source, length_lines _, fun o ho => ?_,
    fun p q o hp hq => byteOffset_inj hp hq, fun n start rest hlines => ?_⟩
  · obtain ⟨before, rest, hsource, rfl, hline, hcolumn⟩ := (byteOffset_eq_some_iff p source o).1 hoffset
    exact ⟨byteLength_le hsource, (isValid_iff source _).2 ⟨before, rest, hsource, rfl⟩, before, rest, hsource, rfl,
      hline, hcolumn⟩
  · obtain ⟨before, rest, hsource, rfl⟩ := (isValid_iff source o).1 ho
    exact ⟨before, rest, hsource, rfl, existsUnique_byteOffset hsource⟩
  · obtain ⟨lead, hsource, rfl, -, -⟩ := afterLines_sound hlines
    exact ⟨byteLength_le hsource, (isValid_iff source _).2 ⟨lead, rest, hsource, rfl⟩⟩

/-- a text of two lines, whose first character takes two bytes -/
def twoLines : String := "é!\nb"

/-- The end of the second line is past five bytes, and no other position is there. Past the two bytes of the first character
there is one position too. -/
theorem byteOffset_bijective_twoLines :
    (⟨2, 2⟩ : Position).byteOffset twoLines = some 5 ∧ 5 ≤ twoLines.utf8ByteSize ∧
      (∀ q : Position, q.byteOffset twoLines = some 5 → q = ⟨2, 2⟩) ∧
      ∃! p : Position, p.byteOffset twoLines = some 2 := by
  have hoffset : (⟨2, 2⟩ : Position).byteOffset twoLines = some 5 := by decide
  have hsource : twoLines.toList = ['é'] ++ ['!', '\n', 'b'] := by decide
  have hvalid : String.Pos.Raw.IsValid twoLines ⟨2⟩ := (isValid_iff _ 2).2 ⟨_, _, hsource, by decide⟩
  obtain ⟨hplaced, -, -, hboundary, hinj, -⟩ := byteOffset_bijective twoLines
  obtain ⟨before, rest, hbefore, hbytes, hunique⟩ := hboundary 2 hvalid
  obtain rfl : before = ['é'] := eq_of_byteLength (hbefore.symm.trans hsource) hbytes
  exact ⟨hoffset, (hplaced _ _ hoffset).1, fun q hq => hinj q _ 5 hq hoffset, hunique (by decide) (by decide)⟩

end Position

end Graft
