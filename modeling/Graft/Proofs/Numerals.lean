/-
Whole numbers and their numerals.

A field may give a whole number as a number or as a text: decimal digits with a sign or none, between blanks
(`Denotes`). Which of the two it is makes no difference where a position or a mark is read (`Numeric`), and no number
wraps round on its way into the 32-bit words of a position.

- `integer?_of_signed`, `signed_of_integer?`: a text is read as the number that it denotes, if 64 bits hold that, and
  as no other number.
- `convertModule_numeric`: documents that give some of these numbers in the other way are converted alike. The line of
  a node is the number that it gives and its column one more, as far as words reach, and zero if it gives none; the name
  of a definition stands at its distance, as far as words reach, unless no column is known.
-/
import Graft.Proofs.Integers
import Graft.Proofs.Parameters
import Graft.Proofs.Positions
import Graft.Proofs.Replaced

namespace Graft.Convert

open Graft.Document Attempt

/-! ## What denotes a number -/

/-- the decimal digits of the number, the most significant one first, after any zeros -/
def DecimalDigits (cs : List Char) (n : Nat) : Prop :=
  ∃ ds : List Nat, ds ≠ [] ∧ (∀ d ∈ ds, d < 10) ∧ cs = ds.map Nat.digitChar ∧ n = Nat.ofDigits 10 ds.reverse

/-- decimal digits after a sign or none -/
inductive SignedDigits : List Char → Int → Prop where
  | plain {cs : List Char} {n : Nat} : DecimalDigits cs n → SignedDigits cs n
  | plus {cs : List Char} {n : Nat} : DecimalDigits cs n → SignedDigits ('+' :: cs) n
  | minus {cs : List Char} {n : Nat} : DecimalDigits cs n → SignedDigits ('-' :: cs) (-n)

/-- the value is the whole number, or a text that says it between blanks -/
inductive Denotes : Value → Int → Prop where
  | number (n : Int) : Denotes (.number (.int n)) n
  | text {lead cs trail : List Char} {n : Int} : (∀ c ∈ lead, Text.isBlank c = true) → SignedDigits cs n →
      (∀ c ∈ trail, Text.isBlank c = true) → Denotes (.string (String.ofList (lead ++ cs ++ trail))) n

/-- the field gives a number that a 32-bit word holds -/
def Tells (node : Node) (name : String) (n : Nat) : Prop :=
  ∃ v, node.get? name = some v ∧ Denotes v n ∧ n < UInt32.size

/-! ## Digits -/

theorem digitIn_eq_some_iff {c : Char} {d : Nat} : Text.digitIn 10 c = some d ↔ d < 10 ∧ c = d.digitChar := by
  constructor
  · intro h
    have hcode : ∀ d < 10, d.digitChar.toNat = 48 + d := by decide
    have hd : d < 10 := by simpa using (Option.filter_eq_some_iff.1 h).2
    exact ⟨hd, Char.toNat_inj.1 ((toNat_of_digitIn h).trans (hcode d hd).symm)⟩
  · rintro ⟨hd, rfl⟩
    exact Text.IntegerLiteral.digitIn_digitChar hd (by decide)

theorem digits_of_digitsValue? {cs : List Char} {acc n : Nat} (h : Text.digitsValue? 10 acc cs = some n) :
    ∃ ds : List Nat, (∀ d ∈ ds, d < 10) ∧ cs = ds.map Nat.digitChar := by
  induction cs generalizing acc with
  | nil => exact ⟨[], List.forall_mem_nil _, rfl⟩
  | cons c cs ih =>
    obtain ⟨d, hd, h⟩ := Option.bind_eq_some_iff.1 h
    obtain ⟨ds, hds, rfl⟩ := ih h
    obtain ⟨hsmall, rfl⟩ := digitIn_eq_some_iff.1 hd
    exact ⟨d :: ds, List.forall_mem_cons.2 ⟨hsmall, hds⟩, rfl⟩

/-- Just the digits of a number are read as the number. -/
theorem value?_eq_some_iff {cs : List Char} {n : Nat} : Text.value? 10 cs = some n ↔ DecimalDigits cs n := by
  have hread {ds : List Nat} (hsome : ds ≠ []) (hds : ∀ d ∈ ds, d < 10) :
      Text.value? 10 (ds.map Nat.digitChar) = some (Nat.ofDigits 10 ds.reverse) := by
    rw [Text.value?, if_neg (by simpa using hsome), Text.IntegerLiteral.digitsValue?_digits (by decide) hds,
      Text.IntegerLiteral.foldl_eq_ofDigits]
  constructor
  · intro h
    obtain ⟨hsome, hvalue⟩ : cs ≠ [] ∧ Text.digitsValue? 10 0 cs = some n := by
      cases cs with
      | nil => cases h
      | cons c cs => exact ⟨List.cons_ne_nil _ _, h⟩
    obtain ⟨ds, hds, rfl⟩ := digits_of_digitsValue? hvalue
    have hne : ds ≠ [] := fun heq => hsome (by rw [heq]; rfl)
    rw [hread hne hds] at h
    exact ⟨ds, hne, hds, rfl, (Option.some.inj h).symm⟩
  · rintro ⟨ds, hsome, hds, rfl, rfl⟩
    exact hread hsome hds

/-- What holds of every digit holds of the digits of a number. -/
theorem DecimalDigits.forall {cs : List Char} {n : Nat} (h : DecimalDigits cs n) {p : Char → Prop}
    (hp : ∀ d < 10, p d.digitChar) : ∀ c ∈ cs, p c := by
  obtain ⟨ds, -, hds, rfl, -⟩ := h
  rw [List.forall_mem_map]
  exact fun d hd => hp d (hds d hd)

theorem DecimalDigits.ne_nil {cs : List Char} {n : Nat} (h : DecimalDigits cs n) : cs ≠ [] := by
  obtain ⟨ds, hsome, -, rfl, -⟩ := h
  rwa [Ne, List.map_eq_nil_iff]

/-- The numeral of a number has its digits. -/
theorem decimalDigits_toDigits (n : Nat) : DecimalDigits (Nat.toDigits 10 n) n := by
  by_cases hn : n = 0
  · subst hn
    exact ⟨[0], List.cons_ne_nil _ _, by decide, rfl, rfl⟩
  · refine ⟨(Nat.digits 10 n).reverse, ?_, ?_, Text.IntegerLiteral.toDigits_eq_digits hn, ?_⟩
    · rw [Ne, List.reverse_eq_nil_iff]
      exact Nat.digits_ne_nil_iff_ne_zero.2 hn
    · intro d hd
      exact Nat.digits_lt_base (by decide) (List.mem_reverse.1 hd)
    · rw [List.reverse_reverse, Nat.ofDigits_digits]

theorem signedDigits_toString (n : Int) : SignedDigits (toString n).toList n := by
  cases n with
  | ofNat n =>
    rw [show (toString (Int.ofNat n)).toList = Nat.toDigits 10 n from toList_natCast n]
    exact .plain (decimalDigits_toDigits n)
  | negSucc n =>
    rw [show (toString (Int.negSucc n)).toList = '-' :: Nat.toDigits 10 (n + 1) from toList_negSucc n]
    exact .minus (decimalDigits_toDigits (n + 1))

/-! ## Numbers of 64 bits -/

/-- whether a signed 64-bit word holds the number -/
def InWord (n : Int) : Prop := -(Text.signedLimit : Int) ≤ n ∧ n < Text.signedLimit

instance (n : Int) : Decidable (InWord n) := inferInstanceAs (Decidable (_ ∧ _))

theorem inWord_natCast (n : Nat) : InWord n ↔ n < Text.signedLimit := by
  unfold InWord
  omega

theorem inWord_neg (n : Nat) : InWord (-(n : Int)) ↔ n ≤ Text.signedLimit := by
  unfold InWord Text.signedLimit
  omega

/-- A bound on digits that says whether a word holds their number leaves the number where it does. -/
theorem map_filter_inWord {f : Nat → Int} {p : Nat → Bool} {n : Nat} (hp : p n = true ↔ InWord (f n)) :
    ((some n).filter p).map f = if InWord (f n) then some (f n) else none := by
  rw [Option.filter_some]
  by_cases hn : InWord (f n)
  · rw [if_pos (hp.2 hn), if_pos hn]
    rfl
  · rw [if_neg (mt hp.1 hn), if_neg hn]
    rfl

theorem integer?_unsigned {cs : List Char} (hsign : ∀ c ∈ cs, c ≠ '-' ∧ c ≠ '+') :
    Text.integer? cs = ((Text.value? 10 cs).filter (· < Text.signedLimit)).map Int.ofNat := by
  unfold Text.integer?
  split
  · exact absurd rfl (hsign _ List.mem_cons_self).1
  · exact absurd rfl (hsign _ List.mem_cons_self).2
  · rfl

theorem integer?_minus (cs : List Char) : Text.integer? ('-' :: cs) =
    ((Text.value? 10 cs).filter (· ≤ Text.signedLimit)).map fun n : Nat => -(n : Int) := by
  rw [Text.integer?]
  cases (Text.value? 10 cs).filter (· ≤ Text.signedLimit) <;> rfl

/-- **A signed decimal is read as its number, if 64 bits hold it.** -/
theorem integer?_of_signed {cs : List Char} {n : Int} (h : SignedDigits cs n) :
    Text.integer? cs = if InWord n then some n else none := by
  have hnat (n : Nat) : decide (n < Text.signedLimit) = true ↔ InWord (Int.ofNat n) := by
    rw [decide_eq_true_iff]
    exact (inWord_natCast n).symm
  have hneg (n : Nat) : decide (n ≤ Text.signedLimit) = true ↔ InWord (-(n : Int)) := by
    rw [decide_eq_true_iff]
    exact (inWord_neg n).symm
  cases h with
  | @plain cs n hdigits =>
    rw [integer?_unsigned (hdigits.forall (by decide)), value?_eq_some_iff.2 hdigits]
    exact map_filter_inWord (hnat n)
  | @plus cs n hdigits =>
    rw [Text.integer?, value?_eq_some_iff.2 hdigits]
    exact map_filter_inWord (hnat n)
  | @minus cs n hdigits =>
    rw [integer?_minus, value?_eq_some_iff.2 hdigits]
    exact map_filter_inWord (hneg n)

/-- Nothing else is read as a number. -/
theorem signed_of_integer? {cs : List Char} {n : Int} (h : Text.integer? cs = some n) : SignedDigits cs n := by
  have hdigits {rest : List Char} {p : Nat → Bool} {m : Nat} (hm : (Text.value? 10 rest).filter p = some m) :
      DecimalDigits rest m := value?_eq_some_iff.1 (Option.filter_eq_some_iff.1 hm).1
  by_cases hminus : ∃ rest, cs = '-' :: rest
  · obtain ⟨rest, rfl⟩ := hminus
    rw [integer?_minus] at h
    obtain ⟨m, hm, rfl⟩ := Option.map_eq_some_iff.1 h
    exact .minus (hdigits hm)
  · unfold Text.integer? at h
    split at h
    · exact absurd ⟨_, rfl⟩ hminus
    · obtain ⟨m, hm, rfl⟩ := Option.map_eq_some_iff.1 h
      exact .plus (hdigits hm)
    · obtain ⟨m, hm, rfl⟩ := Option.map_eq_some_iff.1 h
      exact .plain (hdigits hm)

/-! ## Values -/

/-- What holds of every digit and of either sign holds of a signed decimal. -/
theorem SignedDigits.forall {cs : List Char} {n : Int} (h : SignedDigits cs n) {p : Char → Prop}
    (hp : ∀ d < 10, p d.digitChar) (hplus : p '+') (hminus : p '-') : ∀ c ∈ cs, p c := by
  cases h with
  | plain hdigits => exact hdigits.forall hp
  | plus hdigits => exact List.forall_mem_cons.2 ⟨hplus, hdigits.forall hp⟩
  | minus hdigits => exact List.forall_mem_cons.2 ⟨hminus, hdigits.forall hp⟩

theorem SignedDigits.not_blank {cs : List Char} {n : Int} (h : SignedDigits cs n) :
    cs ≠ [] ∧ ∀ c ∈ cs, Text.isBlank c = false := by
  refine ⟨?_, h.forall (by decide) (by decide) (by decide)⟩
  cases h with
  | plain hdigits => exact hdigits.ne_nil
  | plus => exact List.cons_ne_nil _ _
  | minus => exact List.cons_ne_nil _ _

/-- Only blanks are trimmed. -/
theorem exists_blank_trim (cs : List Char) : ∃ lead trail, (∀ c ∈ lead, Text.isBlank c = true) ∧
    (∀ c ∈ trail, Text.isBlank c = true) ∧ cs = lead ++ Text.trim cs ++ trail := by
  have hends (cs : List Char) :
      cs = Text.dropEndWhile Text.isBlank cs ++ (cs.reverse.takeWhile Text.isBlank).reverse := by
    unfold Text.dropEndWhile
    rw [← List.reverse_append, List.takeWhile_append_dropWhile, List.reverse_reverse]
  refine ⟨cs.takeWhile Text.isBlank, ((cs.dropWhile Text.isBlank).reverse.takeWhile Text.isBlank).reverse, ?_, ?_, ?_⟩
  · intro c hc
    exact List.mem_takeWhile_imp hc
  · intro c hc
    exact List.mem_takeWhile_imp (List.mem_reverse.1 hc)
  · calc cs = cs.takeWhile Text.isBlank ++ cs.dropWhile Text.isBlank := List.takeWhile_append_dropWhile.symm
      _ = cs.takeWhile Text.isBlank ++ (Text.trim cs ++
            ((cs.dropWhile Text.isBlank).reverse.takeWhile Text.isBlank).reverse) := congrArg _ (hends _)
      _ = cs.takeWhile Text.isBlank ++ Text.trim cs ++
            ((cs.dropWhile Text.isBlank).reverse.takeWhile Text.isBlank).reverse := (List.append_assoc _ _ _).symm

/-- A text that denotes a number is read as it, if 64 bits hold it. -/
theorem int?_text {lead cs trail : List Char} {n : Int} (hlead : ∀ c ∈ lead, Text.isBlank c = true)
    (hsigned : SignedDigits cs n) (htrail : ∀ c ∈ trail, Text.isBlank c = true) :
    (Value.string (String.ofList (lead ++ cs ++ trail))).int? = if InWord n then some n else none := by
  obtain ⟨hsome, hmid⟩ := hsigned.not_blank
  rw [Value.int?, String.toList_ofList, Text.IntegerLiteral.trim_append hlead hmid hsome htrail,
    integer?_of_signed hsigned]

/-- A number of the document is read as itself, if 64 signed bits hold it. -/
theorem int?_number {n : Int} (hn : (Number.int n).Fits) :
    (Value.number (.int n)).int? = if InWord n then some n else none :=
  if_congr ⟨fun hlimit => ⟨hn.1, hlimit⟩, And.right⟩ rfl rfl

theorem int?_of_denotes {v : Value} {n : Int} (h : Denotes v n) (hn : InWord n) : v.int? = some n := by
  cases h with
  | number => exact if_pos hn.2
  | text hlead hsigned htrail => rw [int?_text hlead hsigned htrail, if_pos hn]

theorem denotes_of_int? {v : Value} {n : Int} (h : v.int? = some n) : Denotes v n := by
  unfold Value.int? at h
  split at h
  · split at h
    · cases h
      exact .number n
    · cases h
  · rename_i text
    obtain ⟨lead, trail, hlead, htrail, htext⟩ := exists_blank_trim text.toList
    have hdenotes := Denotes.text hlead (signed_of_integer? h) htrail
    rwa [← htext, String.ofList_toList] at hdenotes
  · cases h

/-! ## Numbers for texts -/

/-- the numeral of a number, between other characters -/
def numeral (lead : List Char) (n : Int) (trail : List Char) : Value :=
  .string (String.ofList (lead ++ (toString n).toList ++ trail))

/-- what a field that is read as a whole number holds with a number of 64 bits written out -/
inductive Numeric : String → Value → Value → Prop where
  | text {name : String} {n : Int} {lead trail : List Char} : name ∈ numberFields → (Number.int n).Fits →
      (∀ c ∈ lead, Text.isBlank c = true) → (∀ c ∈ trail, Text.isBlank c = true) →
      Numeric name (.number (.int n)) (numeral lead n trail)

theorem Numeric.int?_eq {name : String} {v v' : Value} (h : Numeric name v v') : v.int? = v'.int? := by
  cases h with
  | @text n lead trail _ hfits hlead htrail =>
    calc (Value.number (.int n)).int?
        = if InWord n then some n else none := int?_number hfits
      _ = (numeral lead n trail).int? := (int?_text hlead (signedDigits_toString n) htrail).symm

/-- A field that is read as a whole number is read in no other way. -/
theorem numberFields_unshared : ∀ name ∈ numberFields,
    name ∉ shownFields ∧ name ∉ "declarators" :: declaratorFields := by decide

/-- No construction sees how a number is written. -/
theorem unseen_numeric : Unseen Numeric where
  shown h := by
    cases h with
    | text hname => exact (numberFields_unshared _ hname).1
  number h _ := h.int?_eq
  declarator h hdeclarator := by
    cases h with
    | text hname => exact absurd (List.mem_cons_of_mem _ hdeclarator) (numberFields_unshared _ hname).2
  declarators h := by
    cases h with
    | text hname => exact absurd List.mem_cons_self (numberFields_unshared _ hname).2

/-! ## Numbers in words -/

theorem word?_eq_some_iff {n : Int} {w : UInt32} : Text.word? n = some w ↔ n = w.toNat := by
  have hw := w.toNat_lt
  unfold Text.word?
  constructor
  · intro h
    split at h
    · rename_i hbound
      cases h
      rw [UInt32.toNat_ofNat_of_lt' (by omega)]
      omega
    · cases h
  · rintro rfl
    rw [if_pos ⟨by omega, by exact_mod_cast hw⟩, Int.toNat_natCast, UInt32.ofNat_toNat]

/-- A word that a field is read as is the number that it gives. -/
theorem tells_iff {node : Node} {name : String} {w : UInt32} :
    (node.int? name).bind Text.word? = some w ↔ Tells node name w.toNat := by
  have hword : InWord w.toNat := by
    rw [inWord_natCast]
    exact Nat.lt_trans w.toNat_lt (by decide)
  unfold Node.int?
  simp only [Option.bind_eq_some_iff, word?_eq_some_iff]
  constructor
  · rintro ⟨_, ⟨v, hget, hint⟩, rfl⟩
    exact ⟨v, hget, denotes_of_int? hint, w.toNat_lt⟩
  · rintro ⟨v, hget, hdenotes, -⟩
    exact ⟨_, ⟨v, hget, int?_of_denotes hdenotes hword⟩, rfl⟩

theorem word_of_tells {node : Node} {name : String} {n : Nat} (h : Tells node name n) :
    (node.int? name).bind Text.word? = some (UInt32.ofNat n) ∧ (UInt32.ofNat n).toNat = n := by
  have hn : (UInt32.ofNat n).toNat = n := by
    obtain ⟨-, -, -, hbound⟩ := h
    exact UInt32.toNat_ofNat_of_lt' hbound
  exact ⟨tells_iff.2 (hn.symm ▸ h), hn⟩

theorem word_of_tells_none {node : Node} {name : String} (h : ¬ ∃ n, Tells node name n) :
    (node.int? name).bind Text.word? = none := by
  rw [Option.eq_none_iff_forall_ne_some]
  exact fun w hw => h ⟨w.toNat, tells_iff.1 hw⟩

/-- A line is the number that the node gives, or not known. -/
theorem line_positionOf (node : Node) : (∀ n, Tells node "line" n → (positionOf node).line.toNat = n) ∧
    ((¬ ∃ n, Tells node "line" n) → (positionOf node).line = 0) := by
  unfold positionOf
  constructor
  · intro n h
    obtain ⟨hword, hn⟩ := word_of_tells h
    rw [hword]
    exact hn
  · intro h
    rw [word_of_tells_none h]
    rfl

/-- A column is the number that the node gives and one more, as far as words reach, or not known; it is zero in no other
case. -/
theorem column_positionOf (node : Node) :
    (∀ n, Tells node "col" n → (positionOf node).column.toNat = min (n + 1) Position.lastColumn) ∧
    ((positionOf node).column = 0 ↔ ¬ ∃ n, Tells node "col" n) := by
  have hknown (n : Nat) (h : Tells node "col" n) :
      (positionOf node).column.toNat = min (n + 1) Position.lastColumn := by
    obtain ⟨hword, hn⟩ := word_of_tells h
    unfold positionOf
    simp only [hword, hn]
    exact UInt32.toNat_ofNat_of_lt' (Nat.lt_of_le_of_lt (Nat.min_le_right _ _) (by decide))
  refine ⟨hknown, ?_, fun h => ?_⟩
  · rintro hzero ⟨n, h⟩
    have hcolumn := hknown n h
    rw [hzero] at hcolumn
    have hlast : 0 < Position.lastColumn := by decide
    have hmin : 0 < min (n + 1) Position.lastColumn := Nat.lt_min.2 ⟨Nat.succ_pos n, hlast⟩
    exact absurd hcolumn (Nat.ne_of_lt hmin)
  · unfold positionOf
    rw [word_of_tells_none h]

/-- A name stands to the right of its keyword by its distance, as far as words reach, but where no column is known. -/
theorem column_namePosition (pos : Position) (distance : UInt32) :
    pos.column ≤ (namePosition pos distance).column ∧
    (namePosition pos distance).column.toNat ≤ Position.lastColumn ∧
    (pos.column = 0 → namePosition pos distance = pos) ∧
    (pos.column ≠ 0 →
      (namePosition pos distance).column.toNat = min (pos.column.toNat + distance.toNat) Position.lastColumn) := by
  refine ⟨column_le_namePosition pos distance, Nat.le_sub_one_of_lt (UInt32.toNat_lt _), fun h => if_pos h, fun h => ?_⟩
  rw [namePosition, if_neg h]
  exact pos.shifted_column_toNat distance

/-! ## Main result -/

/-- **Numbers and their numerals are the same, and no position wraps round.** Take two documents that differ in whether
a line, a column or a mark `kw_only` is given as a number of 64 bits or as its numeral between blanks, in any number of
places at any depth. In either mode they have the same module or the same fault, and the same notes in the same order,
up to the text of the nodes that were dropped. Of every node, the line is the number that it gives if a word holds that,
and zero otherwise; the column is one more, but no more than a word holds, and zero just where no such number is given.
The name of a definition is not left of it, at the exact distance or at the last column, and at no column where none is
known. -/
theorem convertModule_numeric :
    (∀ root root' : Node, Replaced Numeric (.object root) (.object root') → ∀ mode,
      ((convertModule root).run (.fresh mode)).1.mapError Fault.withoutSubtree =
          ((convertModule root').run (.fresh mode)).1.mapError Fault.withoutSubtree ∧
        ((convertModule root).run (.fresh mode)).2.notes.map Fault.withoutSubtree =
          ((convertModule root').run (.fresh mode)).2.notes.map Fault.withoutSubtree) ∧
    (∀ node, (∀ n, Tells node "line" n → (positionOf node).line.toNat = n) ∧
      ((¬ ∃ n, Tells node "line" n) → (positionOf node).line = 0)) ∧
    (∀ node, (∀ n, Tells node "col" n → (positionOf node).column.toNat = min (n + 1) Position.lastColumn) ∧
      ((positionOf node).column = 0 ↔ ¬ ∃ n, Tells node "col" n)) ∧
    ∀ (pos : Position) (distance : UInt32),
      pos.column ≤ (namePosition pos distance).column ∧
      (namePosition pos distance).column.toNat ≤ Position.lastColumn ∧
      (pos.column = 0 → namePosition pos distance = pos) ∧
      (pos.column ≠ 0 →
        (namePosition pos distance).column.toNat = min (pos.column.toNat + distance.toNat) Position.lastColumn) :=
  ⟨fun _ _ h mode => (lookalike_replaced unseen_numeric).convertModule_eq h mode, line_positionOf, column_positionOf,
    column_namePosition⟩

/-- a function of a parameter that is given by name, with these for its line, its column and the mark of the parameter,
and a node that is dropped -/
def marked (line col mark : Value) : Node := ⟨some statListTag, [("stats", .array [
  .object ⟨some "Def", [("name", .string "f"), ("line", line), ("col", col), ("args", .array [
    .object ⟨some "CArgDecl", [("declarator", .object ⟨some "CNameDeclarator", [("name", .string "x")]⟩),
      ("kw_only", mark)]⟩])]⟩,
  .object ⟨some "Lambda", [("line", line)]⟩])]⟩

/-- the same with a line and a mark between blanks, and with a column that no signed word holds -/
def numerals : Node :=
  marked (numeral ['\t'] 2 ['\u00a0']) (numeral [] 18446744073709551615 []) (numeral [' '] 1 ['\n'])

theorem replaced_numerals : Replaced Numeric
    (.object (marked (.number (.int 2)) (.number (.int 18446744073709551615)) (.number (.int 1))))
    (.object numerals) := by
  have hline : Numeric "line" (.number (.int 2)) (numeral ['\t'] 2 ['\u00a0']) :=
    .text (by decide) ⟨by decide, by decide⟩ (List.forall_mem_singleton.2 rfl) (List.forall_mem_singleton.2 rfl)
  have hcol : Numeric "col" (.number (.int 18446744073709551615)) (numeral [] 18446744073709551615 []) :=
    .text (by decide) ⟨by decide, by decide⟩ (List.forall_mem_nil _) (List.forall_mem_nil _)
  have hmark : Numeric "kw_only" (.number (.int 1)) (numeral [' '] 1 ['\n']) :=
    .text (by decide) ⟨by decide, by decide⟩ (List.forall_mem_singleton.2 rfl) (List.forall_mem_singleton.2 rfl)
  refine @Anywhere.field _ _ [] [] "stats" _ _ ?_
  apply (@Anywhere.item _ [_] [] _ _ (.node (@FieldChange.put _ _ [] [] _ _ _ hline))).trans
  refine @Anywhere.item _ [] [_] _ _ ?_
  apply (Anywhere.node (@FieldChange.put _ _ [_] [_, _] _ _ _ hline)).trans
  apply (Anywhere.node (@FieldChange.put _ _ [_, _] [_] _ _ _ hcol)).trans
  refine @Anywhere.field _ _ [_, _, _] [] "args" _ _ (@Anywhere.item _ [] [] _ _ ?_)
  exact .node (@FieldChange.put _ _ [_] [] _ _ _ hmark)

/-- a node at the last line and the last column -/
def lastNode : Node := ⟨some "Pass", [("line", .number (.int 4294967295)), ("col", numeral [' '] 4294967295 [])]⟩

/-- a node one line below that, and left of the first column -/
def outerNode : Node := ⟨some "Pass", [("line", .number (.int 4294967296)), ("col", .number (.int (-1)))]⟩

theorem outerNode_tells_none {name : String} : ¬ ∃ n, Tells outerNode name n := by
  rintro ⟨n, v, hget, hdenotes, hn⟩
  have hmem := Node.mem_of_lookup hget
  simp only [outerNode, List.mem_cons, Prod.mk.injEq, List.not_mem_nil, or_false] at hmem
  have hsize : UInt32.size = 4294967296 := rfl
  rcases hmem with ⟨-, rfl⟩ | ⟨-, rfl⟩
  · generalize hm : (n : Int) = m at hdenotes
    cases hdenotes
    omega
  · generalize hm : (n : Int) = m at hdenotes
    cases hdenotes
    omega

/-- The two documents have the same function, whose parameter is given by name. The last column stays the last one, and
what is beyond it or before the first is not known. -/
theorem convertModule_numeric_marked :
    (Replaced Numeric (.object (marked (.number (.int 2)) (.number (.int 18446744073709551615)) (.number (.int 1))))
        (.object numerals) ∧
      ((convertModule numerals).run (.fresh .permissive)).1.mapError Fault.withoutSubtree = .ok ⟨[
        .functionDef ⟨2, 0⟩ ⟨"f", .functionName, ⟨2, 0⟩⟩
          ⟨[], [], [], none, none, [.ident "x" .kwOnlyParam .unknown], [none], [none]⟩ [] [] false]⟩) ∧
    (Tells lastNode "line" 4294967295 ∧ (positionOf lastNode).line.toNat = 4294967295) ∧
    (Tells lastNode "col" 4294967295 ∧ (positionOf lastNode).column.toNat = min 4294967296 Position.lastColumn) ∧
    ((¬ ∃ n, Tells outerNode "line" n) ∧ (positionOf outerNode).line = 0 ∧ (positionOf outerNode).column = 0) ∧
    ((positionOf lastNode).column ≠ 0 ∧
      (namePosition (positionOf lastNode) 4).column.toNat = min (4294967295 + 4) Position.lastColumn) ∧
    namePosition (positionOf outerNode) 4 = positionOf outerNode := by
  obtain ⟨halike, hline, hcol, hname⟩ := convertModule_numeric
  obtain ⟨hmodule, -⟩ := halike _ _ replaced_numerals .permissive
  have hlastLine : Tells lastNode "line" 4294967295 := ⟨_, rfl, .number _, by decide⟩
  have hlastCol : Tells lastNode "col" 4294967295 :=
    ⟨_, rfl, .text (List.forall_mem_singleton.2 rfl) (signedDigits_toString 4294967295) (List.forall_mem_nil _),
      by decide⟩
  have hlast := (hcol lastNode).1 _ hlastCol
  have hknown : (positionOf lastNode).column ≠ 0 := fun hzero => (hcol lastNode).2.1 hzero ⟨_, hlastCol⟩
  have hunknown := (hcol outerNode).2.2 outerNode_tells_none
  refine ⟨⟨replaced_numerals, hmodule.symm.trans rfl⟩, ⟨hlastLine, (hline lastNode).1 _ hlastLine⟩, ⟨hlastCol, hlast⟩,
    ⟨outerNode_tells_none, (hline outerNode).2 outerNode_tells_none, hunknown⟩, ⟨hknown, ?_⟩,
    (hname (positionOf outerNode) 4).2.2.1 hunknown⟩
  rw [(hname (positionOf lastNode) 4).2.2.2 hknown, hlast]
  rfl

end Graft.Convert
