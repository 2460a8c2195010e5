/-
The spellings of an integer, and the one numeral that they come to.

An integer is written in decimal without a zero in front, after a mark of its radix, or in octal after a zero
(`Spelling`); a literal has underscores between the digits, a suffix and blanks besides (`Written`). What each step of the
reading takes away is nothing of the digits: no character of a spelling is blank, a letter of a suffix or an underscore.

- `value?_of_written`: a literal below `2 ^ 128` is read as the number that it is written for.
- `written_numeral`: a decimal numeral is a spelling of its number, so that numerals stay what they are.
- `decimal_canonical`: all spellings of a number come to its numeral, and any text comes to a numeral or stays.
-/
import Mathlib.Data.List.DropRight
import Mathlib.Data.Nat.Digits.Lemmas
import Graft.Proofs.RoundTrip
import Graft.Text.IntegerLiteral

namespace Graft.Text.IntegerLiteral

variable {cs text : List Char} {n d base : Nat}

/-! ## What is written -/

/-- these are the digits of the number, the most significant one first, letters being of either case -/
def Digits (base : Nat) (cs : List Char) (n : Nat) : Prop :=
  ∃ ds, ds ≠ [] ∧ (∀ d ∈ ds, d < base) ∧ cs.map Char.toLower = ds.map Nat.digitChar ∧ n = Nat.ofDigits base ds.reverse

/-- the letters that mark a radix after a zero -/
def marks : List (Char × Nat) := [('x', 16), ('o', 8), ('b', 2)]

/-- the ways to write a number, without underscores -/
inductive Spelling : List Char → Nat → Prop where
  | zero : Spelling ['0'] 0
  | decimal {cs : List Char} {n : Nat} (digits : Digits 10 cs n) (first : cs.head? ≠ some '0') : Spelling cs n
  | marked {mark : Char} {base : Nat} {cs : List Char} {n : Nat} (known : (mark.toLower, base) ∈ marks)
    (digits : Digits base cs n) : Spelling ('0' :: mark :: cs) n
  | octal {cs : List Char} {n : Nat} (digits : Digits 8 cs n) : Spelling ('0' :: cs) n

/-- the text is a literal for the number: a spelling with underscores anywhere in it, letters of a suffix after it, and
blanks around all of this -/
def Written (text : List Char) (n : Nat) : Prop :=
  ∃ lead body suffix trail, text = lead ++ (body ++ suffix) ++ trail ∧ Spelling (body.filter (· != '_')) n ∧
    (∀ c ∈ suffix, c ∈ ['l', 'L', 'u', 'U']) ∧ (∀ c ∈ lead, isBlank c = true) ∧ ∀ c ∈ trail, isBlank c = true

/-! ## Digits -/

theorem lowerAscii_eq_toLower (c : Char) : lowerAscii c = c.toLower := by
  by_cases h : 65 ≤ c.toNat ∧ c.toNat ≤ 90
  · have hcapital : ∀ code < 91, 65 ≤ code → Char.ofNat (code + 32) = (Char.ofNat code).toLower := by decide
    rw [lowerAscii, if_pos h, hcapital c.toNat (by omega) h.1, Char.ofNat_toNat]
  · have hother : ¬ (c.val ≥ 'A'.val ∧ c.val ≤ 'Z'.val) := h
    have hkept : c.toLower = c := dif_neg hother
    rw [lowerAscii, if_neg h, hkept]

/-- What holds of capitals as of small letters does not depend on the case. -/
theorem toLower_congr {α : Type} (f : Char → α)
    (hf : ∀ code < 91, 65 ≤ code → f (Char.ofNat (code + 32)) = f (Char.ofNat code)) (c : Char) : f c.toLower = f c := by
  rw [← lowerAscii_eq_toLower]
  by_cases h : 65 ≤ c.toNat ∧ c.toNat ≤ 90
  · rw [lowerAscii, if_pos h, hf c.toNat (by omega) h.1, Char.ofNat_toNat]
  · rw [lowerAscii, if_neg h]

/-- the character is taken away neither at the ends of a literal nor at the end of its digits -/
def Plain (c : Char) : Prop := isBlank c = false ∧ isSuffix c = false

instance (c : Char) : Decidable (Plain c) := inferInstanceAs (Decidable (_ ∧ _))

theorem plain_toLower (c : Char) : Plain c.toLower ↔ Plain c := by
  rw [Plain, Plain, toLower_congr isBlank (by decide) c, toLower_congr isSuffix (by decide) c]

theorem plain_zero : Plain '0' := by decide

theorem Digits.plain (hbase : base ≤ 16) (h : Digits base cs n) : ∀ c ∈ cs, Plain c := by
  have hdigits : ∀ d < 16, Plain (Nat.digitChar d) := by decide
  obtain ⟨ds, -, hds, hcs, -⟩ := h
  intro c hc
  have hlower : c.toLower ∈ ds.map Nat.digitChar := hcs ▸ List.mem_map_of_mem hc
  obtain ⟨d, hd, heq⟩ := List.mem_map.1 hlower
  rw [← plain_toLower, ← heq]
  exact hdigits d (Nat.lt_of_lt_of_le (hds d hd) hbase)

theorem Digits.ne_nil (h : Digits base cs n) : cs ≠ [] := by
  obtain ⟨ds, hsome, -, hcs, -⟩ := h
  rintro rfl
  exact hsome (List.map_eq_nil_iff.1 hcs.symm)

theorem marks_plain : ∀ entry ∈ marks, Plain entry.1 ∧ entry.2 ≤ 16 := by decide

theorem Spelling.plain (h : Spelling cs n) : ∀ c ∈ cs, Plain c := by
  cases h with
  | zero => exact List.forall_mem_singleton.2 plain_zero
  | decimal digits first => exact digits.plain (by decide)
  | marked known digits =>
    obtain ⟨hmark, hbase⟩ := marks_plain _ known
    exact List.forall_mem_cons.2 ⟨plain_zero, List.forall_mem_cons.2 ⟨(plain_toLower _).1 hmark, digits.plain hbase⟩⟩
  | octal digits => exact List.forall_mem_cons.2 ⟨plain_zero, digits.plain (by decide)⟩

theorem Spelling.ne_nil (h : Spelling cs n) : cs ≠ [] := by
  cases h with
  | decimal digits first => exact digits.ne_nil
  | _ => exact List.cons_ne_nil _ _

/-! ## What is taken away from a literal -/

theorem dropEndWhile_append {p : Char → Bool} {xs ys : List Char} (hxs : ∀ c ∈ xs, p c = false)
    (hys : ∀ c ∈ ys, p c = true) : dropEndWhile p (xs ++ ys) = xs := by
  have hends : xs.reverse.dropWhile p = xs.reverse := by
    cases hreverse : xs.reverse with
    | nil => rfl
    | cons c cs =>
      have hc : c ∈ xs := List.mem_reverse.1 (hreverse ▸ List.mem_cons_self)
      rw [List.dropWhile_cons_of_neg (by simp [hxs c hc])]
  rw [dropEndWhile, List.reverse_append, List.dropWhile_append_of_pos (by simpa using hys), hends, List.reverse_reverse]

theorem dropEndWhile_cons {p : Char → Bool} {c : Char} (hc : p c = false) (cs : List Char) :
    dropEndWhile p (c :: cs) = c :: dropEndWhile p cs := by
  have hlast : [c].dropWhile p = [c] := List.dropWhile_cons_of_neg (by simp [hc])
  rw [dropEndWhile, dropEndWhile, List.reverse_cons, List.dropWhile_append, hlast]
  split
  · rename_i hempty
    rw [List.isEmpty_iff.1 hempty]
    rfl
  · rw [List.reverse_append]
    rfl

theorem trim_append {lead mid trail : List Char} (hlead : ∀ c ∈ lead, isBlank c = true)
    (hmid : ∀ c ∈ mid, isBlank c = false) (hsome : mid ≠ []) (htrail : ∀ c ∈ trail, isBlank c = true) :
    trim (lead ++ mid ++ trail) = mid := by
  have hstart : (lead ++ mid ++ trail).dropWhile isBlank = mid ++ trail := by
    rw [List.append_assoc, List.dropWhile_append_of_pos hlead]
    cases mid with
    | nil => exact absurd rfl hsome
    | cons c mid => exact List.dropWhile_cons_of_neg (by simp [hmid c List.mem_cons_self])
  rw [trim, hstart, dropEndWhile_append hmid htrail]

/-- What is left of a literal is its spelling. -/
theorem core_written {lead body suffix trail : List Char} (hbody : Spelling (body.filter (· != '_')) n)
    (hsuffix : ∀ c ∈ suffix, c ∈ ['l', 'L', 'u', 'U']) (hlead : ∀ c ∈ lead, isBlank c = true)
    (htrail : ∀ c ∈ trail, isBlank c = true) :
    core (lead ++ (body ++ suffix) ++ trail) = body.filter (· != '_') := by
  have hplain : ∀ c ∈ body, Plain c := by
    intro c hc
    by_cases hline : c = '_'
    · subst hline
      decide
    · exact hbody.plain c (List.mem_filter.2 ⟨hc, by simpa using hline⟩)
  have hletters : ∀ c ∈ ['l', 'L', 'u', 'U'], isSuffix c = true ∧ isBlank c = false := by simp [isSuffix, isBlank]
  have hmid : ∀ c ∈ body ++ suffix, isBlank c = false :=
    List.forall_mem_append.2 ⟨fun c hc => (hplain c hc).1, fun c hc => (hletters c (hsuffix c hc)).2⟩
  have hsome : body ++ suffix ≠ [] := by
    intro hnone
    rw [(List.append_eq_nil_iff.1 hnone).1] at hbody
    exact hbody.ne_nil rfl
  rw [core, trim_append hlead hmid hsome htrail,
    dropEndWhile_append (fun c hc => (hplain c hc).2) fun c hc => (hletters c (hsuffix c hc)).1]

/-! ## What is read -/

theorem digitIn_digitChar (hd : d < base) (hbase : base ≤ 16) : digitIn base d.digitChar = some d := by
  have hvalue : ∀ d < 16, digitValue d.digitChar = some d := by decide
  simp [digitIn, hvalue d (by omega), hd]

/-- Digits are read from the left, each time what was read before times the radix. -/
theorem digitsValue?_digits (hbase : base ≤ 16) {ds : List Nat} (hds : ∀ d ∈ ds, d < base) (acc : Nat) :
    digitsValue? base acc (ds.map Nat.digitChar) = some (ds.foldl (fun acc d => base * acc + d) acc) := by
  induction ds generalizing acc with
  | nil => rfl
  | cons d ds ih =>
    obtain ⟨hd, hds⟩ := List.forall_mem_cons.1 hds
    rw [List.map_cons, digitsValue?, digitIn_digitChar hd hbase, Option.bind_some, ih hds, List.foldl_cons]

theorem foldl_eq_ofDigits (base : Nat) (ds : List Nat) :
    ds.foldl (fun acc d => base * acc + d) 0 = Nat.ofDigits base ds.reverse := by
  rw [Nat.ofDigits_eq_foldr, List.foldr_reverse]
  simp [Nat.add_comm]

/-- The digits of a number are read as the number. -/
theorem unsigned?_digits (hbase : base ≤ 16) (h : Digits base cs n) (hn : n < unsignedLimit) :
    unsigned? base (cs.map Char.toLower) = some n := by
  obtain ⟨ds, hsome, hds, hcs, rfl⟩ := h
  have hsign : ∀ d < 16, Nat.digitChar d ≠ '+' := by decide
  cases ds with
  | nil => exact absurd rfl hsome
  | cons d ds =>
    have hplus : Nat.digitChar d ≠ '+' := hsign d (Nat.lt_of_lt_of_le (hds d List.mem_cons_self) hbase)
    have hdigits := digitsValue?_digits hbase hds 0
    rw [foldl_eq_ofDigits] at hdigits
    have hvalue : Text.value? base ((d :: ds).map Nat.digitChar) = some (Nat.ofDigits base (d :: ds).reverse) := hdigits
    rw [hcs]
    unfold unsigned?
    split
    · rename_i rest hrest
      exact absurd (List.cons.inj hrest).1 hplus
    · show (Text.value? base ((d :: ds).map Nat.digitChar)).filter _ = _
      rw [hvalue, Option.filter_some, if_pos (by simpa using hn)]

/-- Digits of a small radix begin with a digit of it. -/
theorem Digits.head (h : Digits base cs n) : ∃ d < base, ∃ rest, cs.map Char.toLower = d.digitChar :: rest := by
  obtain ⟨ds, hsome, hds, hcs, -⟩ := h
  cases ds with
  | nil => exact absurd rfl hsome
  | cons d ds => exact ⟨d, hds d List.mem_cons_self, _, hcs⟩

theorem radix_of_head {c : Char} (hc : c ≠ '0') (rest : List Char) : radix (c :: rest) = (10, c :: rest) := by
  unfold radix
  split <;> simp_all

theorem radix_of_zero {c : Char} (hc : c ≠ 'x' ∧ c ≠ 'o' ∧ c ≠ 'b') (rest : List Char) :
    radix ('0' :: c :: rest) = (8, c :: rest) := by
  unfold radix
  split <;> simp_all

theorem radix_of_mark {c : Char} (hc : (c, base) ∈ marks) (rest : List Char) :
    radix ('0' :: c :: rest) = (base, rest) := by
  simp only [marks, List.mem_cons, Prod.mk.injEq, List.not_mem_nil, or_false] at hc
  rcases hc with ⟨rfl, rfl⟩ | ⟨rfl, rfl⟩ | ⟨rfl, rfl⟩ <;> rfl

/-- A spelling shows its radix and has the digits of its number. -/
theorem radix_spelling (h : Spelling cs n) (hn : n < unsignedLimit) :
    unsigned? (radix (cs.map Char.toLower)).1 (radix (cs.map Char.toLower)).2 = some n := by
  have hzero : '0'.toLower = '0' := by decide
  cases h with
  | zero => decide
  | decimal digits first =>
    obtain ⟨d, -, rest, hcs⟩ := digits.head
    have hread := unsigned?_digits (by decide) digits hn
    have hfirst : d.digitChar ≠ '0' := by
      intro hd
      cases cs with
      | nil => cases hcs
      | cons c cs =>
        have hc : c.toLower = '0' := (List.cons.inj hcs).1.trans hd
        have hsame : (c.toLower == '0') = (c == '0') := toLower_congr (· == '0') (by decide) c
        rw [hc, beq_self_eq_true, eq_comm, beq_iff_eq] at hsame
        exact first (by rw [hsame]; rfl)
    rw [hcs] at hread ⊢
    rw [radix_of_head hfirst]
    exact hread
  | marked known digits =>
    rw [List.map_cons, List.map_cons, hzero, radix_of_mark known]
    exact unsigned?_digits (marks_plain _ known).2 digits hn
  | octal digits =>
    have hdigit : ∀ d < 8, Nat.digitChar d ≠ 'x' ∧ Nat.digitChar d ≠ 'o' ∧ Nat.digitChar d ≠ 'b' := by decide
    obtain ⟨d, hd, rest, hcs⟩ := digits.head
    have hread := unsigned?_digits (by decide) digits hn
    rw [hcs] at hread
    rw [List.map_cons, hzero, hcs, radix_of_zero (hdigit d hd)]
    exact hread

theorem value?_of_written (h : Written text n) (hn : n < unsignedLimit) : value? text = some n := by
  obtain ⟨lead, body, suffix, trail, rfl, hbody, hsuffix, hlead, htrail⟩ := h
  rw [value?, core_written hbody hsuffix hlead htrail, List.map_congr_left fun c _ => lowerAscii_eq_toLower c]
  exact radix_spelling hbody hn

/-- A minus sign stays in front of what is read, and is no digit. -/
theorem value?_minus (h : trim text = '-' :: cs) : value? text = none := by
  have hcore : core text = '-' :: (dropEndWhile isSuffix cs).filter (· != '_') := by
    rw [core, h, dropEndWhile_cons rfl]
    rfl
  have hminus : lowerAscii '-' = '-' := rfl
  rw [value?, hcore, List.map_cons, hminus, radix_of_head (by decide)]
  rfl

theorem value?_lt (h : value? text = some n) : n < unsignedLimit := by
  have hfilter := (Option.filter_eq_some_iff.1 h).2
  simpa using hfilter

theorem decimal_of_value? {text : String} (h : value? text.toList = some n) : decimal text = toString n := by
  rw [decimal, h]

/-! ## Numerals -/

theorem toDigits_eq_digits {n : Nat} (hn : n ≠ 0) :
    Nat.toDigits 10 n = (Nat.digits 10 n).reverse.map Nat.digitChar := by
  induction n using Nat.strongRecOn with
  | ind n ih =>
    rw [Nat.toDigits_eq_if (by decide), Nat.digits_def' (by decide) (Nat.pos_of_ne_zero hn)]
    by_cases hsmall : n < 10
    · rw [if_pos hsmall, Nat.mod_eq_of_lt hsmall, Nat.div_eq_of_lt hsmall]
      simp
    · rw [if_neg hsmall, ih (n / 10) (by omega) (by omega)]
      simp

/-- The numeral of a number is one of its spellings. -/
theorem spelling_toDigits (n : Nat) : Spelling (Nat.toDigits 10 n) n := by
  by_cases hn : n = 0
  · subst hn
    exact .zero
  · have hlower : ∀ d < 10, (Nat.digitChar d).toLower = Nat.digitChar d := by decide
    have hsmall : ∀ d ∈ (Nat.digits 10 n).reverse, d < 10 :=
      fun d hd => Nat.digits_lt_base (by decide) (List.mem_reverse.1 hd)
    refine .decimal ⟨(Nat.digits 10 n).reverse, ?_, hsmall, ?_, ?_⟩ ?_
    · rw [Ne, List.reverse_eq_nil_iff]
      exact Nat.digits_ne_nil_iff_ne_zero.2 hn
    · rw [toDigits_eq_digits hn, List.map_map]
      exact List.map_congr_left fun d hd => hlower d (hsmall d hd)
    · rw [List.reverse_reverse, Nat.ofDigits_digits]
    · intro hhead
      exact Document.Numeral.head_toDigits hn '0' hhead rfl

theorem written_numeral (n : Nat) : Written (toString n).toList n := by
  have hspelling := spelling_toDigits n
  have hline : (Nat.toDigits 10 n).filter (· != '_') = Nat.toDigits 10 n := by
    refine List.filter_eq_self.2 fun c hc => ?_
    have hdigit : c.isDigit = true := Nat.isDigit_of_mem_toDigits (by decide) (by decide) hc
    exact bne_iff_ne.2 (Document.isDigit_ne hdigit (by decide))
  refine ⟨[], Nat.toDigits 10 n, [], [], ?_, by rwa [hline], nofun, nofun, nofun⟩
  rw [Nat.toString_eq_ofList_toDigits, String.toList_ofList]
  simp

/-! ## Main result -/

/-- **One numeral for all spellings.** Every literal of a number below `2 ^ 128` comes to the decimal numeral of the number,
so that any two literals of one number come to the same text. Every other text stays as it is or comes to such a numeral
too, and a second time changes nothing. -/
theorem decimal_canonical :
    (∀ (text : String) (n : Nat), Written text.toList n → n < unsignedLimit → decimal text = toString n) ∧
    (∀ (text other : String) (n : Nat), Written text.toList n → Written other.toList n → n < unsignedLimit →
      decimal text = decimal other) ∧
    (∀ text : String, decimal text = text ∨ ∃ n < unsignedLimit, decimal text = toString n) ∧
    ∀ text : String, decimal (decimal text) = decimal text := by
  have hwritten (text : String) (n : Nat) (h : Written text.toList n) (hn : n < unsignedLimit) :
      decimal text = toString n := decimal_of_value? (value?_of_written h hn)
  have hcases (text : String) : decimal text = text ∨ ∃ n < unsignedLimit, decimal text = toString n := by
    cases hvalue : value? text.toList with
    | none => exact .inl (by rw [decimal, hvalue])
    | some n => exact .inr ⟨n, value?_lt hvalue, decimal_of_value? hvalue⟩
  refine ⟨hwritten, fun text other n h h' hn => ?_, hcases, fun text => ?_⟩
  · rw [hwritten text n h hn, hwritten other n h' hn]
  · obtain hsame | ⟨n, hn, hnumeral⟩ := hcases text
    · rw [hsame, hsame]
    · rw [hnumeral]
      exact hwritten _ n (written_numeral n) hn

/-- A hexadecimal literal with everything around it, and an octal one of the same number. -/
theorem decimal_canonical_word :
    Written " 0Xff_FFuL\u00a0".toList 65535 ∧ Written "0177_777".toList 65535 ∧ 65535 < unsignedLimit ∧
      decimal " 0Xff_FFuL\u00a0" = toString 65535 ∧ decimal " 0Xff_FFuL\u00a0" = decimal "0177_777" := by
  have hmark : ('X'.toLower, 16) ∈ marks := by decide
  have hhexadecimal : Spelling ['0', 'X', 'f', 'f', 'F', 'F'] 65535 :=
    .marked hmark ⟨[15, 15, 15, 15], by decide, by decide, by decide, by decide⟩
  have hoctal : Spelling ['0', '1', '7', '7', '7', '7', '7'] 65535 :=
    .octal ⟨[1, 7, 7, 7, 7, 7], by decide, by decide, by decide, by decide⟩
  have hfirst : Written " 0Xff_FFuL\u00a0".toList 65535 :=
    ⟨[' '], ['0', 'X', 'f', 'f', '_', 'F', 'F'], ['u', 'L'], ['\u00a0'], by decide, hhexadecimal, by simp,
      List.forall_mem_singleton.2 (by decide), List.forall_mem_singleton.2 (by decide)⟩
  have hsecond : Written "0177_777".toList 65535 :=
    ⟨[], ['0', '1', '7', '7', '_', '7', '7', '7'], [], [], by decide, hoctal, nofun, nofun, nofun⟩
  have hlimit : 65535 < unsignedLimit := by decide
  exact ⟨hfirst, hsecond, hlimit, decimal_canonical.1 _ _ hfirst hlimit,
    decimal_canonical.2.1 _ _ _ hfirst hsecond hlimit⟩

end Graft.Text.IntegerLiteral
