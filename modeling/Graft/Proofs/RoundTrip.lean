/-
Printing undoes reading.

- `read_pretty`: a value that was read from some text, and that holds no double, is read back from its printed text,
  with the same tags, the same fields in the same order and the same strings and numbers.
- `read_pretty_shuffled`: a text with a repeated name, a late discriminator and one that is no text, and escapes.

`Rereads` says this of one value, for every level of indentation and every text that may follow it (`Ends`), so that it
passes from the parts of a list or an object to the whole. What is read is canonical (`Canonical`), and the members of a
canonical object make that object again (`ofMembers_members`).
-/
import Graft.Document.Printer
import Graft.Proofs.Canonical
import Graft.Proofs.Place

namespace Graft.Document

/-! ## Blanks -/

/-- a text that may follow a value: nothing, a comma, or the next line -/
def Ends (rest : List Char) : Prop := ∀ c ∈ rest.head?, c = ',' ∨ c = '\n'

theorem ends_nil : Ends [] := by simp [Ends]

theorem ends_comma (rest : List Char) : Ends (',' :: rest) := by simp [Ends]

theorem ends_putLine (level : Nat) (rest : List Char) : Ends (putLine level rest) := by simp [Ends, putLine]

theorem skipSpace_putLine (level : Nat) (rest : List Char) : skipSpace (putLine level rest) = skipSpace rest := by
  show (List.replicate (2 * level) ' ' ++ rest).dropWhile isSpace = _
  induction 2 * level with
  | zero => rfl
  | succ n ih => simpa [List.replicate_succ, List.dropWhile_cons, isSpace] using ih

theorem skipSpace_of_head {c : Char} (h : isSpace c = false) (rest : List Char) :
    skipSpace (c :: rest) = c :: rest := by
  simp [skipSpace, h]

/-! ## Strings -/

theorem hexValue_control : ∀ n < 32, hexValue '0' '0' (hexDigit (n / 16)) (hexDigit (n % 16)) = some n := by decide

theorem readEscape_control {c : Char} (h : c.toNat < 0x20) (rest : List Char) :
    readEscape ('u' :: '0' :: '0' :: hexDigit (c.toNat / 16) :: hexDigit (c.toNat % 16) :: rest) = .ok (c, rest) := by
  have hbytes : ¬ Source.byteLength
      ('0' :: '0' :: hexDigit (c.toNat / 16) :: hexDigit (c.toNat % 16) :: rest) < 4 := by
    have hzero : '0'.utf8Size = 1 := by decide
    have hhigh := (hexDigit (c.toNat / 16)).utf8Size_pos
    have hlow := (hexDigit (c.toNat % 16)).utf8Size_pos
    simp only [Source.byteLength, List.foldr_cons, hzero]
    omega
  have hhex : readHex ('0' :: '0' :: hexDigit (c.toNat / 16) :: hexDigit (c.toNat % 16) :: rest) =
      .ok (c.toNat, rest) := by
    simp only [readHex, if_neg hbytes, hexValue_control c.toNat h]
  have htrailing : ¬ (0xDC00 ≤ c.toNat ∧ c.toNat ≤ 0xDFFF) := by omega
  have hleading : ¬ (0xD800 ≤ c.toNat ∧ c.toNat ≤ 0xDBFF) := by omega
  simp only [readEscape, hhex, bind, Except.bind, if_neg htrailing, if_neg hleading, pure, Except.pure,
    Char.ofNat_toNat]

theorem readString_escape {c : Char} {escape rest : List Char} (h : readEscape escape = .ok (c, rest)) (fuel : Nat) :
    readString (fuel + 1) ('\\' :: escape) = (readString fuel rest).map fun (text, rest) => (c :: text, rest) := by
  simp only [readString, h, bind, Except.bind]
  cases readString fuel rest <;> rfl

/-- A character is read back, escaped or not. -/
theorem readString_putChar (c : Char) (rest : List Char) (fuel : Nat) :
    readString (fuel + 1) (putChar c rest) = (readString fuel rest).map fun (text, rest) => (c :: text, rest) := by
  unfold putChar
  split
  iterate 7 exact readString_escape rfl fuel
  split
  · rename_i hcontrol
    exact readString_escape (readEscape_control hcontrol rest) fuel
  · rename_i hquote hbackslash _ _ _ _ _ hcontrol
    rw [readString]
    · rw [if_neg hcontrol]
      cases readString fuel rest <;> rfl
    · exact hquote
    · exact hbackslash

theorem length_putChar (c : Char) (rest : List Char) : rest.length < (putChar c rest).length := by
  unfold putChar
  split
  case h_8 => split <;> simp only [List.length_cons] <;> omega
  all_goals
    simp only [List.length_cons]
    omega

/-- The characters of a string are read back up to the closing quote. -/
theorem readString_foldr (text rest : List Char) {fuel : Nat} (h : text.length < fuel) :
    readString fuel (text.foldr putChar ('"' :: rest)) = .ok (text, rest) := by
  induction text generalizing fuel with
  | nil =>
    obtain ⟨fuel, rfl⟩ := Nat.exists_eq_succ_of_ne_zero (Nat.pos_iff_ne_zero.1 h)
    rfl
  | cons c cs ih =>
    obtain ⟨fuel, rfl⟩ := Nat.exists_eq_succ_of_ne_zero (Nat.ne_zero_of_lt h)
    rw [List.foldr_cons, readString_putChar, ih (Nat.lt_of_succ_lt_succ h)]
    rfl

theorem length_foldr_putChar (text rest : List Char) :
    text.length + rest.length ≤ (text.foldr putChar rest).length := by
  induction text with
  | nil => simp
  | cons c cs ih =>
    have hc := length_putChar c (cs.foldr putChar rest)
    simp only [List.foldr_cons, List.length_cons]
    omega

/-! ## Whole numbers -/

namespace Numeral

theorem le_ofDigitChars (digits : List Char) (value : Nat) : value ≤ Nat.ofDigitChars 10 digits value := by
  induction digits generalizing value with
  | nil => exact Nat.le_refl _
  | cons c cs ih =>
    have h := ih (10 * value + (c.toNat - '0'.toNat))
    rw [Nat.ofDigitChars_cons]
    omega

/-- All digits are taken when their value stays within the bound. -/
theorem takeDigits_append {bound : Nat} {digits rest : List Char} (hdigits : ∀ c ∈ digits, c.isDigit = true)
    (hrest : digitNext rest = false) {value : Nat} (hbound : Nat.ofDigitChars 10 digits value ≤ bound) (count : Nat) :
    takeDigits bound value count (digits ++ rest) =
      ⟨Nat.ofDigitChars 10 digits value, count + digits.length, rest⟩ := by
  induction digits generalizing value count with
  | nil =>
    cases rest with
    | nil => rfl
    | cons c cs =>
      have hc : c.isDigit = false := hrest
      simp [takeDigits, hc, Nat.ofDigitChars]
  | cons c cs ih =>
    rw [List.forall_mem_cons] at hdigits
    have hzero : '0'.toNat = 48 := rfl
    rw [Nat.ofDigitChars_cons, hzero] at hbound ⊢
    have hle : 10 * value + (c.toNat - 48) ≤ bound := Nat.le_trans (le_ofDigitChars cs _) hbound
    rw [List.cons_append, takeDigits, if_pos ⟨hdigits.1, hle⟩, ih hdigits.2 hbound, List.length_cons]
    rw [Nat.add_assoc, Nat.add_comm 1]

/-- A number is not written with a zero in front. -/
theorem head_toDigits {n : Nat} (h : n ≠ 0) : ∀ c ∈ (Nat.toDigits 10 n).head?, c ≠ '0' := by
  induction n using Nat.strongRecOn with
  | ind n ih =>
    rw [Nat.toDigits_eq_if (by decide)]
    by_cases hn : n < 10
    · have hdigit : ∀ m < 10, m ≠ 0 → m.digitChar ≠ '0' := by decide
      simpa [hn] using hdigit n hn h
    · have hhead := ih (n / 10) (by omega) (by omega)
      obtain ⟨d, ds, hds⟩ := List.exists_cons_of_ne_nil (Nat.toDigits_ne_nil (n := n / 10) (b := 10))
      rw [if_neg hn, hds]
      rwa [hds] at hhead

theorem digitNext_of_ends {rest : List Char} (h : Ends rest) : digitNext rest = false := by
  cases rest with
  | nil => rfl
  | cons c cs => rcases h c rfl with rfl | rfl <;> rfl

theorem takeWhile_of_not_digit {rest : List Char} (h : digitNext rest = false) :
    rest.takeWhile Char.isDigit = [] := by
  cases rest with
  | nil => rfl
  | cons c cs => exact List.takeWhile_cons_of_neg (by simpa [digitNext] using h)

theorem dropWhile_of_not_digit {rest : List Char} (h : digitNext rest = false) :
    rest.dropWhile Char.isDigit = rest := by
  cases rest with
  | nil => rfl
  | cons c cs => exact List.dropWhile_cons_of_neg (by simpa [digitNext] using h)

theorem readTail_of_ends {rest : List Char} (h : Ends rest) (negative : Bool) (n : Nat) :
    readTail negative n 0 rest = whole negative n rest := by
  cases rest with
  | nil => rfl
  | cons c cs => rcases h c rfl with rfl | rfl <;> rfl

/-- The digits of a number are read back as a whole literal. -/
theorem readNumber_toDigits {n : Nat} (hn : n ≤ greatestSignificand) {rest : List Char} (hrest : Ends rest)
    (negative : Bool) : readNumber negative (Nat.toDigits 10 n ++ rest) = whole negative n rest := by
  have hnext := digitNext_of_ends hrest
  by_cases hzero : n = 0
  · subst hzero
    show (if digitNext rest then _ else readTail negative 0 0 rest) = _
    rw [hnext, if_neg (by decide), readTail_of_ends hrest]
  · have hhead := head_toDigits hzero
    have hvalue := Nat.ofDigitChars_ten_toDigits (n := n)
    have hdigits : ∀ c ∈ Nat.toDigits 10 n, c.isDigit = true :=
      fun c => Nat.isDigit_of_mem_toDigits (by decide) (by decide)
    obtain ⟨d, ds, hds⟩ := List.exists_cons_of_ne_nil (Nat.toDigits_ne_nil (n := n) (b := 10))
    rw [hds] at hhead hvalue hdigits ⊢
    have htaken := takeDigits_append hdigits hnext (hvalue.symm ▸ hn) 0
    rw [hvalue, List.cons_append] at htaken
    have hd : d.isDigit = true := hdigits d List.mem_cons_self
    rw [List.cons_append, readNumber]
    · simp only [hd, Bool.not_true, Bool.false_eq_true, if_false, htaken, takeWhile_of_not_digit hnext,
        dropWhile_of_not_digit hnext]
      exact readTail_of_ends hrest negative n
    · exact hhead d rfl

end Numeral

theorem toList_natCast (n : Nat) : (Number.text (.int n)).toList = Nat.toDigits 10 n := by
  show (toString n).toList = _
  rw [Nat.toString_eq_ofList_toDigits, String.toList_ofList]

theorem toList_negSucc (n : Nat) : (Number.text (.int (.negSucc n))).toList = '-' :: Nat.toDigits 10 (n + 1) := by
  show ("-" ++ toString (n + 1)).toList = _
  rw [Nat.toString_eq_ofList_toDigits, String.toList_append, String.toList_ofList]
  simp

theorem isDigit_ne {c : Char} (h : c.isDigit = true) {d : Char} (hd : d.isDigit = false) : c ≠ d := by
  rintro rfl
  rw [h] at hd
  cases hd

theorem isSpace_of_isDigit {c : Char} (h : c.isDigit = true) : isSpace c = false := by
  have hne {d : Char} (hd : d.isDigit = false) : (c == d) = false := beq_false_of_ne (isDigit_ne h hd)
  simp [isSpace, hne]

/-! ## One value -/

/-- a value whose printed text begins a value, is not empty, and is read back from wherever it stands; the number that
the readers count down needs to be twice the length of what is left -/
structure Rereads (v : Value) : Prop where
  head : ∀ level rest, ∃ c cs, put level v rest = c :: cs ∧ isSpace c = false ∧ c ≠ ']'
  longer : ∀ level rest, rest.length < (put level v rest).length
  read : ∀ level rest fuel, Ends rest → 2 * (put level v rest).length ≤ fuel + 1 →
    readValue (fuel + 1) (put level v rest) = .ok (v, rest)

theorem rereads_null : Rereads .null where
  head _ _ := ⟨_, _, rfl, rfl, by decide⟩
  longer _ rest := by simp only [put, List.length_cons]; omega
  read _ _ _ _ _ := rfl

theorem rereads_bool (b : Bool) : Rereads (.bool b) where
  head _ _ := by cases b <;> exact ⟨_, _, rfl, rfl, by decide⟩
  longer _ rest := by cases b <;> simp only [put, List.length_cons] <;> omega
  read _ _ _ _ _ := by cases b <;> rfl

theorem length_putString (text : String) (rest : List Char) :
    text.toList.length + rest.length < (putString text rest).length := by
  have h := length_foldr_putChar text.toList ('"' :: rest)
  simp only [putString, List.length_cons] at h ⊢
  omega

theorem rereads_string (text : String) : Rereads (.string text) where
  head _ _ := ⟨_, _, rfl, rfl, by decide⟩
  longer _ rest := by
    have h := length_putString text rest
    simp only [put]
    omega
  read level rest fuel _ hfuel := by
    have hlength := length_putString text rest
    have htext : text.toList.length < fuel := by
      simp only [put] at hfuel
      omega
    show (readString fuel (text.toList.foldr putChar ('"' :: rest)) >>= fun (text, rest) =>
      pure (Value.string (String.ofList text), rest)) = _
    rw [readString_foldr _ _ htext]
    simp [bind, Except.bind, pure, Except.pure]

theorem readValue_digit {d : Char} (hd : d.isDigit = true) (cs : List Char) (fuel : Nat) :
    readValue (fuel + 1) (d :: cs) =
      Numeral.readNumber false (d :: cs) >>= fun (n, rest) => pure (.number n, rest) := by
  rw [readValue, skipSpace_of_head (isSpace_of_isDigit hd)]
  split
  case h_9 heq =>
    cases heq
    rw [if_pos hd]
  case h_1 heq => cases heq
  all_goals
    rename_i heq
    cases heq
    exact absurd hd (by decide)

theorem rereads_natCast {n : Nat} (h : n ≤ Numeral.greatestSignificand) : Rereads (.number (.int n)) := by
  obtain ⟨d, ds, hds⟩ := List.exists_cons_of_ne_nil (Nat.toDigits_ne_nil (n := n) (b := 10))
  have hmem : d ∈ Nat.toDigits 10 n := hds ▸ List.mem_cons_self
  have hd : d.isDigit = true := Nat.isDigit_of_mem_toDigits (by decide) (by decide) hmem
  have hput (level : Nat) (rest : List Char) : put level (.number (.int n)) rest = d :: (ds ++ rest) := by
    rw [put, toList_natCast, hds, List.cons_append]
  refine ⟨fun level rest => ⟨d, ds ++ rest, hput level rest, isSpace_of_isDigit hd, isDigit_ne hd rfl⟩, ?_, ?_⟩
  · intro level rest
    rw [hput, List.length_cons, List.length_append]
    omega
  · intro level rest fuel hrest _
    have hread := Numeral.readNumber_toDigits h hrest false
    rw [hds, List.cons_append] at hread
    rw [hput, readValue_digit hd, hread]
    rfl

theorem rereads_negSucc {n : Nat} (h : n < Text.signedLimit) : Rereads (.number (.int (.negSucc n))) := by
  have hput (level : Nat) (rest : List Char) :
      put level (.number (.int (.negSucc n))) rest = '-' :: (Nat.toDigits 10 (n + 1) ++ rest) := by
    rw [put, toList_negSucc, List.cons_append]
  refine ⟨fun level rest => ⟨_, _, hput level rest, rfl, by decide⟩, ?_, ?_⟩
  · intro level rest
    rw [hput, List.length_cons, List.length_append]
    omega
  · intro level rest fuel hrest _
    have hbound : n + 1 ≤ Numeral.greatestSignificand := Nat.le_trans h (by decide)
    have hread := Numeral.readNumber_toDigits hbound hrest true
    have hsigned : 0 < n + 1 ∧ n + 1 ≤ Text.signedLimit := ⟨Nat.succ_pos n, h⟩
    rw [Numeral.whole, if_neg (by decide), if_pos hsigned] at hread
    rw [hput, readValue, skipSpace_of_head rfl]
    simp only [hread]
    rfl

/-- A whole number that 64 bits hold is read back. -/
theorem rereads_int {n : Int} (h : (Number.int n).Fits) : Rereads (.number (.int n)) := by
  obtain ⟨hlow, hhigh⟩ := h
  cases n with
  | ofNat n => exact rereads_natCast (Int.ofNat_le.1 hhigh)
  | negSucc n => exact rereads_negSucc (by omega)

/-! ## Lists -/

theorem ends_putItems (level outer : Nat) (vs : List Value) (rest : List Char) :
    Ends (putItems level vs (putLine outer rest)) := by
  cases vs with
  | nil => exact ends_putLine outer rest
  | cons => exact ends_comma _

theorem length_putItems {vs : List Value} (h : ∀ v ∈ vs, Rereads v) (level : Nat) (rest : List Char) :
    rest.length ≤ (putItems level vs rest).length := by
  induction vs with
  | nil => exact Nat.le_refl _
  | cons v vs ih =>
    rw [List.forall_mem_cons] at h
    have hv := h.1.longer level (putItems level vs rest)
    have hvs := ih h.2
    simp only [putItems, putLine, List.length_cons, List.length_append]
    omega

theorem nextItem_first {v : Value} (h : Rereads v) (level : Nat) (rest : List Char) :
    nextItem true (putLine level (put level v rest)) = .ok (.inr (put level v rest)) := by
  obtain ⟨c, cs, hput, hspace, hclose⟩ := h.head level rest
  simp [nextItem, hput, skipSpace_putLine, skipSpace_of_head hspace]

theorem nextItem_comma {v : Value} (h : Rereads v) (level : Nat) (rest : List Char) :
    nextItem false (',' :: putLine level (put level v rest)) = .ok (.inr (put level v rest)) := by
  obtain ⟨c, cs, hput, hspace, hclose⟩ := h.head level rest
  have hcomma (cs : List Char) : skipSpace (',' :: cs) = ',' :: cs := skipSpace_of_head rfl cs
  simp [nextItem, hput, hcomma, skipSpace_putLine, skipSpace_of_head hspace, hclose]

theorem nextItem_close (level : Nat) (rest : List Char) :
    nextItem false (putLine level (']' :: rest)) = .ok (.inl rest) := by
  have hclose : skipSpace (']' :: rest) = ']' :: rest := skipSpace_of_head rfl rest
  simp [nextItem, skipSpace_putLine, hclose]

theorem readItems_item {v : Value} (hv : Rereads v) {level fuel : Nat} {first : Bool} {cs tail : List Char}
    (htail : Ends tail) (hnext : nextItem first cs = .ok (.inr (put level v tail)))
    (hfuel : 2 * (put level v tail).length ≤ fuel) :
    readItems (fuel + 1) first cs = (readItems fuel false tail).map fun (items, rest) => (v :: items, rest) := by
  have hlonger := hv.longer level tail
  obtain ⟨fuel, rfl⟩ : ∃ n, fuel = n + 1 := ⟨fuel - 1, by omega⟩
  have hread := hv.read level tail fuel htail hfuel
  rw [readItems]
  simp only [hnext, hread, bind, Except.bind]
  cases readItems (fuel + 1) false tail <;> rfl

/-- The items of a list are read back up to its bracket. -/
theorem readItems_put {v : Value} {vs : List Value} (hv : Rereads v) (hvs : ∀ w ∈ vs, Rereads w) {level outer : Nat}
    {rest cs : List Char} {first : Bool} {fuel : Nat}
    (hnext : nextItem first cs = .ok (.inr (put level v (putItems level vs (putLine outer (']' :: rest))))))
    (hfuel : 2 * (put level v (putItems level vs (putLine outer (']' :: rest)))).length ≤ fuel) :
    readItems (fuel + 1) first cs = .ok (v :: vs, rest) := by
  induction vs generalizing v first cs fuel with
  | nil =>
    have hlonger := hv.longer level (putLine outer (']' :: rest))
    rw [putItems] at hnext hfuel
    obtain ⟨fuel, rfl⟩ : ∃ n, fuel = n + 1 := ⟨fuel - 1, by omega⟩
    rw [readItems_item hv (ends_putLine outer _) hnext hfuel, readItems, nextItem_close]
    rfl
  | cons w ws ih =>
    have hlonger := hv.longer level (putItems level (w :: ws) (putLine outer (']' :: rest)))
    obtain ⟨fuel, rfl⟩ : ∃ n, fuel = n + 1 := ⟨fuel - 1, by omega⟩
    have htail : (put level w (putItems level ws (putLine outer (']' :: rest)))).length <
        (putItems level (w :: ws) (putLine outer (']' :: rest))).length := by
      simp only [putItems, putLine, List.length_cons, List.length_append]
      omega
    rw [List.forall_mem_cons] at hvs
    rw [readItems_item hv (ends_putItems level outer (w :: ws) _) hnext hfuel, putItems,
      ih hvs.1 hvs.2 (nextItem_comma hvs.1 level _) (by omega)]
    rfl

theorem rereads_array {items : List Value} (h : ∀ v ∈ items, Rereads v) : Rereads (.array items) := by
  cases items with
  | nil =>
    refine ⟨fun _ _ => ⟨_, _, rfl, rfl, by decide⟩, ?_, ?_⟩
    · intro level rest
      simp only [put, List.length_cons]
      omega
    · intro level rest fuel _ hfuel
      simp only [put, List.length_cons] at hfuel
      obtain ⟨fuel, rfl⟩ : ∃ n, fuel = n + 1 := ⟨fuel - 1, by omega⟩
      rfl
  | cons v vs =>
    rw [List.forall_mem_cons] at h
    refine ⟨fun _ _ => ⟨_, _, rfl, rfl, by decide⟩, ?_, ?_⟩
    · intro level rest
      have hv := h.1.longer (level + 1) (putItems (level + 1) vs (putLine level (']' :: rest)))
      have hvs := length_putItems h.2 (level + 1) (putLine level (']' :: rest))
      simp only [put, putLine, List.length_cons, List.length_append] at hv hvs ⊢
      omega
    · intro level rest fuel _ hfuel
      have hlonger := h.1.longer (level + 1) (putItems (level + 1) vs (putLine level (']' :: rest)))
      rw [put, List.length_cons, putLine, List.length_cons, List.length_append] at hfuel
      obtain ⟨fuel, rfl⟩ : ∃ n, fuel = n + 1 := ⟨fuel - 1, by omega⟩
      have hread : readItems (fuel + 1) true (putLine (level + 1) (put (level + 1) v
          (putItems (level + 1) vs (putLine level (']' :: rest))))) = .ok (v :: vs, rest) :=
        readItems_put h.1 h.2 (nextItem_first h.1 (level + 1) _) (by omega)
      rw [put, readValue, skipSpace_of_head rfl]
      simp only [hread]
      rfl

/-! ## Objects -/

/-- the members that a node is written with -/
def Node.members : Node → List (String × Value)
  | ⟨some tag, fields⟩ => (discriminator, .string tag) :: fields
  | ⟨none, fields⟩ => fields

theorem foldl_addMember {fields : List (String × Value)}
    (huntagged : ∀ text, (discriminator, Value.string text) ∉ fields) {node : Node}
    (hnames : ((node.fields ++ fields).map Prod.fst).Nodup) :
    fields.foldl Node.addMember node = ⟨node.tag, node.fields ++ fields⟩ := by
  induction fields generalizing node with
  | nil =>
    obtain ⟨tag, before⟩ := node
    simp
  | cons f fs ih =>
    obtain ⟨name, value⟩ := f
    have hnew : name ∉ node.fields.map Prod.fst := by
      intro hmem
      rw [List.map_append, List.nodup_append] at hnames
      exact hnames.2.2 name hmem name (by simp) rfl
    have hadd : node.addMember (name, value) = ⟨node.tag, node.fields ++ [(name, value)]⟩ := by
      rcases node.addMember_cases name value with ⟨text, rfl, rfl, -⟩ | ⟨-, heq⟩
      · exact (huntagged text List.mem_cons_self).elim
      · rw [heq, Node.insert, Node.putField_of_notMem hnew]
    have hrest : ∀ text, (discriminator, Value.string text) ∉ fs :=
      fun text hmem => huntagged text (List.mem_cons_of_mem _ hmem)
    rw [List.foldl_cons, hadd, ih hrest]
    · simp
    · simpa using hnames

/-- The members that a node is written with make it. -/
theorem ofMembers_members {node : Node} (h : node.Regular) : Node.ofMembers node.members = node := by
  obtain ⟨tag, fields⟩ := node
  cases tag with
  | none => exact foldl_addMember h.untagged h.names
  | some tag =>
    show fields.foldl Node.addMember (Node.addMember ⟨none, []⟩ (discriminator, .string tag)) = _
    rw [Node.addMember, if_pos rfl]
    exact foldl_addMember h.untagged h.names

theorem put_members {node : Node} {name : String} {v : Value} {members : List (String × Value)}
    (h : node.members = (name, v) :: members) (level : Nat) (rest : List Char) :
    put level (.object node) rest = '\x7b' :: putLine (level + 1) (putKey name
      (put (level + 1) v (putFields (level + 1) members (putLine level ('\x7d' :: rest))))) := by
  obtain ⟨tag, fields⟩ := node
  cases tag with
  | none =>
    subst h
    rfl
  | some tag =>
    cases h
    rfl

theorem put_noMembers {node : Node} (h : node.members = []) (level : Nat) (rest : List Char) :
    put level (.object node) rest = '\x7b' :: '\x7d' :: rest := by
  obtain ⟨tag, fields⟩ := node
  cases tag with
  | none =>
    subst h
    rfl
  | some tag => cases h

theorem ends_putFields (level outer : Nat) (fields : List (String × Value)) (rest : List Char) :
    Ends (putFields level fields (putLine outer rest)) := by
  cases fields with
  | nil => exact ends_putLine outer rest
  | cons => exact ends_comma _

theorem length_putKey (name : String) (rest : List Char) :
    name.toList.length + rest.length < (putKey name rest).length := by
  have h := length_putString name (':' :: ' ' :: rest)
  simp only [putKey, List.length_cons] at h ⊢
  omega

theorem length_putFields {fields : List (String × Value)} (h : ∀ f ∈ fields, Rereads f.2) (level : Nat)
    (rest : List Char) : rest.length ≤ (putFields level fields rest).length := by
  induction fields with
  | nil => exact Nat.le_refl _
  | cons f fs ih =>
    obtain ⟨name, v⟩ := f
    rw [List.forall_mem_cons] at h
    have hv := h.1.longer level (putFields level fs rest)
    have hkey := length_putKey name (put level v (putFields level fs rest))
    have hfs := ih h.2
    simp only [putFields, putLine, List.length_cons, List.length_append] at hv ⊢
    omega

/-- the text of a key after its opening quote, in front of what follows -/
def keyText (name : String) (rest : List Char) : List Char := name.toList.foldr putChar ('"' :: ':' :: ' ' :: rest)

theorem length_keyText (name : String) (rest : List Char) :
    name.toList.length + rest.length < (keyText name rest).length := by
  have h := length_foldr_putChar name.toList ('"' :: ':' :: ' ' :: rest)
  simp only [keyText, List.length_cons] at h ⊢
  omega

theorem nextMember_first (level : Nat) (name : String) (rest : List Char) :
    nextMember true (putLine level (putKey name rest)) = .ok (.inr (keyText name rest)) := by
  have hkey : skipSpace (putKey name rest) = '"' :: keyText name rest := skipSpace_of_head rfl _
  simp [nextMember, skipSpace_putLine, hkey]

theorem nextMember_comma (level : Nat) (name : String) (rest : List Char) :
    nextMember false (',' :: putLine level (putKey name rest)) = .ok (.inr (keyText name rest)) := by
  have hcomma (cs : List Char) : skipSpace (',' :: cs) = ',' :: cs := skipSpace_of_head rfl cs
  have hkey : skipSpace (putKey name rest) = '"' :: keyText name rest := skipSpace_of_head rfl _
  simp [nextMember, hcomma, skipSpace_putLine, hkey]

theorem nextMember_close (level : Nat) (rest : List Char) :
    nextMember false (putLine level ('\x7d' :: rest)) = .ok (.inl rest) := by
  have hclose : skipSpace ('\x7d' :: rest) = '\x7d' :: rest := skipSpace_of_head rfl rest
  simp [nextMember, skipSpace_putLine, hclose]

theorem readValue_blank (fuel : Nat) (cs : List Char) : readValue (fuel + 1) (' ' :: cs) = readValue (fuel + 1) cs := by
  rw [readValue, readValue]
  rfl

theorem readMembers_member {name : String} {v : Value} (hv : Rereads v) {level fuel : Nat} {first : Bool}
    {cs tail : List Char} (htail : Ends tail)
    (hnext : nextMember first cs = .ok (.inr (keyText name (put level v tail))))
    (hfuel : 2 * (keyText name (put level v tail)).length ≤ fuel) :
    readMembers (fuel + 1) first cs =
      (readMembers fuel false tail).map fun (members, rest) => ((name, v) :: members, rest) := by
  have hlength := length_keyText name (put level v tail)
  obtain ⟨fuel, rfl⟩ : ∃ n, fuel = n + 1 := ⟨fuel - 1, by omega⟩
  have hname : readString (fuel + 1) (keyText name (put level v tail)) =
      .ok (name.toList, ':' :: ' ' :: put level v tail) := readString_foldr _ _ (by omega)
  have hcolon : readColon (':' :: ' ' :: put level v tail) = .ok (' ' :: put level v tail) := rfl
  have hread := hv.read level tail fuel htail (by omega)
  rw [readMembers]
  simp only [hnext, hname, hcolon, readValue_blank, hread, bind, Except.bind, String.ofList_toList]
  cases readMembers (fuel + 1) false tail <;> rfl

/-- The members of an object are read back up to its brace. -/
theorem readMembers_put {name : String} {v : Value} {fields : List (String × Value)} (hv : Rereads v)
    (hfields : ∀ f ∈ fields, Rereads f.2) {level outer : Nat} {rest cs : List Char} {first : Bool} {fuel : Nat}
    (hnext : nextMember first cs =
      .ok (.inr (keyText name (put level v (putFields level fields (putLine outer ('\x7d' :: rest)))))))
    (hfuel : 2 * (keyText name (put level v (putFields level fields (putLine outer ('\x7d' :: rest))))).length ≤ fuel) :
    readMembers (fuel + 1) first cs = .ok ((name, v) :: fields, rest) := by
  induction fields generalizing name v first cs fuel with
  | nil =>
    have hlength := length_keyText name (put level v (putLine outer ('\x7d' :: rest)))
    rw [putFields] at hnext hfuel
    obtain ⟨fuel, rfl⟩ : ∃ n, fuel = n + 1 := ⟨fuel - 1, by omega⟩
    rw [readMembers_member hv (ends_putLine outer _) hnext hfuel, readMembers, nextMember_close]
    rfl
  | cons f fs ih =>
    obtain ⟨key, w⟩ := f
    have hlength := length_keyText name (put level v (putFields level ((key, w) :: fs) (putLine outer ('\x7d' :: rest))))
    have hlonger := hv.longer level (putFields level ((key, w) :: fs) (putLine outer ('\x7d' :: rest)))
    have htail : (keyText key (put level w (putFields level fs (putLine outer ('\x7d' :: rest))))).length <
        (putFields level ((key, w) :: fs) (putLine outer ('\x7d' :: rest))).length := by
      simp only [putFields, putLine, putKey, putString, keyText, List.length_cons, List.length_append]
      omega
    obtain ⟨fuel, rfl⟩ : ∃ n, fuel = n + 1 := ⟨fuel - 1, by omega⟩
    have hw : Rereads w := hfields (key, w) List.mem_cons_self
    have hfs : ∀ f ∈ fs, Rereads f.2 := fun f hf => hfields f (List.mem_cons_of_mem _ hf)
    rw [readMembers_member hv (ends_putFields level outer _ _) hnext hfuel, putFields,
      ih hw hfs (nextMember_comma level key _) (by omega)]
    rfl

theorem rereads_object {node : Node} (hregular : node.Regular) (h : ∀ f ∈ node.members, Rereads f.2) :
    Rereads (.object node) := by
  have hnode := ofMembers_members hregular
  cases hmembers : node.members with
  | nil =>
    have hput := put_noMembers hmembers
    refine ⟨fun level rest => ⟨_, _, hput level rest, rfl, by decide⟩, fun level rest => ?_, ?_⟩
    · rw [hput, List.length_cons, List.length_cons]
      omega
    · intro level rest fuel _ hfuel
      rw [hput, List.length_cons, List.length_cons] at hfuel
      obtain ⟨fuel, rfl⟩ : ∃ n, fuel = n + 1 := ⟨fuel - 1, by omega⟩
      rw [hput, ← hnode, hmembers]
      rfl
  | cons m ms =>
    obtain ⟨name, v⟩ := m
    rw [hmembers] at h
    have hv : Rereads v := h (name, v) List.mem_cons_self
    have hms : ∀ f ∈ ms, Rereads f.2 := fun f hf => h f (List.mem_cons_of_mem _ hf)
    have hput := put_members hmembers
    refine ⟨fun level rest => ⟨_, _, hput level rest, rfl, by decide⟩, ?_, ?_⟩
    · intro level rest
      have hvalue := hv.longer (level + 1) (putFields (level + 1) ms (putLine level ('\x7d' :: rest)))
      have hfields := length_putFields hms (level + 1) (putLine level ('\x7d' :: rest))
      have hkey := length_putKey name (put (level + 1) v (putFields (level + 1) ms (putLine level ('\x7d' :: rest))))
      simp only [hput, putLine, List.length_cons, List.length_append] at hvalue hfields hkey ⊢
      omega
    · intro level rest fuel _ hfuel
      have hkey : (keyText name (put (level + 1) v (putFields (level + 1) ms (putLine level ('\x7d' :: rest))))).length <
          (putKey name (put (level + 1) v (putFields (level + 1) ms (putLine level ('\x7d' :: rest))))).length :=
        Nat.lt_succ_self _
      rw [hput, List.length_cons, putLine, List.length_cons, List.length_append] at hfuel
      obtain ⟨fuel, rfl⟩ : ∃ n, fuel = n + 1 := ⟨fuel - 1, by omega⟩
      have hread : readMembers (fuel + 1) true (putLine (level + 1) (putKey name
          (put (level + 1) v (putFields (level + 1) ms (putLine level ('\x7d' :: rest)))))) =
            .ok ((name, v) :: ms, rest) :=
        readMembers_put hv hms (nextMember_first (level + 1) name _) (by omega)
      rw [← hmembers] at hread
      rw [hput, readValue, skipSpace_of_head rfl]
      simp only [hread, hnode, bind, Except.bind]
      rfl

/-! ## Main result -/

theorem lookup_of_mem {fields : List (String × Value)} (h : (fields.map Prod.fst).Nodup) {name : String} {v : Value}
    (hmem : (name, v) ∈ fields) : fields.lookup name = some v := by
  induction fields with
  | nil => exact (List.not_mem_nil hmem).elim
  | cons f fs ih =>
    obtain ⟨n, w⟩ := f
    rw [List.map_cons, List.nodup_cons] at h
    rcases List.mem_cons.1 hmem with heq | hrest
    · cases heq
      exact List.lookup_cons_self
    · have hne : name ≠ n := by
        rintro rfl
        exact h.1 (List.mem_map.2 ⟨(name, v), hrest, rfl⟩)
      rw [List.lookup_cons, beq_eq_false_iff_ne.2 hne]
      exact ih h.2 hrest

/-- A canonical value without a double is read back. -/
theorem rereads_canonical {v : Value} (h : Canonical v) (hwhole : ∀ x, ¬ Convert.Holds v (.number (.real x))) :
    Rereads v := by
  induction h with
  | null => exact rereads_null
  | bool b => exact rereads_bool b
  | string text => exact rereads_string text
  | @number n hn =>
    cases n with
    | int => exact rereads_int hn
    | real x => exact (hwhole x (.self _)).elim
  | array _ ih => exact rereads_array fun v hv => ih v hv fun x hx => hwhole x (.item hv hx)
  | @object node hregular _ ih =>
    have hfields : ∀ f ∈ node.fields, Rereads f.2 :=
      fun f hf => ih f hf fun x hx => hwhole x (.field (lookup_of_mem hregular.names hf) hx)
    refine rereads_object hregular fun f hf => ?_
    obtain ⟨tag, fields⟩ := node
    cases tag with
    | none => exact hfields f hf
    | some tag =>
      rcases List.mem_cons.1 hf with rfl | hf
      · exact rereads_string tag
      · exact hfields f hf

/-- **Printing undoes reading.** A value that was read from some text, and that holds no double, is what reading its
printed text yields. -/
theorem read_pretty {text : String} {v : Value} (h : read text = .ok v)
    (hwhole : ∀ x, ¬ Convert.Holds v (.number (.real x))) : read v.pretty = .ok v := by
  have hv := rereads_canonical (canonical_read h) hwhole
  have hread := hv.read 0 [] (2 * (put 0 v []).length + 1) ends_nil (by omega)
  unfold read readAll Value.pretty
  rw [String.toList_ofList]
  simp only [hread, bind, Except.bind]
  rfl

/-- a list of an object and of the greatest and the least whole number; the object has one name twice, a string with
escapes and a surrogate pair, and two discriminators, the first of which is no text while the second stands last -/
def shuffled : String :=
  "[\x7b\"id\":null,\"__node__\":[7],\"id\":\"\\u0001\\\"\\n\\ud83d\\ude00\",\"__node__\":\"Name\"\x7d,\n" ++
    "18446744073709551615 , -9223372036854775808]"

/-- what it spells -/
def shuffledValue : Value := .array [
  .object ⟨some "Name", [("id", .string "\x01\"\n😀"), ("__node__", .array [.number (.int 7)])]⟩,
  .number (.int 18446744073709551615), .number (.int (-9223372036854775808))]

theorem read_shuffled : read shuffled = .ok shuffledValue := by
  unfold read shuffled
  simp only [String.reduceAppend, String.reduceToList]
  rfl

theorem not_holds_shuffledValue (x : Decimal.Double) : ¬ Convert.Holds shuffledValue (.number (.real x)) := by
  intro h
  cases h with
  | item hmem h =>
    simp only [List.mem_cons, List.not_mem_nil, or_false] at hmem
    rcases hmem with rfl | rfl | rfl
    · cases h with
      | field hget h =>
        have hmem := Node.mem_of_lookup hget
        simp only [List.mem_cons, Prod.mk.injEq, List.not_mem_nil, or_false] at hmem
        rcases hmem with ⟨-, rfl⟩ | ⟨-, rfl⟩
        · cases h
        · cases h with
          | item hmem h =>
            cases List.mem_singleton.1 hmem
            cases h
    · cases h
    · cases h

/-- Its value is printed with the text that names the kind first and the other discriminator as a field. -/
theorem read_pretty_shuffled : read shuffled = .ok shuffledValue ∧
    (∀ x, ¬ Convert.Holds shuffledValue (.number (.real x))) ∧ read shuffledValue.pretty = .ok shuffledValue :=
  ⟨read_shuffled, not_holds_shuffledValue, read_pretty read_shuffled not_holds_shuffledValue⟩

end Graft.Document
