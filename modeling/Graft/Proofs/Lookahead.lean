/-
How far a reader looks.

What is left of a text after a value, a list or the members of an object has no say in what was read: a reader takes a
segment of the text, and at most looks at the one character after it, which may go on with a number. So the segment is
read in the same way wherever it stands, when what follows it begins alike or cannot go on with a number (`Adjoins`).
The number that the readers count down matters as little, once it is large enough for the segment.

- `near_readNumber`, `readString_segment`: this for numbers and strings.
- `readers_segment`: this for values, for the items of a list and for the members of an object, by induction on the
  number that is counted down.
-/
import Mathlib.Data.List.TakeWhile
import Graft.Proofs.RoundTrip

namespace Graft.Document

/-- a text that does not go on with a number -/
def Calm (cs : List Char) : Prop := ∀ c ∈ cs.head?, c.isDigit = false ∧ c ∉ ['.', 'e', 'E', '+', '-']

/-- the second text can stand where a reader left the first one -/
def Adjoins (rest other : List Char) : Prop := other.head? = rest.head? ∨ Calm other

theorem calm_nil : Calm [] := by simp [Calm]

theorem adjoins_nil (rest : List Char) : Adjoins rest [] := .inr calm_nil

theorem adjoins_append {seg : List Char} (h : seg ≠ []) (rest other : List Char) :
    Adjoins (seg ++ rest) (seg ++ other) := by
  cases seg with
  | nil => exact absurd rfl h
  | cons c seg => exact .inl rfl

theorem Adjoins.append {rest other : List Char} (h : Adjoins rest other) (seg : List Char) :
    Adjoins (seg ++ rest) (seg ++ other) := by
  cases seg with
  | nil => exact h
  | cons c seg => exact .inl rfl

/-- What goes on with a number begins both texts or none of them. -/
theorem Adjoins.head_ne {rest other : List Char} (h : Adjoins rest other) {c : Char} (hc : ¬ Calm [c])
    (hrest : rest.head? ≠ some c) : other.head? ≠ some c := by
  intro hother
  rcases h with hsame | hcalm
  · exact hrest (hsame ▸ hother)
  · apply hc
    intro d hd
    cases hd
    exact hcalm c hother

/-! ## Blanks -/

/-- a text of blanks only -/
def Blank (cs : List Char) : Prop := ∀ c ∈ cs, isSpace c = true

theorem blank_nil : Blank [] := List.forall_mem_nil _

/-- Blanks in front are skipped. -/
theorem skipSpace_append {lead : List Char} (h : Blank lead) (cs : List Char) : skipSpace (lead ++ cs) = skipSpace cs :=
  List.dropWhile_append_of_pos h

theorem skipSpace_eq_nil_iff {cs : List Char} : skipSpace cs = [] ↔ Blank cs := List.dropWhile_eq_nil_iff

/-- What is skipped are blanks. -/
theorem exists_blank (cs : List Char) : ∃ lead, Blank lead ∧ cs = lead ++ skipSpace cs :=
  ⟨cs.takeWhile isSpace, fun _ hc => List.mem_takeWhile_imp hc, List.takeWhile_append_dropWhile.symm⟩

/-- What is left begins with no blank. -/
theorem isSpace_of_skipSpace {cs rest : List Char} {c : Char} (h : skipSpace cs = c :: rest) : isSpace c = false := by
  have hhead := List.head?_dropWhile_not isSpace cs
  rw [show cs.dropWhile isSpace = c :: rest from h] at hhead
  simpa using hhead

/-! ## Numbers -/

namespace Numeral

variable {rest other : List Char}

theorem digitNext_of_adjoins (h : Adjoins rest other) (hrest : digitNext rest = false) : digitNext other = false := by
  cases other with
  | nil => rfl
  | cons c cs =>
    rcases h with hsame | hcalm
    · cases rest with
      | nil => cases hsame
      | cons d ds =>
        cases hsame
        exact hrest
    · exact (hcalm c rfl).1

theorem digitNext_append {seg : List Char} (h : seg ≠ []) (rest other : List Char) :
    digitNext (seg ++ rest) = digitNext (seg ++ other) := by
  cases seg with
  | nil => exact absurd rfl h
  | cons c seg => rfl

/-- Digits are taken up to a character that is the same or no digit. -/
theorem takeDigits_segment (bound value count : Nat) (cs : List Char) :
    ∃ seg, cs = seg ++ (takeDigits bound value count cs).rest ∧ ∀ other,
      other.head? = (takeDigits bound value count cs).rest.head? ∨ digitNext other = false →
        takeDigits bound value count (seg ++ other) = { takeDigits bound value count cs with rest := other } := by
  fun_induction takeDigits bound value count cs with
  | case1 value count =>
    refine ⟨[], rfl, fun other hother => ?_⟩
    cases other with
    | nil => rfl
    | cons c cs =>
      have hc : c.isDigit = false := by
        rcases hother with hsame | hnext
        · cases hsame
        · exact hnext
      simp [takeDigits, hc]
  | case2 value count c cs htaken ih =>
    obtain ⟨seg, hcs, hseg⟩ := ih
    refine ⟨c :: seg, by rw [List.cons_append, ← hcs], fun other hother => ?_⟩
    rw [List.cons_append, takeDigits, if_pos htaken]
    exact hseg other hother
  | case3 value count c cs hleft =>
    refine ⟨[], rfl, fun other hother => ?_⟩
    cases other with
    | nil => rfl
    | cons d ds =>
      rw [List.nil_append, takeDigits, if_neg]
      rintro ⟨hd, hbound⟩
      rcases hother with hsame | hnext
      · cases hsame
        exact hleft ⟨hd, hbound⟩
      · rw [digitNext, hd] at hnext
        cases hnext

theorem digitNext_dropWhile (cs : List Char) : digitNext (cs.dropWhile Char.isDigit) = false := by
  have hhead := List.head?_dropWhile_not Char.isDigit cs
  cases hcs : cs.dropWhile Char.isDigit with
  | nil => rfl
  | cons c tail => simpa [hcs, digitNext] using hhead

theorem digitNext_eq (cs : List Char) : digitNext cs = !(cs.takeWhile Char.isDigit).isEmpty := by
  cases cs with
  | nil => rfl
  | cons c cs => cases hc : c.isDigit <;> simp [digitNext, hc]

/-- the second run of digits is the first one, with another text after all digits -/
structure SameRun (d d' : Digits) (other : List Char) : Prop where
  value : d'.value = d.value
  count : d'.count = d.count
  excess : d'.rest.takeWhile Char.isDigit = d.rest.takeWhile Char.isDigit
  tail : d'.rest.dropWhile Char.isDigit = other

/-- A whole run of digits, with those that its bound leaves, does not depend on what comes after it. -/
theorem takeDigits_run (bound value count : Nat) (cs : List Char) :
    ∃ run, cs = run ++ (takeDigits bound value count cs).rest.dropWhile Char.isDigit ∧
      ∀ other, digitNext other = false →
        SameRun (takeDigits bound value count cs) (takeDigits bound value count (run ++ other)) other := by
  obtain ⟨seg, hcs, hseg⟩ := takeDigits_segment bound value count cs
  generalize takeDigits bound value count cs = d at hcs hseg
  have hrest : d.rest.takeWhile Char.isDigit ++ d.rest.dropWhile Char.isDigit = d.rest :=
    List.takeWhile_append_dropWhile
  have hdigits : ∀ c ∈ d.rest.takeWhile Char.isDigit, c.isDigit = true := fun _ hc => List.mem_takeWhile_imp hc
  generalize d.rest.takeWhile Char.isDigit = excess at hrest hdigits
  refine ⟨seg ++ excess, by rw [List.append_assoc, hrest, ← hcs], fun other hother => ?_⟩
  have hstands : (excess ++ other).head? = d.rest.head? ∨ digitNext (excess ++ other) = false := by
    rw [← hrest]
    cases excess with
    | nil => exact .inr hother
    | cons c excess => exact .inl rfl
  rw [List.append_assoc, hseg _ hstands]
  refine ⟨rfl, rfl, ?_, ?_⟩
  · show (excess ++ other).takeWhile Char.isDigit = d.rest.takeWhile Char.isDigit
    rw [← hrest, List.takeWhile_append_of_pos hdigits, List.takeWhile_append_of_pos hdigits,
      takeWhile_of_not_digit hother, takeWhile_of_not_digit (digitNext_dropWhile _)]
  · show (excess ++ other).dropWhile Char.isDigit = other
    rw [List.dropWhile_append_of_pos hdigits, dropWhile_of_not_digit hother]

/-! ### Readers of numbers -/

/-- a reader of a number, from what is left of a text -/
abbrev Scan : Type := List Char → Except Stop (Number × List Char)

/-- the reader looks at no more than the character after what it takes -/
def Near (read : Scan) : Prop :=
  ∀ cs n rest, read cs = .ok (n, rest) →
    ∃ seg, cs = seg ++ rest ∧ ∀ other, Adjoins rest other → read (seg ++ other) = .ok (n, other)

theorem near_fails {read : Scan} (h : ∀ cs r, read cs ≠ .ok r) : Near read :=
  fun cs _ _ hread => (h cs _ hread).elim

/-- A reader that leaves all of the text, whatever it is. -/
theorem near_leaves (n : Number) : Near fun cs => .ok (n, cs) := by
  rintro cs _ _ ⟨⟩
  exact ⟨[], rfl, fun _ _ => rfl⟩

theorem near_ite {p : Prop} [Decidable p] {read otherwise : Scan} (hread : p → Near read)
    (hother : ¬ p → Near otherwise) : Near fun cs => if p then read cs else otherwise cs := by
  by_cases hp : p
  · simpa only [if_pos hp] using hread hp
  · simpa only [if_neg hp] using hother hp

/-- A reader that goes by the first character is near where its branches are. -/
theorem near_marks {read otherwise : Scan} (marks : List (Char × Scan))
    (hmarks : ∀ m ∈ marks, ¬ Calm [m.1] ∧ Near m.2 ∧ ∀ cs, read (m.1 :: cs) = m.2 cs) (hother : Near otherwise)
    (helse : ∀ cs, (∀ m ∈ marks, cs.head? ≠ some m.1) → read cs = otherwise cs) : Near read := by
  intro cs n rest h
  by_cases hmark : ∃ m ∈ marks, cs.head? = some m.1
  · obtain ⟨m, hm, hhead⟩ := hmark
    obtain ⟨-, hnear, heq⟩ := hmarks m hm
    obtain ⟨tail, rfl⟩ := List.head?_eq_some_iff.1 hhead
    rw [heq] at h
    obtain ⟨seg, rfl, hseg⟩ := hnear _ _ _ h
    refine ⟨m.1 :: seg, rfl, fun other hadjoins => ?_⟩
    rw [List.cons_append, heq]
    exact hseg other hadjoins
  · have hnone : ∀ m ∈ marks, cs.head? ≠ some m.1 := fun m hm hhead => hmark ⟨m, hm, hhead⟩
    rw [helse cs hnone] at h
    obtain ⟨seg, rfl, hseg⟩ := hother _ _ _ h
    refine ⟨seg, rfl, fun other hadjoins => ?_⟩
    rw [helse _ fun m hm => (hadjoins.append seg).head_ne (hmarks m hm).1 (hnone m hm)]
    exact hseg other hadjoins

/-- A reader that goes on after a run of digits, with their value, their number and those that its bound leaves, is near
where what it goes on with is. If the run is `required` it has to be there. -/
theorem near_run {read : Scan} (required : Bool) (bound value : Nat) (further : Nat → Nat → List Char → Scan)
    (hfurther : ∀ v count excess, Near (further v count excess))
    (heq : ∀ cs r, read cs = .ok r ↔ (required = true → digitNext cs = true) ∧
      further (takeDigits bound value 0 cs).value (takeDigits bound value 0 cs).count
        ((takeDigits bound value 0 cs).rest.takeWhile Char.isDigit)
        ((takeDigits bound value 0 cs).rest.dropWhile Char.isDigit) = .ok r) : Near read := by
  intro cs n rest h
  obtain ⟨hrequired, hread⟩ := (heq _ _).1 h
  obtain ⟨run, hcs, hrun⟩ := takeDigits_run bound value 0 cs
  have htail := digitNext_dropWhile (takeDigits bound value 0 cs).rest
  obtain ⟨seg, hrest, hseg⟩ := hfurther _ _ _ _ _ _ hread
  rw [hrest] at hcs htail
  refine ⟨run ++ seg, by rw [List.append_assoc, ← hcs], fun other hadjoins => ?_⟩
  have hnext : digitNext (seg ++ other) = false := digitNext_of_adjoins (hadjoins.append seg) htail
  obtain ⟨hvalue, hcount, hexcess, hleft⟩ := hrun _ hnext
  rw [List.append_assoc, heq, hvalue, hcount, hexcess, hleft]
  refine ⟨fun hr => ?_, hseg other hadjoins⟩
  have hdigit := hrequired hr
  have hne : run ≠ [] := by
    rintro rfl
    rw [hcs, List.nil_append, htail] at hdigit
    cases hdigit
  calc digitNext (run ++ (seg ++ other)) = digitNext (run ++ (seg ++ rest)) := digitNext_append hne _ _
    _ = digitNext cs := by rw [← hcs]
    _ = true := hdigit

theorem near_scale (negative : Bool) (significand : Nat) (power : Int) : Near (scale negative significand power) := by
  unfold scale
  cases (Decimal.Magnitude.nearest significand 1).bind (·.scaled power) with
  | none => exact near_fails fun _ _ h => by cases h
  | some m => exact near_leaves _

theorem near_whole (negative : Bool) (significand : Nat) : Near (whole negative significand) :=
  near_ite (fun _ => near_leaves _) fun _ => near_ite (fun _ => near_leaves _) fun _ => near_scale _ _ _

/-- reads the digits of an exponent, after its sign -/
def exponentDigits (negative : Bool) (significand : Nat) (power : Int) (down : Bool) : Scan
  | [] => stopBefore .endInValue []
  | c :: rest =>
    if !c.isDigit then stopAt .invalidNumber (c :: rest)
    else
      let e := takeDigits greatestExponent 0 0 (c :: rest)
      if digitNext e.rest then
        if significand ≠ 0 ∧ !down then stopAt .numberOutOfRange e.rest
        else .ok (.real ⟨negative, .zero⟩, e.rest.dropWhile Char.isDigit)
      else scale negative significand (if down then power - e.value else power + e.value) e.rest

theorem near_exponentDigits (negative : Bool) (significand : Nat) (power : Int) (down : Bool) :
    Near (exponentDigits negative significand power down) := by
  refine near_run true greatestExponent 0 (fun v _ excess cs =>
    if excess.isEmpty then scale negative significand (if down then power - v else power + v) cs
    else if significand ≠ 0 ∧ !down then stopBefore .numberOutOfRange cs
    else .ok (.real ⟨negative, .zero⟩, cs)) ?_ ?_
  · intro v count excess
    refine near_ite (fun _ => near_scale _ _ _) fun _ => near_ite (fun _ => ?_) fun _ => near_leaves _
    exact near_fails fun _ _ h => by cases h
  · intro cs r
    cases cs with
    | nil => simp [exponentDigits, digitNext, stopBefore]
    | cons c rest =>
      by_cases hc : c.isDigit = true
      · have hdigit : digitNext (c :: rest) = true := hc
        simp only [exponentDigits, hdigit, hc, Bool.not_true, Bool.false_eq_true, if_false, true_and, forall_const]
        generalize takeDigits greatestExponent 0 0 (c :: rest) = e
        by_cases hexcess : digitNext e.rest = true
        · have hempty : (e.rest.takeWhile Char.isDigit).isEmpty = false := by simpa [digitNext_eq] using hexcess
          by_cases hup : significand ≠ 0 ∧ (!down) = true
          · simp only [hexcess, hempty, if_pos hup, stopAt, stopBefore]
            simp
          · simp only [hexcess, hempty, if_neg hup]
            simp
        · have hnone : digitNext e.rest = false := by simpa using hexcess
          simp [hnone, takeWhile_of_not_digit hnone, dropWhile_of_not_digit hnone]
      · simp [exponentDigits, digitNext, hc, stopAt]

theorem readExponent_plus (negative : Bool) (significand : Nat) (power : Int) (cs : List Char) :
    readExponent negative significand power ('+' :: cs) = exponentDigits negative significand power false cs := by
  cases cs <;> rfl

theorem readExponent_minus (negative : Bool) (significand : Nat) (power : Int) (cs : List Char) :
    readExponent negative significand power ('-' :: cs) = exponentDigits negative significand power true cs := by
  cases cs <;> rfl

theorem readExponent_unsigned (negative : Bool) (significand : Nat) (power : Int) {cs : List Char}
    (hplus : cs.head? ≠ some '+') (hminus : cs.head? ≠ some '-') :
    readExponent negative significand power cs = exponentDigits negative significand power false cs := by
  cases cs with
  | nil => rfl
  | cons c rest =>
    unfold readExponent
    split
    rename_i down cs' hsign
    split at hsign
    · rename_i heq
      cases heq
      exact absurd rfl hplus
    · rename_i heq
      cases heq
      exact absurd rfl hminus
    · cases hsign
      rfl

theorem near_readExponent (negative : Bool) (significand : Nat) (power : Int) :
    Near (readExponent negative significand power) := by
  refine near_marks [('+', exponentDigits negative significand power false),
    ('-', exponentDigits negative significand power true)] ?_ (near_exponentDigits negative significand power false) ?_
  · rintro m hm
    rcases List.mem_cons.1 hm with rfl | hm
    · exact ⟨by simp [Calm], near_exponentDigits _ _ _ _, readExponent_plus _ _ _⟩
    · obtain rfl := List.mem_singleton.1 hm
      exact ⟨by simp [Calm], near_exponentDigits _ _ _ _, readExponent_minus _ _ _⟩
  · intro cs hnone
    exact readExponent_unsigned _ _ _ (hnone _ List.mem_cons_self)
      (hnone _ (List.mem_cons_of_mem _ List.mem_cons_self))

theorem near_readEnding (negative : Bool) (significand : Nat) (power : Int) :
    Near (readEnding negative significand power) := by
  refine near_marks [('e', readExponent negative significand power), ('E', readExponent negative significand power)] ?_
    (near_scale negative significand power) ?_
  · rintro m hm
    rcases List.mem_cons.1 hm with rfl | hm
    · exact ⟨by simp [Calm], near_readExponent _ _ _, fun _ => rfl⟩
    · obtain rfl := List.mem_singleton.1 hm
      exact ⟨by simp [Calm], near_readExponent _ _ _, fun _ => rfl⟩
  · intro cs hnone
    unfold readEnding
    split
    · exact absurd rfl (hnone _ List.mem_cons_self)
    · exact absurd rfl (hnone _ (List.mem_cons_of_mem _ List.mem_cons_self))
    · rfl

theorem near_readFraction (negative : Bool) (significand : Nat) (power : Int) :
    Near (readFraction negative significand power) := by
  refine near_run false greatestSignificand significand (fun v count excess cs =>
    if excess.isEmpty ∧ count = 0 then stopBefore .invalidNumber cs
    else readEnding negative v (power - count) cs) ?_ ?_
  · intro v count excess
    refine near_ite (fun _ => near_fails fun _ _ h => by cases h) fun _ => near_readEnding _ _ _
  · intro cs r
    unfold readFraction
    generalize takeDigits greatestSignificand significand 0 cs = f
    by_cases hexcess : digitNext f.rest = true
    · have hempty : (f.rest.takeWhile Char.isDigit).isEmpty = false := by simpa [digitNext_eq] using hexcess
      simp [hexcess, hempty]
    · have hnone : digitNext f.rest = false := by simpa using hexcess
      simp only [hnone, takeWhile_of_not_digit hnone, dropWhile_of_not_digit hnone]
      by_cases hcount : f.count = 0
      · simp [hcount, stopAt, stopBefore]
      · simp [hcount]

theorem near_readTail (negative : Bool) (significand dropped : Nat) : Near (readTail negative significand dropped) := by
  have hother : Near fun cs =>
      if dropped = 0 then whole negative significand cs else scale negative significand dropped cs :=
    near_ite (fun _ => near_whole _ _) fun _ => near_scale _ _ _
  refine near_marks [('.', readFraction negative significand dropped), ('e', readExponent negative significand dropped),
    ('E', readExponent negative significand dropped)] ?_ hother ?_
  · intro m hm
    simp only [List.mem_cons, List.not_mem_nil, or_false] at hm
    rcases hm with rfl | rfl | rfl
    · exact ⟨by simp [Calm], near_readFraction _ _ _, fun _ => rfl⟩
    · exact ⟨by simp [Calm], near_readExponent _ _ _, fun _ => rfl⟩
    · exact ⟨by simp [Calm], near_readExponent _ _ _, fun _ => rfl⟩
  · intro cs hnone
    unfold readTail
    split
    · exact absurd rfl (hnone _ List.mem_cons_self)
    · exact absurd rfl (hnone _ (List.mem_cons_of_mem _ List.mem_cons_self))
    · exact absurd rfl (hnone _ (List.mem_cons_of_mem _ (List.mem_cons_of_mem _ List.mem_cons_self)))
    · rfl

/-- reads a number that does not begin with zero -/
def nonzeroDigits (negative : Bool) : Scan
  | [] => stopBefore .endInValue []
  | c :: rest =>
    if !c.isDigit then stopAt .invalidNumber (c :: rest)
    else
      let d := takeDigits greatestSignificand 0 0 (c :: rest)
      readTail negative d.value (d.rest.takeWhile Char.isDigit).length (d.rest.dropWhile Char.isDigit)

theorem near_nonzeroDigits (negative : Bool) : Near (nonzeroDigits negative) := by
  refine near_run true greatestSignificand 0 (fun v _ excess => readTail negative v excess.length) ?_ ?_
  · exact fun v _ excess => near_readTail _ _ _
  · intro cs r
    cases cs with
    | nil => simp [nonzeroDigits, digitNext, stopBefore]
    | cons c rest => cases hc : c.isDigit <;> simp [nonzeroDigits, digitNext, hc, stopAt]

/-- **A number is read in the same way wherever it stands.** -/
theorem near_readNumber (negative : Bool) : Near (readNumber negative) := by
  refine near_marks [('0', fun cs => if digitNext cs then stopAt .invalidNumber cs else readTail negative 0 0 cs)] ?_
    (near_nonzeroDigits negative) ?_
  · intro m hm
    obtain rfl := List.mem_singleton.1 hm
    refine ⟨by simp [Calm], ?_, fun _ => rfl⟩
    intro cs n rest h
    by_cases hnext : digitNext cs = true
    · simp only [hnext] at h
      cases h
    · have hnone : digitNext cs = false := by simpa using hnext
      simp only [if_neg hnext] at h
      obtain ⟨seg, rfl, hseg⟩ := near_readTail _ _ _ _ _ _ h
      refine ⟨seg, rfl, fun other hadjoins => ?_⟩
      have hother := digitNext_of_adjoins (hadjoins.append seg) hnone
      simpa [hother] using hseg other hadjoins
  · intro cs hnone
    cases cs with
    | nil => rfl
    | cons c rest =>
      have hc : c ≠ '0' := fun heq => hnone _ List.mem_cons_self (by rw [heq]; rfl)
      rw [readNumber]
      · rfl
      · exact hc

end Numeral

/-! ## Strings and literals -/

/-- the reader looks at nothing after what it takes -/
def Exact {α : Type} (read : List Char → Except Stop (α × List Char)) : Prop :=
  ∀ cs a rest, read cs = .ok (a, rest) → ∃ seg, cs = seg ++ rest ∧ ∀ other, read (seg ++ other) = .ok (a, other)

/-- What is read in two steps is read by the first step and then by the second. -/
theorem read_bind {α β : Type} {x : Except Stop (α × List Char)} {f : α × List Char → Except Stop β} {b : β}
    (h : x >>= f = .ok b) : ∃ a rest, x = .ok (a, rest) ∧ f (a, rest) = .ok b := by
  cases x with
  | error stop => cases h
  | ok r => exact ⟨r.1, r.2, rfl, h⟩

theorem exact_readHex : Exact readHex := by
  intro cs n rest h
  unfold readHex at h
  split at h
  · cases h
  · split at h
    · rename_i a b c d tail _
      split at h
      · rename_i m hm
        cases h
        refine ⟨[a, b, c, d], rfl, fun other => ?_⟩
        have hbytes : ¬ Source.byteLength ([a, b, c, d] ++ other) < 4 := by
          have ha := a.utf8Size_pos
          have hb := b.utf8Size_pos
          have hc := c.utf8Size_pos
          have hd := d.utf8Size_pos
          simp only [Source.byteLength, List.cons_append, List.foldr_cons]
          omega
        unfold readHex
        rw [if_neg hbytes]
        simp only [List.cons_append, List.nil_append, hm]
      · cases h
    · cases h

theorem exact_readTrailingSurrogate (high : Nat) : Exact (readTrailingSurrogate high) := by
  intro cs c rest h
  unfold readTrailingSurrogate at h
  split at h
  · cases h
  · cases h
  · rename_i digits
    obtain ⟨low, tail, hhex, h⟩ := read_bind h
    obtain ⟨seg, rfl, hseg⟩ := exact_readHex _ _ _ hhex
    dsimp only at h
    by_cases hlow : 0xDC00 ≤ low ∧ low ≤ 0xDFFF
    · rw [if_pos hlow] at h
      obtain ⟨rfl, rfl⟩ := Prod.mk.inj (Except.ok.inj h)
      refine ⟨'\\' :: 'u' :: seg, rfl, fun other => ?_⟩
      simp only [List.cons_append, readTrailingSurrogate, hseg other, bind, Except.bind, if_pos hlow]
      rfl
    · rw [if_neg hlow] at h
      cases h
  · cases h
  · cases h

theorem exact_readEscape : Exact readEscape := by
  intro cs c rest h
  unfold readEscape at h
  split at h
  · cases h
  · rename_i digits
    obtain ⟨n, tail, hhex, h⟩ := read_bind h
    obtain ⟨seg, rfl, hseg⟩ := exact_readHex _ _ _ hhex
    dsimp only at h
    by_cases htrailing : 0xDC00 ≤ n ∧ n ≤ 0xDFFF
    · rw [if_pos htrailing] at h
      cases h
    · rw [if_neg htrailing] at h
      by_cases hleading : 0xD800 ≤ n ∧ n ≤ 0xDBFF
      · rw [if_pos hleading] at h
        obtain ⟨pair, rfl, hpair⟩ := exact_readTrailingSurrogate n _ _ _ h
        refine ⟨'u' :: (seg ++ pair), by simp, fun other => ?_⟩
        rw [List.cons_append, List.append_assoc]
        simp only [readEscape, hseg, bind, Except.bind, if_neg htrailing, if_pos hleading, hpair]
      · rw [if_neg hleading] at h
        cases h
        refine ⟨'u' :: seg, rfl, fun other => ?_⟩
        simp only [List.cons_append, readEscape, hseg, bind, Except.bind, if_neg htrailing, if_neg hleading]
        rfl
  · rename_i d tail hd
    split at h
    · rename_i e he
      cases h
      refine ⟨[d], rfl, fun other => ?_⟩
      rw [List.singleton_append, readEscape]
      · simp only [he]
      · exact hd
    · cases h

/-- A string is read in the same way wherever it stands, by any number that is large enough for it. -/
theorem readString_segment {fuel : Nat} {cs text rest : List Char} (h : readString fuel cs = .ok (text, rest)) :
    ∃ seg, cs = seg ++ rest ∧
      ∀ other enough, seg.length ≤ enough → readString enough (seg ++ other) = .ok (text, other) := by
  induction fuel generalizing cs text rest with
  | zero => cases h
  | succ fuel ih =>
    -- Every step takes at least one character of the segment.
    have hstep {taken seg : List Char} {enough : Nat} (htaken : taken ≠ []) (h : (taken ++ seg).length ≤ enough) :
        ∃ n, enough = n + 1 ∧ seg.length ≤ n := by
      have hpos := List.length_pos_iff.2 htaken
      rw [List.length_append] at h
      exact ⟨enough - 1, by omega, by omega⟩
    unfold readString at h
    split at h
    · cases h
    · cases h
      refine ⟨['"'], rfl, fun other enough henough => ?_⟩
      obtain ⟨n, rfl, -⟩ := @hstep ['"'] [] _ (List.cons_ne_nil _ _) henough
      rfl
    · rename_i tail
      obtain ⟨c, tail', hescape, hafter⟩ := read_bind h
      obtain ⟨text', rest', hread, hlast⟩ := read_bind hafter
      cases hlast
      obtain ⟨esc, rfl, hesc⟩ := exact_readEscape _ _ _ hescape
      obtain ⟨seg, rfl, hseg⟩ := ih hread
      refine ⟨'\\' :: esc ++ seg, by simp, fun other enough henough => ?_⟩
      obtain ⟨n, rfl, hn⟩ := hstep (List.cons_ne_nil _ _) henough
      rw [List.append_assoc, List.cons_append, readString_escape (hesc _), hseg other n hn]
      rfl
    · rename_i c tail hquote hbackslash
      by_cases hcontrol : c.toNat < 0x20
      · rw [if_pos hcontrol] at h
        cases h
      · rw [if_neg hcontrol] at h
        obtain ⟨text', rest', hread, hlast⟩ := read_bind h
        cases hlast
        obtain ⟨seg, rfl, hseg⟩ := ih hread
        refine ⟨c :: seg, rfl, fun other enough henough => ?_⟩
        obtain ⟨n, rfl, hn⟩ := @hstep [c] _ _ (List.cons_ne_nil _ _) henough
        rw [List.cons_append, readString, if_neg hcontrol, hseg other n hn]
        · rfl
        · exact hquote
        · exact hbackslash

theorem readLiteral_segment {value v : Value} {expected cs rest : List Char}
    (h : readLiteral value expected cs = .ok (v, rest)) : v = value ∧ cs = expected ++ rest := by
  fun_induction readLiteral value expected cs with
  | case1 cs =>
    cases h
    exact ⟨rfl, rfl⟩
  | case2 => cases h
  | case3 e es cs ih =>
    obtain ⟨hv, hcs⟩ := ih h
    exact ⟨hv, by rw [hcs, List.cons_append]⟩
  | case4 => cases h

theorem readLiteral_append (value : Value) (expected other : List Char) :
    readLiteral value expected (expected ++ other) = .ok (value, other) := by
  induction expected with
  | nil => rfl
  | cons e es ih => rw [List.cons_append, readLiteral, if_pos rfl, ih]

/-! ## Separators -/

/-- what is left after blanks begins with the character -/
theorem skipSpace_eq_cons_iff {cs rest : List Char} {c : Char} (hc : isSpace c = false) :
    skipSpace cs = c :: rest ↔ ∃ lead, Blank lead ∧ cs = lead ++ c :: rest := by
  constructor
  · intro h
    obtain ⟨lead, hlead, hcs⟩ := exists_blank cs
    exact ⟨lead, hlead, by rw [hcs, h]⟩
  · rintro ⟨lead, hlead, rfl⟩
    rw [skipSpace_append hlead, skipSpace_of_head hc]

theorem readColon_eq_ok_iff {cs rest : List Char} :
    readColon cs = .ok rest ↔ ∃ lead, Blank lead ∧ cs = lead ++ ':' :: rest := by
  rw [← skipSpace_eq_cons_iff rfl]
  unfold readColon
  split
  · rename_i tail heq
    rw [heq]
    simp
  · rename_i heq
    rw [heq]
    simp [stopAt]
  · rename_i hcolon _
    constructor
    · intro h
      cases h
    · intro h
      exact absurd h (hcolon rest)

/-- what stands in front of an item of a list, or of a member of an object: blanks, with a comma among them unless it is
the first one -/
def Separates (first : Bool) (lead : List Char) : Prop :=
  if first then Blank lead else ∃ before after, Blank before ∧ Blank after ∧ lead = before ++ ',' :: after

theorem nextItem_eq_inl_iff {first : Bool} {cs rest : List Char} :
    nextItem first cs = .ok (.inl rest) ↔ ∃ lead, Blank lead ∧ cs = lead ++ ']' :: rest := by
  rw [← skipSpace_eq_cons_iff rfl]
  unfold nextItem
  split
  · rename_i tail heq
    rw [heq]
    simp
  · rename_i heq
    rw [heq]
    simp [stopAt]
  · rename_i c tail hclose heq
    rw [heq]
    constructor
    · intro h
      repeat' split at h
      all_goals cases h
    · intro h
      exact absurd (List.cons.inj h).1 (fun hc => hclose (hc ▸ rfl))

/-- the text has an item in front, which starts after what separates it from the one before it -/
def StartsItem (first : Bool) (cs start : List Char) : Prop :=
  ∃ lead c tail, Separates first lead ∧ start = c :: tail ∧ isSpace c = false ∧ c ≠ ']' ∧ cs = lead ++ start

theorem nextItem_eq_inr_iff {first : Bool} {cs rest : List Char} :
    nextItem first cs = .ok (.inr rest) ↔ StartsItem first cs rest := by
  constructor
  · intro h
    unfold nextItem at h
    split at h
    · cases h
    · cases h
    · rename_i c tail hclose heq
      have hc := isSpace_of_skipSpace heq
      obtain ⟨lead, hlead, hcs⟩ := (skipSpace_eq_cons_iff hc).1 heq
      cases first with
      | true =>
        cases h
        exact ⟨lead, c, tail, hlead, rfl, hc, fun heq => hclose (heq ▸ rfl), hcs⟩
      | false =>
        by_cases hcomma : c = ','
        · subst hcomma
          simp only [Bool.false_eq_true, if_false, if_true] at h
          split at h
          · cases h
          · cases h
          · rename_i hnone hbracket
            cases h
            obtain ⟨after, hafter, htail⟩ := exists_blank tail
            cases hskip : skipSpace tail with
            | nil => exact absurd hskip hnone
            | cons d ds =>
              rw [hskip] at htail
              refine ⟨lead ++ ',' :: after, d, ds, ⟨lead, after, hlead, hafter, rfl⟩, rfl, isSpace_of_skipSpace hskip,
                fun heq => hbracket ds (heq ▸ hskip), ?_⟩
              rw [hcs, htail, List.append_assoc, List.cons_append]
        · simp only [Bool.false_eq_true, if_false, if_neg hcomma] at h
          cases h
  · rintro ⟨lead, c, tail, hlead, rfl, hspace, hc, rfl⟩
    cases first with
    | true =>
      have hskip : skipSpace (lead ++ c :: tail) = c :: tail := (skipSpace_eq_cons_iff hspace).2 ⟨lead, hlead, rfl⟩
      simp [nextItem, hskip]
    | false =>
      obtain ⟨before, after, hbefore, hafter, rfl⟩ := hlead
      have hcomma : skipSpace (before ++ ',' :: (after ++ c :: tail)) = ',' :: (after ++ c :: tail) :=
        (skipSpace_eq_cons_iff rfl).2 ⟨before, hbefore, rfl⟩
      have hskip : skipSpace (after ++ c :: tail) = c :: tail := (skipSpace_eq_cons_iff hspace).2 ⟨after, hafter, rfl⟩
      rw [List.append_assoc, List.cons_append]
      simp [nextItem, hcomma, hskip, hc]

theorem nextMember_eq_inl_iff {first : Bool} {cs rest : List Char} :
    nextMember first cs = .ok (.inl rest) ↔ ∃ lead, Blank lead ∧ cs = lead ++ '\x7d' :: rest := by
  rw [← skipSpace_eq_cons_iff rfl]
  unfold nextMember
  split
  · rename_i tail heq
    rw [heq]
    simp
  · rename_i heq
    rw [heq]
    simp [stopAt]
  · rename_i c tail hclose heq
    rw [heq]
    constructor
    · intro h
      dsimp only at h
      split at h
      · split at h <;> cases h
      · split at h
        · split at h <;> cases h
        · cases h
    · intro h
      exact absurd (List.cons.inj h).1 (fun hc => hclose (hc ▸ rfl))

theorem nextMember_eq_inr_iff {first : Bool} {cs rest : List Char} :
    nextMember first cs = .ok (.inr rest) ↔ ∃ lead, Separates first lead ∧ cs = lead ++ '"' :: rest := by
  constructor
  · intro h
    unfold nextMember at h
    split at h
    · cases h
    · cases h
    · rename_i c tail hclose heq
      have hc := isSpace_of_skipSpace heq
      obtain ⟨lead, hlead, hcs⟩ := (skipSpace_eq_cons_iff hc).1 heq
      cases first with
      | true =>
        simp only [if_true] at h
        split at h
        · rename_i hquote
          cases h
          exact ⟨lead, hlead, by rw [hcs, hquote]⟩
        all_goals cases h
      | false =>
        by_cases hcomma : c = ','
        · subst hcomma
          simp only [Bool.false_eq_true, if_false, if_true] at h
          split at h
          · rename_i hquote
            cases h
            obtain ⟨after, hafter, htail⟩ := (skipSpace_eq_cons_iff rfl).1 hquote
            refine ⟨lead ++ ',' :: after, ⟨lead, after, hlead, hafter, rfl⟩, ?_⟩
            rw [hcs, htail, List.append_assoc, List.cons_append]
          all_goals cases h
        · simp only [Bool.false_eq_true, if_false, if_neg hcomma] at h
          cases h
  · rintro ⟨lead, hlead, rfl⟩
    have hquoted {before : List Char} (hbefore : Blank before) :
        skipSpace (before ++ '"' :: rest) = '"' :: rest := (skipSpace_eq_cons_iff rfl).2 ⟨before, hbefore, rfl⟩
    cases first with
    | true => simp [nextMember, hquoted hlead]
    | false =>
      obtain ⟨before, after, hbefore, hafter, rfl⟩ := hlead
      have hcomma : skipSpace (before ++ ',' :: (after ++ '"' :: rest)) = ',' :: (after ++ '"' :: rest) :=
        (skipSpace_eq_cons_iff rfl).2 ⟨before, hbefore, rfl⟩
      rw [List.append_assoc, List.cons_append]
      simp [nextMember, hcomma, hquoted hafter]

/-! ## Values -/

/-- a value is read in the same way wherever it stands, by any number that is large enough for it -/
def ValueSegment (fuel : Nat) : Prop :=
  ∀ cs v rest, readValue fuel cs = .ok (v, rest) → ∃ seg, cs = seg ++ rest ∧ ∀ other enough,
    Adjoins rest other → 2 * seg.length ≤ enough + 1 → readValue enough (seg ++ other) = .ok (v, other)

/-- the same for the items of a list, up to its bracket -/
def ItemsSegment (fuel : Nat) : Prop :=
  ∀ first cs items rest, readItems fuel first cs = .ok (items, rest) → ∃ seg, cs = seg ++ rest ∧ ∀ other enough,
    2 * seg.length ≤ enough → readItems enough first (seg ++ other) = .ok (items, other)

/-- the same for the members of an object, up to its brace -/
def MembersSegment (fuel : Nat) : Prop :=
  ∀ first cs members rest, readMembers fuel first cs = .ok (members, rest) → ∃ seg, cs = seg ++ rest ∧ ∀ other enough,
    2 * seg.length ≤ enough → readMembers enough first (seg ++ other) = .ok (members, other)

/-- Blanks in front of a value are skipped. -/
theorem readValue_append {lead : List Char} (h : Blank lead) (fuel : Nat) (cs : List Char) :
    readValue (fuel + 1) (lead ++ cs) = readValue (fuel + 1) cs := by
  rw [readValue, readValue, skipSpace_append h]

theorem readValue_string {fuel : Nat} {lead key text rest : List Char} (hlead : Blank lead)
    (h : readString fuel key = .ok (text, rest)) :
    readValue (fuel + 1) (lead ++ '"' :: key) = .ok (.string (String.ofList text), rest) := by
  rw [readValue_append hlead, readValue, skipSpace_of_head rfl]
  simp only [h]
  rfl

theorem readValue_array {fuel : Nat} {lead body rest : List Char} {items : List Value}
    (hlead : Blank lead) (h : readItems fuel true body = .ok (items, rest)) :
    readValue (fuel + 1) (lead ++ '[' :: body) = .ok (.array items, rest) := by
  rw [readValue_append hlead, readValue, skipSpace_of_head rfl]
  simp only [h]
  rfl

theorem readValue_object {fuel : Nat} {lead body rest : List Char} {members : List (String × Value)}
    (hlead : Blank lead) (h : readMembers fuel true body = .ok (members, rest)) :
    readValue (fuel + 1) (lead ++ '\x7b' :: body) = .ok (.object (Node.ofMembers members), rest) := by
  rw [readValue_append hlead, readValue, skipSpace_of_head rfl]
  simp only [h]
  rfl

/-- The segment of a value is its first character, with blanks before it, and the segment of what comes after that. -/
theorem segment_of_head {cs tail seg rest : List Char} {c : Char} {v : Value} (heq : skipSpace cs = c :: tail)
    (htail : tail = seg ++ rest)
    (h : ∀ other enough, Adjoins rest other → 2 * seg.length ≤ enough →
      readValue (enough + 1) (c :: (seg ++ other)) = .ok (v, other)) :
    ∃ seg, cs = seg ++ rest ∧ ∀ other enough,
      Adjoins rest other → 2 * seg.length ≤ enough + 1 → readValue enough (seg ++ other) = .ok (v, other) := by
  obtain ⟨lead, hlead, hcs⟩ := exists_blank cs
  refine ⟨lead ++ c :: seg, by rw [hcs, heq, htail, List.append_assoc, List.cons_append], ?_⟩
  intro other enough hadjoins henough
  rw [List.length_append, List.length_cons] at henough
  obtain ⟨n, rfl⟩ : ∃ n, enough = n + 1 := ⟨enough - 1, by omega⟩
  rw [List.append_assoc, List.cons_append, readValue_append hlead]
  exact h other n hadjoins (by omega)

/-- The items of a list are none before its bracket, or an item and the items after it. -/
theorem readItems_eq_ok_iff {fuel : Nat} {first : Bool} {cs rest : List Char} {items : List Value} :
    readItems (fuel + 1) first cs = .ok (items, rest) ↔
      (items = [] ∧ ∃ lead, Blank lead ∧ cs = lead ++ ']' :: rest) ∨
        ∃ v others start after, items = v :: others ∧ StartsItem first cs start ∧
          readValue fuel start = .ok (v, after) ∧ readItems fuel false after = .ok (others, rest) := by
  rw [readItems]
  constructor
  · intro h
    cases hnext : nextItem first cs with
    | error stop => rw [hnext] at h; cases h
    | ok next =>
      rw [hnext] at h
      cases next with
      | inl left =>
        cases h
        exact .inl ⟨rfl, nextItem_eq_inl_iff.1 hnext⟩
      | inr start =>
        obtain ⟨v, after, hv, hothers⟩ := read_bind h
        obtain ⟨others, left, hread, hlast⟩ := read_bind hothers
        cases hlast
        exact .inr ⟨v, others, start, after, rfl, nextItem_eq_inr_iff.1 hnext, hv, hread⟩
  · rintro (⟨rfl, hclose⟩ | ⟨v, others, start, after, rfl, hstart, hv, hread⟩)
    · rw [nextItem_eq_inl_iff.2 hclose]
      rfl
    · rw [nextItem_eq_inr_iff.2 hstart]
      simp only [bind, Except.bind, hv, hread]
      rfl

/-- the text has a member in front: what separates it from the one before it, its name, a colon and its value -/
def ReadsMember (fuel : Nat) (first : Bool) (cs name : List Char) (v : Value) (after : List Char) : Prop :=
  ∃ lead key blank body, Separates first lead ∧ Blank blank ∧ cs = lead ++ '"' :: key ∧
    readString fuel key = .ok (name, blank ++ ':' :: body) ∧ readValue fuel body = .ok (v, after)

/-- The members of an object are none before its brace, or a member and the members after it. -/
theorem readMembers_eq_ok_iff {fuel : Nat} {first : Bool} {cs rest : List Char} {members : List (String × Value)} :
    readMembers (fuel + 1) first cs = .ok (members, rest) ↔
      (members = [] ∧ ∃ lead, Blank lead ∧ cs = lead ++ '\x7d' :: rest) ∨
        ∃ name v others after, members = (String.ofList name, v) :: others ∧ ReadsMember fuel first cs name v after ∧
          readMembers fuel false after = .ok (others, rest) := by
  rw [readMembers]
  constructor
  · intro h
    cases hnext : nextMember first cs with
    | error stop => rw [hnext] at h; cases h
    | ok next =>
      rw [hnext] at h
      cases next with
      | inl left =>
        cases h
        exact .inl ⟨rfl, nextMember_eq_inl_iff.1 hnext⟩
      | inr key =>
        obtain ⟨name, afterName, hname, hafter⟩ := read_bind h
        dsimp only at hafter
        cases hcolon : readColon afterName with
        | error stop => rw [hcolon] at hafter; cases hafter
        | ok body =>
          rw [hcolon] at hafter
          obtain ⟨v, after, hv, hothers⟩ := read_bind hafter
          obtain ⟨others, left, hread, hlast⟩ := read_bind hothers
          cases hlast
          obtain ⟨lead, hlead, hcs⟩ := nextMember_eq_inr_iff.1 hnext
          obtain ⟨blank, hblank, rfl⟩ := readColon_eq_ok_iff.1 hcolon
          exact .inr ⟨name, v, others, after, rfl, ⟨lead, key, blank, body, hlead, hblank, hcs, hname, hv⟩, hread⟩
  · rintro (⟨rfl, hclose⟩ |
      ⟨name, v, others, after, rfl, ⟨lead, key, blank, body, hlead, hblank, hcs, hname, hv⟩, hread⟩)
    · rw [nextMember_eq_inl_iff.2 hclose]
      rfl
    · have hcolon : readColon (blank ++ ':' :: body) = .ok body := readColon_eq_ok_iff.2 ⟨blank, hblank, rfl⟩
      rw [nextMember_eq_inr_iff.2 ⟨lead, hlead, hcs⟩]
      simp only [bind, Except.bind, hname, hcolon, hv, hread]
      rfl

section Step

variable {fuel : Nat} (hvalue : ValueSegment fuel) (hitems : ItemsSegment fuel) (hmembers : MembersSegment fuel)

include hitems hmembers in
theorem readValue_step : ValueSegment (fuel + 1) := by
  intro cs v rest h
  rw [readValue] at h
  split at h
  · cases h
  · rename_i heq
    obtain ⟨rfl, htail⟩ := readLiteral_segment h
    exact segment_of_head heq htail fun other _ _ _ => readLiteral_append .null _ other
  · rename_i heq
    obtain ⟨rfl, htail⟩ := readLiteral_segment h
    exact segment_of_head heq htail fun other _ _ _ => readLiteral_append (.bool true) _ other
  · rename_i heq
    obtain ⟨rfl, htail⟩ := readLiteral_segment h
    exact segment_of_head heq htail fun other _ _ _ => readLiteral_append (.bool false) _ other
  · rename_i heq
    obtain ⟨text, left, hread, hlast⟩ := read_bind h
    cases hlast
    obtain ⟨seg, htail, hseg⟩ := readString_segment hread
    exact segment_of_head heq htail fun other enough _ henough =>
      readValue_string blank_nil (hseg other enough (by omega))
  · rename_i heq
    obtain ⟨items, left, hread, hlast⟩ := read_bind h
    cases hlast
    obtain ⟨seg, htail, hseg⟩ := hitems _ _ _ _ hread
    exact segment_of_head heq htail fun other enough _ henough => readValue_array blank_nil (hseg other enough henough)
  · rename_i heq
    obtain ⟨members, left, hread, hlast⟩ := read_bind h
    cases hlast
    obtain ⟨seg, htail, hseg⟩ := hmembers _ _ _ _ hread
    exact segment_of_head heq htail fun other enough _ henough => readValue_object blank_nil (hseg other enough henough)
  · rename_i heq
    obtain ⟨n, left, hread, hlast⟩ := read_bind h
    cases hlast
    obtain ⟨seg, htail, hseg⟩ := Numeral.near_readNumber true _ _ _ hread
    refine segment_of_head heq htail fun other enough hadjoins _ => ?_
    rw [readValue, skipSpace_of_head rfl]
    simp only [hseg other hadjoins]
    rfl
  · rename_i c tail _ _ _ _ _ _ _ heq
    by_cases hc : c.isDigit = true
    · rw [if_pos hc] at h
      obtain ⟨n, left, hread, hlast⟩ := read_bind h
      cases hlast
      obtain ⟨number, htail, hnumber⟩ := Numeral.near_readNumber false _ _ _ hread
      cases number with
      | nil =>
        -- Nothing is not a number.
        have hnil := hnumber [] (adjoins_nil rest)
        cases hnil
      | cons d seg =>
        rw [List.cons_append] at htail
        obtain ⟨rfl, hafter⟩ := List.cons.inj htail
        refine segment_of_head heq hafter fun other enough hadjoins _ => ?_
        have hread' := hnumber other hadjoins
        rw [List.cons_append] at hread'
        rw [readValue_digit hc, hread']
        rfl
    · rw [if_neg hc] at h
      cases h

include hvalue hitems in
theorem readItems_step : ItemsSegment (fuel + 1) := by
  intro first cs items rest h
  rcases readItems_eq_ok_iff.1 h with ⟨rfl, lead, hlead, rfl⟩ |
    ⟨v, others, _, after, rfl, ⟨lead, c, tail, hlead, rfl, hspace, hc, rfl⟩, hv, hread⟩
  · refine ⟨lead ++ [']'], by simp, fun other enough henough => ?_⟩
    rw [List.length_append, List.length_singleton] at henough
    obtain ⟨n, rfl⟩ : ∃ n, enough = n + 1 := ⟨enough - 1, by omega⟩
    rw [List.append_assoc, List.singleton_append]
    exact readItems_eq_ok_iff.2 (.inl ⟨rfl, lead, hlead, rfl⟩)
  · obtain ⟨valueSeg, hstart, hvalueSeg⟩ := hvalue _ _ _ hv
    obtain ⟨restSeg, rfl, hrest⟩ := hitems _ _ _ _ hread
    have hrestSome : restSeg ≠ [] := by
      rintro rfl
      cases hrest [] 0 (Nat.le_refl _)
    have hrestPos := List.length_pos_iff.2 hrestSome
    cases valueSeg with
    | nil => cases hvalueSeg [] 0 (adjoins_nil _) (Nat.zero_le _)
    | cons d valueSeg =>
      obtain ⟨rfl, rfl⟩ := List.cons.inj hstart
      refine ⟨lead ++ (c :: valueSeg ++ restSeg), by simp, fun other enough henough => ?_⟩
      simp only [List.length_append, List.length_cons] at henough
      obtain ⟨n, rfl⟩ : ∃ n, enough = n + 1 := ⟨enough - 1, by omega⟩
      have hreadValue : readValue n (c :: valueSeg ++ (restSeg ++ other)) = .ok (v, restSeg ++ other) :=
        hvalueSeg _ n (adjoins_append hrestSome rest other) (by simp only [List.length_cons]; omega)
      have hstarts : StartsItem first (lead ++ (c :: valueSeg ++ (restSeg ++ other)))
          (c :: valueSeg ++ (restSeg ++ other)) := ⟨lead, c, _, hlead, rfl, hspace, hc, rfl⟩
      rw [List.append_assoc, List.append_assoc]
      exact readItems_eq_ok_iff.2 (.inr ⟨v, others, _, _, rfl, hstarts, hreadValue, hrest other n (by omega)⟩)

include hvalue hmembers in
theorem readMembers_step : MembersSegment (fuel + 1) := by
  intro first cs members rest h
  rcases readMembers_eq_ok_iff.1 h with ⟨rfl, lead, hlead, rfl⟩ |
    ⟨name, v, others, after, rfl, ⟨lead, key, blank, body, hlead, hblank, rfl, hname, hv⟩, hread⟩
  · refine ⟨lead ++ ['\x7d'], by simp, fun other enough henough => ?_⟩
    rw [List.length_append, List.length_singleton] at henough
    obtain ⟨n, rfl⟩ : ∃ n, enough = n + 1 := ⟨enough - 1, by omega⟩
    rw [List.append_assoc, List.singleton_append]
    exact readMembers_eq_ok_iff.2 (.inl ⟨rfl, lead, hlead, rfl⟩)
  · obtain ⟨keySeg, rfl, hkey⟩ := readString_segment hname
    obtain ⟨valueSeg, rfl, hvalueSeg⟩ := hvalue _ _ _ hv
    obtain ⟨restSeg, rfl, hrest⟩ := hmembers _ _ _ _ hread
    have hrestSome : restSeg ≠ [] := by
      rintro rfl
      cases hrest [] 0 (Nat.le_refl _)
    have hrestPos := List.length_pos_iff.2 hrestSome
    refine ⟨lead ++ '"' :: (keySeg ++ (blank ++ ':' :: (valueSeg ++ restSeg))), by simp, fun other enough henough => ?_⟩
    simp only [List.length_append, List.length_cons] at henough
    obtain ⟨n, rfl⟩ : ∃ n, enough = n + 1 := ⟨enough - 1, by omega⟩
    have hreadValue : readValue n (valueSeg ++ (restSeg ++ other)) = .ok (v, restSeg ++ other) :=
      hvalueSeg _ n (adjoins_append hrestSome rest other) (by omega)
    have hmember : ReadsMember n first
        (lead ++ '"' :: (keySeg ++ (blank ++ ':' :: (valueSeg ++ (restSeg ++ other))))) name v (restSeg ++ other) :=
      ⟨lead, _, blank, _, hlead, hblank, rfl, hkey _ n (by omega), hreadValue⟩
    have hcs : lead ++ '"' :: (keySeg ++ (blank ++ ':' :: (valueSeg ++ restSeg))) ++ other =
        lead ++ '"' :: (keySeg ++ (blank ++ ':' :: (valueSeg ++ (restSeg ++ other)))) := by simp
    rw [hcs]
    exact readMembers_eq_ok_iff.2 (.inr ⟨name, v, others, _, rfl, hmember, hrest other n (by omega)⟩)

end Step

/-- **What comes after a value has no say in it.** Nor has it in the items of a list or the members of an object, nor
has the number that is counted down. -/
theorem readers_segment (fuel : Nat) : ValueSegment fuel ∧ ItemsSegment fuel ∧ MembersSegment fuel := by
  induction fuel with
  | zero =>
    refine ⟨?_, ?_, ?_⟩
    · intro cs v rest h
      cases h
    · intro first cs items rest h
      cases h
    · intro first cs members rest h
      cases h
  | succ fuel ih =>
    obtain ⟨hvalue, hitems, hmembers⟩ := ih
    exact ⟨readValue_step hitems hmembers, readItems_step hvalue hitems, readMembers_step hvalue hmembers⟩

end Graft.Document
