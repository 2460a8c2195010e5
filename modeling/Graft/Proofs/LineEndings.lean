/-
Line endings in a single pass, and what a conversion sees of a source.

Line endings are rewritten in two passes over the whole text. `unify` goes over it once, from the left: a carriage return
with the line feed after it, and any other carriage return, becomes a line feed, and everything else is kept.

- `toList_normalizeNewlines`: two passes do what the single pass does, whatever endings follow each other. The first pass
  makes no carriage return, and the second none of the line feeds of the first.
- `unify_append_iff`: a text may be cut anywhere but between a carriage return and a line feed.
- `ofSource_normalized`: a front end is called once, with the text in which all lines end alike, and all else that a
  conversion gives comes of its answer.
-/
import Graft.Conversion
import Mathlib.Data.List.Basic

namespace Graft

namespace Source

variable {cs xs ys : List Char}

/-! ## The single pass -/

/-- writes every line ending as one line feed, from the left -/
def unify : List Char → List Char
  | [] => []
  | '\r' :: '\n' :: cs => '\n' :: unify cs
  | c :: cs => (if c = '\r' then '\n' else c) :: unify cs

theorem carriage_notMem_unify (cs : List Char) : '\r' ∉ unify cs := by
  fun_induction unify cs with
  | case1 => simp
  | case2 cs ih => simp [ih]
  | case3 c cs _ ih =>
    by_cases h : c = '\r'
    · simp [h, ih]
    · simp [h, ih, Ne.symm h]

theorem unify_eq_self (h : '\r' ∉ cs) : unify cs = cs := by
  fun_induction unify cs with
  | case1 => rfl
  | case2 cs ih => simp at h
  | case3 c cs _ ih =>
    simp only [List.mem_cons, not_or] at h
    simp [Ne.symm h.1, ih h.2]

/-- A character that does not make a pair with the next one is rewritten alone. -/
theorem unify_cons {c : Char} (h : ¬ (c = '\r' ∧ cs.head? = some '\n')) :
    unify (c :: cs) = (if c = '\r' then '\n' else c) :: unify cs := by
  rw [unify]
  rintro rest rfl rfl
  exact h ⟨rfl, rfl⟩

/-- between these two texts a pair of line ending characters is cut -/
def CutsPair (xs ys : List Char) : Prop := xs.getLast? = some '\r' ∧ ys.head? = some '\n'

/-- A longer first part ends in the same character. -/
theorem CutsPair.cons (h : CutsPair xs ys) (c : Char) : CutsPair (c :: xs) ys :=
  ⟨by rw [List.getLast?_cons, h.1]; rfl, h.2⟩

/-- The parts of a text are rewritten each on its own, unless a pair is cut. -/
theorem unify_append (h : ¬ CutsPair xs ys) : unify (xs ++ ys) = unify xs ++ unify ys := by
  fun_induction unify xs with
  | case1 => rfl
  | case2 xs ih =>
    have hrest : ¬ CutsPair xs ys := fun hcut => h ((hcut.cons '\n').cons '\r')
    rw [List.cons_append, List.cons_append, unify, ih hrest, List.cons_append]
  | case3 c xs hpair ih =>
    have hrest : ¬ CutsPair xs ys := fun hcut => h (hcut.cons c)
    have hnext : ¬ (c = '\r' ∧ (xs ++ ys).head? = some '\n') := by
      rintro ⟨rfl, hhead⟩
      cases xs with
      | nil => exact h ⟨rfl, hhead⟩
      | cons x xs =>
        cases hhead
        exact hpair xs rfl rfl
    rw [List.cons_append, unify_cons hnext, ih hrest, List.cons_append]

/-- A pair that is cut gives one line feed more. -/
theorem length_unify_append (h : CutsPair xs ys) :
    (unify xs ++ unify ys).length = (unify (xs ++ ys)).length + 1 := by
  obtain ⟨before, rfl⟩ := List.getLast?_eq_some_iff.1 h.1
  obtain ⟨after, rfl⟩ := List.head?_eq_some_iff.1 h.2
  have hfirst : unify (before ++ ['\r']) = unify before ++ ['\n'] := unify_append (by rintro ⟨-, h⟩; cases h)
  have hwhole : unify (before ++ ['\r'] ++ '\n' :: after) = unify before ++ '\n' :: unify after := by
    rw [List.append_assoc]
    exact unify_append (by rintro ⟨-, h⟩; cases h)
  have hsecond : unify ('\n' :: after) = '\n' :: unify after := unify_cons (by simp)
  rw [hfirst, hwhole, hsecond]
  simp [Nat.add_assoc]

theorem unify_append_iff : unify (xs ++ ys) = unify xs ++ unify ys ↔ ¬ CutsPair xs ys := by
  refine ⟨fun heq hcut => ?_, unify_append⟩
  have hlength := length_unify_append hcut
  rw [heq] at hlength
  omega

/-! ## The two passes -/

/-- The word of one character is replaced character by character. -/
theorem replaceAll_char (c : Char) (new cs : List Char) :
    replaceAll c [] new cs = cs.flatMap fun x => if x = c then new else [x] := by
  unfold replaceAll
  induction cs with
  | nil => rfl
  | cons x cs ih => by_cases h : x = c <;> simp [replaceFrom, h, ih]

theorem replaceAll_pairs_cons {c : Char} (h : ¬ (c = '\r' ∧ cs.head? = some '\n')) :
    replaceAll '\r' ['\n'] ['\n'] (c :: cs) = c :: replaceAll '\r' ['\n'] ['\n'] cs := by
  have hword : ¬ (c = '\r' ∧ ['\n'].isPrefixOf cs = true) := by
    rintro ⟨hc, hprefix⟩
    obtain ⟨after, rfl⟩ := List.isPrefixOf_iff_prefix.1 hprefix
    exact h ⟨hc, rfl⟩
  rw [replaceAll, replaceFrom, if_neg hword]
  rfl

/-- What is left of a text after both passes is what the single pass gives. -/
theorem replaceAll_replaceAll (cs : List Char) :
    replaceAll '\r' [] ['\n'] (replaceAll '\r' ['\n'] ['\n'] cs) = unify cs := by
  rw [replaceAll_char]
  fun_induction unify cs with
  | case1 => rfl
  | case2 cs ih =>
    have hpair : replaceAll '\r' ['\n'] ['\n'] ('\r' :: '\n' :: cs) = '\n' :: replaceAll '\r' ['\n'] ['\n'] cs := by
      simp [replaceAll, replaceFrom]
    rw [hpair, List.flatMap_cons, ih]
    rfl
  | case3 c cs hpair ih =>
    have hnext : ¬ (c = '\r' ∧ cs.head? = some '\n') := by
      rintro ⟨rfl, hhead⟩
      cases cs with
      | nil => cases hhead
      | cons x cs =>
        cases hhead
        exact hpair cs rfl rfl
    rw [replaceAll_pairs_cons hnext, List.flatMap_cons, ih]
    by_cases h : c = '\r' <;> simp [h]

theorem rewriteNewlines?_eq_none_iff (source : String) : rewriteNewlines? source = none ↔ '\r' ∉ source.toList := by
  simp [rewriteNewlines?]

/-- Two passes over a text do what the single pass does. -/
theorem toList_normalizeNewlines (source : String) : (normalizeNewlines source).toList = unify source.toList := by
  unfold normalizeNewlines rewriteNewlines?
  split
  · rw [Option.getD_some, String.toList_ofList, replaceAll_replaceAll]
  · rename_i h
    rw [Option.getD_none, unify_eq_self (by simpa using h)]

end Source

open Source Graft.Convert

namespace Conversion

/-! ## What a front end is asked -/

/-- a front end that keeps the texts that it was given -/
def recording (frontEnd : String → Except (List String) String) (given : String) :
    StateM (List String) (Except (List String) String) := do
  modify (· ++ [given])
  return frontEnd given

/-- A conversion is the answer of the front end and what comes of it: it has no other effect. -/
theorem ofSourceIn_eq_map {m : Type → Type} [Monad m] [LawfulMonad m]
    (frontEnd : String → m (Except (List String) String)) (mode : Mode) (version : UInt64) (source : String) :
    ofSourceIn frontEnd mode version source = ofAnswer mode version <$> frontEnd (normalizeNewlines source) := by
  rw [map_eq_pure_bind]
  rfl

theorem ofSource_eq (frontEnd : String → Except (List String) String) (mode : Mode) (version : UInt64)
    (source : String) : ofSource frontEnd mode version source = ofAnswer mode version (frontEnd (normalizeNewlines source)) :=
  rfl

/-! ## Main result -/

/-- **All lines end alike, and a conversion sees nothing else.** For every source:
- What two passes over the text give is what the single pass from the left gives. There is no carriage return in it, and
  doing it again changes nothing. The text is left as it is exactly if it has no carriage return.
- The parts of a text may be rewritten each on its own exactly if no pair is cut between them.
- A conversion gives its front end one text, the one with all lines ending alike. Sources that come to the same text give
  the same conversion, which is that of the document that the front end answers with. -/
theorem ofSource_normalized :
    (∀ source : String, (normalizeNewlines source).toList = unify source.toList ∧
      '\r' ∉ (normalizeNewlines source).toList ∧
      normalizeNewlines (normalizeNewlines source) = normalizeNewlines source ∧
      (rewriteNewlines? source = none ↔ '\r' ∉ source.toList)) ∧
    (∀ s t : String, normalizeNewlines (s ++ t) = normalizeNewlines s ++ normalizeNewlines t ↔
      ¬ (s.toList.getLast? = some '\r' ∧ t.toList.head? = some '\n')) ∧
    ∀ (frontEnd : String → Except (List String) String) (mode : Mode) (version : UInt64) (source : String),
      (∀ seen, (ofSourceIn (recording frontEnd) mode version source).run seen =
        (ofSource frontEnd mode version source, seen ++ [normalizeNewlines source])) ∧
      (∀ other, normalizeNewlines source = normalizeNewlines other →
        ofSource frontEnd mode version source = ofSource frontEnd mode version other) ∧
      ∀ text, frontEnd (normalizeNewlines source) = .ok text →
        ofSource frontEnd mode version source = ofText mode version text := by
  refine ⟨fun source => ?_, fun s t => ?_, fun frontEnd mode version source => ⟨fun seen => ?_, ?_, ?_⟩⟩
  · have hclear : '\r' ∉ (normalizeNewlines source).toList := by
      rw [toList_normalizeNewlines]
      exact carriage_notMem_unify _
    refine ⟨toList_normalizeNewlines source, hclear, ?_, rewriteNewlines?_eq_none_iff source⟩
    rw [normalizeNewlines, (rewriteNewlines?_eq_none_iff _).2 hclear, Option.getD_none]
  · rw [← String.toList_inj, String.toList_append, toList_normalizeNewlines, toList_normalizeNewlines,
      toList_normalizeNewlines, String.toList_append]
    exact unify_append_iff
  · rw [ofSourceIn_eq_map, ofSource_eq]
    rfl
  · intro other hsame
    rw [ofSource_eq, ofSource_eq, hsame]
  · intro text hanswer
    rw [ofSource_eq, hanswer]
    rfl

/-- a front end that answers with the text that it is given -/
def echo (text : String) : Except (List String) String := .ok text

/-- The endings of `a\r\r\n` are those of `a\n\r`, and both give the conversion of the text `a\n\n`. After a carriage return
a text may be cut, but not before a line feed. -/
theorem ofSource_normalized_mixed :
    normalizeNewlines "a\r\r\n" = normalizeNewlines "a\n\r" ∧
    ofSource echo .strict 7 "a\r\r\n" = ofSource echo .strict 7 "a\n\r" ∧
    echo (normalizeNewlines "a\n\r") = .ok "a\n\n" ∧ ofSource echo .strict 7 "a\n\r" = ofText .strict 7 "a\n\n" ∧
    normalizeNewlines ("a\r" ++ "\r\n") = normalizeNewlines "a\r" ++ normalizeNewlines "\r\n" ∧
    normalizeNewlines ("a\r" ++ "\n") ≠ normalizeNewlines "a\r" ++ normalizeNewlines "\n" := by
  obtain ⟨-, hparts, hconversion⟩ := ofSource_normalized
  have hsame : normalizeNewlines "a\r\r\n" = normalizeNewlines "a\n\r" := by decide
  have hanswer : echo (normalizeNewlines "a\n\r") = .ok "a\n\n" := by decide
  obtain ⟨-, hother, -⟩ := hconversion echo .strict 7 "a\r\r\n"
  obtain ⟨-, -, htext⟩ := hconversion echo .strict 7 "a\n\r"
  refine ⟨hsame, hother _ hsame, hanswer, htext _ hanswer, ?_, ?_⟩
  · exact (hparts _ _).2 (by decide)
  · exact fun heq => (hparts _ _).1 heq (by decide)

end Conversion

end Graft
