/-
Texts that brackets and commas take apart.

A rendering is a label and, in brackets, the renderings of the parts with commas between them. `scan` counts the brackets
that are open, and fails at a comma or a closing bracket that stands outside all of them. A text that it passes over, and
that leaves no bracket open, is `Closed`. Where such a text stands before a comma or a closing bracket it is told from
what follows (`split_of_closed`), and so a label and the closed texts that stand in brackets after it can be read off the
whole (`enclosed_inj`).
-/
import Mathlib.Data.List.TakeWhile
import Graft.Tree.Render

namespace Graft

/-- how many brackets are open after a text, when so many are open before it; none if the text reaches a comma or a
closing bracket where none is open -/
def scan (depth : Nat) : List Char → Option Nat
  | [] => some depth
  | c :: cs =>
    if c = '[' then scan (depth + 1) cs
    else if depth = 0 ∧ (c = ']' ∨ c = ',') then none
    else if c = ']' then scan (depth - 1) cs
    else scan depth cs

/-- a text in which every bracket is closed and every comma is within brackets -/
def Closed (text : String) : Prop := scan 0 text.toList = some 0

instance (text : String) : Decidable (Closed text) := inferInstanceAs (Decidable (_ = _))

/-- a text without brackets and commas -/
def Clear (text : String) : Prop := ∀ c ∈ text.toList, c ≠ '[' ∧ c ≠ ']' ∧ c ≠ ','

instance (text : String) : Decidable (Clear text) :=
  List.decidableBAll (fun c => c ≠ '[' ∧ c ≠ ']' ∧ c ≠ ',') text.toList

/-! ## Closed texts -/

theorem scan_append (depth : Nat) (cs ds : List Char) : scan depth (cs ++ ds) = (scan depth cs).bind (scan · ds) := by
  induction cs generalizing depth with
  | nil => rfl
  | cons c cs ih =>
    simp only [List.cons_append, scan]
    split
    · exact ih _
    · split
      · rfl
      · split
        · exact ih _
        · exact ih _

/-- More open brackets change nothing. -/
theorem scan_lift {depth left : Nat} {cs : List Char} (h : scan depth cs = some left) (more : Nat) :
    scan (depth + more) cs = some (left + more) := by
  induction cs generalizing depth with
  | nil =>
    cases h
    rfl
  | cons c cs ih =>
    simp only [scan] at h ⊢
    by_cases hopen : c = '['
    · rw [if_pos hopen] at h ⊢
      have hlift := ih h
      rwa [Nat.add_right_comm] at hlift
    · rw [if_neg hopen] at h ⊢
      by_cases hstop : depth = 0 ∧ (c = ']' ∨ c = ',')
      · rw [if_pos hstop] at h
        cases h
      · rw [if_neg hstop] at h
        rw [if_neg fun hmore => hstop ⟨by omega, hmore.2⟩]
        by_cases hclose : c = ']'
        · have hdepth : depth ≠ 0 := fun hzero => hstop ⟨hzero, .inl hclose⟩
          rw [if_pos hclose] at h ⊢
          have hlift := ih h
          rwa [← Nat.sub_add_comm (by omega)] at hlift
        · rw [if_neg hclose] at h ⊢
          exact ih h

theorem closed_append {s t : String} (hs : Closed s) (ht : Closed t) : Closed (s ++ t) := by
  unfold Closed at *
  rw [String.toList_append, scan_append, hs]
  exact ht

theorem closed_of_clear {text : String} (h : Clear text) : Closed text := by
  unfold Closed
  unfold Clear at h
  generalize text.toList = cs at h
  induction cs with
  | nil => rfl
  | cons c cs ih =>
    rw [List.forall_mem_cons] at h
    obtain ⟨⟨hopen, hclose, hcomma⟩, hrest⟩ := h
    simpa [scan, hopen, hclose, hcomma] using ih hrest

/-! ## Closed texts in brackets -/

/-- a text that ends, or goes on with a comma or a closing bracket -/
def Stops (cs : List Char) : Prop := ∀ c ∈ cs.head?, c = ']' ∨ c = ','

theorem scan_of_stops {cs : List Char} (h : Stops cs) (hne : cs ≠ []) : scan 0 cs = none := by
  obtain ⟨c, cs, rfl⟩ := List.exists_cons_of_ne_nil hne
  have hc : c ≠ '[' := by
    rintro rfl
    rcases h '[' rfl with h | h <;> cases h
  rw [scan, if_neg hc, if_pos ⟨rfl, h c rfl⟩]

/-- A closed text is told from what follows it. -/
theorem split_of_closed {as bs xs ys : List Char} (ha : scan 0 as = some 0) (hb : scan 0 bs = some 0)
    (hx : Stops xs) (hy : Stops ys) (h : as ++ xs = bs ++ ys) : as = bs ∧ xs = ys := by
  -- One of the two texts begins the other; were it shorter, the other would reach a comma or a closing bracket.
  have hshort {as cs ys : List Char} (ha : scan 0 as = some 0) (hb : scan 0 (as ++ cs) = some 0)
      (hx : Stops (cs ++ ys)) : cs = [] := by
    by_contra hne
    have hstops : Stops cs := by
      obtain ⟨c, cs, rfl⟩ := List.exists_cons_of_ne_nil hne
      exact hx
    rw [scan_append, ha, Option.bind_some, scan_of_stops hstops hne] at hb
    cases hb
  rcases List.append_eq_append_iff.1 h with ⟨cs, rfl, rfl⟩ | ⟨cs, rfl, rfl⟩
  · cases hshort ha hb hx
    simp
  · cases hshort hb ha hy
    simp

/-- a closed text that is not empty -/
structure Item (text : String) : Prop where
  closed : Closed text
  filled : text ≠ ""

/-- What follows a key need not be filled. -/
theorem item_key {key : String} (hclear : Clear key) (hfilled : key ≠ "") {text : String} (h : Closed text) :
    Item (key ++ text) where
  closed := closed_append (closed_of_clear hclear) h
  filled hempty := hfilled (String.append_eq_empty_iff.1 hempty).1

theorem item_of_clear {text : String} (h : Clear text) (hfilled : text ≠ "") : Item text := ⟨closed_of_clear h, hfilled⟩

/-- the texts with commas between them -/
def joined (items : List String) : List Char := [',', ' '].intercalate (items.map String.toList)

@[simp] theorem joined_singleton (m : String) : joined [m] = m.toList := by simp [joined]

@[simp] theorem joined_cons (m m' : String) (ms : List String) :
    joined (m :: m' :: ms) = m.toList ++ (',' :: ' ' :: joined (m' :: ms)) := by
  simp [joined]

@[simp] theorem toList_bracketed (items : List String) : (bracketed items).toList = '[' :: (joined items ++ [']']) := by
  simp [bracketed, joined, String.toList_intercalate]

theorem joined_ne_nil {m : String} (hm : Item m) (ms : List String) : joined (m :: ms) ≠ [] := by
  have hfilled : m.toList ≠ [] := fun hnil => hm.filled (String.toList_inj.1 hnil)
  cases ms with
  | nil => simpa [joined] using hfilled
  | cons m' ms =>
    rw [joined_cons]
    simp

/-- what follows the first text, up to the closing bracket -/
def trail : List String → List Char
  | [] => [']']
  | m :: ms => ',' :: ' ' :: (m.toList ++ trail ms)

theorem joined_cons_close (m : String) (ms : List String) : joined (m :: ms) ++ [']'] = m.toList ++ trail ms := by
  induction ms generalizing m with
  | nil => simp [trail]
  | cons m' ms ih =>
    rw [joined_cons, List.append_assoc, List.cons_append, List.cons_append, ih]
    rfl

theorem stops_trail (ms : List String) : Stops (trail ms) := by
  cases ms <;> simp [trail, Stops]

/-- A text ends where a comma or the closing bracket stands outside all brackets. -/
theorem trail_inj {ms ns : List String} (hms : ∀ m ∈ ms, Item m) (hns : ∀ n ∈ ns, Item n) (h : trail ms = trail ns) :
    ms = ns := by
  induction ms generalizing ns with
  | nil =>
    cases ns with
    | nil => rfl
    | cons n ns => cases h
  | cons m ms ih =>
    cases ns with
    | nil => cases h
    | cons n ns =>
      rw [List.forall_mem_cons] at hms hns
      have htexts : m.toList ++ trail ms = n.toList ++ trail ns := by simpa [trail] using h
      obtain ⟨heq, htrail⟩ := split_of_closed hms.1.closed hns.1.closed (stops_trail ms) (stops_trail ns) htexts
      rw [String.toList_inj.1 heq, ih hms.2 hns.2 htrail]

/-- The texts are read off up to the closing bracket. -/
theorem joined_inj {ms ns : List String} (hms : ∀ m ∈ ms, Item m) (hns : ∀ n ∈ ns, Item n)
    (h : joined ms ++ [']'] = joined ns ++ [']']) : ms = ns := by
  cases ms with
  | nil =>
    cases ns with
    | nil => rfl
    | cons n ns => exact (joined_ne_nil (hns n List.mem_cons_self) ns (List.append_cancel_right h).symm).elim
  | cons m ms =>
    cases ns with
    | nil => exact (joined_ne_nil (hms m List.mem_cons_self) ms (List.append_cancel_right h)).elim
    | cons n ns =>
      rw [joined_cons_close, joined_cons_close] at h
      exact trail_inj hms hns (congrArg (fun cs => ',' :: ' ' :: cs) h)

theorem bracketed_inj {ms ns : List String} (hms : ∀ m ∈ ms, Item m) (hns : ∀ n ∈ ns, Item n) :
    bracketed ms = bracketed ns ↔ ms = ns := by
  refine ⟨fun h => ?_, congrArg bracketed⟩
  have hlist := congrArg String.toList h
  rw [toList_bracketed, toList_bracketed] at hlist
  exact joined_inj hms hns (List.cons.inj hlist).2

theorem bracketed_cons_inj {m n : String} {ms ns : List String} (hms : ∀ t ∈ m :: ms, Item t)
    (hns : ∀ t ∈ n :: ns, Item t) : bracketed (m :: ms) = bracketed (n :: ns) ↔ m = n ∧ bracketed ms = bracketed ns := by
  rw [bracketed_inj hms hns]
  rw [List.forall_mem_cons] at hms hns
  rw [bracketed_inj hms.2 hns.2, List.cons.injEq]

theorem scan_joined {ms : List String} (h : ∀ m ∈ ms, Closed m) : scan 1 (joined ms) = some 1 := by
  induction ms with
  | nil => rfl
  | cons m ms ih =>
    rw [List.forall_mem_cons] at h
    have hm : scan 1 m.toList = some 1 := scan_lift h.1 1
    cases ms with
    | nil => simpa [joined] using hm
    | cons m' ms =>
      rw [joined_cons, scan_append, hm]
      exact ih h.2

theorem closed_bracketed {ms : List String} (h : ∀ m ∈ ms, Item m) : Closed (bracketed ms) := by
  unfold Closed
  rw [toList_bracketed, scan, if_pos rfl, scan_append, scan_joined fun m hm => (h m hm).closed]
  rfl

/-! ## Labels -/

/-- a label, and texts in brackets after it -/
def enclosed (label : String) (items : List String) : String := label ++ bracketed items

@[simp] theorem toList_enclosed (label : String) (items : List String) :
    (enclosed label items).toList = label.toList ++ '[' :: (joined items ++ [']']) := by
  rw [enclosed, String.toList_append, toList_bracketed]

/-- what stands before the first bracket -/
def labelOf (text : String) : List Char := text.toList.takeWhile (· ≠ '[')

theorem labelOf_enclosed {label : String} (h : Clear label) (items : List String) :
    labelOf (enclosed label items) = label.toList := by
  have hlabel : ∀ c ∈ label.toList, decide (c ≠ '[') = true := fun c hc => by simpa using (h c hc).1
  unfold labelOf enclosed
  rw [String.toList_append, toList_bracketed, List.takeWhile_append_of_pos hlabel]
  simp

theorem item_enclosed {label : String} (hlabel : Clear label) {items : List String} (h : ∀ item ∈ items, Item item) :
    Item (enclosed label items) where
  closed := closed_append (closed_of_clear hlabel) (closed_bracketed h)
  filled hempty := by
    have hlist := congrArg String.toList hempty
    simp at hlist

/-- The label and the texts in brackets are read off the whole. -/
theorem enclosed_inj {l l' : String} (hl : Clear l) (hl' : Clear l') {ms ns : List String} (hms : ∀ m ∈ ms, Item m)
    (hns : ∀ n ∈ ns, Item n) : enclosed l ms = enclosed l' ns ↔ l = l' ∧ ms = ns := by
  constructor
  · intro h
    have hlabel := congrArg labelOf h
    rw [labelOf_enclosed hl, labelOf_enclosed hl', String.toList_inj] at hlabel
    subst hlabel
    exact ⟨rfl, (bracketed_inj hms hns).1 ((String.append_right_inj _).1 h)⟩
  · rintro ⟨rfl, rfl⟩
    rfl

theorem enclosed_ne {text : String} (h : Clear text) (label : String) (items : List String) :
    enclosed label items ≠ text := by
  rintro rfl
  have hopen : '[' ∈ (enclosed label items).toList := by simp
  exact (h '[' hopen).1 rfl

end Graft
