/-
What reading yields.

Not every value is spelled by some text: an object can have one name at two fields, or a field `__node__` that is a
text and yet not the name of its kind, and a whole number can be of more than 64 bits. `Canonical` excludes these, at
every depth.

- `canonical_read`: what reading a text yields is canonical.

An object is built from its members one by one, and each step keeps what is asked of it (`Node.Regular.addMember`); the
rest is one induction on the number that the readers count down.
-/
import Graft.Document.Reader

namespace Graft.Document

/-- whether a number is a double, or a whole one that 64 bits hold -/
def Number.Fits : Number → Prop
  | .int n => -(Text.signedLimit : Int) ≤ n ∧ n ≤ Numeral.greatestSignificand
  | .real _ => True

/-- a node as its members make it: each name once, and a text under the discriminator is no field -/
structure Node.Regular (node : Node) : Prop where
  names : (node.fields.map Prod.fst).Nodup
  untagged : ∀ text, (discriminator, Value.string text) ∉ node.fields

/-- a value that some text spells -/
inductive Canonical : Value → Prop where
  | null : Canonical .null
  | bool (b : Bool) : Canonical (.bool b)
  | number {n : Number} : n.Fits → Canonical (.number n)
  | string (text : String) : Canonical (.string text)
  | array {items : List Value} : (∀ v ∈ items, Canonical v) → Canonical (.array items)
  | object {node : Node} : node.Regular → (∀ f ∈ node.fields, Canonical f.2) → Canonical (.object node)

/-! ## Objects from their members -/

namespace Node

theorem mem_putField {name : String} {value : Value} {fields : List (String × Value)} {f : String × Value}
    (h : f ∈ putField name value fields) : f = (name, value) ∨ f ∈ fields := by
  induction fields with
  | nil => simpa [putField] using h
  | cons g rest ih =>
    obtain ⟨n, v⟩ := g
    by_cases hn : n = name
    · simp only [putField, hn, if_true, List.mem_cons] at h
      exact h.imp_right (List.mem_cons_of_mem _)
    · simp only [putField, hn, if_false, List.mem_cons] at h
      rcases h with rfl | h
      · exact .inr List.mem_cons_self
      · exact (ih h).imp_right (List.mem_cons_of_mem _)

/-- A new name goes to the end. -/
theorem putField_of_notMem {name : String} {fields : List (String × Value)} (h : name ∉ fields.map Prod.fst)
    (value : Value) : putField name value fields = fields ++ [(name, value)] := by
  induction fields with
  | nil => rfl
  | cons f rest ih =>
    obtain ⟨n, v⟩ := f
    simp only [List.map_cons, List.mem_cons, not_or] at h
    simp only [putField, if_neg (Ne.symm h.1), ih h.2, List.cons_append]

/-- A member names the kind, or is a field. -/
theorem addMember_cases (node : Node) (name : String) (value : Value) :
    (∃ text, name = discriminator ∧ value = .string text ∧
        node.addMember (name, value) = { node with tag := some text }) ∨
      (¬ ∃ text, name = discriminator ∧ value = .string text) ∧
        node.addMember (name, value) = node.insert name value := by
  cases value with
  | string text =>
    by_cases h : name = discriminator
    · exact .inl ⟨text, h, rfl, by simp [addMember, h]⟩
    · exact .inr ⟨fun ⟨_, hname, _⟩ => h hname, by simp [addMember, h]⟩
  | _ => exact .inr ⟨by simp, rfl⟩

theorem Regular.insert {node : Node} (h : node.Regular) {name : String} {value : Value}
    (hfield : ¬ ∃ text, name = discriminator ∧ value = .string text) : (node.insert name value).Regular where
  names := by
    rw [names_insert]
    split
    · exact h.names
    · rename_i hname
      rw [List.nodup_append]
      refine ⟨h.names, by simp, fun n hn m hm hnm => hname ?_⟩
      rwa [← List.mem_singleton.1 hm, ← hnm]
  untagged text hmem := by
    rcases mem_putField hmem with heq | hmem
    · cases heq
      exact hfield ⟨text, rfl, rfl⟩
    · exact h.untagged text hmem

theorem Regular.addMember {node : Node} (h : node.Regular) (member : String × Value) :
    (node.addMember member).Regular := by
  obtain ⟨name, value⟩ := member
  rcases node.addMember_cases name value with ⟨text, -, -, heq⟩ | ⟨hfield, heq⟩
  · exact heq ▸ ⟨h.names, h.untagged⟩
  · exact heq ▸ h.insert hfield

/-- What holds of every member holds of every field. -/
theorem forall_addMember {P : Value → Prop} {node : Node} (h : ∀ f ∈ node.fields, P f.2) {member : String × Value}
    (hmember : P member.2) : ∀ f ∈ (node.addMember member).fields, P f.2 := by
  obtain ⟨name, value⟩ := member
  rcases node.addMember_cases name value with ⟨text, -, -, heq⟩ | ⟨-, heq⟩
  · exact heq ▸ h
  · rw [heq]
    intro f hf
    rcases mem_putField hf with rfl | hf
    · exact hmember
    · exact h f hf

end Node

theorem canonical_ofMembers {members : List (String × Value)} (h : ∀ m ∈ members, Canonical m.2) :
    Canonical (.object (Node.ofMembers members)) := by
  -- The node so far is the accumulator of the fold.
  suffices ∀ node : Node, node.Regular → (∀ f ∈ node.fields, Canonical f.2) →
      Canonical (.object (members.foldl Node.addMember node)) by
    exact this ⟨none, []⟩ ⟨List.nodup_nil, fun _ => List.not_mem_nil⟩ fun _ hf => (List.not_mem_nil hf).elim
  induction members with
  | nil => exact fun node hregular hfields => .object hregular hfields
  | cons m ms ih =>
    intro node hregular hfields
    rw [List.forall_mem_cons] at h
    exact ih h.2 _ (hregular.addMember m) (Node.forall_addMember hfields h.1)

/-! ## Numbers -/

namespace Numeral

theorem takeDigits_value_le {bound value : Nat} (h : value ≤ bound) (count : Nat) (cs : List Char) :
    (takeDigits bound value count cs).value ≤ bound := by
  fun_induction takeDigits bound value count cs with
  | case1 => exact h
  | case2 _ _ _ _ hc ih => exact ih hc.2
  | case3 => exact h

variable {negative : Bool} {significand : Nat} {power : Int} {cs rest : List Char} {n : Number}

theorem fits_scale (h : scale negative significand power cs = .ok (n, rest)) : n.Fits := by
  unfold scale at h
  split at h
  · cases h
    trivial
  · cases h

theorem fits_readExponent (h : readExponent negative significand power cs = .ok (n, rest)) : n.Fits := by
  unfold readExponent at h
  split at h
  split at h
  · cases h
  · split at h
    · cases h
    · dsimp only at h
      split at h
      · split at h <;> cases h
        trivial
      · exact fits_scale h

theorem fits_readEnding (h : readEnding negative significand power cs = .ok (n, rest)) : n.Fits := by
  unfold readEnding at h
  split at h
  · exact fits_readExponent h
  · exact fits_readExponent h
  · exact fits_scale h

theorem fits_readFraction (h : readFraction negative significand power cs = .ok (n, rest)) : n.Fits := by
  unfold readFraction at h
  dsimp only at h
  split at h
  · exact fits_readEnding h
  · split at h
    · cases h
    · exact fits_readEnding h

theorem fits_whole (hbound : significand ≤ greatestSignificand) (h : whole negative significand cs = .ok (n, rest)) :
    n.Fits := by
  unfold whole at h
  split at h
  · cases h
    exact ⟨by omega, by omega⟩
  · split at h
    · rename_i hsigned
      cases h
      exact ⟨by omega, by omega⟩
    · exact fits_scale h

theorem fits_readTail {dropped : Nat} (hbound : significand ≤ greatestSignificand)
    (h : readTail negative significand dropped cs = .ok (n, rest)) : n.Fits := by
  unfold readTail at h
  split at h
  · exact fits_readFraction h
  · exact fits_readExponent h
  · exact fits_readExponent h
  · split at h
    · exact fits_whole hbound h
    · exact fits_scale h

/-- A number that is read fits. -/
theorem fits_readNumber (h : readNumber negative cs = .ok (n, rest)) : n.Fits := by
  unfold readNumber at h
  split at h
  · cases h
  · split at h
    · cases h
    · exact fits_readTail (Nat.zero_le _) h
  · split at h
    · cases h
    · exact fits_readTail (takeDigits_value_le (Nat.zero_le _) _ _) h

end Numeral

/-! ## Values -/

/-- what holds of the result, if there is one -/
def Gives {α : Type} (x : Except Stop (α × List Char)) (P : α → Prop) : Prop :=
  ∀ a rest, x = .ok (a, rest) → P a

theorem gives_bind {α β : Type} {x : Except Stop (α × List Char)}
    {f : α × List Char → Except Stop (β × List Char)}
    {P : α → Prop} {Q : β → Prop} (hx : Gives x P) (hf : ∀ a rest, P a → Gives (f (a, rest)) Q) :
    Gives (x >>= f) Q := by
  intro b rest h
  cases x with
  | error => cases h
  | ok r => exact hf r.1 r.2 (hx _ _ rfl) b rest h

theorem gives_pure {α : Type} {a : α} {rest : List Char} {P : α → Prop} (h : P a) :
    Gives (pure (a, rest)) P := by
  rintro _ _ ⟨⟩
  exact h

theorem gives_error {α : Type} {stop : Stop} {P : α → Prop} : Gives (.error stop) P := by
  rintro _ _ ⟨⟩

theorem gives_readLiteral {value : Value} (h : Canonical value) (expected cs : List Char) :
    Gives (readLiteral value expected cs) Canonical := by
  intro v rest hread
  fun_induction readLiteral value expected cs with
  | case1 => cases hread; exact h
  | case2 => cases hread
  | case3 _ _ _ ih => exact ih hread
  | case4 => cases hread

theorem gives_readNumber (negative : Bool) (cs : List Char) : Gives (Numeral.readNumber negative cs) Number.Fits :=
  fun _ _ => Numeral.fits_readNumber

section Step

variable {fuel : Nat} (hvalue : ∀ cs, Gives (readValue fuel cs) Canonical)
  (hitems : ∀ first cs, Gives (readItems fuel first cs) fun items => ∀ v ∈ items, Canonical v)
  (hmembers : ∀ first cs, Gives (readMembers fuel first cs) fun members => ∀ m ∈ members, Canonical m.2)

include hitems hmembers in
theorem gives_readValue_succ (cs : List Char) : Gives (readValue (fuel + 1) cs) Canonical := by
  rw [readValue]
  split
  · exact gives_error
  · exact gives_readLiteral .null _ _
  · exact gives_readLiteral (.bool true) _ _
  · exact gives_readLiteral (.bool false) _ _
  · exact gives_bind (P := fun _ => True) (fun _ _ _ => trivial) fun text _ _ => gives_pure (.string _)
  · exact gives_bind (hitems true _) fun _ _ h => gives_pure (.array h)
  · exact gives_bind (hmembers true _) fun _ _ h => gives_pure (canonical_ofMembers h)
  · exact gives_bind (gives_readNumber _ _) fun _ _ h => gives_pure (.number h)
  · split
    · exact gives_bind (gives_readNumber _ _) fun _ _ h => gives_pure (.number h)
    · exact gives_error

include hvalue hitems in
theorem gives_readItems_succ (first : Bool) (cs : List Char) :
    Gives (readItems (fuel + 1) first cs) fun items => ∀ v ∈ items, Canonical v := by
  rw [readItems]
  cases nextItem first cs with
  | error => exact gives_error
  | ok next =>
    cases next with
    | inl => exact gives_pure fun _ hv => (List.not_mem_nil hv).elim
    | inr => exact gives_bind (hvalue _) fun _ _ hv => gives_bind (hitems _ _) fun _ _ hvs =>
        gives_pure (List.forall_mem_cons.2 ⟨hv, hvs⟩)

include hvalue hmembers in
theorem gives_readMembers_succ (first : Bool) (cs : List Char) :
    Gives (readMembers (fuel + 1) first cs) fun members => ∀ m ∈ members, Canonical m.2 := by
  rw [readMembers]
  cases nextMember first cs with
  | error => exact gives_error
  | ok next =>
    cases next with
    | inl => exact gives_pure fun _ hm => (List.not_mem_nil hm).elim
    | inr =>
      refine gives_bind (P := fun _ => True) (fun _ _ _ => trivial) fun name rest _ => ?_
      dsimp only
      cases readColon rest with
      | error => exact gives_error
      | ok =>
        refine gives_bind (hvalue _) fun value _ hv => gives_bind (hmembers _ _) fun members _ hms => gives_pure ?_
        intro m hm
        rcases List.mem_cons.1 hm with rfl | hm
        · exact hv
        · exact hms m hm

end Step

theorem gives_readers (fuel : Nat) :
    (∀ cs, Gives (readValue fuel cs) Canonical) ∧
      (∀ first cs, Gives (readItems fuel first cs) fun items => ∀ v ∈ items, Canonical v) ∧
      ∀ first cs, Gives (readMembers fuel first cs) fun members => ∀ m ∈ members, Canonical m.2 := by
  induction fuel with
  | zero => exact ⟨fun _ => gives_error, fun _ _ => gives_error, fun _ _ => gives_error⟩
  | succ fuel ih =>
    obtain ⟨hvalue, hitems, hmembers⟩ := ih
    exact ⟨gives_readValue_succ hitems hmembers, gives_readItems_succ hvalue hitems,
      gives_readMembers_succ hvalue hmembers⟩

/-! ## Main result -/

/-- **What is read is canonical.** -/
theorem canonical_read {text : String} {v : Value} (h : read text = .ok v) : Canonical v := by
  unfold read readAll at h
  cases hv : readValue (2 * text.toList.length + 2) text.toList with
  | error stop => rw [hv] at h; cases h
  | ok r =>
    obtain ⟨w, rest⟩ := r
    rw [hv] at h
    have hw : Canonical w := (gives_readers _).1 _ w rest hv
    simp only [bind, Except.bind] at h
    split at h
    · cases h
      exact hw
    · cases h

end Graft.Document
