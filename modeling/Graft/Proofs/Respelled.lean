/-
Documents that differ in how they spell absence.

A field with nothing in it can be left out, hold `null`, or hold the text `None`. `Respelled` relates two values that make
these choices differently, in any number of places at any depth, and are the same otherwise. The text `None` is such a
spelling only where no text is looked for: not in the fields that name something or hold an operator, not in the text of a
truth value or a string, and not in the text of a key (`Standing`). The name of the kind is no field, so that related
nodes are of one kind.

The lemmas say what two related nodes have in common: a way of reading a field gives the same with both of them
(`Respelled.text?`, `Respelled.int?`, `Respelled.flag`), or gives nodes and lists that are related again
(`Respelled.node?`, `Respelled.present?`, `Respelled.stripped`). They have one position.

`respelled_insert` and `respelled_omit` are the single steps of the relation.
-/
import Mathlib.Data.List.Forall2
import Graft.Convert.Atom
import Graft.Convert.Declarator

namespace Graft.Convert

open Graft.Document

/-! ## The relation -/

/-- the fields that a text is looked for in, whatever node has them -/
def textualFields : List String := ["name", "class_name", "operator", "unicode_value"]

/-- the tags of the nodes whose `value` is a text -/
def textualTags : List String := ["Bool", "Unicode", "Bytes"]

/-- where a value stands: whether a text is looked for there, and whether it is what a field `key` holds -/
structure Standing where
  textual : Bool
  keyed : Bool

namespace Standing

/-- an item of a list, or a document -/
def free : Standing := ⟨false, false⟩

/-- a field of a node that stands here -/
def field (s : Standing) (tag : Option String) (name : String) : Standing where
  textual := name ∈ textualFields || (name == "value" && (s.keyed || tag.any (· ∈ textualTags)))
  keyed := name == "key"

end Standing

/-- what a field holds, and `null` where there is no such field -/
def held (node : Node) (name : String) : Value := (node.get? name).getD .null

/-- A field that is left out converts like `null`. -/
theorem field_held {c : Converter} (hnull : ∀ b, c .null b = pure .absent) (n : Node) (name : String) (b : Binding) :
    field c n name b = c (held n name) b := by
  unfold field held
  cases n.get? name with
  | none => exact (hnull b).symm
  | some v => rfl

/-- the values are the same but for how they spell absence, where they stand here -/
inductive Respelled : Standing → Value → Value → Prop where
  | same {s : Standing} (v : Value) : Respelled s v v
  | absent {s : Standing} {v v' : Value} : s.textual = false → v.isAbsent = true → v'.isAbsent = true → Respelled s v v'
  | array {s : Standing} {items items' : List Value} : List.Forall₂ (Respelled .free) items items' →
      Respelled s (.array items) (.array items')
  | object {s : Standing} {n n' : Node} : n.tag = n'.tag →
      (∀ name, Respelled (s.field n.tag name) (held n name) (held n' name)) → Respelled s (.object n) (.object n')

/-! ### Its steps -/

theorem held_insert_self (n : Node) (name : String) (v : Value) : held (n.insert name v) name = v := by
  rw [held, n.get?_insert_self, Option.getD_some]

theorem held_insert_of_ne (n : Node) {name other : String} (h : other ≠ name) (v : Value) :
    held (n.insert name v) other = held n other := by
  rw [held, n.get?_insert_of_ne h, held]

/-- Related values in one field make related nodes. -/
theorem respelled_insert {s : Standing} {name : String} {v v' : Value} (n : Node)
    (h : Respelled (s.field n.tag name) v v') :
    Respelled s (.object (n.insert name v)) (.object (n.insert name v')) := by
  refine .object rfl fun other => ?_
  by_cases hother : other = name
  · subst hother
    rw [held_insert_self, held_insert_self]
    exact h
  · rw [held_insert_of_ne n hother, held_insert_of_ne n hother]
    exact .same _

/-- A field that holds `null` can be left out. -/
theorem respelled_omit {s : Standing} {name : String} {n : Node} (h : n.get? name = none) :
    Respelled s (.object (n.insert name .null)) (.object n) := by
  refine .object rfl fun other => ?_
  by_cases hother : other = name
  · subst hother
    rw [held_insert_self, held, h]
    exact .same _
  · rw [held_insert_of_ne n hother]
    exact .same _

/-! ## Reading a value -/

/-- What is read in the same way from related values, where there are any, is the same. -/
theorem bind_eq_of_rel {α β γ : Type} {R : α → β → Prop} {o : Option α} {o' : Option β} (h : Option.Rel R o o')
    {f : α → Option γ} {g : β → Option γ} (hf : ∀ a b, R a b → f a = g b) : o.bind f = o'.bind g := by
  cases h with
  | none => rfl
  | some hab => exact hf _ _ hab

theorem rel_cases {α β : Type} {R : α → β → Prop} {o : Option α} {o' : Option β} (h : Option.Rel R o o') :
    (o = none ∧ o' = none) ∨ ∃ a b, o = some a ∧ o' = some b ∧ R a b := by
  cases h with
  | none => exact .inl ⟨rfl, rfl⟩
  | some hab => exact .inr ⟨_, _, rfl, rfl, hab⟩

theorem rel_map {α β γ δ : Type} {R : α → β → Prop} {S : γ → δ → Prop} {o : Option α} {o' : Option β}
    (h : Option.Rel R o o') {f : α → γ} {g : β → δ} (hf : ∀ a b, R a b → S (f a) (g b)) :
    Option.Rel S (o.map f) (o'.map g) := by
  cases h with
  | none => exact .none
  | some hab => exact .some (hf _ _ hab)

theorem rel_imp {α β : Type} {R S : α → β → Prop} {o : Option α} {o' : Option β} (h : Option.Rel R o o')
    (hRS : ∀ a b, R a b → S a b) : Option.Rel S o o' := by
  cases h with
  | none => exact .none
  | some hab => exact .some (hRS _ _ hab)

/-- What is read from `null` and from the text `None` is read from every value that says nothing. -/
theorem read_absent {α : Type} {f : Value → α} {a : α} (hnull : f .null = a) (htext : f (.string "None") = a) {v : Value}
    (hv : v.isAbsent = true) : f v = a := by
  rcases Value.isAbsent_iff.1 hv with rfl | rfl
  · exact hnull
  · exact htext

/-- Pointer by pointer, declarators that are related have related declarators behind their pointers. -/
theorem stripped_related {R : Node → Node → Prop} (htag : ∀ {n n'}, R n n' → n.tag = n'.tag)
    (hbase : ∀ {n n'}, R n n' → Option.Rel R (n.node? "base") (n'.node? "base")) {n n' : Node} (h : R n n') :
    R (stripped n) (stripped n') := by
  have hpointer {n n' : Node} (h : R n n') : n.isTagged "CPtrDeclarator" = n'.isTagged "CPtrDeclarator" := by
    unfold Node.isTagged
    rw [htag h]
  revert n'
  refine stripped_induction (P := fun n inner => ∀ {n'}, R n n' → R inner (stripped n')) ?_ ?_ n
  · intro n hbare n' h
    have hbare' : Bare n' := by
      rcases hbare with htag | hnone
      · exact .inl (hpointer h ▸ htag)
      · rcases rel_cases (hbase h) with ⟨-, hnone'⟩ | ⟨m, m', hm, -⟩
        · exact .inr hnone'
        · rw [hnone] at hm
          cases hm
    rw [stripped_self hbare']
    exact h
  · intro n base htag hsome ih n' h
    rcases rel_cases (hbase h) with ⟨hnone, -⟩ | ⟨m, m', hm, hm', hinner⟩
    · rw [hsome] at hnone
      cases hnone
    · obtain rfl : base = m := Option.some.inj (hsome.symm.trans hm)
      rw [stripped_pointer (hpointer h ▸ htag) hm']
      exact ih hinner

namespace Respelled

variable {s : Standing} {v v' : Value} {n n' : Node}

theorem isAbsent (h : Respelled s v v') : v.isAbsent = v'.isAbsent := by
  cases h with
  | same => rfl
  | absent _ hv hv' => rw [hv, hv']
  | array => rfl
  | object => rfl

/-- Values that say something are of one type. -/
theorem kindName (h : Respelled s v v') (hv : v.isAbsent = false) : v.kindName = v'.kindName := by
  cases h with
  | same => rfl
  | absent _ habsent => exact absurd habsent (by simp [hv])
  | array => rfl
  | object => rfl

theorem asText (h : Respelled s v v') (hv : s.textual = true ∨ v.isAbsent = false) : v.text? = v'.text? := by
  cases h with
  | same => rfl
  | absent hs habsent => exact absurd hv (by simp [hs, habsent])
  | array => rfl
  | object => rfl

theorem asInt (h : Respelled s v v') : v.int? = v'.int? := by
  have hnone : ∀ w : Value, w.isAbsent = true → w.int? = none := fun w hw => read_absent rfl rfl hw
  cases h with
  | same => rfl
  | absent _ hv hv' => rw [hnone v hv, hnone v' hv']
  | array => rfl
  | object => rfl

theorem asNode (h : Respelled s v v') :
    Option.Rel (fun m m' => Respelled s (.object m) (.object m')) v.node? v'.node? := by
  have hnone : ∀ w : Value, w.isAbsent = true → w.node? = none := fun w hw => read_absent rfl rfl hw
  cases h with
  | same =>
    cases v with
    | object m => exact .some (.same _)
    | _ => exact .none
  | absent _ hv hv' =>
    rw [hnone v hv, hnone v' hv']
    exact .none
  | array => exact .none
  | object htag hfields => exact .some (.object htag hfields)

theorem asItems (h : Respelled s v v') : Option.Rel (List.Forall₂ (Respelled .free)) v.items? v'.items? := by
  have hnone : ∀ w : Value, w.isAbsent = true → w.items? = none := fun w hw => read_absent rfl rfl hw
  cases h with
  | same =>
    cases v with
    | array items => exact .some (List.forall₂_same.2 fun x _ => .same x)
    | _ => exact .none
  | absent _ hv hv' =>
    rw [hnone v hv, hnone v' hv']
    exact .none
  | array hitems => exact .some hitems
  | object => exact .none

/-! ## Reading a field -/

theorem tag (h : Respelled s (.object n) (.object n')) : n.tag = n'.tag := by
  cases h with
  | same => rfl
  | absent _ hv => cases hv
  | object htag => exact htag

theorem field (h : Respelled s (.object n) (.object n')) (name : String) :
    Respelled (s.field n.tag name) (held n name) (held n' name) := by
  cases h with
  | same => exact .same _
  | absent _ hv => cases hv
  | object _ hfields => exact hfields name

theorem node?_held (n : Node) (name : String) : n.node? name = (held n name).node? := by
  unfold Node.node? held
  cases n.get? name <;> rfl

theorem text?_held (n : Node) (name : String) : n.text? name = (held n name).text? := by
  unfold Node.text? held
  cases n.get? name <;> rfl

theorem int?_held (n : Node) (name : String) : n.int? name = (held n name).int? := by
  unfold Node.int? held
  cases n.get? name <;> rfl

theorem present?_held (n : Node) (name : String) :
    n.present? name = if (held n name).isAbsent then none else some (held n name) := by
  unfold Node.present? held
  cases n.get? name with
  | none => rfl
  | some v => cases hv : v.isAbsent <;> simp [Option.filter, hv]

theorem node? (h : Respelled s (.object n) (.object n')) (name : String) :
    Option.Rel (fun m m' => Respelled (s.field n.tag name) (.object m) (.object m')) (n.node? name) (n'.node? name) := by
  rw [node?_held, node?_held]
  exact (h.field name).asNode

theorem int? (h : Respelled s (.object n) (.object n')) (name : String) : n.int? name = n'.int? name := by
  rw [int?_held, int?_held]
  exact (h.field name).asInt

theorem text? (h : Respelled s (.object n) (.object n')) {name : String}
    (hname : (s.field n.tag name).textual = true) : n.text? name = n'.text? name := by
  rw [text?_held, text?_held]
  exact (h.field name).asText (.inl hname)

/-- A field that is textual in every node. -/
theorem named (h : Respelled s (.object n) (.object n')) {name : String} (hname : name ∈ textualFields) :
    n.text? name = n'.text? name := by
  refine h.text? ?_
  simp [Standing.field, hname]

/-- Nothing is not the text `True`, however it is spelled. -/
theorem flag (h : Respelled s (.object n) (.object n')) (name : String) : n.flag name = n'.flag name := by
  have hfalse : ∀ w : Value, w.isAbsent = true → (w.text? == some "True") = false :=
    fun w hw => read_absent (f := fun w => w.text? == some "True") rfl rfl hw
  unfold Node.flag
  rw [text?_held, text?_held]
  cases hv : (held n name).isAbsent with
  | true => rw [hfalse _ hv, hfalse _ ((h.field name).isAbsent ▸ hv)]
  | false => rw [(h.field name).asText (.inr hv)]

theorem present? (h : Respelled s (.object n) (.object n')) (name : String) :
    Option.Rel (fun v v' => Respelled (s.field n.tag name) v v' ∧ v.isAbsent = false)
      (n.present? name) (n'.present? name) := by
  rw [present?_held, present?_held, ← (h.field name).isAbsent]
  cases hv : (held n name).isAbsent with
  | true => exact .none
  | false => exact .some ⟨h.field name, hv⟩

theorem integerText? (h : Respelled s (.object n) (.object n')) : integerText? n = integerText? n' := by
  refine bind_eq_of_rel (h.present? "value") fun v v' hv => ?_
  rw [hv.1.asText (.inr hv.2), hv.1.asInt]

theorem boolText?_held (n : Node) :
    Convert.boolText? n = match held n "value" with
      | .string text => some text
      | .bool true => some "True"
      | .bool false => some "False"
      | _ => none := by
  unfold Convert.boolText? held
  cases n.get? "value" with
  | none => rfl
  | some v => rcases v with _ | (_ | _) | _ | _ | _ | _ <;> rfl

theorem boolText? (h : Respelled s (.object n) (.object n')) (htag : n.tag = some "Bool") :
    Convert.boolText? n = Convert.boolText? n' := by
  have htextual : (s.field n.tag "value").textual = true := by simp [Standing.field, htag, textualTags]
  have hvalue := h.field "value"
  rw [boolText?_held, boolText?_held]
  revert hvalue
  generalize held n "value" = v, held n' "value" = v'
  intro hvalue
  cases hvalue with
  | same => rfl
  | absent hs => exact absurd htextual (by simp [hs])
  | array => rfl
  | object => rfl

theorem positionOf (h : Respelled s (.object n) (.object n')) : positionOf n = positionOf n' := by
  unfold Convert.positionOf
  rw [h.int? "line", h.int? "col"]

/-! ## Declarators -/

/-- Related declarators have related declarators behind their pointers. -/
theorem stripped (h : Respelled s (.object n) (.object n')) :
    ∃ s', Respelled s' (.object (stripped n)) (.object (stripped n')) := by
  refine stripped_related (R := fun n n' => ∃ s, Respelled s (.object n) (.object n')) ?_ ?_ ⟨s, h⟩
  · rintro n n' ⟨s, h⟩
    exact h.tag
  · rintro n n' ⟨s, h⟩
    exact rel_imp (h.node? "base") fun _ _ hm => ⟨_, hm⟩

end Respelled

end Graft.Convert
