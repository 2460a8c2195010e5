/-
Documents that differ in where their nodes stand.

`Moved` relates two values that are the same but for the fields that positions are read from, in their nodes at any depth:
such a field may hold anything in either, or be left out. Nothing else of a node is read from these fields, so every other
way of reading a field gives the same with both nodes or gives related values again.

`Twins root` is the relation that conversion is followed through. The first of two twins is part of a document, and all
nodes in it are nodes of that document, so that their positions are positions of the document (`Located`).

`moved_insert` and `moved_inside` are the single steps of the relation.
-/
import Mathlib.Data.List.Forall2
import Graft.Proofs.Agree
import Graft.Proofs.Alike
import Graft.Proofs.Place
import Graft.Proofs.Respelled

namespace Graft.Convert

open Graft.Document

/-! ## The relation -/

/-- the values are the same but for where their nodes stand -/
inductive Moved : Value → Value → Prop where
  | same (v : Value) : Moved v v
  | array {items items' : List Value} : List.Forall₂ Moved items items' → Moved (.array items) (.array items')
  | object {n n' : Node} : n.tag = n'.tag → (∀ name ∉ positionFields, Moved (held n name) (held n' name)) →
      Moved (.object n) (.object n')

/-- A node stands somewhere else. -/
theorem moved_insert {name : String} (h : name ∈ positionFields) (n : Node) (v : Value) :
    Moved (.object n) (.object (n.insert name v)) := by
  refine .object rfl fun other hother => ?_
  have hne : other ≠ name := fun heq => hother (heq ▸ h)
  rw [held_insert_of_ne n hne]
  exact .same _

/-- What is inside a node stands somewhere else. -/
theorem moved_inside {name : String} {v v' : Value} (n : Node) (h : Moved v v') :
    Moved (.object (n.insert name v)) (.object (n.insert name v')) := by
  refine .object rfl fun other _ => ?_
  by_cases hother : other = name
  · subst hother
    rw [held_insert_self, held_insert_self]
    exact h
  · rw [held_insert_of_ne n hother, held_insert_of_ne n hother]
    exact .same _

namespace Moved

variable {v v' : Value}

theorem isAbsent (h : Moved v v') : v.isAbsent = v'.isAbsent := by
  cases h <;> rfl

theorem kindName (h : Moved v v') : v.kindName = v'.kindName := by
  cases h <;> rfl

theorem asText (h : Moved v v') : v.text? = v'.text? := by
  cases h <;> rfl

theorem asInt (h : Moved v v') : v.int? = v'.int? := by
  cases h <;> rfl

end Moved

/-- no position, or that of a node of the document -/
def Located (root : Node) (p : Position) : Prop :=
  p = .unknown ∨ ∃ o, Holds (.object root) (.object o) ∧ p = positionOf o

theorem located_unknown {root : Node} : Located root .unknown := .inl rfl

/-- a value in the document, and one that differs from it in where nodes stand -/
structure Twins (root : Node) (v v' : Value) : Prop where
  within : ∀ o, Holds v (.object o) → Holds (.object root) (.object o)
  moved : Moved v v'

namespace Twins

variable {root n n' : Node} {v v' : Value}

/-! ## Reading a value -/

theorem items {items items' : List Value}
    (hwithin : ∀ x ∈ items, ∀ o, Holds x (.object o) → Holds (.object root) (.object o))
    (h : List.Forall₂ Moved items items') : List.Forall₂ (Twins root) items items' := by
  induction h with
  | nil => exact .nil
  | cons hx _ ih =>
    obtain ⟨hfirst, hrest⟩ := List.forall_mem_cons.1 hwithin
    exact .cons ⟨hfirst, hx⟩ (ih hrest)

theorem asItems (h : Twins root v v') : Option.Rel (List.Forall₂ (Twins root)) v.items? v'.items? := by
  obtain ⟨hwithin, hmoved⟩ := h
  cases hmoved with
  | same =>
    cases v with
    | array xs =>
      have hsame : List.Forall₂ Moved xs xs := List.forall₂_same.2 fun x _ => .same x
      exact .some (items (fun x hx o ho => hwithin o (.item hx ho)) hsame)
    | _ => exact .none
  | array hitems => exact .some (items (fun x hx o ho => hwithin o (.item hx ho)) hitems)
  | object => exact .none

theorem asNode (h : Twins root v v') :
    Option.Rel (fun m m' => Twins root (.object m) (.object m')) v.node? v'.node? := by
  obtain ⟨hwithin, hmoved⟩ := h
  cases hmoved with
  | same =>
    cases v with
    | object m => exact .some ⟨hwithin, .same _⟩
    | _ => exact .none
  | array => exact .none
  | object htag hfields => exact .some ⟨hwithin, .object htag hfields⟩

/-! ## Reading a field -/

theorem tag (h : Twins root (.object n) (.object n')) : n.tag = n'.tag := by
  cases h.moved with
  | same => rfl
  | object htag => exact htag

theorem isTagged (h : Twins root (.object n) (.object n')) (kind : String) : n.isTagged kind = n'.isTagged kind := by
  unfold Node.isTagged
  rw [h.tag]

/-- A fault says the same of twins, but for where they stand. -/
theorem blame (h : Twins root (.object n) (.object n')) (d : Defect) :
    (Fault.of n d).withoutPlace = (Fault.of n' d).withoutPlace := by
  unfold Fault.of Fault.withoutPlace tagOrUntagged
  rw [h.tag]

theorem located (h : Twins root (.object n) (.object n')) : Located root (positionOf n) :=
  .inr ⟨n, h.within n (.self _), rfl⟩

theorem field (h : Twins root (.object n) (.object n')) (name : String) (hname : name ∉ positionFields) :
    Twins root (held n name) (held n' name) := by
  refine ⟨fun o ho => ?_, ?_⟩
  · unfold held at ho
    cases hget : n.get? name with
    | none =>
      rw [hget] at ho
      cases ho
    | some v =>
      rw [hget] at ho
      exact h.within o (.field hget ho)
  · cases h.moved with
    | same => exact .same _
    | object _ hfields => exact hfields name hname

theorem node? (h : Twins root (.object n) (.object n')) (name : String) (hname : name ∉ positionFields) :
    Option.Rel (fun m m' => Twins root (.object m) (.object m')) (n.node? name) (n'.node? name) := by
  rw [Respelled.node?_held, Respelled.node?_held]
  exact (h.field name hname).asNode

theorem int? (h : Twins root (.object n) (.object n')) (name : String) (hname : name ∉ positionFields) :
    n.int? name = n'.int? name := by
  rw [Respelled.int?_held, Respelled.int?_held]
  exact (h.field name hname).moved.asInt

theorem text? (h : Twins root (.object n) (.object n')) (name : String) (hname : name ∉ positionFields) :
    n.text? name = n'.text? name := by
  rw [Respelled.text?_held, Respelled.text?_held]
  exact (h.field name hname).moved.asText

theorem filledText? (h : Twins root (.object n) (.object n')) (name : String) (hname : name ∉ positionFields) :
    n.filledText? name = n'.filledText? name := by
  unfold Node.filledText?
  rw [h.text? name hname]

theorem flag (h : Twins root (.object n) (.object n')) (name : String) (hname : name ∉ positionFields) :
    n.flag name = n'.flag name := by
  unfold Node.flag
  rw [h.text? name hname]

theorem present? (h : Twins root (.object n) (.object n')) (name : String) (hname : name ∉ positionFields) :
    Option.Rel (Twins root) (n.present? name) (n'.present? name) := by
  rw [Respelled.present?_held, Respelled.present?_held, ← (h.field name hname).moved.isAbsent]
  cases (held n name).isAbsent with
  | true => exact .none
  | false => exact .some (h.field name hname)

theorem isSome_present? (h : Twins root (.object n) (.object n')) (name : String) (hname : name ∉ positionFields) :
    (n.present? name).isSome = (n'.present? name).isSome := by
  rcases rel_cases (h.present? name hname) with ⟨hv, hv'⟩ | ⟨v, v', hv, hv', -⟩
  · rw [hv, hv']
  · rw [hv, hv', Option.isSome_some, Option.isSome_some]

theorem presentText? (h : Twins root (.object n) (.object n')) (name : String) (hname : name ∉ positionFields) :
    (n.present? name).bind Value.text? = (n'.present? name).bind Value.text? :=
  bind_eq_of_rel (h.present? name hname) fun _ _ hv => hv.moved.asText

theorem integerText? (h : Twins root (.object n) (.object n')) : integerText? n = integerText? n' := by
  refine bind_eq_of_rel (h.present? "value" (by decide)) fun v v' hv => ?_
  rw [hv.moved.asText, hv.moved.asInt]

theorem boolText? (h : Twins root (.object n) (.object n')) : boolText? n = boolText? n' := by
  have hvalue := (h.field "value" (by decide)).moved
  rw [Respelled.boolText?_held, Respelled.boolText?_held]
  revert hvalue
  generalize held n "value" = v, held n' "value" = v'
  intro hvalue
  cases hvalue <;> rfl

/-! ## Declarators -/

/-- Twin declarators have twins behind their pointers. -/
theorem stripped (h : Twins root (.object n) (.object n')) :
    Twins root (.object (stripped n)) (.object (stripped n')) :=
  stripped_related (R := fun n n' => Twins root (.object n) (.object n')) (fun h => h.tag)
    (fun h => h.node? "base" (by decide)) h

theorem declarator? (h : Twins root (.object n) (.object n')) :
    Option.Rel (fun m m' => Twins root (.object m) (.object m')) (declarator? n) (declarator? n') :=
  rel_map (h.node? "declarator" (by decide)) fun _ _ hinner => hinner.stripped

end Twins

end Graft.Convert
