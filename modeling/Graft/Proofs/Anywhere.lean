/-
Changes of nodes anywhere in a document.

`Anywhere step` is the least equivalence of values that has the changes `step` of a single node, inside lists and inside
fields too, at any depth. What such a change keeps of a node is a relation of nodes: an equivalence that holds of each
change, and where one field holds related values. `Anywhere.parts` says that it then holds wherever related values are
nodes, and that related lists are related item by item.
-/
import Graft.Proofs.Respelled

namespace Graft.Convert

open Graft.Document

/-- the values differ by changes of single nodes, at any depth -/
inductive Anywhere (step : Node → Node → Prop) : Value → Value → Prop where
  | refl (v : Value) : Anywhere step v v
  | symm {v v' : Value} : Anywhere step v v' → Anywhere step v' v
  | trans {v v' v'' : Value} : Anywhere step v v' → Anywhere step v' v'' → Anywhere step v v''
  /-- one node -/
  | node {n n' : Node} : step n n' → Anywhere step (.object n) (.object n')
  /-- inside a list -/
  | item {before after : List Value} {v v' : Value} : Anywhere step v v' →
      Anywhere step (.array (before ++ v :: after)) (.array (before ++ v' :: after))
  /-- inside a field -/
  | field {tag : Option String} {before after : List (String × Value)} {name : String} {v v' : Value} :
      Anywhere step v v' →
      Anywhere step (.object ⟨tag, before ++ (name, v) :: after⟩) (.object ⟨tag, before ++ (name, v') :: after⟩)

/-- the values are the same leaf, lists that are related item by item, or nodes that are related -/
inductive Parted (V : Value → Value → Prop) (R : Node → Node → Prop) : Value → Value → Prop where
  | leaf {v : Value} : v.node? = none → v.items? = none → Parted V R v v
  | array {items items' : List Value} : List.Forall₂ V items items' → Parted V R (.array items) (.array items')
  | object {n n' : Node} : R n n' → Parted V R (.object n) (.object n')

/-- what changes of single nodes keep of a node -/
structure Kept (step : Node → Node → Prop) (R : Node → Node → Prop) : Prop where
  equivalence : Equivalence R
  changed {n n' : Node} : step n n' → R n n'
  field {tag : Option String} {before after : List (String × Value)} {name : String} {v v' : Value} :
    Anywhere step v v' → R ⟨tag, before ++ (name, v) :: after⟩ ⟨tag, before ++ (name, v') :: after⟩

variable {step : Node → Node → Prop} {R : Node → Node → Prop}

theorem forall₂_refl (items : List Value) : List.Forall₂ (Anywhere step) items items :=
  List.forall₂_same.2 fun v _ => .refl v

theorem forall₂_trans {items items' items'' : List Value} (h : List.Forall₂ (Anywhere step) items items')
    (h' : List.Forall₂ (Anywhere step) items' items'') : List.Forall₂ (Anywhere step) items items'' := by
  induction h generalizing items'' with
  | nil => exact h'
  | cons hv _ ih =>
    cases h' with
    | cons hv' hrest' => exact .cons (hv.trans hv') (ih hrest')

/-- Values that differ by changes of single nodes are of one form, and what the changes keep is kept. -/
theorem Anywhere.parts (hkept : Kept step R) {v v' : Value} (h : Anywhere step v v') :
    Parted (Anywhere step) R v v' := by
  induction h with
  | refl v =>
    cases v with
    | array items => exact .array (forall₂_refl items)
    | object n => exact .object (hkept.equivalence.refl n)
    | _ => exact .leaf rfl rfl
  | symm _ ih =>
    cases ih with
    | leaf hnode hitems => exact .leaf hnode hitems
    | array hitems => exact .array (hitems.flip.imp fun _ _ h => h.symm)
    | object hnodes => exact .object (hkept.equivalence.symm hnodes)
  | trans _ _ ih ih' =>
    cases ih with
    | leaf => exact ih'
    | array hitems =>
      cases ih' with
      | leaf _ hnone => cases hnone
      | array hitems' => exact .array (forall₂_trans hitems hitems')
    | object hnodes =>
      cases ih' with
      | leaf hnone => cases hnone
      | object hnodes' => exact .object (hkept.equivalence.trans hnodes hnodes')
  | node hstep => exact .object (hkept.changed hstep)
  | item h _ => exact .array (List.rel_append (forall₂_refl _) (.cons h (forall₂_refl _)))
  | field h _ => exact .object (hkept.field h)

/-! ## What values of one form have in common -/

namespace Parted

variable {V : Value → Value → Prop} {v v' : Value}

theorem isAbsent (h : Parted V R v v') : v.isAbsent = v'.isAbsent := by
  cases h <;> rfl

theorem kindName (h : Parted V R v v') : v.kindName = v'.kindName := by
  cases h <;> rfl

theorem asText (h : Parted V R v v') : v.text? = v'.text? := by
  cases h <;> rfl

theorem asInt (h : Parted V R v v') : v.int? = v'.int? := by
  cases h <;> rfl

theorem asItems (h : Parted V R v v') : Option.Rel (List.Forall₂ V) v.items? v'.items? := by
  cases h with
  | leaf _ hitems =>
    rw [hitems]
    exact .none
  | array hitems => exact .some hitems
  | object => exact .none

variable {n n' : Node}

theorem nodes (h : Parted V R (.object n) (.object n')) : R n n' := by
  cases h with
  | leaf hnode => cases hnode
  | object hnodes => exact hnodes

/-- Nodes whose values are of one form say the same whole number. -/
theorem integerText? (h : Parted V R (held n "value") (held n' "value")) : integerText? n = integerText? n' := by
  unfold Convert.integerText?
  rw [Respelled.present?_held, Respelled.present?_held, ← h.isAbsent]
  cases (held n "value").isAbsent with
  | true => rfl
  | false =>
    simp only [Bool.false_eq_true, if_false, Option.bind_some]
    rw [h.asText, h.asInt]

theorem boolText? (h : Parted V R (held n "value") (held n' "value")) : boolText? n = boolText? n' := by
  rw [Respelled.boolText?_held, Respelled.boolText?_held]
  generalize held n "value" = v, held n' "value" = v' at h
  cases h <;> rfl

end Parted

theorem Anywhere.asNode (hkept : Kept step R) {v v' : Value} (h : Anywhere step v v') :
    Option.Rel (fun n n' => Anywhere step (.object n) (.object n')) v.node? v'.node? := by
  cases h.parts hkept with
  | leaf hnode =>
    rw [hnode]
    exact .none
  | array => exact .none
  | object => exact .some h

/-! ## What a changed node holds -/

/-- What nodes that differ in one field hold under a name is related, if what that field holds is. -/
theorem held_changed {W : Value → Value → Prop} (hrefl : ∀ v, W v v) {tag : Option String}
    {before after : List (String × Value)} {name : String} {v v' : Value} (other : String) (h : name = other → W v v') :
    W (held ⟨tag, before ++ (name, v) :: after⟩ other) (held ⟨tag, before ++ (name, v') :: after⟩ other) := by
  unfold held Node.get?
  rw [List.lookup_append, List.lookup_append, List.lookup_cons, List.lookup_cons]
  cases before.lookup other with
  | some w => exact hrefl w
  | none =>
    cases hother : other == name with
    | true => exact h (beq_iff_eq.1 hother).symm
    | false => exact hrefl _

/-- A change inside one field changes what the node holds under that name at most. -/
theorem held_field {tag : Option String} {before after : List (String × Value)} {name : String} {v v' : Value}
    (h : Anywhere step v v') (other : String) :
    Anywhere step (held ⟨tag, before ++ (name, v) :: after⟩ other)
      (held ⟨tag, before ++ (name, v') :: after⟩ other) :=
  held_changed .refl other fun _ => h

/-- One more field changes nothing under another name. -/
theorem held_extra {tag : Option String} {before after : List (String × Value)} {name other : String} (hne : other ≠ name)
    (v : Value) : held ⟨tag, before ++ after⟩ other = held ⟨tag, before ++ (name, v) :: after⟩ other := by
  have hne' : (other == name) = false := by simpa using hne
  unfold held Node.get?
  rw [List.lookup_append, List.lookup_append, List.lookup_cons, hne']

end Graft.Convert
