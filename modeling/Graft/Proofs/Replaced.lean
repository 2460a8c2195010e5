/-
What a field may hold instead.

`Replaced S` relates two documents that differ in what some fields hold, at any places: `S name v v'` says that `v'` may
stand for `v` under the name. No construction sees this if `S` keeps what a value is read for under its name (`Unseen`):
a number is the same number, a declarator the same one behind its pointers, and a list of declarators the same list
entry by entry. No other field that is read is replaced.

- `replaced_stripped`: related declarators are related behind their pointers.
- `lookalike_replaced`: no construction tells such documents apart.
-/
import Graft.Proofs.Anywhere
import Graft.Proofs.Lookalike

namespace Graft.Convert

open Graft.Document

/-! ## Equivalences -/

theorem equivalence_rel {α : Type} {R : α → α → Prop} (h : Equivalence R) : Equivalence (Option.Rel R) where
  refl o := by
    cases o with
    | none => exact .none
    | some a => exact .some (h.refl a)
  symm hrel := by
    cases hrel with
    | none => exact .none
    | some hab => exact .some (h.symm hab)
  trans hrel hrel' := by
    cases hrel with
    | none => exact hrel'
    | some hab =>
      cases hrel' with
      | some hbc => exact .some (h.trans hab hbc)

theorem equivalence_forall₂ {α : Type} {R : α → α → Prop} (h : Equivalence R) : Equivalence (List.Forall₂ R) where
  refl _ := List.forall₂_same.2 fun a _ => h.refl a
  symm hlist := hlist.flip.imp fun _ _ hab => h.symm hab
  trans := by
    intro as bs cs hlist hlist'
    induction hlist generalizing cs with
    | nil => exact hlist'
    | cons hab _ ih =>
      cases hlist' with
      | cons hbc hrest => exact .cons (h.trans hab hbc) (ih hrest)

/-- declarators that are related behind their pointers -/
def Beneath (V : Value → Value → Prop) (d d' : Node) : Prop := V (.object (stripped d)) (.object (stripped d'))

variable {V : Value → Value → Prop}

/-- the values are such declarators, or both no nodes -/
def SameNode (V : Value → Value → Prop) (v v' : Value) : Prop := Option.Rel (Beneath V) v.node? v'.node?

theorem equivalence_sameNode (h : Equivalence V) : Equivalence (SameNode V) :=
  have hnodes : Equivalence (Option.Rel (Beneath V)) := equivalence_rel ⟨fun _ => h.refl _, h.symm, h.trans⟩
  ⟨fun _ => hnodes.refl _, hnodes.symm, hnodes.trans⟩

theorem equivalence_sameDeclarator (h : Equivalence V) : Equivalence (SameDeclarator V) where
  refl v := ⟨rfl, fun _ => rfl, (equivalence_sameNode h).refl v⟩
  symm hsame := {
    isAbsent := hsame.isAbsent.symm
    kindName := fun hv => (hsame.kindName (hsame.isAbsent ▸ hv)).symm
    asNode := (equivalence_sameNode h).symm hsame.asNode }
  trans hsame hsame' := {
    isAbsent := hsame.isAbsent.trans hsame'.isAbsent
    kindName := fun hv => (hsame.kindName hv).trans (hsame'.kindName (hsame.isAbsent ▸ hv))
    asNode := (equivalence_sameNode h).trans hsame.asNode hsame'.asNode }

/-- the values are the same list of declarators, entry by entry, or both no list -/
structure SameDeclarators (V : Value → Value → Prop) (v v' : Value) : Prop where
  isAbsent : v.isAbsent = v'.isAbsent
  asItems : Option.Rel (List.Forall₂ (SameDeclarator V)) v.items? v'.items?

theorem equivalence_sameDeclarators (h : Equivalence V) : Equivalence (SameDeclarators V) :=
  have hitems := equivalence_rel (equivalence_forall₂ (equivalence_sameDeclarator h))
  { refl := fun _ => ⟨rfl, hitems.refl _⟩
    symm := fun hsame => ⟨hsame.isAbsent.symm, hitems.symm hsame.asItems⟩
    trans := fun hsame hsame' => ⟨hsame.isAbsent.trans hsame'.isAbsent, hitems.trans hsame.asItems hsame'.asItems⟩ }

/-! ## The relation -/

/-- one field of the node holds something else -/
inductive FieldChange (S : String → Value → Value → Prop) : Node → Node → Prop where
  | put {tag : Option String} {before after : List (String × Value)} {name : String} {v v' : Value} : S name v v' →
      FieldChange S ⟨tag, before ++ (name, v) :: after⟩ ⟨tag, before ++ (name, v') :: after⟩

/-- the values differ in what some fields hold, at any depth -/
def Replaced (S : String → Value → Value → Prop) : Value → Value → Prop := Anywhere (FieldChange S)

/-- the fields that are converted, or read as texts -/
def shownFields : List String := partFields ++ textualFields ++ asyncFields

/-- the fields that are read as whole numbers -/
def numberFields : List String := "kw_only" :: positionFields

/-- no construction sees what is replaced -/
structure Unseen (S : String → Value → Value → Prop) : Prop where
  shown {name : String} {v v' : Value} : S name v v' → name ∉ shownFields
  number {name : String} {v v' : Value} : S name v v' → name ∈ numberFields → v.int? = v'.int?
  declarator {name : String} {v v' : Value} : S name v v' → name ∈ declaratorFields →
    Option.Rel (fun d d' => stripped d = stripped d') v.node? v'.node?
  declarators {v v' : Value} : S "declarators" v v' → SameDeclarators Eq v v'

variable {S : String → Value → Value → Prop} {v v' : Value} {n n' : Node}

theorem equivalence_replaced : Equivalence (Replaced S) := ⟨.refl, .symm, .trans⟩

theorem beneath_of_eq {d d' : Node} (h : stripped d = stripped d') : Beneath (Replaced S) d d' := by
  unfold Beneath
  rw [h]
  exact .refl _

theorem kept_tag : Kept (FieldChange S) fun n n' => n.tag = n'.tag where
  equivalence := ⟨fun _ => rfl, Eq.symm, Eq.trans⟩
  changed := by
    rintro _ _ ⟨_⟩
    rfl
  field _ := rfl

/-- Related values are of one form, and related nodes are of one tag. -/
theorem Replaced.form (h : Replaced S v v') : Parted (Replaced S) (fun n n' => n.tag = n'.tag) v v' :=
  Anywhere.parts kept_tag h

theorem Replaced.asNode (h : Replaced S v v') : Option.Rel (RelatedNodes (Replaced S)) v.node? v'.node? :=
  Anywhere.asNode kept_tag h

/-! ## Behind pointers -/

/-- Nodes that are related themselves, and whose bases are behind their pointers, are related behind their pointers. -/
theorem beneath_of_base (htag : n.tag = n'.tag) (hself : V (.object n) (.object n'))
    (hbase : Option.Rel (Beneath V) (n.node? "base") (n'.node? "base")) : Beneath V n n' := by
  unfold Beneath
  have hpointer : n'.isTagged "CPtrDeclarator" = n.isTagged "CPtrDeclarator" := by
    unfold Node.isTagged
    rw [htag]
  cases hptr : n.isTagged "CPtrDeclarator" with
  | false => rwa [stripped_self (.inl hptr), stripped_self (.inl (hpointer.trans hptr))]
  | true =>
    rcases rel_cases hbase with ⟨hnone, hnone'⟩ | ⟨d, d', hd, hd', hrel⟩
    · rwa [stripped_self (.inr hnone), stripped_self (.inr hnone')]
    · rwa [stripped_pointer hptr hd, stripped_pointer (hpointer.trans hptr) hd']

/-- **Related declarators are related behind their pointers.** -/
theorem replaced_stripped (hS : Unseen S) (h : Replaced S v v') : SameNode (Replaced S) v v' := by
  have hsame := equivalence_sameNode (equivalence_replaced (S := S))
  induction h with
  | refl v => exact hsame.refl v
  | symm _ ih => exact hsame.symm ih
  | trans _ _ ih ih' => exact hsame.trans ih ih'
  | node hstep =>
    obtain ⟨hchange⟩ := hstep
    refine .some (beneath_of_base rfl (.node (.put hchange)) ?_)
    rw [Respelled.node?_held, Respelled.node?_held]
    refine held_changed hsame.refl "base" ?_
    rintro rfl
    exact rel_imp (hS.declarator hchange (by simp [declaratorFields])) fun _ _ => beneath_of_eq
  | item => exact .none
  | field hv ih =>
    refine .some (beneath_of_base rfl (.field hv) ?_)
    rw [Respelled.node?_held, Respelled.node?_held]
    exact held_changed hsame.refl "base" fun _ => ih

/-! ## What related nodes have in common -/

/-- the nodes are of one tag, and hold under every name what is read alike -/
structure Kin (S : String → Value → Value → Prop) (n n' : Node) : Prop where
  tag : n.tag = n'.tag
  shown : ∀ name ∈ shownFields, Replaced S (held n name) (held n' name)
  number : ∀ name ∈ numberFields, (held n name).int? = (held n' name).int?
  declarator : ∀ name ∈ declaratorFields, SameNode (Replaced S) (held n name) (held n' name)
  declarators : SameDeclarators (Replaced S) (held n "declarators") (held n' "declarators")

theorem equivalence_kin : Equivalence (Kin S) :=
  have hnodes := equivalence_sameNode (equivalence_replaced (S := S))
  have hlists := equivalence_sameDeclarators (equivalence_replaced (S := S))
  { refl := fun _ => ⟨rfl, fun _ _ => .refl _, fun _ _ => rfl, fun _ _ => hnodes.refl _, hlists.refl _⟩
    symm := fun h => {
      tag := h.tag.symm
      shown := fun name hname => (h.shown name hname).symm
      number := fun name hname => (h.number name hname).symm
      declarator := fun name hname => hnodes.symm (h.declarator name hname)
      declarators := hlists.symm h.declarators }
    trans := fun h h' => {
      tag := h.tag.trans h'.tag
      shown := fun name hname => (h.shown name hname).trans (h'.shown name hname)
      number := fun name hname => (h.number name hname).trans (h'.number name hname)
      declarator := fun name hname => hnodes.trans (h.declarator name hname) (h'.declarator name hname)
      declarators := hlists.trans h.declarators h'.declarators } }

/-- One field is enough to look at. -/
theorem kin_of_field {tag : Option String} {before after : List (String × Value)} {name : String}
    (shown : name ∈ shownFields → Replaced S v v') (number : name ∈ numberFields → v.int? = v'.int?)
    (declarator : name ∈ declaratorFields → SameNode (Replaced S) v v')
    (declarators : name = "declarators" → SameDeclarators (Replaced S) v v') :
    Kin S ⟨tag, before ++ (name, v) :: after⟩ ⟨tag, before ++ (name, v') :: after⟩ where
  tag := rfl
  shown other hother := held_changed .refl other fun hname => shown (hname ▸ hother)
  number other hother :=
    held_changed (W := fun v v' => v.int? = v'.int?) (fun _ => rfl) other fun hname => number (hname ▸ hother)
  declarator other hother :=
    held_changed (equivalence_sameNode equivalence_replaced).refl other fun hname => declarator (hname ▸ hother)
  declarators := held_changed (equivalence_sameDeclarators equivalence_replaced).refl _ declarators

/-- What is the same is related. -/
theorem SameDeclarators.of_eq (h : SameDeclarators Eq v v') : SameDeclarators (Replaced S) v v' where
  isAbsent := h.isAbsent
  asItems := rel_imp h.asItems fun _ _ hitems => hitems.imp fun _ _ hsame => {
    isAbsent := hsame.isAbsent
    kindName := hsame.kindName
    asNode := rel_imp hsame.asNode fun _ _ hd => beneath_of_eq (Value.object.inj hd) }

theorem sameDeclarators_of_replaced (hS : Unseen S) (h : Replaced S v v') : SameDeclarators (Replaced S) v v' where
  isAbsent := h.form.isAbsent
  asItems := rel_imp h.form.asItems fun _ _ hitems => hitems.imp fun _ _ hv =>
    ⟨hv.form.isAbsent, fun _ => hv.form.kindName, replaced_stripped hS hv⟩

theorem kept_kin (hS : Unseen S) : Kept (FieldChange S) (Kin S) where
  equivalence := equivalence_kin
  changed := by
    rintro _ _ ⟨hchange⟩
    refine kin_of_field (fun hname => absurd hname (hS.shown hchange)) (hS.number hchange) (fun hname => ?_) ?_
    · exact rel_imp (hS.declarator hchange hname) fun _ _ => beneath_of_eq
    · rintro rfl
      exact (hS.declarators hchange).of_eq
  field h := kin_of_field (fun _ => h) (fun _ => (Replaced.form h).asInt) (fun _ => replaced_stripped hS h) fun _ =>
    sameDeclarators_of_replaced hS h

namespace Replaced

variable (hS : Unseen S) (h : Replaced S (.object n) (.object n'))

include hS h

theorem kin : Kin S n n' := (Anywhere.parts (kept_kin hS) h).nodes

theorem part {name : String} (hname : name ∈ partFields) : Replaced S (held n name) (held n' name) :=
  (h.kin hS).shown name (by simp [shownFields, hname])

theorem text? {name : String} (hname : name ∈ shownFields) : n.text? name = n'.text? name := by
  rw [Respelled.text?_held, Respelled.text?_held]
  exact ((h.kin hS).shown name hname).form.asText

theorem positionOf : positionOf n = positionOf n' := by
  unfold Convert.positionOf
  simp only [Respelled.int?_held]
  rw [(h.kin hS).number "line" (by simp [numberFields, positionFields]),
    (h.kin hS).number "col" (by simp [numberFields, positionFields])]

theorem isKeywordOnly : isKeywordOnly n = isKeywordOnly n' := by
  unfold Convert.isKeywordOnly
  rw [Respelled.int?_held, Respelled.int?_held, (h.kin hS).number "kw_only" (by simp [numberFields])]

theorem flag {name : String} (hname : name ∈ shownFields) : n.flag name = n'.flag name := by
  unfold Node.flag
  rw [h.text? hS hname]

/-- What the node says as a value is of one form. -/
theorem value : Parted (Replaced S) (fun n n' => n.tag = n'.tag) (held n "value") (held n' "value") :=
  (h.part hS (by simp [partFields] : "value" ∈ partFields)).form

theorem keyText? : Option.Rel (fun k k' => Replaced S (.object k) (.object k') ∧ k.text? "value" = k'.text? "value")
    (n.node? "key") (n'.node? "key") := by
  rw [Respelled.node?_held, Respelled.node?_held]
  refine rel_imp (h.part hS (by simp [partFields] : "key" ∈ partFields)).asNode fun k k' hkey => ⟨hkey, ?_⟩
  exact text? hS hkey (by simp [shownFields, partFields])

theorem declarator {name : String} (hname : name ∈ declaratorFields) :
    Option.Rel (Beneath (Replaced S)) (n.node? name) (n'.node? name) := by
  rw [Respelled.node?_held, Respelled.node?_held]
  exact (h.kin hS).declarator name hname

theorem declarators :
    Option.Rel (fun v v' => Option.Rel (List.Forall₂ (SameDeclarator (Replaced S))) v.items? v'.items?)
      (n.present? "declarators") (n'.present? "declarators") := by
  have hlist := (h.kin hS).declarators
  rw [Respelled.present?_held, Respelled.present?_held, ← hlist.isAbsent]
  cases (held n "declarators").isAbsent with
  | true => exact .none
  | false => exact .some hlist.asItems

end Replaced

/-- **What is not seen tells no documents apart.** -/
theorem lookalike_replaced (hS : Unseen S) : Lookalike (Replaced S) where
  isAbsent := fun h => h.form.isAbsent
  kindName := fun h _ => h.form.kindName
  asNode := fun h => h.asNode
  asItems := fun h => h.form.asItems
  tag := fun h => h.form.nodes
  positionOf := fun h => h.positionOf hS
  part := fun h hname => h.part hS hname
  text? := fun h hname => h.text? hS (by simp [shownFields, hname])
  integerText? := fun h => (h.value hS).integerText?
  boolText? := fun h _ => (h.value hS).boolText?
  stringText? := fun h _ => h.text? hS (by simp [shownFields, partFields])
  keyText? := fun h => h.keyText? hS
  isKeywordOnly := fun h => h.isKeywordOnly hS
  flag := fun h hname => h.flag hS (by simp [shownFields, hname])
  declarator := fun h hname => h.declarator hS hname
  declarators := fun h => h.declarators hS

end Graft.Convert
