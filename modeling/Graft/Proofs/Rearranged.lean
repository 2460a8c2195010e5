/-
The order of the fields makes no difference, and neither do fields that nothing reads.

`Rearranged` relates two values that differ in the order of the fields of their nodes, and by fields under names that no
construction reads, in any number of places at any depth. Such values are the same leaf, lists that are related item by
item, or nodes of one tag that are related in every field that is read (`ReadAlike`). This is all that a construction sees
of a value, as it goes to every field by its name (`lookalike_rearranged`).

`convertModule_rearranged`: two documents that differ in this way have the same module or the same fault in either mode,
and the same notes in the same order, up to the text of a node that was dropped, which is written with its fields as they
stand.
-/
import Graft.Proofs.Anywhere
import Graft.Proofs.Lookalike
import Graft.Proofs.RoundTrip

namespace Graft.Convert

open Graft.Document Attempt

/-! ## The relation -/

/-- the nodes differ in the order of their fields, or by a field that nothing reads -/
inductive Rearrangement : Node → Node → Prop where
  /-- the fields in another order, each of its own name -/
  | reorder {tag : Option String} {fields fields' : List (String × Value)} : (fields.map Prod.fst).Nodup →
      fields.Perm fields' → Rearrangement ⟨tag, fields⟩ ⟨tag, fields'⟩
  /-- one more field, under a name that no construction reads -/
  | extra {tag : Option String} {before after : List (String × Value)} {name : String} {v : Value} : name ∉ readFields →
      Rearrangement ⟨tag, before ++ after⟩ ⟨tag, before ++ (name, v) :: after⟩

/-- the values differ in the order of the fields of their nodes, and by fields that nothing reads, at any depth -/
def Rearranged : Value → Value → Prop := Anywhere Rearrangement

/-! ## What related values have in common -/

/-- the nodes are of one tag, and related in every field that is read -/
structure ReadAlike (n n' : Node) : Prop where
  tag : n.tag = n'.tag
  field : ∀ name ∈ readFields, Rearranged (held n name) (held n' name)

/-- A list of fields with different names gives what it holds in any order. -/
theorem lookup_perm {fields fields' : List (String × Value)} (hnames : (fields.map Prod.fst).Nodup)
    (hperm : fields.Perm fields') (name : String) : fields.lookup name = fields'.lookup name := by
  have hnames' : (fields'.map Prod.fst).Nodup := (hperm.map Prod.fst).nodup_iff.1 hnames
  apply Option.ext
  intro v
  constructor
  · intro h
    exact lookup_of_mem hnames' (hperm.subset (Node.mem_of_lookup h))
  · intro h
    exact lookup_of_mem hnames (hperm.symm.subset (Node.mem_of_lookup h))

theorem readAlike_of_rearrangement {n n' : Node} (h : Rearrangement n n') : ReadAlike n n' := by
  cases h with
  | reorder hnames hperm =>
    refine ⟨rfl, fun name _ => ?_⟩
    unfold held Node.get?
    rw [lookup_perm hnames hperm]
    exact .refl _
  | extra hname =>
    refine ⟨rfl, fun other hother => ?_⟩
    rw [held_extra (ne_of_mem_of_not_mem hother hname)]
    exact .refl _

theorem kept_readAlike : Kept Rearrangement ReadAlike where
  equivalence := {
    refl := fun _ => ⟨rfl, fun _ _ => .refl _⟩
    symm := fun h => ⟨h.tag.symm, fun name hname => (h.field name hname).symm⟩
    trans := fun h h' => ⟨h.tag.trans h'.tag, fun name hname => (h.field name hname).trans (h'.field name hname)⟩ }
  changed := readAlike_of_rearrangement
  field := fun h => ⟨rfl, fun other _ => held_field h other⟩

/-! ## What no construction tells apart -/

namespace Rearranged

variable {v v' : Value} {n n' : Node}

/-- Related values are the same leaf, lists that are related item by item, or nodes that are read alike. -/
theorem parts (h : Rearranged v v') : Parted Rearranged ReadAlike v v' := Anywhere.parts kept_readAlike h

theorem asNode (h : Rearranged v v') : Option.Rel (RelatedNodes Rearranged) v.node? v'.node? :=
  Anywhere.asNode kept_readAlike h

variable (h : Rearranged (.object n) (.object n'))

include h

theorem field {name : String} (hname : name ∈ readFields) : Rearranged (held n name) (held n' name) :=
  h.parts.nodes.field name hname

theorem text? {name : String} (hname : name ∈ readFields) : n.text? name = n'.text? name := by
  rw [Respelled.text?_held, Respelled.text?_held]
  exact (h.field hname).parts.asText

theorem int? {name : String} (hname : name ∈ readFields) : n.int? name = n'.int? name := by
  rw [Respelled.int?_held, Respelled.int?_held]
  exact (h.field hname).parts.asInt

theorem node? {name : String} (hname : name ∈ readFields) :
    Option.Rel (RelatedNodes Rearranged) (n.node? name) (n'.node? name) := by
  rw [Respelled.node?_held, Respelled.node?_held]
  exact (h.field hname).asNode

theorem present? {name : String} (hname : name ∈ readFields) :
    Option.Rel Rearranged (n.present? name) (n'.present? name) := by
  rw [Respelled.present?_held, Respelled.present?_held, ← (h.field hname).parts.isAbsent]
  cases (held n name).isAbsent with
  | true => exact .none
  | false => exact .some (h.field hname)

theorem positionOf : positionOf n = positionOf n' := by
  unfold Convert.positionOf
  rw [h.int? (by simp [readFields, positionFields] : "line" ∈ readFields),
    h.int? (by simp [readFields, positionFields] : "col" ∈ readFields)]

theorem flag {name : String} (hname : name ∈ readFields) : n.flag name = n'.flag name := by
  unfold Node.flag
  rw [h.text? hname]

/-- What the node says as a value is of one form. -/
theorem value : Parted Rearranged ReadAlike (held n "value") (held n' "value") :=
  (h.field (by simp [readFields, partFields] : "value" ∈ readFields)).parts

theorem stripped : Rearranged (.object (stripped n)) (.object (stripped n')) := by
  refine stripped_related (R := RelatedNodes Rearranged) ?_ ?_ h
  · intro n n' h
    exact h.parts.nodes.tag
  · intro n n' h
    exact h.node? (by simp [readFields, declaratorFields])

theorem keyText? : Option.Rel (fun k k' => Rearranged (.object k) (.object k') ∧ k.text? "value" = k'.text? "value")
    (n.node? "key") (n'.node? "key") := by
  refine rel_imp (h.node? (by simp [readFields, partFields])) fun k k' hkey => ⟨hkey, ?_⟩
  exact text? hkey (by simp [readFields, partFields])

theorem declarators : Option.Rel (fun v v' => Option.Rel (List.Forall₂ (SameDeclarator Rearranged)) v.items? v'.items?)
    (n.present? "declarators") (n'.present? "declarators") := by
  refine rel_imp (h.present? (by simp [readFields])) fun v v' hv => ?_
  refine rel_imp hv.parts.asItems fun items items' hitems => hitems.imp fun v v' hv => ?_
  exact ⟨hv.parts.isAbsent, fun _ => hv.parts.kindName, rel_imp hv.asNode fun _ _ hm => stripped hm⟩

end Rearranged

/-- Every field is read by its name, so that no construction tells such values apart. -/
theorem lookalike_rearranged : Lookalike Rearranged where
  isAbsent := fun h => h.parts.isAbsent
  kindName := fun h _ => h.parts.kindName
  asNode := fun h => h.asNode
  asItems := fun h => h.parts.asItems
  tag := fun h => h.parts.nodes.tag
  positionOf := fun h => h.positionOf
  part := fun h hname => h.field (by simp [readFields, hname])
  text? := fun h hname => h.text? (by simp [readFields, hname])
  integerText? := fun h => h.value.integerText?
  boolText? := fun h _ => h.value.boolText?
  stringText? := fun h _ => h.text? (by simp [readFields, partFields])
  keyText? := fun h => h.keyText?
  isKeywordOnly := fun h => congrArg (· == some 1) (h.int? (by simp [readFields]))
  flag := fun h hname => h.flag (by simp [readFields, hname])
  declarator := fun h hname => rel_imp (h.node? (by simp [readFields, hname])) fun _ _ hd => Rearranged.stripped hd
  declarators := fun h => h.declarators

/-! ## Main result -/

/-- **Neither the order of the fields makes a difference, nor do fields that nothing reads.** Take two documents that differ
in the order of the fields of their nodes, and by fields under names that no construction reads for any tag, in any number
of places at any depth. In either mode they have the same module or the same fault, and the same notes in the same order, up
to the text of the nodes that were dropped. -/
theorem convertModule_rearranged {root root' : Node} (h : Rearranged (.object root) (.object root')) (mode : Mode) :
    ((convertModule root).run (.fresh mode)).1.mapError Fault.withoutSubtree =
        ((convertModule root').run (.fresh mode)).1.mapError Fault.withoutSubtree ∧
      ((convertModule root).run (.fresh mode)).2.notes.map Fault.withoutSubtree =
        ((convertModule root').run (.fresh mode)).2.notes.map Fault.withoutSubtree :=
  lookalike_rearranged.convertModule_eq h mode

/-- the name `a` -/
def nameA : Value := .object ⟨some "Name", [("name", .string "a")]⟩

/-- the constant `None` -/
def noneNode : Value := .object ⟨some "None", []⟩

/-- `a = None` on line 3, and a node that is dropped -/
def arranged : Node := ⟨some statListTag, [("stats", .array [
  .object ⟨some "SingleAssignment", [("line", .string "3"), ("lhs", nameA), ("rhs", noneNode)]⟩,
  .object ⟨some "Lambda", [("args", .array []), ("body", .null)]⟩])]⟩

/-- the same with the fields of both in the opposite order, and with a field `level` and a field `type` -/
def rearranged : Node := ⟨some statListTag, [("level", .string "module"), ("stats", .array [
  .object ⟨some "SingleAssignment", [("rhs", noneNode), ("type", .null), ("lhs", nameA), ("line", .string "3")]⟩,
  .object ⟨some "Lambda", [("body", .null), ("args", .array [])]⟩])]⟩

/-- The two documents have the same module in permissive mode, and one note each, which writes `Lambda` in two ways. -/
theorem convertModule_rearranged_assignment :
    Rearranged (.object arranged) (.object rearranged) ∧
    ((convertModule arranged).run (.fresh .permissive)).1.mapError Fault.withoutSubtree =
        ((convertModule rearranged).run (.fresh .permissive)).1.mapError Fault.withoutSubtree ∧
    ((convertModule arranged).run (.fresh .permissive)).2.notes.map Fault.withoutSubtree =
        ((convertModule rearranged).run (.fresh .permissive)).2.notes.map Fault.withoutSubtree ∧
    ((convertModule arranged).run (.fresh .permissive)).2.notes ≠
        ((convertModule rearranged).run (.fresh .permissive)).2.notes := by
  have hlevel : "level" ∉ readFields := by decide
  have htype : "type" ∉ readFields := by decide
  have hassignment : Rearranged
      (.object ⟨some "SingleAssignment", [("line", .string "3"), ("lhs", nameA), ("rhs", noneNode)]⟩)
      (.object ⟨some "SingleAssignment",
        [("rhs", noneNode), ("type", .null), ("lhs", nameA), ("line", .string "3")]⟩) := by
    apply Anywhere.trans (.node (.reorder (by decide) (List.reverse_perm _).symm))
    exact .node (@Rearrangement.extra _ [("rhs", noneNode)] _ _ _ htype)
  have hdropped : Rearranged (.object ⟨some "Lambda", [("args", .array []), ("body", .null)]⟩)
      (.object ⟨some "Lambda", [("body", .null), ("args", .array [])]⟩) :=
    .node (.reorder (by decide) (List.reverse_perm _).symm)
  have hstats := (@Anywhere.item _ [] [_] _ _ hassignment).trans (@Anywhere.item _ [_] [] _ _ hdropped)
  have hdocument : Rearranged (.object arranged) (.object rearranged) := by
    apply Anywhere.trans (@Anywhere.field _ _ [] [] "stats" _ _ hstats)
    exact .node (@Rearrangement.extra _ [] _ _ _ hlevel)
  obtain ⟨hmodule, hnotes⟩ := convertModule_rearranged hdocument .permissive
  refine ⟨hdocument, hmodule, hnotes, ?_⟩
  decide

end Graft.Convert
