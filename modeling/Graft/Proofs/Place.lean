/-
Where the constructions hand values on to the converter.

A construction reads some fields of its node itself, such as a name or an operator, and hands on what others hold, such
as an operand. `Kind.slots` lists the fields of the second sort for each kind of node, each with a `Shape`, which says
what the construction does with what the field holds: most are handed on as they are, some are looked into first.

- `Opens`: the values that are handed on from what a field holds.
- `Leads`: the same for a place, a `Hole`, that leads to one handed on; the hole has a node with a given tag in it, or a
  blank instead.
- `Place`: the places in a value, at any depth, at which a node with the tag is handed on. The blank is `null`, but an
  empty list where the node is itself the `else` block of an `if`.
- `leads_of_opens`: what is handed on is so at such a place.
-/
import Graft.Convert.Basic
import Graft.Proofs.Agree

namespace Graft.Convert

open Graft.Document

/-! ## Values inside values -/

/-- a value that stands somewhere in another, at any depth -/
inductive Holds : Value → Value → Prop where
  | self (v : Value) : Holds v v
  | item {items : List Value} {x v : Value} : x ∈ items → Holds x v → Holds (.array items) v
  | field {node : Node} {name : String} {x v : Value} : node.get? name = some x → Holds x v → Holds (.object node) v

theorem Holds.trans {u v w : Value} (h : Holds u v) (h' : Holds v w) : Holds u w := by
  induction h with
  | self => exact h'
  | item hx _ ih => exact .item hx (ih h')
  | field hx _ ih => exact .field hx (ih h')

theorem Holds.depth_le {u v : Value} (h : Holds u v) : v.depth ≤ u.depth := by
  induction h with
  | self => exact Nat.le_refl _
  | item hx _ ih =>
    rw [Value.depth]
    exact Nat.le_succ_of_le (Nat.le_trans ih (depth_le_depthOfItems hx))
  | field hx _ ih => exact Nat.le_trans ih (Nat.le_of_lt (Node.depth_lt_of_get? hx))

/-- The declarator behind pointers stands in the node of the pointers. -/
theorem holds_stripped (node : Node) : Holds (.object node) (.object (stripped node)) :=
  stripped_induction (P := fun node inner => Holds (.object node) (.object inner)) (fun _ _ => .self _)
    (fun _ _ _ hbase h => .field (Node.node?_eq_some.1 hbase) h) node

/-! ## Holes -/

/-- a value with a place in it, for each value that may stand at the place -/
abbrev Hole : Type := Value → Value

/-- a field of a node -/
def inField (node : Node) (name : String) : Hole := fun w => .object (node.insert name w)

/-- an item of a list -/
def inItem (before after : List Value) : Hole := fun w => .array (before ++ w :: after)

theorem inField_get? {node : Node} {name : String} {v : Value} (h : node.get? name = some v) :
    inField node name v = .object node :=
  congrArg Value.object (Node.insert_get? h)

/-! ## The fields that are handed on -/

/-- what a construction does with the value of a field -/
inductive Shape where
  /-- it is converted -/
  | whole
  /-- it is converted if it is a node -/
  | object
  /-- it is converted if it says anything, and then there is a block for it, be it empty -/
  | block
  /-- if it is a node, some fields of it are handed on -/
  | node (slots : List (String × Shape))
  /-- if it is a list, its entries are handed on -/
  | items (entry : Shape)
  /-- if it is a node with the tag, some fields of it are handed on; otherwise it is taken in another way -/
  | opened (tag : String) (slots : List (String × Shape)) (other : Shape)
  /-- if it is a node, a field of the declarator behind its pointers is handed on: of a variable the default value, or
  the whole declarator if that is of a function; and of a function the parameters -/
  | declarator (ofVariable : Bool)

namespace Shape

/-- the clauses of an `if` -/
def clauses : Shape := items (node [("condition", whole), ("body", whole)])

/-- the iterator of a `for` -/
def iterator : Shape := node [("sequence", whole)]

/-- the `else` block of a `for` -/
def loopElse : Shape := opened "StatList" [("stats", whole)] object

/-- the items of a dictionary -/
def pairs : Shape := items (node [("key", whole), ("value", whole)])

/-- the segments of an interpolated string -/
def segments : Shape := items (opened "FormattedValue" [("value", whole)] object)

/-- the positional arguments of a general call -/
def positional : Shape := opened "Tuple" [("args", whole)] (opened "AsTuple" [("arg", whole)] whole)

/-- the arguments of a general call that are passed by name -/
def keywords : Shape := opened "Dict" [("key_value_pairs", items (node [("value", whole)]))] whole

/-- the parameters of a function -/
def parameters : Shape := items (node [("default", whole), ("annotation", whole)])

/-- the decorators of a definition -/
def decorators : Shape := items (node [("decorator", whole)])

/-- the fields of a declarator that are handed on -/
def declared (ofVariable : Bool) : List (String × Shape) :=
  if ofVariable then [("default", whole)] else [("args", parameters)]

theorem declared_base (ofVariable : Bool) : ∀ slot ∈ declared ofVariable, slot.1 ≠ "base" := by
  cases ofVariable <;> simp [declared]

end Shape

/-- the fields of a kind of node that are handed on -/
def Kind.slots : Kind → List (String × Shape)
  | .joinedStr => [("values", .segments)]
  | .tuple | .list | .set => [("args", .whole)]
  | .dict => [("key_value_pairs", .pairs)]
  | .exprStat => [("expr", .whole)]
  | .singleAssignment | .inPlaceAssignment => [("lhs", .whole), ("rhs", .whole)]
  | .ifStat => [("if_clauses", .clauses), ("else_clause", .block)]
  | .whileStat => [("condition", .whole), ("body", .whole), ("else_clause", .whole)]
  | .forInStat | .asyncForStat =>
    [("target", .whole), ("iterator", .iterator), ("body", .whole), ("else_clause", .loopElse)]
  | .assertStat => [("cond", .whole), ("value", .whole)]
  | .returnStat => [("value", .whole)]
  | .statList => [("stats", .whole)]
  | .funcDef => [("args", .parameters), ("decorators", .decorators), ("body", .whole)]
  | .cFuncDef => [("declarator", .declarator false), ("decorators", .decorators), ("body", .whole)]
  | .cFuncDeclarator => [("args", .parameters)]
  | .pyClassDef | .cClassDef => [("bases", .whole), ("body", .whole), ("decorators", .decorators)]
  | .cStructOrUnionDef => [("attributes", .whole)]
  | .cEnumDef => [("decorators", .decorators)]
  | .cVarDef => [("declarators", .items (.declarator true))]
  | .cDefExtern => [("body", .whole)]
  | .simpleCall => [("function", .whole), ("args", .whole)]
  | .generalCall => [("function", .whole), ("positional_args", .positional), ("keyword_args", .keywords)]
  | .arithmetic | .boolBinop => [("operand1", .whole), ("operand2", .whole)]
  | .primaryCmp => [("operand1", .whole), ("operand2", .whole), ("cascade", .whole)]
  | .cascadedCmp => [("operand2", .whole), ("cascade", .whole)]
  | .condExpr => [("test", .whole), ("true_val", .whole), ("false_val", .whole)]
  | .awaitExpr | .yieldExpr => [("arg", .whole)]
  | .int | .name | .bool | .noneLiteral | .string | .unicode | .bytes | .passStat | .cTypeDef | .sizeof => []

/-- No position is read from a field that is handed on. -/
theorem Kind.slots_place (kind : Kind) : ∀ slot ∈ kind.slots, slot.1 ∉ positionFields := by
  cases kind <;> simp [slots, positionFields]

/-! ## What is handed on -/

/-- whether a value is a node with the tag -/
def bears (tag : String) (v : Value) : Bool := v.node?.any (·.isTagged tag)

/-- the values that are handed on from what a field holds -/
inductive Opens : Shape → Value → Value → Prop where
  | whole (v : Value) : Opens .whole v v
  | object (m : Node) : Opens .object (.object m) (.object m)
  | block {v : Value} : v.isAbsent = false → Opens .block v v
  | node {slots : List (String × Shape)} {m : Node} {name : String} {shape : Shape} {v x : Value} :
      (name, shape) ∈ slots → m.get? name = some v → Opens shape v x → Opens (.node slots) (.object m) x
  | items {entry : Shape} {items : List Value} {v x : Value} :
      v ∈ items → Opens entry v x → Opens (.items entry) (.array items) x
  | opened {t : String} {slots : List (String × Shape)} {other : Shape} {v x : Value} :
      bears t v = true → Opens (.node slots) v x → Opens (.opened t slots other) v x
  | other {t : String} {slots : List (String × Shape)} {other : Shape} {v x : Value} :
      bears t v = false → Opens other v x → Opens (.opened t slots other) v x
  | function {m : Node} : (stripped m).isTagged "CFuncDeclarator" = true →
      Opens (.declarator true) (.object m) (.object (stripped m))
  | declared {ofVariable : Bool} {m : Node} {x : Value} :
      (ofVariable && (stripped m).isTagged "CFuncDeclarator") = false →
      Opens (.node (Shape.declared ofVariable)) (.object (stripped m)) x → Opens (.declarator ofVariable) (.object m) x

theorem Opens.holds {shape : Shape} {v x : Value} (h : Opens shape v x) : Holds v x := by
  induction h with
  | whole | object | block => exact .self _
  | node _ hget _ ih => exact .field hget ih
  | items hv _ ih => exact .item hv ih
  | opened _ _ ih | other _ _ ih => exact ih
  | function => exact holds_stripped _
  | declared _ _ ih => exact (holds_stripped _).trans ih

/-! ## Places that lead there -/

variable {tag : String} {blank : Value}

/-- what may stand at a place: a node with the tag, or the blank -/
def Fills (tag : String) (blank w : Value) : Prop := w = blank ∨ ∃ o : Node, o.tag = some tag ∧ w = .object o

/-- `Leads tag blank (some C) shape D`: from what a field of the shape holds, which is `D` of the place, `C` of the place
is handed on. Where there is no `C`, the place is a whole block. -/
inductive Leads (tag : String) (blank : Value) : Option Hole → Shape → Hole → Prop where
  | whole {C : Hole} : Leads tag blank (some C) .whole C
  | object {m : Node} {name : String} {C : Hole} : name ∉ positionFields →
      Leads tag blank (some fun w => inField m name (C w)) .object fun w => inField m name (C w)
  | dropped : blank = .null → Leads tag blank (some id) .object id
  | block {C : Hole} : (∀ w, (C w).isAbsent = false) → Leads tag blank (some C) .block C
  | empty : Leads tag blank none .block id
  | node {C : Option Hole} {slots : List (String × Shape)} {m : Node} {name : String} {shape : Shape} {D : Hole} :
      (name, shape) ∈ slots → Leads tag blank C shape D → Leads tag blank C (.node slots) fun w => inField m name (D w)
  | items {C : Option Hole} {entry : Shape} {before after : List Value} {D : Hole} :
      Leads tag blank C entry D → Leads tag blank C (.items entry) fun w => inItem before after (D w)
  | opened {C : Option Hole} {t : String} {slots : List (String × Shape)} {other : Shape} {m : Node} {name : String}
      {D : Hole} : m.isTagged t = true → Leads tag blank C (.node slots) (fun w => inField m name (D w)) →
      Leads tag blank C (.opened t slots other) fun w => inField m name (D w)
  | other {C : Option Hole} {t : String} {slots : List (String × Shape)} {other : Shape} {D : Hole} :
      (∀ w, Fills tag blank w → bears t (D w) = false) → Leads tag blank C other D →
      Leads tag blank C (.opened t slots other) D
  | function {m : Node} {name : String} {C : Hole} : m.isTagged "CFuncDeclarator" = true → name ∉ positionFields →
      Leads tag blank (some fun w => inField m name (C w)) (.declarator true) fun w => inField m name (C w)
  | declared {C : Option Hole} {ofVariable : Bool} {m : Node} {name : String} {D : Hole} :
      (∀ v, Bare (m.insert name v)) → (ofVariable && m.isTagged "CFuncDeclarator") = false →
      Leads tag blank C (.node (Shape.declared ofVariable)) (fun w => inField m name (D w)) →
      Leads tag blank C (.declarator ofVariable) fun w => inField m name (D w)
  | pointer {C : Option Hole} {ofVariable : Bool} {m base : Node} {name : String} {D : Hole} :
      m.isTagged "CPtrDeclarator" = true →
      Leads tag blank C (.declarator ofVariable) (fun w => inField base name (D w)) →
      Leads tag blank C (.declarator ofVariable) fun w => inField m "base" (inField base name (D w))

/-- the places in a value at which a node with the tag is handed on, at any depth of nodes and lists around it -/
inductive Place (tag : String) : Value → Hole → Prop where
  | here : Place tag .null id
  | empty {m : Node} {kind : Kind} {name : String} {shape : Shape} {D : Hole} : m.tag.bind Kind.ofTag? = some kind →
      (name, shape) ∈ kind.slots → Leads tag (.array []) none shape D →
      Place tag (.array []) fun w => inField m name (D w)
  | item {blank : Value} {before after : List Value} {C : Hole} : Place tag blank C →
      Place tag blank fun w => inItem before after (C w)
  | inside {blank : Value} {m : Node} {kind : Kind} {name : String} {shape : Shape} {C D : Hole} : Place tag blank C →
      m.tag.bind Kind.ofTag? = some kind → (name, shape) ∈ kind.slots → Leads tag blank (some C) shape D →
      Place tag blank fun w => inField m name (D w)

/-- A place is the value itself, or stands in an item of a list or in a field of a node. -/
theorem Place.cases {C : Hole} (h : Place tag blank C) :
    (blank = .null ∧ C = id) ∨ (∃ before after, ∃ D : Hole, C = fun w => inItem before after (D w)) ∨
      ∃ m name, ∃ D : Hole, name ∉ positionFields ∧ C = fun w => inField m name (D w) := by
  cases h with
  | here => exact .inl ⟨rfl, rfl⟩
  | item => exact .inr (.inl ⟨_, _, _, rfl⟩)
  | empty _ hslot => exact .inr (.inr ⟨_, _, _, Kind.slots_place _ _ hslot, rfl⟩)
  | inside _ _ hslot => exact .inr (.inr ⟨_, _, _, Kind.slots_place _ _ hslot, rfl⟩)

/-! ## The places that are whole blocks -/

/-- What leads to a value that is handed on is built around it. -/
theorem Leads.around {C D : Hole} {shape : Shape} (h : Leads tag blank (some C) shape D) :
    ∃ E : Hole, D = fun w => E (C w) := by
  generalize hsome : some C = C' at h
  induction h with
  | whole | object | dropped | block | function => cases hsome; exact ⟨id, rfl⟩
  | empty => cases hsome
  | @node _ _ m name _ _ _ _ ih =>
    obtain ⟨E, rfl⟩ := ih hsome
    exact ⟨fun v => inField m name (E v), rfl⟩
  | @items _ _ before after _ _ ih =>
    obtain ⟨E, rfl⟩ := ih hsome
    exact ⟨fun v => inItem before after (E v), rfl⟩
  | opened _ _ ih | other _ _ ih | declared _ _ _ ih => exact ih hsome
  | @pointer _ _ m base name _ _ _ ih =>
    obtain ⟨E, hE⟩ := ih hsome
    exact ⟨fun v => inField m "base" (E v), funext fun w => congrArg (inField m "base") (congrFun hE w)⟩

/-- what the blank of a place is -/
theorem Place.blank_eq {C : Hole} (h : Place tag blank C) : blank = .null ∨ blank = .array [] := by
  induction h with
  | here => exact .inl rfl
  | empty => exact .inr rfl
  | item _ ih => exact ih
  | inside _ _ _ _ ih => exact ih

/-- Whether a value bears a tag other than that of the node in its hole is not up to what stands there. -/
theorem bears_fills {t : String} {o : Node} {w : Value} (hblank : blank = .null ∨ blank = .array [])
    (ho : o.tag = some tag) (hw : Fills tag blank w) (h : bears t (.object o) = false) : bears t w = false := by
  obtain rfl | ⟨o', ho', rfl⟩ := hw
  · rcases hblank with rfl | rfl <;> rfl
  · rw [← h]
    simp [bears, Value.node?, Node.isTagged, ho, ho']

theorem bears_leads {C : Option Hole} {shape : Shape} {D : Hole} {t : String} {o : Node} {w : Value}
    (hC : ∀ E, C = some E → Place tag blank E) (hblank : blank = .null ∨ blank = .array []) (ho : o.tag = some tag)
    (hw : Fills tag blank w) (h : Leads tag blank C shape D) (hbears : bears t (D (.object o)) = false) :
    bears t (D w) = false := by
  have hplace : ∀ E, C = some E → bears t (E (.object o)) = false → bears t (E w) = false := by
    intro E hE hbears
    obtain ⟨-, rfl⟩ | ⟨_, _, _, rfl⟩ | ⟨_, _, _, -, rfl⟩ := (hC E hE).cases
    · exact bears_fills hblank ho hw hbears
    · exact hbears
    · exact hbears
  induction h with
  | whole => exact hplace _ rfl hbears
  | block => exact hplace _ rfl hbears
  | dropped => exact bears_fills hblank ho hw hbears
  | empty => exact bears_fills hblank ho hw hbears
  | other _ _ ih => exact ih hC hbears hplace
  | _ => exact hbears

theorem leads_opened {C : Option Hole} {t : String} {slots : List (String × Shape)} {other : Shape} {D : Hole}
    {o : Node} (hbears : bears t (D (.object o)) = true) (h : Leads tag blank C (.node slots) D) :
    Leads tag blank C (.opened t slots other) D := by
  cases h with
  | node hslot hE => exact .opened hbears (.node hslot hE)

/-- a declarator that is a node with a hole in one of its fields, from which `C` of the hole is handed on -/
def LeadsIn (tag : String) (blank : Value) (C : Option Hole) (ofVariable : Bool) (o m : Node) : Prop :=
  ∃ n name, ∃ D : Hole, m = n.insert name (D (.object o)) ∧
    Leads tag blank C (.declarator ofVariable) fun w => inField n name (D w)

/-- What is handed on from a declarator is so from the pointers around it. -/
theorem leadsIn_pointers {C : Option Hole} {ofVariable : Bool} {o m : Node}
    (h : LeadsIn tag blank C ofVariable o (stripped m)) : LeadsIn tag blank C ofVariable o m := by
  revert h
  let P : Node → Node → Prop := fun m inner =>
    LeadsIn tag blank C ofVariable o inner → LeadsIn tag blank C ofVariable o m
  refine stripped_induction (P := P) (fun _ _ h => h) (fun m base htag hbase ih h => ?_) m
  obtain ⟨n, name, D, rfl, hD⟩ := ih h
  exact ⟨m, "base", _, (Node.insert_get? (Node.node?_eq_some.1 hbase)).symm, .pointer htag hD⟩

theorem leadsIn_declared {C : Option Hole} {ofVariable : Bool} {o m : Node} {D : Hole}
    (hfunction : (ofVariable && (stripped m).isTagged "CFuncDeclarator") = false)
    (hD : Value.object (stripped m) = D (.object o)) (h : Leads tag blank C (.node (Shape.declared ofVariable)) D) :
    LeadsIn tag blank C ofVariable o m := by
  cases h with
  | @node _ _ n name _ E hslot hE =>
    have hinner : stripped m = n.insert name (E (.object o)) := Value.object.inj hD
    have hbase := Shape.declared_base ofVariable _ hslot
    have hbare := bare_stripped m
    rw [hinner, bare_insert hbase] at hbare
    rw [hinner] at hfunction
    exact leadsIn_pointers
      ⟨n, name, E, hinner, .declared (fun v => (bare_insert hbase n v).2 hbare) hfunction (.node hslot hE)⟩

/-- A function behind pointers is not dropped itself, since its tag is known: the place is in it. -/
theorem leadsIn_function {C : Hole} {o m : Node} (htag : Kind.ofTag? tag = none) (ho : o.tag = some tag)
    (hC : Place tag blank C) (hfunction : (stripped m).isTagged "CFuncDeclarator" = true)
    (hx : Value.object (stripped m) = C (.object o)) : LeadsIn tag blank (some C) true o m := by
  obtain ⟨-, rfl⟩ | ⟨_, _, _, rfl⟩ | ⟨n, name, E, hname, rfl⟩ := hC.cases
  · have hm : stripped m = o := Value.object.inj hx
    have hknown : "CFuncDeclarator" ∈ Kind.cFuncDeclarator.tags := by decide
    rw [hm, Node.isTagged, ho, beq_iff_eq, Option.some.injEq] at hfunction
    rw [hfunction, Kind.ofTag?_of_mem_tags hknown] at htag
    cases htag
  · cases hx
  · have hinner : stripped m = n.insert name (E (.object o)) := Value.object.inj hx
    rw [hinner] at hfunction
    exact leadsIn_pointers ⟨n, name, E, hinner, .function hfunction hname⟩

/-- **What is handed on is so at a place.** Where a value with a node at a place in it is handed on from a field, the
field leads to that place; or the node is the whole value and a block, and then its blank is an empty list. -/
theorem leads_of_opens {C : Hole} {shape : Shape} {v x : Value} {o : Node} (htag : Kind.ofTag? tag = none)
    (ho : o.tag = some tag) (hC : Place tag blank C) (h : Opens shape v x) (hx : x = C (.object o)) :
    ∃ D, v = D (.object o) ∧ (Leads tag blank (some C) shape D ∨ Leads tag (.array []) none shape D) := by
  have hsome : ∀ E, some C = some E → Place tag blank E := fun E hE => Option.some.inj hE ▸ hC
  have hnone : ∀ E, none = some E → Place tag (.array []) E := fun E hE => by cases hE
  induction h with
  | whole => exact ⟨C, hx, .inl .whole⟩
  | object m =>
    obtain ⟨hblank, rfl⟩ | ⟨_, _, _, rfl⟩ | ⟨n, name, E, hname, rfl⟩ := hC.cases
    · exact ⟨id, hx, .inl (.dropped hblank)⟩
    · cases hx
    · exact ⟨_, hx, .inl (.object hname)⟩
  | block =>
    obtain ⟨-, rfl⟩ | ⟨_, _, _, rfl⟩ | ⟨_, _, _, -, rfl⟩ := hC.cases
    · exact ⟨id, hx, .inr .empty⟩
    · exact ⟨_, hx, .inl (.block fun _ => rfl)⟩
    · exact ⟨_, hx, .inl (.block fun _ => rfl)⟩
  | node hslot hget _ ih =>
    obtain ⟨D, rfl, hD⟩ := ih hx
    exact ⟨fun w => inField _ _ (D w), (inField_get? hget).symm, hD.imp (.node hslot) (.node hslot)⟩
  | items hv _ ih =>
    obtain ⟨D, rfl, hD⟩ := ih hx
    obtain ⟨before, after, rfl⟩ := List.append_of_mem hv
    exact ⟨fun w => inItem before after (D w), rfl, hD.imp .items .items⟩
  | opened hbears _ ih =>
    obtain ⟨D, rfl, hD⟩ := ih hx
    exact ⟨D, rfl, hD.imp (leads_opened hbears) (leads_opened hbears)⟩
  | other hbears _ ih =>
    obtain ⟨D, rfl, hD⟩ := ih hx
    refine ⟨D, rfl, hD.imp (fun hD => .other (fun w hw => ?_) hD) fun hD => .other (fun w hw => ?_) hD⟩
    · exact bears_leads hsome hC.blank_eq ho hw hD hbears
    · exact bears_leads hnone (.inr rfl) ho hw hD hbears
  | function hfunction =>
    obtain ⟨n, name, D, rfl, hD⟩ := leadsIn_function htag ho hC hfunction hx
    exact ⟨_, rfl, .inl hD⟩
  | declared hfunction _ ih =>
    obtain ⟨D, hD, hleads | hleads⟩ := ih hx
    · obtain ⟨n, name, E, rfl, hE⟩ := leadsIn_declared hfunction hD hleads
      exact ⟨_, rfl, .inl hE⟩
    · obtain ⟨n, name, E, rfl, hE⟩ := leadsIn_declared hfunction hD hleads
      exact ⟨_, rfl, .inr hE⟩

end Graft.Convert
