/-
What a fragment promises to the place that it is converted for.

Only three kinds of node hand on how names are bound: names, tuples and lists. A target that is made of these is bound
throughout. A group of statements or an expression statement in it is looked through, but what is in the group was
converted as if it was to be read. `Grouped` says of a value that there is such a group where a target looks for names, and
`GroupedAt` where in the tree that shows.

`Fits` is what a fragment keeps to: its nodes are good, and where the value has no group in it, its expressions are bound
throughout, and no expression comes as a statement. It makes statements, expressions or links of a comparison that are good
in turn (`fits_stmts`, `fits_exprs`, `fits_expr?`, `fits_links`), and so do fields, if the converter `Builds` such fragments.
-/
import Graft.Proofs.Follow
import Graft.Proofs.Reads
import Graft.Proofs.Respelled
import Graft.Proofs.Sound

namespace Graft.Convert

open Graft.Document Attempt Subtree

/-! ## Groups in a target -/

/-- the tags of the nodes that stand for what is in them, and read it -/
def groupTags : List String := ["StatList", "CDefExtern", "ExprStat"]

/-- the tags of the nodes whose elements are at places like their own -/
def displayTags : List String := ["Tuple", "List"]

/-- the node is bound as its place calls for -/
def Binds (m : Node) : Prop := ∃ tag ∈ "Name" :: displayTags, m.tag = some tag

/-- there is a group in the value where a target looks for names: itself, or in a list, or among the elements of a tuple
or a list -/
inductive Grouped : Value → Prop where
  | here {m : Node} {tag : String} : m.tag = some tag → tag ∈ groupTags → Grouped (.object m)
  | item {items : List Value} {x : Value} : x ∈ items → Grouped x → Grouped (.array items)
  | element {m : Node} {tag : String} : m.tag = some tag → tag ∈ displayTags → Grouped (held m "args") → Grouped (.object m)

theorem grouped_object {m : Node} {tag : String} (htag : m.tag = some tag) :
    Grouped (.object m) ↔ tag ∈ groupTags ∨ tag ∈ displayTags ∧ Grouped (held m "args") := by
  constructor
  · intro h
    cases h with
    | here hm hgroup => exact .inl (Option.some.inj (htag.symm.trans hm) ▸ hgroup)
    | element hm hdisplay h => exact .inr ⟨Option.some.inj (htag.symm.trans hm) ▸ hdisplay, h⟩
  · rintro (hgroup | ⟨hdisplay, h⟩)
    · exact .here htag hgroup
    · exact .element htag hdisplay h

/-- the field that holds the target of a node, if it is an assignment or a loop -/
def targetField? (n : Node) : Option String :=
  match n.tag with
  | some "SingleAssignment" => some "lhs"
  | some "InPlaceAssignment" => some "lhs"
  | some "ForInStat" => some "target"
  | some "AsyncForStat" => some "target"
  | _ => none

/-- somewhere in the document is an assignment or a loop, at the position, with a group in its target -/
def GroupedAt (root : Node) (pos : Position) : Prop :=
  ∃ n name, Holds (.object root) (.object n) ∧ positionOf n = pos ∧ targetField? n = some name ∧ Grouped (held n name)

variable {root : Node} {v : Value} {b : Binding}

/-! ## Fragments -/

/-- an expression that comes of the value, at a place that calls for `b` -/
structure ExprFits (root : Node) (v : Value) (b : Binding) (e : Expr) : Prop where
  good : Good (GroupedAt root) b (.expr e)
  bound : ¬ Grouped v → e.Bound b

/-- a statement that comes of the value -/
structure StmtFits (root : Node) (v : Value) (s : Stmt) : Prop where
  good : Good (GroupedAt root) .load (.stmt s)
  apart : ¬ Grouped v → ∀ pos e, s ≠ .expr pos e

def PieceFits (root : Node) (v : Value) (b : Binding) : Piece → Prop
  | .expr e => ExprFits root v b e
  | .stmt s => StmtFits root v s

/-- a fragment that comes of the value, at a place that calls for `b` -/
def Fits (root : Node) (v : Value) (b : Binding) : Fragment → Prop
  | .absent => True
  | .piece p => PieceFits root v b p
  | .group ps => ∀ p ∈ ps, PieceFits root v b p
  | .chain first rest => ∀ link ∈ first :: rest, Good (GroupedAt root) .load (.expr link.operand)

/-- An attempt in two steps that ends well took both. -/
theorem bind_eq_ok {α β : Type} {x : Except Fault α} {f : α → Except Fault β} {r : β} (h : x >>= f = .ok r) :
    ∃ a, x = .ok a ∧ f a = .ok r := by
  cases x with
  | error fault => cases h
  | ok a => exact ⟨a, rfl, h⟩

theorem map_eq_ok {α β : Type} {x : Except Fault α} {f : α → β} {r : β} (h : x.map f = .ok r) :
    ∃ a, x = .ok a ∧ f a = r := by
  cases x with
  | error fault => cases h
  | ok a => exact ⟨a, rfl, Except.ok.inj h⟩

theorem fits_toStmt {p : Piece} (h : PieceFits root v .load p) : Good (GroupedAt root) .load (.stmt p.toStmt) := by
  cases p with
  | stmt s => exact StmtFits.good h
  | expr e => exact good_ofExpr (ExprFits.good h)

/-- An expression that comes as a statement was read, and is put in its place as it is. -/
theorem fits_toExpr {owner : Node} {p : Piece} {e : Expr} (h : PieceFits root v b p) (he : p.toExpr owner = .ok e) :
    ExprFits root v b e := by
  cases p with
  | expr e' =>
    cases he
    exact h
  | stmt s =>
    cases s with
    | expr pos value =>
      obtain rfl : value = e := Except.ok.inj he
      have hgood : Good (GroupedAt root) .load (.stmt (.expr pos value)) := StmtFits.good h
      have hload : Good (GroupedAt root) .load (.expr value) := (throughout_iff.1 hgood).2 _ (List.mem_singleton.2 rfl)
      exact ⟨hload.anywhere b, fun hplain => absurd rfl (StmtFits.apart h hplain pos value)⟩
    | _ => cases he

/-- The pieces of a fragment that is no link of a comparison. -/
theorem fits_pieces {owner : Node} {f : Fragment} {ps : List Piece} (h : Fits root v b f)
    (hps : f.pieces owner = .ok ps) : ∀ p ∈ ps, PieceFits root v b p := by
  cases f with
  | absent =>
    cases hps
    exact nofun
  | piece p =>
    cases hps
    exact List.forall_mem_singleton.2 h
  | group ps' =>
    cases hps
    exact h
  | chain first rest => cases hps

theorem fits_stmts {owner : Node} {f : Fragment} {ss : List Stmt} (h : Fits root v .load f)
    (hss : f.stmts owner = .ok ss) : ∀ s ∈ ss, Good (GroupedAt root) .load (.stmt s) := by
  obtain ⟨ps, hps, rfl⟩ := map_eq_ok hss
  intro s hs
  obtain ⟨p, hp, rfl⟩ := List.mem_map.1 hs
  exact fits_toStmt (fits_pieces h hps p hp)

theorem fits_mapM_toExpr {owner : Node} {ps : List Piece} {es : List Expr} (h : ∀ p ∈ ps, PieceFits root v b p)
    (hes : ps.mapM (Piece.toExpr owner) = .ok es) : ∀ e ∈ es, ExprFits root v b e := by
  induction ps generalizing es with
  | nil =>
    cases hes
    exact nofun
  | cons p ps ih =>
    rw [List.mapM_cons] at hes
    obtain ⟨e, he, hes⟩ := bind_eq_ok hes
    obtain ⟨rest, hrest, hes⟩ := bind_eq_ok hes
    cases hes
    obtain ⟨hfirst, hothers⟩ := List.forall_mem_cons.1 h
    exact List.forall_mem_cons.2 ⟨fits_toExpr hfirst he, ih hothers hrest⟩

theorem fits_exprs {owner : Node} {f : Fragment} {es : List Expr} (h : Fits root v b f)
    (hes : f.exprs owner = .ok es) : ∀ e ∈ es, ExprFits root v b e := by
  obtain ⟨ps, hps, hes⟩ := bind_eq_ok hes
  exact fits_mapM_toExpr (fits_pieces h hps) hes

theorem fits_map_toExpr {owner : Node} {p : Piece} {e : Expr} (h : PieceFits root v b p)
    (he : (p.toExpr owner).map some = .ok (some e)) : ExprFits root v b e := by
  obtain ⟨e', he', heq⟩ := map_eq_ok he
  cases heq
  exact fits_toExpr h he'

theorem fits_expr? {owner : Node} {f : Fragment} {e : Expr} (h : Fits root v b f)
    (he : f.expr? owner = .ok (some e)) : ExprFits root v b e := by
  unfold Fragment.expr? at he
  split at he
  · cases he
  · exact fits_map_toExpr h he
  · cases he
  · exact fits_map_toExpr (h _ (List.mem_singleton.2 rfl)) he
  · cases he
  · cases he

theorem fits_links {owner : Node} {f : Fragment} {links : List Link} (h : Fits root v b f)
    (hlinks : f.links owner = .ok links) : ∀ link ∈ links, Good (GroupedAt root) .load (.expr link.operand) := by
  unfold Fragment.links at hlinks
  split at hlinks
  · cases hlinks
    exact nofun
  · cases hlinks
    exact h
  · cases hlinks

/-! ## Fields -/

/-- a converter whose fragments fit, for values of the document and places of a target or where something is read; and
which binds names, tuples and lists only -/
structure Builds (root : Node) (c : Converter) : Prop where
  fits : ∀ {v : Value} {b : Binding}, Holds (.object root) v → b.inner = b → Yields (c v b) (Fits root v b)
  reads : ∀ {m : Node}, ¬ Binds m → ∀ b, c (.object m) b = c (.object m) .load

/-- the expression is good where it is read, and binds nothing -/
structure Read (root : Node) (e : Expr) : Prop where
  good : Good (GroupedAt root) .load (.expr e)
  bound : ∀ b, e.Bound b

theorem Read.fits {e : Expr} (h : Read root e) (v : Value) (b : Binding) : ExprFits root v b e :=
  ⟨h.good.anywhere b, fun _ => h.bound b⟩

section Fields

variable {c : Converter} {n : Node} (hc : Builds root c) (hn : Holds (.object root) (.object n))

include hc hn

theorem yields_field (name : String) (hb : b.inner = b) : Yields (field c n name b) (Fits root (held n name) b) := by
  unfold field held
  cases hv : n.get? name with
  | none => exact yields_pure trivial
  | some v => exact hc.fits (hn.trans (.field hv (.self v))) hb

theorem yields_optional (name : String) (hb : b.inner = b) :
    Yields (optionalExpr c n name b) fun o => ∀ e, o = some e → ExprFits root (held n name) b e := by
  refine yields_bind (yields_field hc hn name hb) fun f hf => yields_ofExcept ?_
  intro o ho e he
  exact fits_expr? hf (he ▸ ho)

theorem yields_required (name : String) (hb : b.inner = b) :
    Yields (requiredExpr c n name b) (ExprFits root (held n name) b) := by
  refine yields_bind (yields_optional hc hn name hb) fun o ho => yields_need ?_
  intro e he
  exact ho e he

theorem yields_exprs (name : String) (hb : b.inner = b) :
    Yields (exprsField c n name b) fun es => ∀ e ∈ es, ExprFits root (held n name) b e := by
  refine yields_bind (yields_field hc hn name hb) fun f hf => yields_ofExcept ?_
  intro es hes
  exact fits_exprs hf hes

/-- An operand that is read. -/
theorem yields_operand (name : String) :
    Yields (requiredExpr c n name .load) fun e => Good (GroupedAt root) .load (.expr e) :=
  (yields_required hc hn name rfl).mono fun _ he => he.good

theorem yields_operand? (name : String) :
    Yields (optionalExpr c n name .load) fun o => ∀ e, o = some e → Good (GroupedAt root) .load (.expr e) :=
  (yields_optional hc hn name rfl).mono fun _ ho e he => (ho e he).good

theorem yields_operands (name : String) :
    Yields (exprsField c n name .load) fun es => ∀ e ∈ es, Good (GroupedAt root) .load (.expr e) :=
  (yields_exprs hc hn name rfl).mono fun _ hes e he => (hes e he).good

theorem yields_stmts (name : String) :
    Yields (stmtsField c n name) fun ss => ∀ s ∈ ss, Good (GroupedAt root) .load (.stmt s) := by
  refine yields_bind (yields_field hc hn name rfl) fun f hf => yields_ofExcept ?_
  intro ss hss
  exact fits_stmts hf hss

end Fields

/-! ## Lists of nodes -/

theorem yields_itemsField (n : Node) (name : String) :
    Yields (itemsField n name) fun items => ∀ x ∈ items, Holds (.object n) x := by
  unfold itemsField
  cases hv : n.present? name with
  | none => exact yields_pure nofun
  | some v =>
    refine yields_need fun items hitems x hx => ?_
    have hget : n.get? name = some v := (Option.filter_eq_some_iff.1 hv).1
    cases v with
    | array xs =>
      cases hitems
      exact .field hget (.item hx (.self x))
    | _ => cases hitems

theorem yields_nodeEntries (n : Node) (name : String) :
    Yields (nodeEntries n name) fun ms => ∀ m ∈ ms, Holds (.object n) (.object m) := by
  refine yields_bind (yields_itemsField n name) fun items hitems => ?_
  refine yields_gather fun v hv => (yields_entryNode name n v).mono fun ms hms m hm => ?_
  have hnode : v.node? = some m := Option.mem_toList.1 (hms ▸ hm)
  cases v with
  | object m' =>
    cases hnode
    exact hitems _ hv
  | _ => cases hnode

theorem yields_objectItems (n : Node) (name : String) (d : Defect) :
    Yields (objectItems n name d) fun ms => ∀ m ∈ ms, Holds (.object n) (.object m) := by
  refine yields_bind (yields_itemsField n name) fun items hitems => ?_
  refine yields_mapM fun v hv => yields_need fun m hm => ?_
  cases v with
  | object m' =>
    cases hm
    exact hitems _ hv
  | _ => cases hm

end Graft.Convert
