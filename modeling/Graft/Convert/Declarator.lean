/-
Declarators and base types of C declarations.

A declarator may be wrapped in pointer declarators, each holding the next as its `base`; the depth of pointers does not
show in the tree. `stripped` counts down the depth of the node, which bounds the number of wrappers.
-/
import Graft.Convert.Fault
import Graft.Tree.Basic

namespace Graft.Convert

open Graft.Document

/-- passes through at most so many pointer declarators -/
def strippedWithin : Nat → Node → Node
  | 0, node => node
  | n + 1, node =>
    if node.isTagged "CPtrDeclarator" then
      match node.node? "base" with
      | some base => strippedWithin n base
      | none => node
    else node

/-- what a declarator declares, without the pointers around it -/
def stripped (node : Node) : Node := strippedWithin (Value.object node).depth node

/-- One wrapper is passed through for each level of depth at most, so that a higher bound makes no difference. -/
theorem strippedWithin_eq {bound more : Nat} {node : Node} (h : (Value.object node).depth ≤ bound)
    (h' : (Value.object node).depth ≤ more) : strippedWithin bound node = strippedWithin more node := by
  induction bound generalizing more node with
  | zero => exact absurd h (Nat.not_le_of_lt (depth_pos _))
  | succ bound ih =>
    cases more with
    | zero => exact absurd h' (Nat.not_le_of_lt (depth_pos _))
    | succ more =>
      unfold strippedWithin
      split
      · split
        · rename_i base hbase
          have hlt := Node.depth_lt_of_get? (Node.node?_eq_some.1 hbase)
          exact ih (by omega) (by omega)
        · rfl
      · rfl

/-- A pointer declarator declares what its base does. -/
theorem stripped_pointer {node base : Node} (htag : node.isTagged "CPtrDeclarator" = true)
    (hbase : node.node? "base" = some base) : stripped node = stripped base := by
  have hlt := Node.depth_lt_of_get? (Node.node?_eq_some.1 hbase)
  obtain ⟨depth, hdepth⟩ : ∃ depth, (Value.object node).depth = depth + 1 := Nat.exists_eq_add_one.2 (by omega)
  show strippedWithin (Value.object node).depth node = _
  rw [hdepth, strippedWithin, if_pos htag, hbase]
  exact strippedWithin_eq (by omega) (Nat.le_refl _)

/-- a declarator that is not wrapped around another -/
def Bare (node : Node) : Prop := node.isTagged "CPtrDeclarator" = false ∨ node.node? "base" = none

/-- Any other declarator declares itself. -/
theorem stripped_self {node : Node} (h : Bare node) : stripped node = node := by
  unfold stripped
  obtain ⟨tag, fields⟩ := node
  rw [Value.depth, strippedWithin]
  rcases h with htag | hbase
  · rw [htag]
    rfl
  · rw [hbase]
    split <;> rfl

/-- What relates a declarator to the one behind its pointers is shown pointer by pointer. -/
theorem stripped_induction {P : Node → Node → Prop} (self : ∀ node, Bare node → P node node)
    (pointer : ∀ node base, node.isTagged "CPtrDeclarator" = true → node.node? "base" = some base →
      P base (stripped base) → P node (stripped base)) (node : Node) : P node (stripped node) := by
  induction hdepth : (Value.object node).depth using Nat.strongRecOn generalizing node with
  | ind depth ih =>
    cases htag : node.isTagged "CPtrDeclarator" with
    | false => rw [stripped_self (.inl htag)]; exact self node (.inl htag)
    | true =>
      cases hbase : node.node? "base" with
      | none => rw [stripped_self (.inr hbase)]; exact self node (.inr hbase)
      | some base =>
        rw [stripped_pointer htag hbase]
        have hlt := Node.depth_lt_of_get? (Node.node?_eq_some.1 hbase)
        exact pointer node base htag hbase (ih _ (hdepth ▸ hlt) base rfl)

theorem bare_stripped (node : Node) : Bare (stripped node) := by
  refine stripped_induction (P := fun _ inner => Bare inner) (fun _ h => h) (fun _ _ _ _ h => h) node

theorem bare_insert {name : String} (hname : name ≠ "base") (node : Node) (v : Value) :
    Bare (node.insert name v) ↔ Bare node := by
  unfold Bare Node.node?
  rw [node.get?_insert_of_ne hname.symm]
  rfl

/-- the declarator of a declaration -/
def declarator? (node : Node) : Option Node := (node.node? "declarator").map stripped

/-- the name that a node gives in its field `name`, unless that is empty, as an expression -/
def namedExpr? (node : Node) (binding : Binding) : Option Expr :=
  (node.filledText? "name").map fun name => .ident name binding (positionOf node)

/-- the name of the base type of a declaration, found at the type or one level below -/
def baseTypeName? (node : Node) (binding : Binding) : Option Expr :=
  (node.node? "base_type").bind fun base =>
    (namedExpr? base binding).or ((base.node? "base_type_node").bind (namedExpr? · binding))

end Graft.Convert
