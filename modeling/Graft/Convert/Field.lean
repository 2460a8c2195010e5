/-
Converting the fields of a node.

A `Converter` says what any value converts to in a binding; the constructions of this folder take the one that they are
to use for the values inside their node. A field that is missing converts like one that says that there is nothing.
-/
import Graft.Convert.Fragment

namespace Graft.Convert

open Graft.Document

/-- what a value converts to, names in it being bound in the given way -/
abbrev Converter := Value → Binding → Attempt Fragment

/-- what a field converts to -/
def field (convert : Converter) (node : Node) (name : String) (binding : Binding) : Attempt Fragment :=
  match node.get? name with
  | some value => convert value binding
  | none => return .absent

/-- a field that holds at most one expression -/
def optionalExpr (convert : Converter) (node : Node) (name : String) (binding : Binding) : Attempt (Option Expr) := do
  (← field convert node name binding).expr? node

/-- a field that holds one expression -/
def requiredExpr (convert : Converter) (node : Node) (name : String) (binding : Binding) : Attempt Expr := do
  (← optionalExpr convert node name binding) |> Attempt.orDefect node (.noExpression name)

/-- a field that holds statements -/
def stmtsField (convert : Converter) (node : Node) (name : String) : Attempt (List Stmt) := do
  (← field convert node name .load).stmts node

/-- a field that holds expressions -/
def exprsField (convert : Converter) (node : Node) (name : String) (binding : Binding) : Attempt (List Expr) := do
  (← field convert node name binding).exprs node

/-- the items of a field that is a list if there is one -/
def itemsField (node : Node) (name : String) : Attempt (List Value) :=
  match node.present? name with
  | some value => value.items? |> Attempt.orDefect node (.notAnArray name)
  | none => return []

/-- the nodes of a list, entries that say "nothing" being skipped; any other entry is an anomaly -/
def nodeEntries (node : Node) (name : String) : Attempt (List Node) := do
  (← itemsField node name) |> Attempt.gather fun entry =>
    match entry with
    | .object n => return [n]
    | other => do
      if !other.isAbsent then Attempt.anomaly (.of node (.entryNotANode name other.kindName))
      return []

/-- the items of a list, all of which have to be objects -/
def objectItems (node : Node) (name : String) (defect : Defect) : Attempt (List Node) := do
  (← itemsField node name).mapM fun item => item.node? |> Attempt.orDefect node defect

/-- the operator token of a node -/
def operatorToken (node : Node) : Attempt String :=
  node.text? "operator" |> Attempt.orDefect node .noOperator

end Graft.Convert
