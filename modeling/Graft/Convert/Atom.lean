/-
Names, constants and string literals: the expressions without parts.
-/
import Graft.Convert.Field
import Graft.Text.IntegerLiteral

namespace Graft.Convert

open Graft.Document

/-- an identifier, bound as its place says -/
def nameExpr (node : Node) (binding : Binding) : Attempt Expr := do
  let id ← node.text? "name" |> Attempt.orDefect node .noName
  return .ident id binding (positionOf node)

/-- the text of a number, written as a text or as a number -/
def integerText? (node : Node) : Option String :=
  (node.present? "value").bind fun value => value.text?.or (value.int?.map toString)

/-- an integer literal, as a decimal numeral when it has a value -/
def intExpr (node : Node) : Attempt Expr := do
  let text ← integerText? node |> Attempt.orDefect node .noInteger
  return .num (positionOf node) (Text.IntegerLiteral.decimal text)

/-- the text of a truth value, written as a text or as a truth value -/
def boolText? (node : Node) : Option String :=
  match node.get? "value" with
  | some (.string text) => some text
  | some (.bool true) => some "True"
  | some (.bool false) => some "False"
  | _ => none

/-- `True` or `False` -/
def boolExpr (node : Node) : Attempt Expr := do
  let text ← boolText? node |> Attempt.orDefect node .noBoolean
  return .keyword text (positionOf node)

/-- the constant `None` -/
def noneExpr (node : Node) : Expr := .keyword "None" (positionOf node)

/-- a string literal whose text is in a field, empty when there is none -/
def stringExpr (node : Node) (field : String) (marks : StringMarks) : Expr :=
  .str (positionOf node) ((node.text? field).getD "") marks []

end Graft.Convert
