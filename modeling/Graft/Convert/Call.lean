/-
Calls.

The positional arguments of a general call are a list, a tuple, or a wrapped star argument; its keyword arguments are a
dictionary with texts as keys, and anything else is the double-star argument.
-/
import Graft.Convert.Container

namespace Graft.Convert

open Graft.Document

/-- a call with positional arguments only -/
def simpleCallExpr (convert : Converter) (node : Node) : Attempt Expr := do
  let func ← requiredExpr convert node "function" .load
  let args ← exprsField convert node "args" .load
  return .call (positionOf node) func (.positional args)

/-- an argument that is passed by name -/
def keywordItem (convert : Converter) (item : Node) : Attempt Keyword := do
  let key ← item.node? "key" |> Attempt.orDefect item .keywordWithoutKey
  let name ← (key.text? "value").or (key.text? "unicode_value") |> Attempt.orDefect key .keywordNotAString
  let value ← requiredExpr convert item "value" .load
  return ⟨⟨name, .keywordName, positionOf key⟩, value⟩

/-- the positional arguments of a general call, and its star argument -/
def positionalArgs (convert : Converter) (node : Node) : Attempt (List Expr × Option Expr) := do
  match node.node? "positional_args" with
  | some positional =>
    if positional.isTagged "Tuple" then return (← exprsField convert positional "args" .load, none)
    else if positional.isTagged "AsTuple" then return ([], ← optionalExpr convert positional "arg" .load)
    else return (← exprsField convert node "positional_args" .load, none)
  | none => return (← exprsField convert node "positional_args" .load, none)

/-- the arguments of a general call that are passed by name, and its double-star argument -/
def keywordArgs (convert : Converter) (node : Node) : Attempt (List Keyword × Option Expr) := do
  match node.node? "keyword_args" with
  | some keywords =>
    if keywords.isTagged "Dict" then return (← (← dictItems keywords).mapM (keywordItem convert), none)
    else return ([], ← optionalExpr convert node "keyword_args" .load)
  | none => return ([], ← optionalExpr convert node "keyword_args" .load)

def generalCallExpr (convert : Converter) (node : Node) : Attempt Expr := do
  let func ← requiredExpr convert node "function" .load
  let (args, starargs) ← positionalArgs convert node
  let (keywords, kwargs) ← keywordArgs convert node
  return .call (positionOf node) func ⟨args, keywords, starargs, kwargs⟩

/-- `sizeof()` of a type or a variable, whose operand is dropped -/
def sizeofExpr (node : Node) : Expr :=
  .call (positionOf node) (.ident "sizeof" .load (positionOf node)) .none

end Graft.Convert
