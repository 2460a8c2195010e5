/-
The parameters of a function.

A parameter is named by its declarator or, where that has no name, after its base type; one without either is an anomaly
and left out. Those marked keyword-only go into lists of their own, and the order of each sort is that of the document.
-/
import Graft.Convert.Declarator
import Graft.Convert.Field

namespace Graft.Convert

open Graft.Document

/-- a parameter with its default and its annotation -/
structure Parameter where
  keywordOnly : Bool
  name : Expr
  default : Option Expr
  annotation : Option Expr

/-- whether a parameter can only be passed by name -/
def isKeywordOnly (node : Node) : Bool := node.int? "kw_only" == some 1

/-- the name of a parameter, as an expression -/
def parameterName? (node : Node) (binding : Binding) : Option Expr :=
  ((declarator? node).bind (namedExpr? · binding)).or (baseTypeName? node binding)

/-- one entry of a list of parameters: a parameter, or nothing when it has no name -/
def parameter (convert : Converter) (function : Node) (entry : Value) : Attempt (List Parameter) := do
  let node ← entry.node? |> Attempt.orDefect function .parameterNotAnObject
  let keywordOnly := isKeywordOnly node
  match parameterName? node (if keywordOnly then .kwOnlyParam else .param) with
  | none =>
    Attempt.anomaly (.of node .unnamedParameter)
    return []
  | some name =>
    let default ← optionalExpr convert node "default" .load
    let annotation ← optionalExpr convert node "annotation" .load
    return [⟨keywordOnly, name, default, annotation⟩]

/-- the name that collects further arguments -/
def collector? (function : Node) (field : String) (role : Role) : Option NameToken :=
  (function.node? field).bind fun node => (node.text? "name").map fun name => ⟨name, role, positionOf node⟩

/-- the parameter lists of a function -/
def parameters (convert : Converter) (function : Node) : Attempt Parameters := do
  let all ← Attempt.gather (parameter convert function) (← itemsField function "args")
  let named := all.filter (!·.keywordOnly)
  let keyword := all.filter (·.keywordOnly)
  return {
    args := named.map Parameter.name
    defaults := named.map Parameter.default
    annotations := named.map Parameter.annotation
    vararg := collector? function "star_arg" .varArg
    kwarg := collector? function "starstar_arg" .kwArg
    kwonlyargs := keyword.map Parameter.name
    kwDefaults := keyword.map Parameter.default
    kwonlyAnnotations := keyword.map Parameter.annotation }

end Graft.Convert
