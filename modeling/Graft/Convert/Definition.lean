/-
Definitions of functions and classes, and their decorators.

A definition stands where its keyword does, and its name a fixed number of columns to the right of that.
-/
import Graft.Convert.Parameter

namespace Graft.Convert

open Graft.Document

/-- the columns from the keyword of a definition to its name -/
structure NameDistance where
  columns : UInt32

def NameDistance.function : NameDistance := ⟨4⟩

def NameDistance.pythonClass : NameDistance := ⟨7⟩

def NameDistance.extensionType : NameDistance := ⟨6⟩

def NameDistance.structure : NameDistance := ⟨6⟩

def NameDistance.enumeration : NameDistance := ⟨7⟩

/-- the name of a definition -/
def definedName (node : Node) (name : String) (role : Role) (distance : NameDistance) : NameToken :=
  ⟨name, role, namePosition (positionOf node) distance.columns⟩

/-- the decorator that an expression is: a plain name, or a call -/
def decoratorOf? : Expr → Option Decorator
  | .name pos id binding reserved => some ⟨.name pos id binding reserved, .none, false, pos⟩
  | .call pos func args => some ⟨func, args, true, pos⟩
  | _ => none

/-- one entry of a list of decorators -/
def decorator (convert : Converter) (entry : Node) : Attempt (List Decorator) := do
  match ← optionalExpr convert entry "decorator" .load with
  | none => return []
  | some expr =>
    match decoratorOf? expr with
    | some d => return [d]
    | none =>
      Attempt.anomaly (.of entry .notADecorator)
      return []

/-- the decorators of a definition, outermost first -/
def decorators (convert : Converter) (node : Node) : Attempt (List Decorator) := do
  Attempt.gather (decorator convert) (← nodeEntries node "decorators")

/-- a function -/
def functionStmt (convert : Converter) (node : Node) : Attempt Stmt := do
  let name ← node.text? "name" |> Attempt.orDefect node .noFunctionName
  let params ← parameters convert node
  let decs ← decorators convert node
  let body ← stmtsField convert node "body"
  return .functionDef (positionOf node) (definedName node name .functionName .function) params body decs
    (node.flag "is_async_def")

/-- the bases of a class; a lone tuple stands for its elements -/
def classBases (convert : Converter) (node : Node) : Attempt (List Expr) := do
  match ← exprsField convert node "bases" .load with
  | [.tuple _ elts _ _] => return elts
  | bases => return bases

/-- a class whose name is in a field -/
def classStmt (convert : Converter) (field : String) (distance : NameDistance) (node : Node) : Attempt Stmt := do
  let name ← node.text? field |> Attempt.orDefect node (.noClassName field)
  let bases ← classBases convert node
  let body ← stmtsField convert node "body"
  let decs ← decorators convert node
  return .classDef (positionOf node) (definedName node name .className distance) bases body decs

end Graft.Convert
