/-
C declarations, each as the nearest Python construct.

Structures and enumerations become classes, variables and type names assignments, and blocks of external declarations
are spliced into what holds them. A function declared or defined in C becomes a function named by the declarator inside
its own.
-/
import Graft.Convert.Definition

namespace Graft.Convert

open Graft.Document

/-- `name = value`, at one position -/
def assignName (name : String) (value : Expr) (pos : Position) : Stmt :=
  .assign pos [.ident name .store pos] value

/-- a function declarator as the function of that name, with a body and decorators from elsewhere -/
def declaredFunction (convert : Converter) (declarator : Node)
    (rest : Attempt (List Decorator × List Stmt)) : Attempt Stmt := do
  let base ← (declarator.node? "base").map stripped |> Attempt.orDefect declarator .noBase
  let name ← base.filledText? "name" |> Attempt.orDefect declarator .unnamedFunction
  let params ← parameters convert declarator
  let (decs, body) ← rest
  return .functionDef (positionOf declarator) ⟨name, .functionName, positionOf base⟩ params body decs false

/-- a declared function, which has no body -/
def functionDeclaratorStmt (convert : Converter) (node : Node) : Attempt Stmt :=
  declaredFunction convert node (return ([], []))

/-- a function defined in C -/
def cFunctionStmt (convert : Converter) (node : Node) : Attempt Stmt := do
  let declarator ← declarator? node |> Attempt.orDefect node .noDeclarator
  declaredFunction convert declarator do
    let decs ← decorators convert node
    let body ← stmtsField convert node "body"
    return (decs, body)

/-- a structure or union: a class that holds its members -/
def structStmt (convert : Converter) (node : Node) : Attempt Stmt := do
  let name ← node.text? "name" |> Attempt.orDefect node .noStructName
  let body ← stmtsField convert node "attributes"
  return .classDef (positionOf node) (definedName node name .className .structure) [] body []

/-- one member of an enumeration -/
def enumMember (item : Node) : Attempt (List Stmt) :=
  match item.text? "name" with
  | some name => return [assignName name (.num (positionOf item) "0") (positionOf item)]
  | none => do
    Attempt.anomaly (.of item .unnamedMember)
    return []

/-- an enumeration: a class that holds its members, or the members alone when it has no name -/
def enumFragment (convert : Converter) (node : Node) : Attempt Fragment := do
  let members ← Attempt.gather enumMember (← nodeEntries node "items")
  match (node.present? "name").bind Value.text? with
  | none => return .ofStmts members
  | some name =>
    let decs ← decorators convert node
    return .ofStmt (.classDef (positionOf node) (definedName node name .className .enumeration) [] members decs)

/-- a type name: `name = base type`, or `name = None` when the base type has no name -/
def typedefStmt (node : Node) : Attempt Stmt := do
  let declarator ← declarator? node |> Attempt.orDefect node .noDeclarator
  let name ← declarator.text? "name" |> Attempt.orDefect node .unnamedTypedef
  let value := (baseTypeName? node .load).getD (.keyword "None" .unknown)
  return .assign (positionOf node) [.ident name .store (positionOf declarator)] value

/-- one declarator of a variable declaration -/
def variablePieces (convert : Converter) (node : Node) (entry : Node) : Attempt (List Piece) := do
  let declarator := stripped entry
  if declarator.isTagged "CFuncDeclarator" then
    (← convert (.object declarator) .load).pieces node
  else match declarator.text? "name" with
    | none =>
      Attempt.anomaly (.of declarator .unnamedVariable)
      return []
    | some name =>
      let pos := positionOf declarator
      let value ← optionalExpr convert declarator "default" .load
      return [.stmt (assignName name (value.getD (.keyword "None" pos)) pos)]

/-- a variable declaration: an assignment or a function for each declarator -/
def variablesGroup (convert : Converter) (node : Node) : Attempt Fragment := do
  let pieces ← Attempt.gather (variablePieces convert node) (← nodeEntries node "declarators")
  return .group pieces

/-- a block of external declarations -/
def externGroup (convert : Converter) (node : Node) : Attempt Fragment := do
  let body ← stmtsField convert node "body"
  return .ofStmts body

end Graft.Convert
