/-
Simple and compound statements.

The clauses of an `if` become statements inside each other, each in the `else` block of the one before, at no known
position. The `else` blocks of the statements differ in one respect: that of an `if` is there whenever the field says
something, that of a `while` when it has statements, and that of a `for` keeps the position of a statement list.
-/
import Graft.Convert.Field

namespace Graft.Convert

open Graft.Document

/-- the tag of a list of statements, and of every document -/
def statListTag : String := "StatList"

def passStmt (node : Node) : Stmt := .pass (positionOf node)

/-- a list of statements, to be spliced into its holder -/
def statListGroup (convert : Converter) (node : Node) : Attempt Fragment := do
  let pieces ← (← field convert node "stats" .load).pieces node
  return .group pieces

/-- an expression statement, whose expression stands where the statement does -/
def exprStatStmt (convert : Converter) (node : Node) : Attempt Stmt := do
  let value ← requiredExpr convert node "expr" .load
  return .ofExpr (value.moveTo (positionOf node))

def assignmentStmt (convert : Converter) (node : Node) : Attempt Stmt := do
  let target ← requiredExpr convert node "lhs" .store
  let value ← requiredExpr convert node "rhs" .load
  return .assign (positionOf node) [target] value

def augAssignmentStmt (convert : Converter) (node : Node) : Attempt Stmt := do
  let target ← requiredExpr convert node "lhs" .augStore
  let value ← requiredExpr convert node "rhs" .load
  let token ← operatorToken node
  return .augAssign (positionOf node) target (.ofToken token) value

/-- a clause of an `if`: its condition, its body and its position -/
structure Clause where
  test : Expr
  body : List Stmt
  pos : Position

/-- one clause of an `if` -/
def ifClause (convert : Converter) (node : Node) (entry : Value) : Attempt Clause := do
  let clause ← entry.node? |> Attempt.orDefect node .clauseNotAnObject
  let test ← requiredExpr convert clause "condition" .load
  let body ← stmtsField convert clause "body"
  return ⟨test, body, positionOf clause⟩

/-- the statement of a clause with the clauses after it, the last of which has the `else` block -/
def clauseChain (orelse : Option Suite) (first : Clause) : List Clause → Stmt
  | [] => .ifElse first.pos first.test first.body orelse
  | next :: rest =>
    .ifElse first.pos first.test first.body (some ⟨[clauseChain orelse next rest], .unknown⟩)

def ifStmt (convert : Converter) (node : Node) : Attempt Stmt := do
  let entries := ((node.present? "if_clauses").bind Value.items?).getD []
  let clauses ← entries.mapM (ifClause convert node)
  match clauses with
  | [] => Attempt.fail (.of node .noClauses)
  | first :: rest =>
    let orelse ←
      if (node.present? "else_clause").isSome then do
        let body ← stmtsField convert node "else_clause"
        pure (some ⟨body, .unknown⟩)
      else pure none
    return clauseChain orelse first rest

/-- a block at no known position, when there are statements in it -/
def filledSuite (body : List Stmt) : Option Suite :=
  if body.isEmpty then none else some ⟨body, .unknown⟩

def whileStmt (convert : Converter) (node : Node) : Attempt Stmt := do
  let test ← requiredExpr convert node "condition" .load
  let body ← stmtsField convert node "body"
  let orelse ← stmtsField convert node "else_clause"
  return .whileLoop (positionOf node) test body (filledSuite orelse)

/-- the `else` block of a `for` -/
def forElse (convert : Converter) (clause : Node) : Attempt (Option Suite) := do
  if clause.isTagged statListTag then
    let body ← stmtsField convert clause "stats"
    return some ⟨body, positionOf clause⟩
  else
    let body ← (← convert (.object clause) .load).stmts clause
    return filledSuite body

def forStmt (convert : Converter) (isAsync : Bool) (node : Node) : Attempt Stmt := do
  let target ← requiredExpr convert node "target" .store
  let iterator ← node.node? "iterator" |> Attempt.orDefect node .noIterator
  let iter ← requiredExpr convert iterator "sequence" .load
  let body ← stmtsField convert node "body"
  let orelse ← match node.node? "else_clause" with
    | some clause => forElse convert clause
    | none => pure none
  return .forLoop (positionOf node) target iter body orelse (isAsync || node.flag "is_async")

def assertStmt (convert : Converter) (node : Node) : Attempt Stmt := do
  let test ← requiredExpr convert node "cond" .load
  let msg ← optionalExpr convert node "value" .load
  return .assertion (positionOf node) test msg

def returnStmt (convert : Converter) (node : Node) : Attempt Stmt := do
  let value ← optionalExpr convert node "value" .load
  return .ret (positionOf node) value

end Graft.Convert
