/-
Operators, comparisons and the other expressions made of expressions.

A comparison is a node with a first operator and two operands; its further operators hang off it as a chain of links,
which the head flattens into two lists of one length.
-/
import Graft.Convert.Field

namespace Graft.Convert

open Graft.Document

/-- an arithmetic or bitwise operator -/
def binOpExpr (convert : Converter) (node : Node) : Attempt Expr := do
  let left ← requiredExpr convert node "operand1" .load
  let right ← requiredExpr convert node "operand2" .load
  let token ← operatorToken node
  return .binOp (positionOf node) left (.ofToken token) right

def boolOpExpr (convert : Converter) (node : Node) : Attempt Expr := do
  let left ← requiredExpr convert node "operand1" .load
  let right ← requiredExpr convert node "operand2" .load
  let token ← operatorToken node
  return .boolOp (positionOf node) (.ofToken token) [left, right]

/-- the operator, the right operand and the further links of a comparison -/
def comparisonLinks (convert : Converter) (node : Node) : Attempt (Link × List Link) := do
  let token ← operatorToken node
  let operand ← requiredExpr convert node "operand2" .load
  let rest ← (← field convert node "cascade" .load).links node
  return (⟨.ofToken token, operand⟩, rest)

/-- the head of a comparison, with all its links -/
def compareExpr (convert : Converter) (node : Node) : Attempt Expr := do
  let left ← requiredExpr convert node "operand1" .load
  let (first, rest) ← comparisonLinks convert node
  let links := first :: rest
  return .compare (positionOf node) left (links.map Link.op) (links.map Link.operand)

/-- a further link of a comparison, with those after it -/
def cascadeLinks (convert : Converter) (node : Node) : Attempt Fragment := do
  let (first, rest) ← comparisonLinks convert node
  return .chain first rest

def condExpr (convert : Converter) (node : Node) : Attempt Expr := do
  let test ← requiredExpr convert node "test" .load
  let body ← requiredExpr convert node "true_val" .load
  let orelse ← requiredExpr convert node "false_val" .load
  return .ifExp (positionOf node) test body orelse

def awaitExpr (convert : Converter) (node : Node) : Attempt Expr := do
  let value ← requiredExpr convert node "arg" .load
  return .await (positionOf node) value

def yieldExpr (convert : Converter) (node : Node) : Attempt Expr := do
  let value ← optionalExpr convert node "arg" .load
  return .yield (positionOf node) value

end Graft.Convert
