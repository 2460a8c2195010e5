/-
Displays: tuples, lists, sets, dictionaries and interpolated strings.

The elements of a tuple or a list are bound like the tuple or list itself; those of a set or a dictionary are read.
-/
import Graft.Convert.Field

namespace Graft.Convert

open Graft.Document

def tupleExpr (convert : Converter) (node : Node) (binding : Binding) : Attempt Expr := do
  let elts ← exprsField convert node "args" binding
  return .tuple (positionOf node) elts binding false

def listExpr (convert : Converter) (node : Node) (binding : Binding) : Attempt Expr := do
  let elts ← exprsField convert node "args" binding
  return .list (positionOf node) elts binding

def setExpr (convert : Converter) (node : Node) : Attempt Expr := do
  let elts ← exprsField convert node "args" .load
  return .set (positionOf node) elts

/-- the key and value items of a dictionary -/
def dictItems (node : Node) : Attempt (List Node) :=
  objectItems node "key_value_pairs" .dictItemNotAnObject

/-- a key with its value -/
def dictEntry (convert : Converter) (item : Node) : Attempt (Expr × Expr) := do
  let key ← requiredExpr convert item "key" .load
  let value ← requiredExpr convert item "value" .load
  return (key, value)

def dictExpr (convert : Converter) (node : Node) : Attempt Expr := do
  let entries ← (← dictItems node).mapM (dictEntry convert)
  return .dict (positionOf node) (entries.map Prod.fst) (entries.map Prod.snd)

/-- a segment of an interpolated string, as statements; a formatted value stands for what it formats -/
def segmentStmts (convert : Converter) (node segment : Node) : Attempt (List Stmt) := do
  let fragment ←
    if segment.isTagged "FormattedValue" then field convert segment "value" .load
    else convert (.object segment) .load
  fragment.stmts node

/-- an interpolated string: its segments, and no text of its own -/
def joinedStrExpr (convert : Converter) (node : Node) : Attempt Expr := do
  let segments ← Attempt.gather (segmentStmts convert node) (← nodeEntries node "values")
  return .str (positionOf node) "" ⟨true, false, false, false⟩ segments

end Graft.Convert
