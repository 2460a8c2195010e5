/-
What can go wrong with a document, and the two ways to take it.

A `Fault` names the node that it is about by its tag and its position. In `Mode.permissive` the part of the document
that a fault spoils is left out and the fault is noted; in `Mode.strict` the first fault ends the conversion. A
`Defect` is the cause of a malformed node, and `Defect.message` its wording.
-/
import Graft.Position
import Graft.Document.Printer

namespace Graft.Convert

open Graft.Document

/-- how faults are taken -/
inductive Mode where
  | permissive
  | strict
  deriving DecidableEq

/-- what is wrong with the shape of a node -/
inductive Defect where
  | noTag
  | notANode (kind : String)
  | noExpression (field : String)
  | notAnArray (field : String)
  | entryNotANode (field kind : String)
  | statementAsExpression
  | groupAsExpression
  | linkOutside
  | linkInList
  | cascadeNotALink
  | noName
  | noInteger
  | noBoolean
  | dictItemNotAnObject
  | noOperator
  | keywordWithoutKey
  | keywordNotAString
  | clauseNotAnObject
  | noClauses
  | noIterator
  | noFunctionName
  | noClassName (field : String)
  | notADecorator
  | noBase
  | unnamedFunction
  | noDeclarator
  | noStructName
  | unnamedMember
  | unnamedTypedef
  | unnamedVariable
  | parameterNotAnObject
  | unnamedParameter
  deriving DecidableEq

/-- the wording of a defect -/
def Defect.message : Defect → String
  | noTag => "object has no discriminator"
  | notANode kind => "expected a node, found " ++ kind
  | noExpression field => "`" ++ field ++ "` has no expression"
  | notAnArray field => "`" ++ field ++ "` is not an array"
  | entryNotANode field kind => "`" ++ field ++ "` entry is a " ++ kind ++ ", not a node"
  | statementAsExpression => "statement found where an expression was expected"
  | groupAsExpression => "statement group found where one expression was expected"
  | linkOutside => "comparison chain link outside a comparison"
  | linkInList => "comparison chain link inside a node list"
  | cascadeNotALink => "`cascade` is not a comparison chain"
  | noName => "missing `name`"
  | noInteger => "missing integer `value`"
  | noBoolean => "missing boolean `value`"
  | dictItemNotAnObject => "dictionary item is not an object"
  | noOperator => "missing `operator`"
  | keywordWithoutKey => "keyword argument without a key"
  | keywordNotAString => "keyword argument name is not a string"
  | clauseNotAnObject => "`if_clauses` entry is not an object"
  | noClauses => "no `if_clauses`"
  | noIterator => "missing `iterator`"
  | noFunctionName => "missing function `name`"
  | noClassName field => "missing class `" ++ field ++ "`"
  | notADecorator => "decorator is neither a name nor a call"
  | noBase => "missing `base` declarator"
  | unnamedFunction => "function declarator has no name"
  | noDeclarator => "missing `declarator`"
  | noStructName => "missing struct `name`"
  | unnamedMember => "enum member has no name"
  | unnamedTypedef => "typedef declarator has no name"
  | unnamedVariable => "variable declarator has no name"
  | parameterNotAnObject => "parameter is not an object"
  | unnamedParameter => "unable to name parameter"

/-- a part of a document that cannot be converted -/
inductive Fault where
  /-- no construct is known under the tag of a node, which is written out -/
  | unknownTag (tag : String) (pos : Position) (subtree : String)
  /-- a node lacks what its kind needs -/
  | malformed (tag : String) (defect : Defect) (pos : Position)
  /-- the document is not a list of statements -/
  | unexpectedRoot (found : String)
  deriving DecidableEq

def Fault.message : Fault → String
  | unknownTag tag pos _ => "unknown node tag `" ++ tag ++ "` at " ++ pos.text
  | malformed tag defect pos => "malformed `" ++ tag ++ "` node at " ++ pos.text ++ ": " ++ defect.message
  | unexpectedRoot found => "expected a `StatList` document root, found `" ++ found ++ "`"

/-! ## Where a node stands -/

/-- the position of a node: its line as given, its column counted from one instead of from zero -/
def positionOf (node : Node) : Position where
  line := ((node.int? "line").bind Text.word?).getD 0
  column := match (node.int? "col").bind Text.word? with
    | some column => UInt32.ofNat (min (column.toNat + 1) Position.lastColumn)
    | none => 0

/-- the position of a defined name, a distance after the keyword; unknown columns stay unknown -/
def namePosition (definition : Position) (distance : UInt32) : Position :=
  if definition.column = 0 then definition else definition.shifted distance

/-- what a node is called in a fault -/
def tagOrUntagged (node : Node) : String := node.tag.getD "untagged object"

/-- the fault of a node with a defect -/
def Fault.of (node : Node) (defect : Defect) : Fault :=
  .malformed (tagOrUntagged node) defect (positionOf node)

/-- the fault of a node whose tag is not known -/
def Fault.unknown (tag : String) (node : Node) : Fault :=
  .unknownTag tag (positionOf node) (Value.object node).pretty

end Graft.Convert
