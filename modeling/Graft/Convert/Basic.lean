/-
Converting any value of a document.

`construct` sends a node to the construction of its kind. Around it, `convertNode` contains every failure: a node that
cannot be converted, or whose kind is not known, gives nothing and is an anomaly. `convertWithin` ties the knot: it
counts down how deep values nest, and `convert` starts it at the depth of the value, which is always enough.
-/
import Graft.Convert.Atom
import Graft.Convert.Call
import Graft.Convert.Container
import Graft.Convert.Declaration
import Graft.Convert.Definition
import Graft.Convert.Kind
import Graft.Convert.Operation
import Graft.Convert.Statement

namespace Graft.Convert

open Graft.Document

/-- the construction of a kind -/
def construct (convert : Converter) (node : Node) (binding : Binding) : Kind → Attempt Fragment
  | .int => .ofExpr <$> intExpr node
  | .name => .ofExpr <$> nameExpr node binding
  | .bool => .ofExpr <$> boolExpr node
  | .noneLiteral => return .ofExpr (noneExpr node)
  | .string => return .ofExpr (stringExpr node "unicode_value" ⟨false, false, false, false⟩)
  | .unicode => return .ofExpr (stringExpr node "value" ⟨true, false, false, false⟩)
  | .bytes => return .ofExpr (stringExpr node "value" ⟨false, false, true, false⟩)
  | .joinedStr => .ofExpr <$> joinedStrExpr convert node
  | .tuple => .ofExpr <$> tupleExpr convert node binding
  | .list => .ofExpr <$> listExpr convert node binding
  | .set => .ofExpr <$> setExpr convert node
  | .dict => .ofExpr <$> dictExpr convert node
  | .passStat => return .ofStmt (passStmt node)
  | .exprStat => .ofStmt <$> exprStatStmt convert node
  | .singleAssignment => .ofStmt <$> assignmentStmt convert node
  | .inPlaceAssignment => .ofStmt <$> augAssignmentStmt convert node
  | .ifStat => .ofStmt <$> ifStmt convert node
  | .whileStat => .ofStmt <$> whileStmt convert node
  | .forInStat => .ofStmt <$> forStmt convert false node
  | .asyncForStat => .ofStmt <$> forStmt convert true node
  | .assertStat => .ofStmt <$> assertStmt convert node
  | .returnStat => .ofStmt <$> returnStmt convert node
  | .statList => statListGroup convert node
  | .funcDef => .ofStmt <$> functionStmt convert node
  | .cFuncDef => .ofStmt <$> cFunctionStmt convert node
  | .cFuncDeclarator => .ofStmt <$> functionDeclaratorStmt convert node
  | .pyClassDef => .ofStmt <$> classStmt convert "name" .pythonClass node
  | .cClassDef => .ofStmt <$> classStmt convert "class_name" .extensionType node
  | .cStructOrUnionDef => .ofStmt <$> structStmt convert node
  | .cEnumDef => enumFragment convert node
  | .cTypeDef => .ofStmt <$> typedefStmt node
  | .cVarDef => variablesGroup convert node
  | .cDefExtern => externGroup convert node
  | .simpleCall => .ofExpr <$> simpleCallExpr convert node
  | .generalCall => .ofExpr <$> generalCallExpr convert node
  | .sizeof => return .ofExpr (sizeofExpr node)
  | .arithmetic => .ofExpr <$> binOpExpr convert node
  | .boolBinop => .ofExpr <$> boolOpExpr convert node
  | .primaryCmp => .ofExpr <$> compareExpr convert node
  | .cascadedCmp => cascadeLinks convert node
  | .condExpr => .ofExpr <$> condExpr convert node
  | .awaitExpr => .ofExpr <$> awaitExpr convert node
  | .yieldExpr => .ofExpr <$> yieldExpr convert node

/-- a node, by the construction of its kind -/
def convertNode (convert : Converter) (node : Node) (binding : Binding) : Attempt Fragment :=
  Attempt.contain .absent <|
    match node.tag with
    | none => Attempt.fail (.of node .noTag)
    | some tag =>
      match Kind.ofTag? tag with
      | none => Attempt.fail (.unknown tag node)
      | some kind => construct convert node binding kind

theorem convertNode_kind (convert : Converter) {node : Node} {kind : Kind} (h : node.tag.bind Kind.ofTag? = some kind)
    (binding : Binding) :
    convertNode convert node binding = Attempt.contain .absent (construct convert node binding kind) := by
  obtain ⟨tag, htag, hkind⟩ := Option.bind_eq_some_iff.1 h
  rw [convertNode, htag]
  simp only [hkind]

/-- one entry of a list of nodes; links of a comparison do not belong there -/
def convertItem (convert : Converter) (binding : Binding) (item : Value) : Attempt (List Piece) := do
  match ← convert item binding with
  | .absent => return []
  | .piece p => return [p]
  | .group ps => return ps
  | .chain _ _ =>
    Attempt.anomaly (.malformed "CascadedCmp" .linkInList .unknown)
    return []

/-- a list of nodes -/
def convertItems (convert : Converter) (items : List Value) (binding : Binding) : Attempt Fragment :=
  .group <$> Attempt.gather (convertItem convert binding) items

/-- a value that nests no deeper than this -/
def convertWithin : Nat → Converter
  | 0, _, _ => return .absent
  | depth + 1, value, binding =>
    if value.isAbsent then return .absent
    else match value with
      | .object node => convertNode (convertWithin depth) node binding
      | .array items => convertItems (convertWithin depth) items binding
      | other =>
        Attempt.contain .absent (Attempt.fail (.malformed other.kindName (.notANode other.kindName) .unknown))

theorem convertWithin_absent (depth : Nat) {value : Value} (h : value.isAbsent = true) (binding : Binding) :
    convertWithin (depth + 1) value binding = pure .absent := by
  simp [convertWithin, h]

theorem convertWithin_object (depth : Nat) (node : Node) (binding : Binding) :
    convertWithin (depth + 1) (.object node) binding = convertNode (convertWithin depth) node binding := rfl

theorem convertWithin_array (depth : Nat) (items : List Value) (binding : Binding) :
    convertWithin (depth + 1) (.array items) binding = convertItems (convertWithin depth) items binding := rfl

/-- A value that is neither a node nor a list, but says something, is out of place. -/
theorem convertWithin_stray (depth : Nat) {value : Value} (h : value.isAbsent = false) (hnode : value.node? = none)
    (hitems : value.items? = none) (binding : Binding) :
    convertWithin (depth + 1) value binding =
      Attempt.contain .absent (Attempt.fail (.malformed value.kindName (.notANode value.kindName) .unknown)) := by
  cases value with
  | null => cases h
  | object node => cases hnode
  | array items => cases hitems
  | _ => simp [convertWithin, h]

/-- what a value converts to, names in it being bound in the given way -/
def convert : Converter := fun value binding => convertWithin value.depth value binding

end Graft.Convert
