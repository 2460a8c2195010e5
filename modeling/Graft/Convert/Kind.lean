/-
The kinds of node that have a construct in the tree, and the tags under which documents name them.

Some kinds have several tags: the null constant, `sizeof` of a type or of a variable, and the arithmetic operators.
`Kind.tags` lists them; `ofTag?_eq_some_iff` says that the look-up is that list read backwards.
-/

namespace Graft.Convert

inductive Kind where
  | int
  | name
  | bool
  | noneLiteral
  | string
  | unicode
  | bytes
  | joinedStr
  | tuple
  | list
  | set
  | dict
  | passStat
  | exprStat
  | singleAssignment
  | inPlaceAssignment
  | ifStat
  | whileStat
  | forInStat
  | asyncForStat
  | assertStat
  | returnStat
  | statList
  | funcDef
  | cFuncDef
  | cFuncDeclarator
  | pyClassDef
  | cClassDef
  | cStructOrUnionDef
  | cEnumDef
  | cTypeDef
  | cVarDef
  | cDefExtern
  | simpleCall
  | generalCall
  | sizeof
  | arithmetic
  | boolBinop
  | primaryCmp
  | cascadedCmp
  | condExpr
  | awaitExpr
  | yieldExpr
  deriving DecidableEq

namespace Kind

/-- what the kind is called -/
def label : Kind → String
  | int => "Int"
  | name => "Name"
  | bool => "Bool"
  | noneLiteral => "NoneLiteral"
  | string => "String"
  | unicode => "Unicode"
  | bytes => "Bytes"
  | joinedStr => "JoinedStr"
  | tuple => "Tuple"
  | list => "List"
  | set => "Set"
  | dict => "Dict"
  | passStat => "PassStat"
  | exprStat => "ExprStat"
  | singleAssignment => "SingleAssignment"
  | inPlaceAssignment => "InPlaceAssignment"
  | ifStat => "IfStat"
  | whileStat => "WhileStat"
  | forInStat => "ForInStat"
  | asyncForStat => "AsyncForStat"
  | assertStat => "AssertStat"
  | returnStat => "ReturnStat"
  | statList => "StatList"
  | funcDef => "Def"
  | cFuncDef => "CFuncDef"
  | cFuncDeclarator => "CFuncDeclarator"
  | pyClassDef => "PyClassDef"
  | cClassDef => "CClassDef"
  | cStructOrUnionDef => "CStructOrUnionDef"
  | cEnumDef => "CEnumDef"
  | cTypeDef => "CTypeDef"
  | cVarDef => "CVarDef"
  | cDefExtern => "CDefExtern"
  | simpleCall => "SimpleCall"
  | generalCall => "GeneralCall"
  | sizeof => "Sizeof"
  | arithmetic => "Arithmetic"
  | boolBinop => "BoolBinop"
  | primaryCmp => "PrimaryCmp"
  | cascadedCmp => "CascadedCmp"
  | condExpr => "CondExpr"
  | awaitExpr => "AwaitExpr"
  | yieldExpr => "YieldExpr"

/-- the tags under which a document names the kind -/
def tags : Kind → List String
  | noneLiteral => ["None", "Null"]
  | sizeof => ["SizeofType", "SizeofVar"]
  | arithmetic => ["Add", "Sub", "Mul", "Div", "MatMult", "IntBinop"]
  | kind => [kind.label]

/-- the kind that a tag names -/
def ofTag? : String → Option Kind
  | "Int" => some int
  | "Name" => some name
  | "Bool" => some bool
  | "None" => some noneLiteral
  | "Null" => some noneLiteral
  | "String" => some string
  | "Unicode" => some unicode
  | "Bytes" => some bytes
  | "JoinedStr" => some joinedStr
  | "Tuple" => some tuple
  | "List" => some list
  | "Set" => some set
  | "Dict" => some dict
  | "PassStat" => some passStat
  | "ExprStat" => some exprStat
  | "SingleAssignment" => some singleAssignment
  | "InPlaceAssignment" => some inPlaceAssignment
  | "IfStat" => some ifStat
  | "WhileStat" => some whileStat
  | "ForInStat" => some forInStat
  | "AsyncForStat" => some asyncForStat
  | "AssertStat" => some assertStat
  | "ReturnStat" => some returnStat
  | "StatList" => some statList
  | "Def" => some funcDef
  | "CFuncDef" => some cFuncDef
  | "CFuncDeclarator" => some cFuncDeclarator
  | "PyClassDef" => some pyClassDef
  | "CClassDef" => some cClassDef
  | "CStructOrUnionDef" => some cStructOrUnionDef
  | "CEnumDef" => some cEnumDef
  | "CTypeDef" => some cTypeDef
  | "CVarDef" => some cVarDef
  | "CDefExtern" => some cDefExtern
  | "SimpleCall" => some simpleCall
  | "GeneralCall" => some generalCall
  | "SizeofType" => some sizeof
  | "SizeofVar" => some sizeof
  | "Add" => some arithmetic
  | "Sub" => some arithmetic
  | "Mul" => some arithmetic
  | "Div" => some arithmetic
  | "MatMult" => some arithmetic
  | "IntBinop" => some arithmetic
  | "BoolBinop" => some boolBinop
  | "PrimaryCmp" => some primaryCmp
  | "CascadedCmp" => some cascadedCmp
  | "CondExpr" => some condExpr
  | "AwaitExpr" => some awaitExpr
  | "YieldExpr" => some yieldExpr
  | _ => none

theorem mem_tags_of_ofTag? {tag : String} {kind : Kind} (h : ofTag? tag = some kind) : tag ∈ kind.tags := by
  unfold ofTag? at h
  split at h <;> first | (cases h; decide) | cases h

theorem ofTag?_of_mem_tags {tag : String} {kind : Kind} (h : tag ∈ kind.tags) : ofTag? tag = some kind := by
  revert tag
  cases kind <;> decide

/-- A kind is found under its tags and under nothing else. -/
theorem ofTag?_eq_some_iff {tag : String} {kind : Kind} : ofTag? tag = some kind ↔ tag ∈ kind.tags :=
  ⟨mem_tags_of_ofTag?, ofTag?_of_mem_tags⟩

end Kind

end Graft.Convert
