/-
The exchange format of trees: a module as a document and back.

A structure is an object with a member for each of its parts, a choice is the name of the alternative or an object
whose only member is named for it, a missing part is `null`. Every position is written. Reading (`Module.decode`) is
more lenient than writing in three ways: members that are not known are passed over, a part that may be missing need
not be written, and a structure may also be given as the array of its parts in order. Texts, calls and definitions are
alternatives that hold a structure; every other alternative with parts has to be an object.

The functions `decodeExprWithin` and `decodeStmtWithin` count down a depth, which the depth of the document bounds.
-/
import Graft.Document.Basic
import Graft.Tree.Basic

namespace Graft.Exchange

open Graft.Document

/-! ## Writing -/

/-- an object with these members -/
def record (members : List (String × Value)) : Value := .object ⟨none, members⟩

/-- a choice with a payload -/
def choice (name : String) (payload : Value) : Value := record [(name, payload)]

def word (n : UInt32) : Value := .number (.int n.toNat)

def encodePosition (p : Position) : Value := record [("line", word p.line), ("column", word p.column)]

/-- a node: what kind it is, and where it is -/
def node (kind : Value) (pos : Position) : Value := record [("kind", kind), ("pos", encodePosition pos)]

def encodeToken (t : NameToken) : Value :=
  record [("id", .string t.id), ("ctx", .string t.role.name), ("pos", encodePosition t.pos)]

def encodeToken? : Option NameToken → Value
  | none => .null
  | some t => encodeToken t

mutual

def encodeExpr : Expr → Value
  | .name pos id binding reserved =>
    node (choice "Name" (record
      [("id", .string id), ("ctx", .string binding.name), ("reserved", .bool reserved)])) pos
  | .num pos digits => node (choice "Num" (.string digits)) pos
  | .str pos text marks segments =>
    node (choice "Str" (record
      [("s", .string text), ("unicode", .bool marks.unicode), ("raw", .bool marks.raw),
        ("binary", .bool marks.binary), ("fstring", .bool marks.fstring),
        ("fstring_nodes", .array (encodeStmts segments))])) pos
  | .tuple pos elts binding comma =>
    node (choice "Tuple" (record
      [("elts", .array (encodeExprs elts)), ("ctx", .string binding.name), ("ends_with_comma", .bool comma)])) pos
  | .list pos elts binding =>
    node (choice "List" (record [("elts", .array (encodeExprs elts)), ("ctx", .string binding.name)])) pos
  | .set pos elts => node (choice "Set" (record [("elts", .array (encodeExprs elts))])) pos
  | .dict pos keys values =>
    node (choice "Dict" (record
      [("keys", .array (encodeExprs keys)), ("values", .array (encodeExprs values))])) pos
  | .call pos func args => node (choice "Call" (record (("func", encodeExpr func) :: encodeCallArgs args))) pos
  | .binOp pos left op right =>
    node (choice "BinOp" (record
      [("left", encodeExpr left), ("op", .string op.name), ("right", encodeExpr right)])) pos
  | .boolOp pos op values =>
    node (choice "BoolOp" (record [("op", .string op.name), ("values", .array (encodeExprs values))])) pos
  | .compare pos left ops comparators =>
    node (choice "Compare" (record
      [("left", encodeExpr left), ("ops", .array (ops.map fun op => .string op.name)),
        ("comparators", .array (encodeExprs comparators))])) pos
  | .ifExp pos test body orelse =>
    node (choice "IfExp" (record
      [("test", encodeExpr test), ("body", encodeExpr body), ("orelse", encodeExpr orelse)])) pos
  | .await pos value => node (choice "Await" (record [("value", encodeExpr value)])) pos
  | .yield pos value => node (choice "Yield" (record [("value", encodeExpr? value)])) pos
termination_by structural e => e

/-- the members that write the arguments of a call -/
def encodeCallArgs : CallArgs → List (String × Value)
  | ⟨args, keywords, starargs, kwargs⟩ =>
    [("args", .array (encodeExprs args)), ("keywords", .array (encodeKeywords keywords)),
      ("starargs", encodeExpr? starargs), ("kwargs", encodeExpr? kwargs)]
termination_by structural a => a

def encodeKeyword : Keyword → Value
  | ⟨arg, value⟩ => record [("arg", encodeToken arg), ("value", encodeExpr value)]
termination_by structural k => k

def encodeStmt : Stmt → Value
  | .assign pos targets value =>
    node (choice "Assign" (record
      [("targets", .array (encodeExprs targets)), ("value", encodeExpr value)])) pos
  | .augAssign pos target op value =>
    node (choice "AugAssign" (record
      [("target", encodeExpr target), ("op", .string op.name), ("value", encodeExpr value)])) pos
  | .expr pos value => node (choice "Expr" (encodeExpr value)) pos
  | .pass pos => node (.string "Pass") pos
  | .ifElse pos test body orelse =>
    node (choice "If" (record
      [("test", encodeExpr test), ("body", .array (encodeStmts body)), ("orelse", encodeSuite? orelse)])) pos
  | .whileLoop pos test body orelse =>
    node (choice "While" (record
      [("test", encodeExpr test), ("body", .array (encodeStmts body)), ("orelse", encodeSuite? orelse)])) pos
  | .forLoop pos target iter body orelse isAsync =>
    node (choice "For" (record
      [("target", encodeExpr target), ("iter", encodeExpr iter), ("body", .array (encodeStmts body)),
        ("orelse", encodeSuite? orelse), ("is_async", .bool isAsync)])) pos
  | .assertion pos test msg =>
    node (choice "Assert" (record [("test", encodeExpr test), ("msg", encodeExpr? msg)])) pos
  | .ret pos value => node (choice "Return" (record [("value", encodeExpr? value)])) pos
  | .functionDef pos name params body decorators isAsync =>
    node (choice "FunctionDef" (record
      [("name", encodeToken name), ("args", encodeParameters params), ("body", .array (encodeStmts body)),
        ("decorators", .array (encodeDecorators decorators)), ("is_async", .bool isAsync)])) pos
  | .classDef pos name bases body decorators =>
    node (choice "ClassDef" (record
      [("name", encodeToken name), ("bases", .array (encodeExprs bases)), ("body", .array (encodeStmts body)),
        ("decorators", .array (encodeDecorators decorators))])) pos
termination_by structural s => s

def encodeSuite : Suite → Value
  | ⟨body, pos⟩ => record [("body", .array (encodeStmts body)), ("pos", encodePosition pos)]
termination_by structural s => s

def encodeDecorator : Decorator → Value
  | ⟨func, args, isCall, pos⟩ =>
    record (("func", encodeExpr func) :: encodeCallArgs args
      ++ [("is_call", .bool isCall), ("pos", encodePosition pos)])
termination_by structural d => d

def encodeParameters : Parameters → Value
  | ⟨args, defaults, annotations, vararg, kwarg, kwonlyargs, kwDefaults, kwonlyAnnotations⟩ =>
    record
      [("args", .array (encodeExprs args)), ("defaults", .array (encodeOptions defaults)),
        ("annotations", .array (encodeOptions annotations)), ("vararg", encodeToken? vararg),
        ("kwarg", encodeToken? kwarg), ("kwonlyargs", .array (encodeExprs kwonlyargs)),
        ("kw_defaults", .array (encodeOptions kwDefaults)),
        ("kwonly_annotations", .array (encodeOptions kwonlyAnnotations))]
termination_by structural p => p

def encodeExprs : List Expr → List Value
  | [] => []
  | e :: es => encodeExpr e :: encodeExprs es
termination_by structural es => es

def encodeExpr? : Option Expr → Value
  | none => .null
  | some e => encodeExpr e
termination_by structural e => e

def encodeOptions : List (Option Expr) → List Value
  | [] => []
  | e :: es => encodeExpr? e :: encodeOptions es
termination_by structural es => es

def encodeKeywords : List Keyword → List Value
  | [] => []
  | k :: ks => encodeKeyword k :: encodeKeywords ks
termination_by structural ks => ks

def encodeStmts : List Stmt → List Value
  | [] => []
  | s :: ss => encodeStmt s :: encodeStmts ss
termination_by structural ss => ss

def encodeSuite? : Option Suite → Value
  | none => .null
  | some s => encodeSuite s
termination_by structural s => s

def encodeDecorators : List Decorator → List Value
  | [] => []
  | d :: ds => encodeDecorator d :: encodeDecorators ds
termination_by structural ds => ds

end

/-! ## Reading the leaves -/

/-- the members of these names -/
def members? (names : List String) : Value → Option (List (Option Value))
  | .object node => some (names.map node.get?)
  | _ => none

/-- the parts of a structure, by name from an object or in order from an array -/
def parts? (names : List String) : Value → Option (List (Option Value))
  | .array items => if items.length = names.length then some (items.map some) else none
  | v => members? names v

/-- a part that has to be there -/
def need {α : Type} (decode : Value → Option α) (part : Option Value) : Option α := part.bind decode

/-- a part that may be missing -/
def optional {α : Type} (decode : Value → Option α) : Option Value → Option (Option α)
  | none => some none
  | some .null => some none
  | some v => (decode v).map some

/-- an element of a list that may be `null` -/
def nullable {α : Type} (decode : Value → Option α) (v : Value) : Option (Option α) := optional decode (some v)

/-- the name of the alternative of a choice, with its payload if there is one -/
def choice? : Value → Option (String × Option Value)
  | .string name => some (name, none)
  | .object ⟨none, [(name, payload)]⟩ => some (name, some payload)
  | _ => none

/-- the name of an alternative without a payload -/
def plainChoice? (v : Value) : Option String :=
  match choice? v with
  | some (name, none) => some name
  | some (name, some .null) => some name
  | _ => none

def list? {α : Type} (decode : Value → Option α) : Value → Option (List α)
  | .array items => items.mapM decode
  | _ => none

def bool? : Value → Option Bool
  | .bool b => some b
  | _ => none

def word? : Value → Option UInt32
  | .number (.int n) => Text.word? n
  | _ => none

def decodePosition (v : Value) : Option Position := do
  match ← parts? ["line", "column"] v with
  | [line, column] => return ⟨← need word? line, ← need word? column⟩
  | _ => none

def decodeBinding (v : Value) : Option Binding := (plainChoice? v).bind Binding.ofName?

def decodeRole (v : Value) : Option Role := (plainChoice? v).bind Role.ofName?

def decodeBinaryOp (v : Value) : Option BinaryOp := (plainChoice? v).bind BinaryOp.ofName?

def decodeBoolOp (v : Value) : Option BoolOp := (plainChoice? v).bind BoolOp.ofName?

def decodeCompareOp (v : Value) : Option CompareOp := (plainChoice? v).bind CompareOp.ofName?

def decodeToken (v : Value) : Option NameToken := do
  match ← parts? ["id", "ctx", "pos"] v with
  | [id, role, pos] =>
    return ⟨← need Value.text? id, ← need decodeRole role, ← need decodePosition pos⟩
  | _ => none

/-! ## Reading the parts of a tree

Each of these takes the readers of expressions and statements that it needs. -/

/-- the alternative and the position of a node -/
def decodeNode (v : Value) : Option (String × Option Value × Position) := do
  match ← parts? ["kind", "pos"] v with
  | [kind, pos] =>
    let (name, payload) ← need choice? kind
    return (name, payload, ← need decodePosition pos)
  | _ => none

def decodeKeyword (expr : Value → Option Expr) (v : Value) : Option Keyword := do
  match ← parts? ["arg", "value"] v with
  | [arg, value] => return ⟨← need decodeToken arg, ← need expr value⟩
  | _ => none

def decodeSuite (stmt : Value → Option Stmt) (v : Value) : Option Suite := do
  match ← parts? ["body", "pos"] v with
  | [body, pos] => return ⟨← need (list? stmt) body, ← need decodePosition pos⟩
  | _ => none

def decodeDecorator (expr : Value → Option Expr) (v : Value) : Option Decorator := do
  match ← parts? ["func", "args", "keywords", "starargs", "kwargs", "is_call", "pos"] v with
  | [func, args, keywords, starargs, kwargs, isCall, pos] =>
    return ⟨← need expr func,
      ⟨← need (list? expr) args, ← need (list? (decodeKeyword expr)) keywords, ← optional expr starargs,
        ← optional expr kwargs⟩,
      ← need bool? isCall, ← need decodePosition pos⟩
  | _ => none

def decodeParameters (expr : Value → Option Expr) (v : Value) : Option Parameters := do
  match ← parts? ["args", "defaults", "annotations", "vararg", "kwarg", "kwonlyargs", "kw_defaults",
    "kwonly_annotations"] v with
  | [args, defaults, annotations, vararg, kwarg, kwonlyargs, kwDefaults, kwonlyAnnotations] =>
    return ⟨← need (list? expr) args, ← need (list? (nullable expr)) defaults,
      ← need (list? (nullable expr)) annotations, ← optional decodeToken vararg, ← optional decodeToken kwarg,
      ← need (list? expr) kwonlyargs, ← need (list? (nullable expr)) kwDefaults,
      ← need (list? (nullable expr)) kwonlyAnnotations⟩
  | _ => none

/-- an expression from its alternative, its payload and its position -/
def decodeExprKind (expr : Value → Option Expr) (stmt : Value → Option Stmt) (pos : Position) :
    String → Value → Option Expr
  | "Name", v => do
    match ← members? ["id", "ctx", "reserved"] v with
    | [id, binding, reserved] =>
      return .name pos (← need Value.text? id) (← need decodeBinding binding) (← need bool? reserved)
    | _ => none
  | "Num", v => (Value.text? v).map (.num pos)
  | "Str", v => do
    match ← parts? ["s", "unicode", "raw", "binary", "fstring", "fstring_nodes"] v with
    | [text, unicode, raw, binary, fstring, segments] =>
      return .str pos (← need Value.text? text)
        ⟨← need bool? unicode, ← need bool? raw, ← need bool? binary, ← need bool? fstring⟩
        (← need (list? stmt) segments)
    | _ => none
  | "Tuple", v => do
    match ← members? ["elts", "ctx", "ends_with_comma"] v with
    | [elts, binding, comma] =>
      return .tuple pos (← need (list? expr) elts) (← need decodeBinding binding) (← need bool? comma)
    | _ => none
  | "List", v => do
    match ← members? ["elts", "ctx"] v with
    | [elts, binding] => return .list pos (← need (list? expr) elts) (← need decodeBinding binding)
    | _ => none
  | "Set", v => do
    match ← members? ["elts"] v with
    | [elts] => return .set pos (← need (list? expr) elts)
    | _ => none
  | "Dict", v => do
    match ← members? ["keys", "values"] v with
    | [keys, values] => return .dict pos (← need (list? expr) keys) (← need (list? expr) values)
    | _ => none
  | "Call", v => do
    match ← parts? ["func", "args", "keywords", "starargs", "kwargs"] v with
    | [func, args, keywords, starargs, kwargs] =>
      return .call pos (← need expr func)
        ⟨← need (list? expr) args, ← need (list? (decodeKeyword expr)) keywords, ← optional expr starargs,
          ← optional expr kwargs⟩
    | _ => none
  | "BinOp", v => do
    match ← members? ["left", "op", "right"] v with
    | [left, op, right] => return .binOp pos (← need expr left) (← need decodeBinaryOp op) (← need expr right)
    | _ => none
  | "BoolOp", v => do
    match ← members? ["op", "values"] v with
    | [op, values] => return .boolOp pos (← need decodeBoolOp op) (← need (list? expr) values)
    | _ => none
  | "Compare", v => do
    match ← members? ["left", "ops", "comparators"] v with
    | [left, ops, comparators] =>
      return .compare pos (← need expr left) (← need (list? decodeCompareOp) ops) (← need (list? expr) comparators)
    | _ => none
  | "IfExp", v => do
    match ← members? ["test", "body", "orelse"] v with
    | [test, body, orelse] => return .ifExp pos (← need expr test) (← need expr body) (← need expr orelse)
    | _ => none
  | "Await", v => do
    match ← members? ["value"] v with
    | [value] => return .await pos (← need expr value)
    | _ => none
  | "Yield", v => do
    match ← members? ["value"] v with
    | [value] => return .yield pos (← optional expr value)
    | _ => none
  | _, _ => none

/-- a statement from its alternative, its payload and its position -/
def decodeStmtKind (expr : Value → Option Expr) (stmt : Value → Option Stmt) (pos : Position) :
    String → Value → Option Stmt
  | "Assign", v => do
    match ← members? ["targets", "value"] v with
    | [targets, value] => return .assign pos (← need (list? expr) targets) (← need expr value)
    | _ => none
  | "AugAssign", v => do
    match ← members? ["target", "op", "value"] v with
    | [target, op, value] =>
      return .augAssign pos (← need expr target) (← need decodeBinaryOp op) (← need expr value)
    | _ => none
  | "Expr", v => (expr v).map (.expr pos)
  | "If", v => do
    match ← members? ["test", "body", "orelse"] v with
    | [test, body, orelse] =>
      return .ifElse pos (← need expr test) (← need (list? stmt) body) (← optional (decodeSuite stmt) orelse)
    | _ => none
  | "While", v => do
    match ← members? ["test", "body", "orelse"] v with
    | [test, body, orelse] =>
      return .whileLoop pos (← need expr test) (← need (list? stmt) body) (← optional (decodeSuite stmt) orelse)
    | _ => none
  | "For", v => do
    match ← members? ["target", "iter", "body", "orelse", "is_async"] v with
    | [target, iter, body, orelse, isAsync] =>
      return .forLoop pos (← need expr target) (← need expr iter) (← need (list? stmt) body)
        (← optional (decodeSuite stmt) orelse) (← need bool? isAsync)
    | _ => none
  | "Assert", v => do
    match ← members? ["test", "msg"] v with
    | [test, msg] => return .assertion pos (← need expr test) (← optional expr msg)
    | _ => none
  | "Return", v => do
    match ← members? ["value"] v with
    | [value] => return .ret pos (← optional expr value)
    | _ => none
  | "FunctionDef", v => do
    match ← parts? ["name", "args", "body", "decorators", "is_async"] v with
    | [name, args, body, decorators, isAsync] =>
      return .functionDef pos (← need decodeToken name) (← need (decodeParameters expr) args)
        (← need (list? stmt) body) (← need (list? (decodeDecorator expr)) decorators) (← need bool? isAsync)
    | _ => none
  | "ClassDef", v => do
    match ← parts? ["name", "bases", "body", "decorators"] v with
    | [name, bases, body, decorators] =>
      return .classDef pos (← need decodeToken name) (← need (list? expr) bases) (← need (list? stmt) body)
        (← need (list? (decodeDecorator expr)) decorators)
    | _ => none
  | _, _ => none

mutual

/-- reads an expression that nests no deeper than this -/
def decodeExprWithin : Nat → Value → Option Expr
  | 0, _ => none
  | depth + 1, v => do
    let (name, payload, pos) ← decodeNode v
    decodeExprKind (decodeExprWithin depth) (decodeStmtWithin depth) pos name (← payload)

/-- reads a statement that nests no deeper than this -/
def decodeStmtWithin : Nat → Value → Option Stmt
  | 0, _ => none
  | depth + 1, v => do
    let (name, payload, pos) ← decodeNode v
    match name, payload with
    | "Pass", none => return .pass pos
    | "Pass", some .null => return .pass pos
    | _, some payload => decodeStmtKind (decodeExprWithin depth) (decodeStmtWithin depth) pos name payload
    | _, none => none

end

end Graft.Exchange

namespace Graft.Module

open Graft.Document Graft.Exchange

/-- the module as a document -/
def encode (m : Module) : Value := record [("body", .array (encodeStmts m.body))]

/-- reads a module from a document -/
def decode (v : Value) : Option Module := do
  match ← parts? ["body"] v with
  | [body] => return ⟨← need (list? (decodeStmtWithin v.depth)) body⟩
  | _ => none

end Graft.Module
