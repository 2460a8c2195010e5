/-
The syntax tree of a Python module.

Every node carries its position, and a suite (the block after `else`) has one of its own. A name carries the way in
which it is bound where it stands (`Binding`), and an identifier that is no expression, such as the name of a function,
is a `NameToken` with its role. Lists that run in parallel, such as the parameters, their defaults and their
annotations, are kept as the exchange format has them; nothing here makes their lengths agree.
-/
import Graft.Position
import Graft.Tree.Operator

namespace Graft

/-- how a name is bound where it stands -/
inductive Binding where
  | load
  | store
  | augStore
  | param
  | kwOnlyParam
  deriving DecidableEq

namespace Binding

def all : List Binding := [load, store, augStore, param, kwOnlyParam]

def name : Binding → String
  | load => "Load"
  | store => "Store"
  | augStore => "AugStore"
  | param => "Param"
  | kwOnlyParam => "KwOnlyParam"

def ofName? (text : String) : Option Binding := all.find? (·.name == text)

theorem ofName?_name (b : Binding) : ofName? b.name = some b := by
  cases b <;> decide

end Binding

/-- what a bare identifier names -/
inductive Role where
  | className
  | functionName
  | varArg
  | kwArg
  | keywordName
  deriving DecidableEq

namespace Role

def all : List Role := [className, functionName, varArg, kwArg, keywordName]

def name : Role → String
  | className => "ClassName"
  | functionName => "FunctionName"
  | varArg => "VarArg"
  | kwArg => "KwArg"
  | keywordName => "KeywordName"

def ofName? (text : String) : Option Role := all.find? (·.name == text)

theorem ofName?_name (r : Role) : ofName? r.name = some r := by
  cases r <;> decide

end Role

/-- an identifier that is no expression -/
structure NameToken where
  id : String
  role : Role
  pos : Position
  deriving DecidableEq

/-- the marks that a string literal is written with -/
structure StringMarks where
  unicode : Bool := false
  raw : Bool := false
  binary : Bool := false
  fstring : Bool := false
  deriving DecidableEq

mutual

/-- an expression -/
inductive Expr where
  | name (pos : Position) (id : String) (binding : Binding) (reserved : Bool)
  | num (pos : Position) (digits : String)
  /-- a string literal; an interpolated one has a statement for each segment -/
  | str (pos : Position) (text : String) (marks : StringMarks) (segments : List Stmt)
  | tuple (pos : Position) (elts : List Expr) (binding : Binding) (endsWithComma : Bool)
  | list (pos : Position) (elts : List Expr) (binding : Binding)
  | set (pos : Position) (elts : List Expr)
  | dict (pos : Position) (keys : List Expr) (values : List Expr)
  | call (pos : Position) (func : Expr) (args : CallArgs)
  | binOp (pos : Position) (left : Expr) (op : BinaryOp) (right : Expr)
  | boolOp (pos : Position) (op : BoolOp) (values : List Expr)
  | compare (pos : Position) (left : Expr) (ops : List CompareOp) (comparators : List Expr)
  | ifExp (pos : Position) (test : Expr) (body : Expr) (orelse : Expr)
  | await (pos : Position) (value : Expr)
  | yield (pos : Position) (value : Option Expr)

/-- the arguments of a call -/
structure CallArgs where
  args : List Expr
  keywords : List Keyword
  starargs : Option Expr
  kwargs : Option Expr

/-- an argument that is passed by name -/
structure Keyword where
  arg : NameToken
  value : Expr

/-- a statement -/
inductive Stmt where
  | assign (pos : Position) (targets : List Expr) (value : Expr)
  | augAssign (pos : Position) (target : Expr) (op : BinaryOp) (value : Expr)
  | expr (pos : Position) (value : Expr)
  | pass (pos : Position)
  | ifElse (pos : Position) (test : Expr) (body : List Stmt) (orelse : Option Suite)
  | whileLoop (pos : Position) (test : Expr) (body : List Stmt) (orelse : Option Suite)
  | forLoop (pos : Position) (target : Expr) (iter : Expr) (body : List Stmt) (orelse : Option Suite) (isAsync : Bool)
  | assertion (pos : Position) (test : Expr) (msg : Option Expr)
  | ret (pos : Position) (value : Option Expr)
  | functionDef (pos : Position) (name : NameToken) (params : Parameters) (body : List Stmt)
      (decorators : List Decorator) (isAsync : Bool)
  | classDef (pos : Position) (name : NameToken) (bases : List Expr) (body : List Stmt)
      (decorators : List Decorator)

/-- a block of statements that hangs off a compound statement -/
structure Suite where
  body : List Stmt
  pos : Position

/-- a decorator, written plainly or as a call -/
structure Decorator where
  func : Expr
  args : CallArgs
  isCall : Bool
  pos : Position

/-- the parameters of a function; defaults and annotations run parallel to their parameters -/
structure Parameters where
  args : List Expr
  defaults : List (Option Expr)
  annotations : List (Option Expr)
  vararg : Option NameToken
  kwarg : Option NameToken
  kwonlyargs : List Expr
  kwDefaults : List (Option Expr)
  kwonlyAnnotations : List (Option Expr)

end

/-- a whole source file -/
structure Module where
  body : List Stmt

/-- no arguments at all -/
def CallArgs.none : CallArgs := ⟨[], [], .none, .none⟩

/-- positional arguments only -/
def CallArgs.positional (args : List Expr) : CallArgs := ⟨args, [], .none, .none⟩

/-- no parameters at all -/
def Parameters.none : Parameters := ⟨[], [], [], .none, .none, [], [], []⟩

namespace Expr

def pos : Expr → Position
  | name pos .. => pos
  | num pos .. => pos
  | str pos .. => pos
  | tuple pos .. => pos
  | list pos .. => pos
  | set pos .. => pos
  | dict pos .. => pos
  | call pos .. => pos
  | binOp pos .. => pos
  | boolOp pos .. => pos
  | compare pos .. => pos
  | ifExp pos .. => pos
  | await pos .. => pos
  | yield pos .. => pos

/-- the same expression at another position, its parts staying where they are -/
def moveTo (p : Position) : Expr → Expr
  | name _ id binding reserved => name p id binding reserved
  | num _ digits => num p digits
  | str _ text marks segments => str p text marks segments
  | tuple _ elts binding comma => tuple p elts binding comma
  | list _ elts binding => list p elts binding
  | set _ elts => set p elts
  | dict _ keys values => dict p keys values
  | call _ func args => call p func args
  | binOp _ left op right => binOp p left op right
  | boolOp _ op values => boolOp p op values
  | compare _ left ops comparators => compare p left ops comparators
  | ifExp _ test body orelse => ifExp p test body orelse
  | await _ value => await p value
  | yield _ value => yield p value

/-- a plain identifier -/
def ident (id : String) (binding : Binding) (pos : Position) : Expr := name pos id binding false

/-- a reserved identifier such as `True` -/
def keyword (id : String) (pos : Position) : Expr := name pos id .load true

/-- the identifier, if this is a name -/
def id? : Expr → Option String
  | name _ id _ _ => some id
  | _ => none

@[simp] theorem pos_moveTo (e : Expr) (p : Position) : (e.moveTo p).pos = p := by
  cases e <;> rfl

end Expr

namespace Stmt

def pos : Stmt → Position
  | assign pos .. => pos
  | augAssign pos .. => pos
  | expr pos .. => pos
  | pass pos => pos
  | ifElse pos .. => pos
  | whileLoop pos .. => pos
  | forLoop pos .. => pos
  | assertion pos .. => pos
  | ret pos .. => pos
  | functionDef pos .. => pos
  | classDef pos .. => pos

/-- an expression as a statement at the same position -/
def ofExpr (e : Expr) : Stmt := expr e.pos e

/-- the name of the function that is defined, if this defines one -/
def functionName? : Stmt → Option String
  | functionDef _ name _ _ _ _ => some name.id
  | _ => none

/-- the name of the class that is defined, if this defines one -/
def className? : Stmt → Option String
  | classDef _ name _ _ _ => some name.id
  | _ => none

end Stmt

end Graft
