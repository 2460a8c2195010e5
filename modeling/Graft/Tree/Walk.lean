/-
Walking a tree.

`marks` lists what a walk meets, in its order: a node before its parts, the decorators of a definition before its name,
all keys of a dictionary before all values, and the segments of an interpolated string as the statements that they are.
`Edit` says what to do with each position and each identifier on the way, and `edit` does it everywhere and changes
nothing else. Both recurse in the same way over the tree, one function for each kind of node and each kind of list.
-/
import Graft.Tree.Basic

namespace Graft

/-- the parts of a tree that have a position -/
inductive Part where
  | stmt
  | expr
  | suite
  | token
  | decorator
  deriving DecidableEq

/-- one thing that a walk meets -/
inductive Mark where
  | stmt (pos : Position)
  /-- an expression, with its identifier if it is a name -/
  | expr (pos : Position) (id : Option String)
  | suite (pos : Position)
  | token (token : NameToken)
  | decorator (pos : Position)
  deriving DecidableEq

namespace Mark

def part : Mark → Part
  | stmt _ => .stmt
  | expr _ _ => .expr
  | suite _ => .suite
  | token _ => .token
  | decorator _ => .decorator

def pos : Mark → Position
  | stmt pos => pos
  | expr pos _ => pos
  | suite pos => pos
  | token t => t.pos
  | decorator pos => pos

/-- the identifier of a name expression -/
def name? : Mark → Option String
  | expr _ id => id
  | _ => none

def token? : Mark → Option NameToken
  | token t => some t
  | _ => none

end Mark

/-! ## What a walk meets -/

/-- the mark of a name token that may be missing -/
def tokenMarks : Option NameToken → List Mark
  | none => []
  | some t => [.token t]

mutual

def Expr.marks : Expr → List Mark
  | .name pos id _ _ => [.expr pos (some id)]
  | .num pos _ => [.expr pos none]
  | .str pos _ _ segments => .expr pos none :: stmtsMarks segments
  | .tuple pos elts _ _ => .expr pos none :: exprsMarks elts
  | .list pos elts _ => .expr pos none :: exprsMarks elts
  | .set pos elts => .expr pos none :: exprsMarks elts
  | .dict pos keys values => .expr pos none :: (exprsMarks keys ++ exprsMarks values)
  | .call pos func args => .expr pos none :: (func.marks ++ args.marks)
  | .binOp pos left _ right => .expr pos none :: (left.marks ++ right.marks)
  | .boolOp pos _ values => .expr pos none :: exprsMarks values
  | .compare pos left _ comparators => .expr pos none :: (left.marks ++ exprsMarks comparators)
  | .ifExp pos test body orelse => .expr pos none :: (test.marks ++ body.marks ++ orelse.marks)
  | .await pos value => .expr pos none :: value.marks
  | .yield pos value => .expr pos none :: exprMarks? value
termination_by structural e => e

def CallArgs.marks : CallArgs → List Mark
  | ⟨args, keywords, starargs, kwargs⟩ =>
    exprsMarks args ++ keywordsMarks keywords ++ exprMarks? starargs ++ exprMarks? kwargs
termination_by structural a => a

def Keyword.marks : Keyword → List Mark
  | ⟨arg, value⟩ => .token arg :: value.marks
termination_by structural k => k

def Stmt.marks : Stmt → List Mark
  | .assign pos targets value => .stmt pos :: (exprsMarks targets ++ value.marks)
  | .augAssign pos target _ value => .stmt pos :: (target.marks ++ value.marks)
  | .expr pos value => .stmt pos :: value.marks
  | .pass pos => [.stmt pos]
  | .ifElse pos test body orelse => .stmt pos :: (test.marks ++ stmtsMarks body ++ suiteMarks? orelse)
  | .whileLoop pos test body orelse => .stmt pos :: (test.marks ++ stmtsMarks body ++ suiteMarks? orelse)
  | .forLoop pos target iter body orelse _ =>
    .stmt pos :: (target.marks ++ iter.marks ++ stmtsMarks body ++ suiteMarks? orelse)
  | .assertion pos test msg => .stmt pos :: (test.marks ++ exprMarks? msg)
  | .ret pos value => .stmt pos :: exprMarks? value
  | .functionDef pos name params body decorators _ =>
    .stmt pos :: (decoratorsMarks decorators ++ .token name :: (params.marks ++ stmtsMarks body))
  | .classDef pos name bases body decorators =>
    .stmt pos :: (decoratorsMarks decorators ++ .token name :: (exprsMarks bases ++ stmtsMarks body))
termination_by structural s => s

def Suite.marks : Suite → List Mark
  | ⟨body, pos⟩ => .suite pos :: stmtsMarks body
termination_by structural s => s

def Decorator.marks : Decorator → List Mark
  | ⟨func, args, _, pos⟩ => .decorator pos :: (func.marks ++ args.marks)
termination_by structural d => d

def Parameters.marks : Parameters → List Mark
  | ⟨args, defaults, annotations, vararg, kwarg, kwonlyargs, kwDefaults, kwonlyAnnotations⟩ =>
    exprsMarks args ++ optionsMarks defaults ++ optionsMarks annotations ++ tokenMarks vararg ++ tokenMarks kwarg
      ++ exprsMarks kwonlyargs ++ optionsMarks kwDefaults ++ optionsMarks kwonlyAnnotations
termination_by structural p => p

def exprsMarks : List Expr → List Mark
  | [] => []
  | e :: es => e.marks ++ exprsMarks es
termination_by structural es => es

def exprMarks? : Option Expr → List Mark
  | none => []
  | some e => e.marks
termination_by structural e => e

def optionsMarks : List (Option Expr) → List Mark
  | [] => []
  | e :: es => exprMarks? e ++ optionsMarks es
termination_by structural es => es

def keywordsMarks : List Keyword → List Mark
  | [] => []
  | k :: ks => k.marks ++ keywordsMarks ks
termination_by structural ks => ks

def stmtsMarks : List Stmt → List Mark
  | [] => []
  | s :: ss => s.marks ++ stmtsMarks ss
termination_by structural ss => ss

def suiteMarks? : Option Suite → List Mark
  | none => []
  | some s => s.marks
termination_by structural s => s

def decoratorsMarks : List Decorator → List Mark
  | [] => []
  | d :: ds => d.marks ++ decoratorsMarks ds
termination_by structural ds => ds

end

namespace Module

/-- everything that a walk over the module meets -/
def marks (m : Module) : List Mark := stmtsMarks m.body

/-- the identifiers of the name expressions -/
def names (m : Module) : List String := m.marks.filterMap Mark.name?

/-- the name tokens -/
def tokens (m : Module) : List NameToken := m.marks.filterMap Mark.token?

end Module

/-! ## Changing what a walk meets -/

/-- what becomes of each position and of each identifier -/
structure Edit where
  pos : Part → Position → Position
  name : String → String

namespace Edit

/-- changes nothing -/
def nothing : Edit := ⟨fun _ p => p, id⟩

/-- changes identifiers -/
def rename (f : String → String) : Edit := ⟨fun _ p => p, f⟩

/-- puts one identifier in place of another -/
def replace (old new : String) : Edit := rename fun id => if id = old then new else id

end Edit

namespace NameToken

def edit (e : Edit) (t : NameToken) : NameToken :=
  { t with id := e.name t.id, pos := e.pos .token t.pos }

end NameToken

mutual

def Expr.edit (e : Edit) : Expr → Expr
  | .name pos id binding reserved => .name (e.pos .expr pos) (e.name id) binding reserved
  | .num pos digits => .num (e.pos .expr pos) digits
  | .str pos text marks segments => .str (e.pos .expr pos) text marks (stmtsEdit e segments)
  | .tuple pos elts binding comma => .tuple (e.pos .expr pos) (exprsEdit e elts) binding comma
  | .list pos elts binding => .list (e.pos .expr pos) (exprsEdit e elts) binding
  | .set pos elts => .set (e.pos .expr pos) (exprsEdit e elts)
  | .dict pos keys values => .dict (e.pos .expr pos) (exprsEdit e keys) (exprsEdit e values)
  | .call pos func args => .call (e.pos .expr pos) (func.edit e) (args.edit e)
  | .binOp pos left op right => .binOp (e.pos .expr pos) (left.edit e) op (right.edit e)
  | .boolOp pos op values => .boolOp (e.pos .expr pos) op (exprsEdit e values)
  | .compare pos left ops comparators => .compare (e.pos .expr pos) (left.edit e) ops (exprsEdit e comparators)
  | .ifExp pos test body orelse => .ifExp (e.pos .expr pos) (test.edit e) (body.edit e) (orelse.edit e)
  | .await pos value => .await (e.pos .expr pos) (value.edit e)
  | .yield pos value => .yield (e.pos .expr pos) (exprEdit? e value)
termination_by structural x => x

def CallArgs.edit (e : Edit) : CallArgs → CallArgs
  | ⟨args, keywords, starargs, kwargs⟩ =>
    ⟨exprsEdit e args, keywordsEdit e keywords, exprEdit? e starargs, exprEdit? e kwargs⟩
termination_by structural a => a

def Keyword.edit (e : Edit) : Keyword → Keyword
  | ⟨arg, value⟩ => ⟨arg.edit e, value.edit e⟩
termination_by structural k => k

def Stmt.edit (e : Edit) : Stmt → Stmt
  | .assign pos targets value => .assign (e.pos .stmt pos) (exprsEdit e targets) (value.edit e)
  | .augAssign pos target op value => .augAssign (e.pos .stmt pos) (target.edit e) op (value.edit e)
  | .expr pos value => .expr (e.pos .stmt pos) (value.edit e)
  | .pass pos => .pass (e.pos .stmt pos)
  | .ifElse pos test body orelse =>
    .ifElse (e.pos .stmt pos) (test.edit e) (stmtsEdit e body) (suiteEdit? e orelse)
  | .whileLoop pos test body orelse =>
    .whileLoop (e.pos .stmt pos) (test.edit e) (stmtsEdit e body) (suiteEdit? e orelse)
  | .forLoop pos target iter body orelse isAsync =>
    .forLoop (e.pos .stmt pos) (target.edit e) (iter.edit e) (stmtsEdit e body) (suiteEdit? e orelse) isAsync
  | .assertion pos test msg => .assertion (e.pos .stmt pos) (test.edit e) (exprEdit? e msg)
  | .ret pos value => .ret (e.pos .stmt pos) (exprEdit? e value)
  | .functionDef pos name params body decorators isAsync =>
    .functionDef (e.pos .stmt pos) (name.edit e) (params.edit e) (stmtsEdit e body) (decoratorsEdit e decorators)
      isAsync
  | .classDef pos name bases body decorators =>
    .classDef (e.pos .stmt pos) (name.edit e) (exprsEdit e bases) (stmtsEdit e body) (decoratorsEdit e decorators)
termination_by structural s => s

def Suite.edit (e : Edit) : Suite → Suite
  | ⟨body, pos⟩ => ⟨stmtsEdit e body, e.pos .suite pos⟩
termination_by structural s => s

def Decorator.edit (e : Edit) : Decorator → Decorator
  | ⟨func, args, isCall, pos⟩ => ⟨func.edit e, args.edit e, isCall, e.pos .decorator pos⟩
termination_by structural d => d

def Parameters.edit (e : Edit) : Parameters → Parameters
  | ⟨args, defaults, annotations, vararg, kwarg, kwonlyargs, kwDefaults, kwonlyAnnotations⟩ =>
    ⟨exprsEdit e args, optionsEdit e defaults, optionsEdit e annotations, vararg.map (·.edit e),
      kwarg.map (·.edit e), exprsEdit e kwonlyargs, optionsEdit e kwDefaults, optionsEdit e kwonlyAnnotations⟩
termination_by structural p => p

def exprsEdit (e : Edit) : List Expr → List Expr
  | [] => []
  | x :: xs => x.edit e :: exprsEdit e xs
termination_by structural xs => xs

def exprEdit? (e : Edit) : Option Expr → Option Expr
  | none => none
  | some x => some (x.edit e)
termination_by structural x => x

def optionsEdit (e : Edit) : List (Option Expr) → List (Option Expr)
  | [] => []
  | x :: xs => exprEdit? e x :: optionsEdit e xs
termination_by structural xs => xs

def keywordsEdit (e : Edit) : List Keyword → List Keyword
  | [] => []
  | k :: ks => k.edit e :: keywordsEdit e ks
termination_by structural ks => ks

def stmtsEdit (e : Edit) : List Stmt → List Stmt
  | [] => []
  | s :: ss => s.edit e :: stmtsEdit e ss
termination_by structural ss => ss

def suiteEdit? (e : Edit) : Option Suite → Option Suite
  | none => none
  | some s => some (s.edit e)
termination_by structural s => s

def decoratorsEdit (e : Edit) : List Decorator → List Decorator
  | [] => []
  | d :: ds => d.edit e :: decoratorsEdit e ds
termination_by structural ds => ds

end

/-- the module with every position and identifier edited -/
def Module.edit (e : Edit) (m : Module) : Module := ⟨stmtsEdit e m.body⟩

end Graft
