/-
The rendering of a tree in one line: a node is `Kind[field=value, ...]`, a list `[a, b]`, a missing part `null`.

Positions are not shown, and identifiers and texts stand as they are, without quotes or escapes.
-/
import Graft.Tree.Basic

namespace Graft

/-- the texts in brackets, with commas between them -/
def bracketed (items : List String) : String := "[" ++ ", ".intercalate items ++ "]"

def boolText (b : Bool) : String := if b then "true" else "false"

/-- a part that may be missing -/
def orNull (text : Option String) : String := text.getD "null"

def NameToken.render (t : NameToken) : String := "NameTok[id=" ++ t.id ++ ", ctx=" ++ t.role.name ++ "]"

mutual

def Expr.render : Expr → String
  | .name _ id binding reserved =>
    "Name[id=" ++ id ++ ", ctx=" ++ binding.name ++ ", reserved=" ++ boolText reserved ++ "]"
  | .num _ digits => "Num[n=" ++ digits ++ ", type=Int]"
  | .str _ text marks segments =>
    "Str[s=" ++ text ++ ", unicode=" ++ boolText marks.unicode ++ ", raw=" ++ boolText marks.raw ++ ", binary="
      ++ boolText marks.binary ++ ", fstring=" ++ boolText marks.fstring ++ ", fstring_nodes="
      ++ bracketed (stmtTexts segments) ++ "]"
  | .tuple _ elts binding comma =>
    "Tuple[elts=" ++ bracketed (exprTexts elts) ++ ", ctx=" ++ binding.name ++ ", endsWithComma=" ++ boolText comma
      ++ "]"
  | .list _ elts binding => "List[elts=" ++ bracketed (exprTexts elts) ++ ", ctx=" ++ binding.name ++ "]"
  | .set _ elts => "Set[elts=" ++ bracketed (exprTexts elts) ++ "]"
  | .dict _ keys values =>
    "Dict[keys=" ++ bracketed (exprTexts keys) ++ ", values=" ++ bracketed (exprTexts values) ++ "]"
  | .call _ func args => "Call[func=" ++ func.render ++ args.render ++ "]"
  | .binOp _ left op right => "BinOp[left=" ++ left.render ++ ", op=" ++ op.name ++ ", right=" ++ right.render ++ "]"
  | .boolOp _ op values => "BoolOp[op=" ++ op.name ++ ", values=" ++ bracketed (exprTexts values) ++ "]"
  | .compare _ left ops comparators =>
    "Compare[left=" ++ left.render ++ ", ops=" ++ bracketed (ops.map CompareOp.name) ++ ", comparators="
      ++ bracketed (exprTexts comparators) ++ "]"
  | .ifExp _ test body orelse =>
    "IfExp[test=" ++ test.render ++ ", body=" ++ body.render ++ ", orelse=" ++ orelse.render ++ "]"
  | .await _ value => "Await[value=" ++ value.render ++ "]"
  | .yield _ value => "Yield[value=" ++ orNull (exprText? value) ++ "]"
termination_by structural e => e

/-- the arguments of a call, each after a comma -/
def CallArgs.render : CallArgs → String
  | ⟨args, keywords, starargs, kwargs⟩ =>
    ", args=" ++ bracketed (exprTexts args) ++ ", keywords=" ++ bracketed (keywordTexts keywords) ++ ", starargs="
      ++ orNull (exprText? starargs) ++ ", kwargs=" ++ orNull (exprText? kwargs)
termination_by structural a => a

def Keyword.render : Keyword → String
  | ⟨arg, value⟩ => "keyword[arg=" ++ arg.render ++ ", value=" ++ value.render ++ "]"
termination_by structural k => k

def Stmt.render : Stmt → String
  | .assign _ targets value =>
    "Assign[targets=" ++ bracketed (exprTexts targets) ++ ", value=" ++ value.render ++ "]"
  | .augAssign _ target op value =>
    "AugAssign[target=" ++ target.render ++ ", op=" ++ op.name ++ ", value=" ++ value.render ++ "]"
  | .expr _ value => "Expr[value=" ++ value.render ++ "]"
  | .pass _ => "Pass"
  | .ifElse _ test body orelse =>
    "If[test=" ++ test.render ++ ", body=" ++ bracketed (stmtTexts body) ++ ", orelse=" ++ orNull (suiteText? orelse)
      ++ "]"
  | .whileLoop _ test body orelse =>
    "While[test=" ++ test.render ++ ", body=" ++ bracketed (stmtTexts body) ++ ", orelse="
      ++ orNull (suiteText? orelse) ++ "]"
  | .forLoop _ target iter body orelse isAsync =>
    "For[target=" ++ target.render ++ ", iter=" ++ iter.render ++ ", body=" ++ bracketed (stmtTexts body)
      ++ ", orelse=" ++ orNull (suiteText? orelse) ++ ", async=" ++ boolText isAsync ++ "]"
  | .assertion _ test msg => "Assert[test=" ++ test.render ++ ", msg=" ++ orNull (exprText? msg) ++ "]"
  | .ret _ value => "Return[value=" ++ orNull (exprText? value) ++ "]"
  | .functionDef _ name params body decorators isAsync =>
    "FunctionDef[name=" ++ name.render ++ ", args=" ++ params.render ++ ", body=" ++ bracketed (stmtTexts body)
      ++ ", decs=" ++ bracketed (decoratorTexts decorators) ++ ", async=" ++ boolText isAsync ++ "]"
  | .classDef _ name bases body decorators =>
    "ClassDef[name=" ++ name.render ++ ", bases=" ++ bracketed (exprTexts bases) ++ ", body="
      ++ bracketed (stmtTexts body) ++ ", decs=" ++ bracketed (decoratorTexts decorators) ++ "]"
termination_by structural s => s

def Suite.render : Suite → String
  | ⟨body, _⟩ => "Suite[body=" ++ bracketed (stmtTexts body) ++ "]"
termination_by structural s => s

def Decorator.render : Decorator → String
  | ⟨func, args, isCall, _⟩ =>
    "decorator[func=" ++ func.render ++ args.render ++ ", isCall=" ++ boolText isCall ++ "]"
termination_by structural d => d

def Parameters.render : Parameters → String
  | ⟨args, defaults, annotations, vararg, kwarg, kwonlyargs, kwDefaults, kwonlyAnnotations⟩ =>
    "arguments[args=" ++ bracketed (exprTexts args) ++ ", vararg=" ++ orNull (vararg.map NameToken.render)
      ++ ", kwarg=" ++ orNull (kwarg.map NameToken.render) ++ ", defaults=" ++ bracketed (optionTexts defaults)
      ++ ", kwonlyargs=" ++ bracketed (exprTexts kwonlyargs) ++ ", kw_defaults=" ++ bracketed (optionTexts kwDefaults)
      ++ ", annotation=" ++ bracketed (optionTexts annotations) ++ ", kwonlyargannotation="
      ++ bracketed (optionTexts kwonlyAnnotations) ++ "]"
termination_by structural p => p

def exprTexts : List Expr → List String
  | [] => []
  | e :: es => e.render :: exprTexts es
termination_by structural es => es

def exprText? : Option Expr → Option String
  | none => none
  | some e => some e.render
termination_by structural e => e

def optionTexts : List (Option Expr) → List String
  | [] => []
  | e :: es => orNull (exprText? e) :: optionTexts es
termination_by structural es => es

def keywordTexts : List Keyword → List String
  | [] => []
  | k :: ks => k.render :: keywordTexts ks
termination_by structural ks => ks

def stmtTexts : List Stmt → List String
  | [] => []
  | s :: ss => s.render :: stmtTexts ss
termination_by structural ss => ss

def suiteText? : Option Suite → Option String
  | none => none
  | some s => some s.render
termination_by structural s => s

def decoratorTexts : List Decorator → List String
  | [] => []
  | d :: ds => d.render :: decoratorTexts ds
termination_by structural ds => ds

end

/-- the module in one line -/
def Module.render (m : Module) : String := "Module[body=" ++ bracketed (stmtTexts m.body) ++ "]"

end Graft
