/-
What conversion promises of each node of the tree.

The types of the tree leave a lot open: lists that run in parallel may differ in length, a name may be bound in any way,
and a token may have any role. `Sound` collects what a node keeps to nevertheless:
- `WellFormed`: lists that run in parallel are of one length, operators and targets are of the right number, parameters
  and name tokens are bound for their role, and blocks, decorators and strings are as their statement says.
- `InPlace`: a name, a tuple or a list is read, or bound as its place calls for.
- `Settled`: below a tuple or a list that is read nothing is bound.
- `Aimed`: what the target of an assignment binds is bound for it (`Bound`), unless the document groups something there.

`Good` says that a node is sound throughout. There is one lemma for each construct of the tree, by which it is good if its
parts are.
-/
import Graft.Proofs.Subtree

namespace Graft

/-! ## One node -/

/-- a parameter: a name that is not empty, and no reserved one -/
def Expr.IsParameter (b : Binding) (e : Expr) : Prop := ∃ pos id, e = name pos id b false ∧ id ≠ ""

/-- a decorator without a call: a name at the position of the decorator, and no arguments -/
def Decorator.IsPlain (d : Decorator) : Prop := (∃ id b reserved, d.func = .name d.pos id b reserved) ∧ d.args = .none

/-- the parameter lists of one function, each with its defaults and annotations -/
structure Parameters.WellFormed (p : Parameters) : Prop where
  defaults : p.args.length = p.defaults.length
  annotations : p.args.length = p.annotations.length
  kwDefaults : p.kwonlyargs.length = p.kwDefaults.length
  kwonlyAnnotations : p.kwonlyargs.length = p.kwonlyAnnotations.length
  args : ∀ e ∈ p.args, e.IsParameter .param
  kwonlyargs : ∀ e ∈ p.kwonlyargs, e.IsParameter .kwOnlyParam
  vararg : ∀ token, p.vararg = some token → token.role = .varArg
  kwarg : ∀ token, p.kwarg = some token → token.role = .kwArg

/-- the names, tuples and lists of a target, down through tuples and lists, are bound like this; the reserved names are
not -/
inductive Expr.Bound (b : Binding) : Expr → Prop where
  | name {pos : Position} {id : String} : Bound b (.name pos id b false)
  | reserved {pos : Position} {id : String} {b' : Binding} : Bound b (.name pos id b' true)
  | tuple {pos : Position} {elts : List Expr} {comma : Bool} : (∀ e ∈ elts, Bound b e) → Bound b (.tuple pos elts b comma)
  | list {pos : Position} {elts : List Expr} : (∀ e ∈ elts, Bound b e) → Bound b (.list pos elts b)
  | other {e : Expr} : e.binding? = none → Bound b e

namespace Subtree

/-- what a construct of the tree asks of its parts -/
def WellFormed : Subtree → Prop
  | expr (.str _ text _ segments) => segments ≠ [] → text = ""
  | expr (.dict _ keys values) => keys.length = values.length
  | expr (.boolOp _ _ values) => values.length = 2
  | expr (.compare _ _ ops comparators) => ops.length = comparators.length ∧ 1 ≤ ops.length
  | stmt (.assign _ targets _) => targets.length = 1
  | stmt (.expr pos value) => pos = value.pos
  | stmt (.whileLoop _ _ _ orelse) => ∀ suite, orelse = some suite → suite.body ≠ []
  | stmt (.functionDef _ token _ _ _ _) => token.role = .functionName
  | stmt (.classDef _ token _ _ _) => token.role = .className
  | keyword k => k.arg.role = .keywordName
  | decorator d => d.isCall = false → d.IsPlain
  | parameters p => p.WellFormed
  | _ => True

/-- a name, a tuple or a list is read, or bound as its place calls for -/
def InPlace (b : Binding) : Subtree → Prop
  | expr e => ∀ b', e.binding? = some b' → b' = .load ∨ b' = b
  | _ => True

/-- the elements of a tuple or a list that is read are read -/
def Settled : Subtree → Prop
  | expr (.tuple _ elts .load _) => ∀ e ∈ elts, ∀ b, e.binding? = some b → b = .load
  | expr (.list _ elts .load) => ∀ e ∈ elts, ∀ b, e.binding? = some b → b = .load
  | _ => True

/-- the target of an assignment is bound throughout, but where the document groups something in it -/
def Aimed (grouped : Position → Prop) : Subtree → Prop
  | stmt (.assign pos targets _) => ¬ grouped pos → ∀ e ∈ targets, e.Bound .store
  | stmt (.augAssign pos target _ _) => ¬ grouped pos → target.Bound .augStore
  | stmt (.forLoop pos target _ _ _ _) => ¬ grouped pos → target.Bound .store
  | _ => True

/-- what conversion promises of one node, where the targets of the statements at some positions have groups in them -/
structure Sound (grouped : Position → Prop) (b : Binding) (t : Subtree) : Prop where
  wellFormed : t.WellFormed
  inPlace : t.InPlace b
  settled : t.Settled
  aimed : t.Aimed grouped

end Subtree

open Subtree

/-! ## All nodes -/

/-- what conversion promises of all nodes in `t`, at a place that calls for `b` -/
abbrev Good (grouped : Position → Prop) (b : Binding) (t : Subtree) : Prop := Throughout (Sound grouped) b t

variable {grouped : Position → Prop} {b : Binding} {pos : Position}

/-- An expression that is good where it is read is good everywhere. -/
theorem Subtree.Throughout.anywhere {t : Subtree} (h : Good grouped .load t) (b : Binding) : Good grouped b t := by
  refine h.place (fun b u hu => ⟨hu.wellFormed, ?_, hu.settled, hu.aimed⟩) b
  cases u with
  | expr e =>
    intro b' hb'
    have hload : b' = .load ∨ b' = .load := hu.inPlace b' hb'
    exact .inl (hload.elim id id)
  | _ => trivial

theorem good_moveTo {e : Expr} (h : Good grouped b (.expr e)) (pos : Position) :
    Good grouped b (.expr (e.moveTo pos)) := by
  refine Throughout.moveTo (fun hsound => ?_) h
  obtain ⟨hwell, hplace, hsettled, haimed⟩ := hsound
  cases e with
  | tuple _ elts binding _ => cases binding <;> exact ⟨hwell, hplace, hsettled, haimed⟩
  | list _ elts binding => cases binding <;> exact ⟨hwell, hplace, hsettled, haimed⟩
  | _ => exact ⟨hwell, hplace, hsettled, haimed⟩

/-! ### Expressions -/

theorem good_name {id : String} {reserved : Bool} : Good grouped b (.expr (.name pos id b reserved)) := by
  refine throughout_iff.2 ⟨⟨trivial, fun b' hb' => ?_, trivial, trivial⟩, by simp [parts]⟩
  cases hb'
  exact .inr rfl

theorem good_num {digits : String} : Good grouped .load (.expr (.num pos digits)) :=
  throughout_iff.2 ⟨⟨trivial, nofun, trivial, trivial⟩, by simp [parts]⟩

theorem good_str {text : String} {marks : StringMarks} {segments : List Stmt} (htext : segments ≠ [] → text = "")
    (hsegments : ∀ s ∈ segments, Good grouped .load (.stmt s)) :
    Good grouped .load (.expr (.str pos text marks segments)) :=
  throughout_iff.2 ⟨⟨htext, nofun, trivial, trivial⟩, forall_stmts.2 hsegments⟩

theorem settled_elements {elts : List Expr} (helts : ∀ e ∈ elts, Good grouped .load (.expr e)) :
    ∀ e ∈ elts, ∀ b, e.binding? = some b → b = .load := by
  intro e he b hb
  have hload : b = .load ∨ b = .load := (helts e he).here.inPlace b hb
  exact hload.elim id id

/-- The elements of a tuple are at places that call for what its own place calls for. -/
theorem good_tuple {elts : List Expr} {comma : Bool} (hb : b.inner = b)
    (helts : ∀ e ∈ elts, Good grouped b (.expr e)) : Good grouped b (.expr (.tuple pos elts b comma)) := by
  refine throughout_iff.2 ⟨⟨trivial, ?_, ?_, trivial⟩, ?_⟩
  · intro b' hb'
    cases hb'
    exact .inr rfl
  · cases b with
    | load => exact settled_elements helts
    | _ => trivial
  · rw [parts, hb]
    exact forall_exprs.2 helts

theorem good_list {elts : List Expr} (hb : b.inner = b) (helts : ∀ e ∈ elts, Good grouped b (.expr e)) :
    Good grouped b (.expr (.list pos elts b)) := by
  refine throughout_iff.2 ⟨⟨trivial, ?_, ?_, trivial⟩, ?_⟩
  · intro b' hb'
    cases hb'
    exact .inr rfl
  · cases b with
    | load => exact settled_elements helts
    | _ => trivial
  · rw [parts, hb]
    exact forall_exprs.2 helts

theorem good_set {elts : List Expr} (helts : ∀ e ∈ elts, Good grouped .load (.expr e)) :
    Good grouped .load (.expr (.set pos elts)) :=
  throughout_iff.2 ⟨⟨trivial, nofun, trivial, trivial⟩, forall_exprs.2 helts⟩

theorem good_dict {keys values : List Expr} (hlength : keys.length = values.length)
    (hkeys : ∀ e ∈ keys, Good grouped .load (.expr e)) (hvalues : ∀ e ∈ values, Good grouped .load (.expr e)) :
    Good grouped .load (.expr (.dict pos keys values)) := by
  refine throughout_iff.2 ⟨⟨hlength, nofun, trivial, trivial⟩, forall_exprs.2 fun e he => ?_⟩
  rcases List.mem_append.1 he with he | he
  · exact hkeys e he
  · exact hvalues e he

/-- the arguments of a call are good, wherever they are passed -/
structure ArgumentsGood (grouped : Position → Prop) (a : CallArgs) : Prop where
  args : ∀ e ∈ a.args, Good grouped .load (.expr e)
  keywords : ∀ k ∈ a.keywords, Good grouped .load (.keyword k)
  starargs : ∀ e, a.starargs = some e → Good grouped .load (.expr e)
  kwargs : ∀ e, a.kwargs = some e → Good grouped .load (.expr e)

theorem argumentsGood_none : ArgumentsGood grouped .none := ⟨nofun, nofun, nofun, nofun⟩

theorem argumentsGood_positional {args : List Expr} (h : ∀ e ∈ args, Good grouped .load (.expr e)) :
    ArgumentsGood grouped (.positional args) := ⟨h, nofun, nofun, nofun⟩

theorem forall_arguments {a : CallArgs} (h : ArgumentsGood grouped a) : ∀ p ∈ arguments a, Good grouped p.1 p.2 := by
  intro p hp
  rcases List.mem_append.1 hp with hp | hp
  · refine forall_exprs.2 (fun e he => ?_) p hp
    simp only [List.mem_append, Option.mem_toList] at he
    rcases he with (he | he) | he
    · exact h.args e he
    · exact h.starargs e he
    · exact h.kwargs e he
  · obtain ⟨k, hk, rfl⟩ := List.mem_map.1 hp
    exact h.keywords k hk

theorem good_keyword {k : Keyword} (hrole : k.arg.role = .keywordName) (hvalue : Good grouped .load (.expr k.value)) :
    Good grouped .load (.keyword k) :=
  throughout_iff.2 ⟨⟨hrole, trivial, trivial, trivial⟩, forall_exprs.2 (by simpa using hvalue)⟩

theorem good_call {func : Expr} {args : CallArgs} (hfunc : Good grouped .load (.expr func))
    (hargs : ArgumentsGood grouped args) : Good grouped .load (.expr (.call pos func args)) := by
  refine throughout_iff.2 ⟨⟨trivial, nofun, trivial, trivial⟩, ?_⟩
  exact List.forall_mem_append.2 ⟨forall_exprs.2 (by simpa using hfunc), forall_arguments hargs⟩

theorem good_binOp {left right : Expr} {op : BinaryOp} (hleft : Good grouped .load (.expr left))
    (hright : Good grouped .load (.expr right)) : Good grouped .load (.expr (.binOp pos left op right)) :=
  throughout_iff.2 ⟨⟨trivial, nofun, trivial, trivial⟩, forall_exprs.2 (by simpa using ⟨hleft, hright⟩)⟩

theorem good_boolOp {left right : Expr} {op : BoolOp} (hleft : Good grouped .load (.expr left))
    (hright : Good grouped .load (.expr right)) : Good grouped .load (.expr (.boolOp pos op [left, right])) :=
  throughout_iff.2 ⟨⟨rfl, nofun, trivial, trivial⟩, forall_exprs.2 (by simpa using ⟨hleft, hright⟩)⟩

theorem good_compare {left : Expr} {ops : List CompareOp} {comparators : List Expr}
    (hlength : ops.length = comparators.length) (hops : 1 ≤ ops.length) (hleft : Good grouped .load (.expr left))
    (hcomparators : ∀ e ∈ comparators, Good grouped .load (.expr e)) :
    Good grouped .load (.expr (.compare pos left ops comparators)) :=
  throughout_iff.2 ⟨⟨⟨hlength, hops⟩, nofun, trivial, trivial⟩,
    forall_exprs.2 (List.forall_mem_cons.2 ⟨hleft, hcomparators⟩)⟩

theorem good_ifExp {test body orelse : Expr} (htest : Good grouped .load (.expr test))
    (hbody : Good grouped .load (.expr body)) (horelse : Good grouped .load (.expr orelse)) :
    Good grouped .load (.expr (.ifExp pos test body orelse)) :=
  throughout_iff.2 ⟨⟨trivial, nofun, trivial, trivial⟩, forall_exprs.2 (by simpa using ⟨htest, hbody, horelse⟩)⟩

theorem good_await {value : Expr} (hvalue : Good grouped .load (.expr value)) :
    Good grouped .load (.expr (.await pos value)) :=
  throughout_iff.2 ⟨⟨trivial, nofun, trivial, trivial⟩, forall_exprs.2 (by simpa using hvalue)⟩

theorem good_yield {value : Option Expr} (hvalue : ∀ e, value = some e → Good grouped .load (.expr e)) :
    Good grouped .load (.expr (.yield pos value)) :=
  throughout_iff.2 ⟨⟨trivial, nofun, trivial, trivial⟩, forall_exprs.2 (by simpa using hvalue)⟩

/-! ### Statements -/

theorem good_assign {target value : Expr} (haimed : ¬ grouped pos → target.Bound .store)
    (htarget : Good grouped .store (.expr target)) (hvalue : Good grouped .load (.expr value)) :
    Good grouped .load (.stmt (.assign pos [target] value)) := by
  refine throughout_iff.2 ⟨⟨rfl, trivial, trivial, fun h => by simpa using haimed h⟩, ?_⟩
  exact List.forall_mem_append.2
    ⟨forall_exprs.2 (by simpa using htarget), forall_exprs.2 (by simpa using hvalue)⟩

theorem good_augAssign {target value : Expr} {op : BinaryOp} (haimed : ¬ grouped pos → target.Bound .augStore)
    (htarget : Good grouped .augStore (.expr target)) (hvalue : Good grouped .load (.expr value)) :
    Good grouped .load (.stmt (.augAssign pos target op value)) := by
  refine throughout_iff.2 ⟨⟨trivial, trivial, trivial, haimed⟩, ?_⟩
  exact List.forall_mem_append.2
    ⟨forall_exprs.2 (by simpa using htarget), forall_exprs.2 (by simpa using hvalue)⟩

/-- An expression is a statement at its own position. -/
theorem good_ofExpr {e : Expr} (h : Good grouped .load (.expr e)) : Good grouped .load (.stmt (.ofExpr e)) :=
  throughout_iff.2 ⟨⟨rfl, trivial, trivial, trivial⟩, forall_exprs.2 (by simpa using h)⟩

theorem good_pass : Good grouped .load (.stmt (.pass pos)) :=
  throughout_iff.2 ⟨⟨trivial, trivial, trivial, trivial⟩, nofun⟩

/-- the statements of a block are good, if there is one -/
def BlockGood (grouped : Position → Prop) (suite : Option Suite) : Prop :=
  ∀ body, suite = some body → ∀ s ∈ body.body, Good grouped .load (.stmt s)

theorem forall_block {suite : Option Suite} (h : BlockGood grouped suite) : ∀ p ∈ block suite, Good grouped p.1 p.2 := by
  refine forall_stmts.2 ?_
  cases suite with
  | none => exact nofun
  | some body => exact h body rfl

theorem good_ifElse {test : Expr} {body : List Stmt} {orelse : Option Suite} (htest : Good grouped .load (.expr test))
    (hbody : ∀ s ∈ body, Good grouped .load (.stmt s)) (horelse : BlockGood grouped orelse) :
    Good grouped .load (.stmt (.ifElse pos test body orelse)) := by
  refine throughout_iff.2 ⟨⟨trivial, trivial, trivial, trivial⟩, ?_⟩
  simp only [parts, List.forall_mem_append]
  exact ⟨⟨forall_exprs.2 (by simpa using htest), forall_stmts.2 hbody⟩, forall_block horelse⟩

theorem good_while {test : Expr} {body : List Stmt} {orelse : Option Suite}
    (hfilled : ∀ suite, orelse = some suite → suite.body ≠ []) (htest : Good grouped .load (.expr test))
    (hbody : ∀ s ∈ body, Good grouped .load (.stmt s)) (horelse : BlockGood grouped orelse) :
    Good grouped .load (.stmt (.whileLoop pos test body orelse)) := by
  refine throughout_iff.2 ⟨⟨hfilled, trivial, trivial, trivial⟩, ?_⟩
  simp only [parts, List.forall_mem_append]
  exact ⟨⟨forall_exprs.2 (by simpa using htest), forall_stmts.2 hbody⟩, forall_block horelse⟩

theorem good_for {target iter : Expr} {body : List Stmt} {orelse : Option Suite} {isAsync : Bool}
    (haimed : ¬ grouped pos → target.Bound .store) (htarget : Good grouped .store (.expr target))
    (hiter : Good grouped .load (.expr iter)) (hbody : ∀ s ∈ body, Good grouped .load (.stmt s))
    (horelse : BlockGood grouped orelse) :
    Good grouped .load (.stmt (.forLoop pos target iter body orelse isAsync)) := by
  refine throughout_iff.2 ⟨⟨trivial, trivial, trivial, haimed⟩, ?_⟩
  simp only [parts, List.forall_mem_append]
  exact ⟨⟨⟨forall_exprs.2 (by simpa using htarget), forall_exprs.2 (by simpa using hiter)⟩, forall_stmts.2 hbody⟩,
    forall_block horelse⟩

theorem good_assertion {test : Expr} {msg : Option Expr} (htest : Good grouped .load (.expr test))
    (hmsg : ∀ e, msg = some e → Good grouped .load (.expr e)) :
    Good grouped .load (.stmt (.assertion pos test msg)) :=
  throughout_iff.2 ⟨⟨trivial, trivial, trivial, trivial⟩, forall_exprs.2 (by simpa using ⟨htest, hmsg⟩)⟩

theorem good_ret {value : Option Expr} (hvalue : ∀ e, value = some e → Good grouped .load (.expr e)) :
    Good grouped .load (.stmt (.ret pos value)) :=
  throughout_iff.2 ⟨⟨trivial, trivial, trivial, trivial⟩, forall_exprs.2 (by simpa using hvalue)⟩

/-! ### Definitions -/

theorem good_decorator {d : Decorator} (hplain : d.isCall = false → d.IsPlain)
    (hfunc : Good grouped .load (.expr d.func)) (hargs : ∀ p ∈ arguments d.args, Good grouped p.1 p.2) :
    Good grouped .load (.decorator d) := by
  refine throughout_iff.2 ⟨⟨hplain, trivial, trivial, trivial⟩, ?_⟩
  exact List.forall_mem_append.2 ⟨forall_exprs.2 (by simpa using hfunc), hargs⟩

theorem good_parameter {e : Expr} (h : e.IsParameter b) : Good grouped b (.expr e) := by
  obtain ⟨pos, id, rfl, -⟩ := h
  exact good_name

/-- The parameters themselves are names; what is read with them are their defaults and annotations. -/
theorem good_parameters {p : Parameters} (hwell : p.WellFormed)
    (hread : ∀ e, some e ∈ p.defaults ++ p.annotations ++ p.kwDefaults ++ p.kwonlyAnnotations →
      Good grouped .load (.expr e)) : Good grouped .load (.parameters p) := by
  refine throughout_iff.2 ⟨⟨hwell, trivial, trivial, trivial⟩, ?_⟩
  simp only [parts, List.forall_mem_append]
  refine ⟨⟨forall_exprs.2 fun e he => ?_, forall_exprs.2 fun e he => ?_⟩, forall_exprs.2 fun e he => ?_⟩
  · exact good_parameter (hwell.args e he)
  · exact good_parameter (hwell.kwonlyargs e he)
  · simp only [List.mem_filterMap, id, exists_eq_right] at he
    exact hread e he

theorem good_functionDef {token : NameToken} {params : Parameters} {body : List Stmt} {decs : List Decorator}
    {isAsync : Bool} (hrole : token.role = .functionName) (hparams : Good grouped .load (.parameters params))
    (hbody : ∀ s ∈ body, Good grouped .load (.stmt s)) (hdecs : ∀ d ∈ decs, Good grouped .load (.decorator d)) :
    Good grouped .load (.stmt (.functionDef pos token params body decs isAsync)) := by
  refine throughout_iff.2 ⟨⟨hrole, trivial, trivial, trivial⟩, ?_⟩
  simp only [parts, List.forall_mem_append, List.forall_mem_cons]
  exact ⟨⟨hparams, forall_stmts.2 hbody⟩, forall_decorators.2 hdecs⟩

theorem good_classDef {token : NameToken} {bases : List Expr} {body : List Stmt} {decs : List Decorator}
    (hrole : token.role = .className) (hbases : ∀ e ∈ bases, Good grouped .load (.expr e))
    (hbody : ∀ s ∈ body, Good grouped .load (.stmt s)) (hdecs : ∀ d ∈ decs, Good grouped .load (.decorator d)) :
    Good grouped .load (.stmt (.classDef pos token bases body decs)) := by
  refine throughout_iff.2 ⟨⟨hrole, trivial, trivial, trivial⟩, ?_⟩
  simp only [parts, List.forall_mem_append]
  exact ⟨⟨forall_exprs.2 hbases, forall_stmts.2 hbody⟩, forall_decorators.2 hdecs⟩

end Graft
