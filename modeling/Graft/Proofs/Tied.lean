/-
Trees that have one shape, the first of them with positions of known origin.

Two nodes have one shape when they agree in all but their positions. `Origins` says which positions a node may have, and
where a definition may have its name; `Placed` asks this of one node. `Tied o t t'` puts the two together: the nodes have
one shape, and everything in the first is placed.

There is one lemma for each construct of the tree, by which two of them are tied if their parts are.
-/
import Mathlib.Data.List.Forall2
import Graft.Proofs.Compared
import Graft.Proofs.Walked

namespace Graft

open Subtree

/-! ## Where positions come from -/

/-- where the positions of a tree come from -/
structure Origins where
  /-- what the position of a node may be -/
  located : Position → Prop
  /-- what the position of its name may be, for a definition at a position -/
  named : Position → Position → Prop

/-- the positions of a node itself come from where they are to; the name of a definition has an origin of its own -/
def Placed (o : Origins) : Subtree → Prop
  | stmt (.functionDef pos token _ _ _ _) => o.located pos ∧ o.named pos token.pos
  | stmt (.classDef pos token _ _ _) => o.located pos ∧ o.named pos token.pos
  | t => ∀ mark ∈ own t, o.located mark.pos

/-- everything in the node is placed -/
def AllPlaced (o : Origins) (t : Subtree) : Prop := Throughout (fun _ => Placed o) .load t

variable {o : Origins}

theorem allPlaced {t : Subtree} (hown : Placed o t) (hparts : ∀ p ∈ parts .load t, AllPlaced o p.2) : AllPlaced o t :=
  throughout_iff.2 ⟨hown, fun p hp => (hparts p hp).place (fun _ _ hu => hu) p.1⟩

theorem AllPlaced.part {t u : Subtree} (h : AllPlaced o t) (hu : (.load, u) ∈ parts .load t) : AllPlaced o u :=
  (throughout_iff.1 h).2 _ hu

/-- At a place that is read, an expression has its parts at places that are read. -/
theorem AllPlaced.inside {e : Expr} {p : Binding × Subtree} (h : AllPlaced o (expr e)) (hp : p ∈ parts .load (expr e)) :
    AllPlaced o p.2 := by
  obtain ⟨b, u⟩ := p
  by_cases hb : b = .load
  · subst hb
    exact h.part hp
  · obtain ⟨x, -, -, htop⟩ := part_cases hp hb
    exact absurd (htop e rfl).1 hb

section Parts

variable {P : Subtree → Prop} {b : Binding}

@[simp] theorem forall_mem_exprs {es : List Expr} : (∀ p ∈ exprs b es, P p.2) ↔ ∀ e ∈ es, P (expr e) := by
  simp [exprs]

@[simp] theorem forall_mem_stmts {ss : List Stmt} : (∀ p ∈ stmts ss, P p.2) ↔ ∀ s ∈ ss, P (stmt s) := by
  simp [stmts]

@[simp] theorem forall_mem_decorators {ds : List Decorator} :
    (∀ p ∈ decorators ds, P p.2) ↔ ∀ d ∈ ds, P (decorator d) := by
  simp [decorators]

end Parts

/-! ## Ties -/

/-- the nodes agree in all but positions -/
def SameShape : Subtree → Subtree → Prop
  | expr e, expr f => e.agrees .ignore f = true
  | stmt s, stmt t => s.agrees .ignore t = true
  | keyword k, keyword l => k.agrees .ignore l = true
  | decorator d, decorator e => d.agrees .ignore e = true
  | parameters p, parameters q => p.agrees .ignore q = true
  | _, _ => False

/-- two nodes of one shape, everything in the first being placed -/
structure Tied (o : Origins) (t t' : Subtree) : Prop where
  shape : SameShape t t'
  placed : AllPlaced o t

/-- two lists of nodes of one sort that are tied one by one -/
abbrev AllTied {α : Type} (o : Origins) (sort : α → Subtree) : List α → List α → Prop :=
  List.Forall₂ fun a b => Tied o (sort a) (sort b)

/-- two expressions that are tied, or none -/
abbrev TiedOption (o : Origins) : Option Expr → Option Expr → Prop := Option.Rel fun e f => Tied o (expr e) (expr f)

/-- two blocks of tied statements, the first at a position that it may have, or none -/
abbrev TiedBlock (o : Origins) : Option Suite → Option Suite → Prop :=
  Option.Rel fun s t => o.located s.pos ∧ AllTied o stmt s.body t.body

/-- two tokens that agree in all but positions, the first at a position that it may have, or none -/
abbrev TiedToken (o : Origins) : Option NameToken → Option NameToken → Prop :=
  Option.Rel fun t u => t.agrees .ignore u = true ∧ o.located t.pos

/-- the arguments of two calls that are tied one by one -/
structure ArgumentsTied (o : Origins) (a a' : CallArgs) : Prop where
  args : AllTied o expr a.args a'.args
  keywords : AllTied o keyword a.keywords a'.keywords
  starargs : TiedOption o a.starargs a'.starargs
  kwargs : TiedOption o a.kwargs a'.kwargs

@[simp] theorem samePos_ignore (part : Part) (p q : Position) : Policy.samePos .ignore part p q = true := rfl

namespace Tied

theorem agrees_expr {e f : Expr} (h : Tied o (expr e) (expr f)) : e.agrees .ignore f = true := h.shape

theorem agrees_stmt {s t : Stmt} (h : Tied o (stmt s) (stmt t)) : s.agrees .ignore t = true := h.shape

theorem agrees_parameters {p q : Parameters} (h : Tied o (parameters p) (parameters q)) : p.agrees .ignore q = true :=
  h.shape

/-! ### Lists and options -/

theorem all {α : Type} {sort : α → Subtree} {as bs : List α} (h : AllTied o sort as bs) :
    ∀ a ∈ as, AllPlaced o (sort a) := by
  induction h with
  | nil => exact nofun
  | cons hab _ ih => exact List.forall_mem_cons.2 ⟨hab.placed, ih⟩

theorem agree_exprs {es fs : List Expr} (h : AllTied o expr es fs) : exprsAgree .ignore es fs = true := by
  induction h with
  | nil => rfl
  | cons hab _ ih => simp [exprsAgree, hab.agrees_expr, ih]

/-- Lists that agree, the first being placed, are tied one by one. -/
theorem tied_exprs {es fs : List Expr} (h : exprsAgree .ignore es fs = true) (hplaced : ∀ e ∈ es, AllPlaced o (expr e)) :
    AllTied o expr es fs := by
  induction es generalizing fs with
  | nil =>
    cases fs with
    | nil => exact .nil
    | cons f fs => cases h
  | cons e es ih =>
    cases fs with
    | nil => cases h
    | cons f fs =>
      simp only [exprsAgree, Bool.and_eq_true] at h
      obtain ⟨hfirst, hrest⟩ := List.forall_mem_cons.1 hplaced
      exact .cons ⟨h.1, hfirst⟩ (ih h.2 hrest)

theorem agree_stmts {ss ts : List Stmt} (h : AllTied o stmt ss ts) : stmtsAgree .ignore ss ts = true := by
  induction h with
  | nil => rfl
  | cons hab _ ih => simp [stmtsAgree, hab.agrees_stmt, ih]

theorem agree_keywords {ks ls : List Keyword} (h : AllTied o keyword ks ls) : keywordsAgree .ignore ks ls = true := by
  induction h with
  | nil => rfl
  | @cons k l _ _ hab _ ih =>
    have hshape : k.agrees .ignore l = true := hab.shape
    simp [keywordsAgree, hshape, ih]

theorem agree_decorators {ds es : List Decorator} (h : AllTied o decorator ds es) :
    decoratorsAgree .ignore ds es = true := by
  induction h with
  | nil => rfl
  | @cons d e _ _ hab _ ih =>
    have hshape : d.agrees .ignore e = true := hab.shape
    simp [decoratorsAgree, hshape, ih]

theorem agrees_option {x y : Option Expr} (h : TiedOption o x y) : exprAgrees? .ignore x y = true := by
  cases h with
  | none => rfl
  | some hab => exact hab.agrees_expr

theorem all_option {x y : Option Expr} (h : TiedOption o x y) : ∀ e ∈ x.toList, AllPlaced o (expr e) := by
  cases h with
  | none => exact nofun
  | some hab => exact List.forall_mem_singleton.2 hab.placed

theorem agree_options {xs ys : List (Option Expr)} (h : List.Forall₂ (TiedOption o) xs ys) :
    optionsAgree .ignore xs ys = true := by
  induction h with
  | nil => rfl
  | cons hab _ ih => simp [optionsAgree, agrees_option hab, ih]

theorem all_options {xs ys : List (Option Expr)} (h : List.Forall₂ (TiedOption o) xs ys) :
    ∀ e, some e ∈ xs → AllPlaced o (expr e) := by
  induction h with
  | nil => exact nofun
  | cons hab _ ih =>
    intro e he
    rcases List.mem_cons.1 he with rfl | he
    · exact all_option hab e (List.mem_singleton.2 rfl)
    · exact ih e he

theorem agrees_block {x y : Option Suite} (h : TiedBlock o x y) : suiteAgrees? .ignore x y = true := by
  cases h with
  | none => rfl
  | @some s t hab =>
    cases s
    cases t
    simp [suiteAgrees?, Suite.agrees, agree_stmts hab.2]

theorem all_block {x y : Option Suite} (h : TiedBlock o x y) : ∀ p ∈ block x, AllPlaced o p.2 := by
  cases h with
  | none => exact nofun
  | some hab => exact forall_mem_stmts.2 (all hab.2)

theorem located_block {x y : Option Suite} (h : TiedBlock o x y) : ∀ mark ∈ suiteMark x, o.located mark.pos := by
  cases h with
  | none => exact nofun
  | some hab => exact List.forall_mem_singleton.2 hab.1

theorem agrees_token {x y : Option NameToken} (h : TiedToken o x y) : tokensAgree? .ignore x y = true := by
  cases h with
  | none => rfl
  | some hab => exact hab.1

theorem located_token {x y : Option NameToken} (h : TiedToken o x y) : ∀ mark ∈ tokenMarks x, o.located mark.pos := by
  cases h with
  | none => exact nofun
  | some hab => exact List.forall_mem_singleton.2 hab.2

theorem agrees_arguments {a a' : CallArgs} (h : ArgumentsTied o a a') : a.agrees .ignore a' = true := by
  cases a
  cases a'
  simp [CallArgs.agrees, agree_exprs h.args, agree_keywords h.keywords, agrees_option h.starargs, agrees_option h.kwargs]

theorem all_arguments {a a' : CallArgs} (h : ArgumentsTied o a a') : ∀ p ∈ arguments a, AllPlaced o p.2 := by
  have hread : ∀ e ∈ a.args ++ a.starargs.toList ++ a.kwargs.toList, AllPlaced o (expr e) := by
    simp only [List.forall_mem_append]
    exact ⟨⟨all h.args, all_option h.starargs⟩, all_option h.kwargs⟩
  refine List.forall_mem_append.2 ⟨forall_mem_exprs.2 hread, fun p hp => ?_⟩
  obtain ⟨k, hk, rfl⟩ := List.mem_map.1 hp
  exact all h.keywords k hk

end Tied

open Tied

/-! ## Expressions -/

variable {pos pos' : Position}

/-- An expression has one position of its own. -/
theorem tied_expr {e f : Expr} (hshape : e.agrees .ignore f = true) (hpos : o.located e.pos)
    (hparts : ∀ p ∈ parts .load (expr e), AllPlaced o p.2) : Tied o (expr e) (expr f) :=
  ⟨hshape, allPlaced (List.forall_mem_singleton.2 hpos) hparts⟩

theorem Tied.located {e f : Expr} (h : Tied o (expr e) (expr f)) : o.located e.pos :=
  h.placed.here _ (List.mem_singleton.2 rfl)

theorem tied_moveTo {e f : Expr} (h : Tied o (expr e) (expr f)) (hpos : o.located pos) :
    Tied o (expr (e.moveTo pos)) (expr (f.moveTo pos')) := by
  refine ⟨?_, h.placed.moveTo fun _ => ?_⟩
  · have hshape := h.agrees_expr
    show (e.moveTo pos).agrees .ignore (f.moveTo pos') = true
    cases e <;> cases f <;> simp_all [Expr.agrees, Expr.moveTo]
  · refine List.forall_mem_singleton.2 ?_
    rwa [Mark.pos, Expr.pos_moveTo]

/-- A tuple, taken for its elements. -/
theorem tied_of_tuple {es : List Expr} {b : Binding} {comma : Bool} {f : Expr}
    (h : Tied o (expr (.tuple pos es b comma)) (expr f)) :
    ∃ pos' fs, f = .tuple pos' fs b comma ∧ AllTied o expr es fs := by
  have hagrees := h.agrees_expr
  cases f with
  | tuple pos' fs b' comma' =>
    simp only [Expr.agrees, samePos_ignore, Bool.true_and, Bool.and_eq_true, beq_iff_eq] at hagrees
    obtain ⟨⟨hes, rfl⟩, rfl⟩ := hagrees
    have hplaced : ∀ e ∈ es, AllPlaced o (expr e) := fun e he => h.placed.part (mem_exprs.2 ⟨rfl, e, he, rfl⟩)
    exact ⟨pos', fs, rfl, tied_exprs hes hplaced⟩
  | _ => cases hagrees

theorem tied_name (hpos : o.located pos) {id : String} {b : Binding} {reserved : Bool} :
    Tied o (expr (.name pos id b reserved)) (expr (.name pos' id b reserved)) :=
  tied_expr (by simp [Expr.agrees]) hpos nofun

theorem tied_num (hpos : o.located pos) {digits : String} : Tied o (expr (.num pos digits)) (expr (.num pos' digits)) :=
  tied_expr (by simp [Expr.agrees]) hpos nofun

theorem tied_str (hpos : o.located pos) {text : String} {marks : StringMarks} {ss ts : List Stmt}
    (h : AllTied o stmt ss ts) : Tied o (expr (.str pos text marks ss)) (expr (.str pos' text marks ts)) :=
  tied_expr (by simp [Expr.agrees, agree_stmts h]) hpos (forall_mem_stmts.2 (all h))

theorem tied_tuple (hpos : o.located pos) {es fs : List Expr} {b : Binding} {comma : Bool} (h : AllTied o expr es fs) :
    Tied o (expr (.tuple pos es b comma)) (expr (.tuple pos' fs b comma)) :=
  tied_expr (by simp [Expr.agrees, agree_exprs h]) hpos (forall_mem_exprs.2 (all h))

theorem tied_list (hpos : o.located pos) {es fs : List Expr} {b : Binding} (h : AllTied o expr es fs) :
    Tied o (expr (.list pos es b)) (expr (.list pos' fs b)) :=
  tied_expr (by simp [Expr.agrees, agree_exprs h]) hpos (forall_mem_exprs.2 (all h))

theorem tied_set (hpos : o.located pos) {es fs : List Expr} (h : AllTied o expr es fs) :
    Tied o (expr (.set pos es)) (expr (.set pos' fs)) :=
  tied_expr (by simp [Expr.agrees, agree_exprs h]) hpos (forall_mem_exprs.2 (all h))

theorem tied_dict (hpos : o.located pos) {ks ls vs ws : List Expr} (hkeys : AllTied o expr ks ls)
    (hvalues : AllTied o expr vs ws) : Tied o (expr (.dict pos ks vs)) (expr (.dict pos' ls ws)) :=
  tied_expr (by simp [Expr.agrees, agree_exprs hkeys, agree_exprs hvalues]) hpos
    (forall_mem_exprs.2 (List.forall_mem_append.2 ⟨all hkeys, all hvalues⟩))

theorem tied_call (hpos : o.located pos) {e f : Expr} {a a' : CallArgs} (hfunc : Tied o (expr e) (expr f))
    (hargs : ArgumentsTied o a a') : Tied o (expr (.call pos e a)) (expr (.call pos' f a')) :=
  tied_expr (by simp [Expr.agrees, hfunc.agrees_expr, agrees_arguments hargs]) hpos
    (List.forall_mem_append.2
      ⟨forall_mem_exprs.2 (List.forall_mem_singleton.2 hfunc.placed), all_arguments hargs⟩)

theorem tied_binOp (hpos : o.located pos) {l l' r r' : Expr} {op : BinaryOp} (hl : Tied o (expr l) (expr l'))
    (hr : Tied o (expr r) (expr r')) : Tied o (expr (.binOp pos l op r)) (expr (.binOp pos' l' op r')) :=
  tied_expr (by simp [Expr.agrees, hl.agrees_expr, hr.agrees_expr]) hpos
    (forall_mem_exprs.2 (by simp [hl.placed, hr.placed]))

theorem tied_boolOp (hpos : o.located pos) {es fs : List Expr} {op : BoolOp} (h : AllTied o expr es fs) :
    Tied o (expr (.boolOp pos op es)) (expr (.boolOp pos' op fs)) :=
  tied_expr (by simp [Expr.agrees, agree_exprs h]) hpos (forall_mem_exprs.2 (all h))

theorem tied_compare (hpos : o.located pos) {l l' : Expr} {ops : List CompareOp} {es fs : List Expr}
    (hl : Tied o (expr l) (expr l')) (h : AllTied o expr es fs) :
    Tied o (expr (.compare pos l ops es)) (expr (.compare pos' l' ops fs)) :=
  tied_expr (by simp [Expr.agrees, hl.agrees_expr, agree_exprs h]) hpos
    (forall_mem_exprs.2 (List.forall_mem_cons.2 ⟨hl.placed, all h⟩))

theorem tied_ifExp (hpos : o.located pos) {t t' e e' f f' : Expr} (ht : Tied o (expr t) (expr t'))
    (he : Tied o (expr e) (expr e')) (hf : Tied o (expr f) (expr f')) :
    Tied o (expr (.ifExp pos t e f)) (expr (.ifExp pos' t' e' f')) :=
  tied_expr (by simp [Expr.agrees, ht.agrees_expr, he.agrees_expr, hf.agrees_expr]) hpos
    (forall_mem_exprs.2 (by simp [ht.placed, he.placed, hf.placed]))

theorem tied_await (hpos : o.located pos) {e f : Expr} (h : Tied o (expr e) (expr f)) :
    Tied o (expr (.await pos e)) (expr (.await pos' f)) :=
  tied_expr (by simp [Expr.agrees, h.agrees_expr]) hpos (forall_mem_exprs.2 (by simp [h.placed]))

theorem tied_yield (hpos : o.located pos) {x y : Option Expr} (h : TiedOption o x y) :
    Tied o (expr (.yield pos x)) (expr (.yield pos' y)) :=
  tied_expr (by simp [Expr.agrees, agrees_option h]) hpos (forall_mem_exprs.2 (all_option h))

/-- The name of an argument has a position of its own. -/
theorem tied_keyword {k l : Keyword} (harg : k.arg.agrees .ignore l.arg = true) (hpos : o.located k.arg.pos)
    (h : Tied o (expr k.value) (expr l.value)) : Tied o (keyword k) (keyword l) := by
  cases k
  cases l
  refine ⟨?_, allPlaced (List.forall_mem_singleton.2 hpos) (forall_mem_exprs.2 (by simpa using h.placed))⟩
  simpa [SameShape, Keyword.agrees, h.agrees_expr] using harg

theorem argumentsTied_none : ArgumentsTied o .none .none := ⟨.nil, .nil, .none, .none⟩

theorem argumentsTied_positional {es fs : List Expr} (h : AllTied o expr es fs) :
    ArgumentsTied o (.positional es) (.positional fs) := ⟨h, .nil, .none, .none⟩

/-! ## Statements -/

theorem tied_assign (hpos : o.located pos) {e e' f f' : Expr} (he : Tied o (expr e) (expr e'))
    (hf : Tied o (expr f) (expr f')) : Tied o (stmt (.assign pos [e] f)) (stmt (.assign pos' [e'] f')) := by
  refine ⟨?_, allPlaced (List.forall_mem_singleton.2 hpos) (List.forall_mem_append.2 ⟨?_, ?_⟩)⟩
  · simp [SameShape, Stmt.agrees, exprsAgree, he.agrees_expr, hf.agrees_expr]
  · exact forall_mem_exprs.2 (by simpa using he.placed)
  · exact forall_mem_exprs.2 (by simpa using hf.placed)

theorem tied_augAssign (hpos : o.located pos) {e e' f f' : Expr} {op : BinaryOp} (he : Tied o (expr e) (expr e'))
    (hf : Tied o (expr f) (expr f')) : Tied o (stmt (.augAssign pos e op f)) (stmt (.augAssign pos' e' op f')) := by
  refine ⟨?_, allPlaced (List.forall_mem_singleton.2 hpos) (List.forall_mem_append.2 ⟨?_, ?_⟩)⟩
  · simp [SameShape, Stmt.agrees, he.agrees_expr, hf.agrees_expr]
  · exact forall_mem_exprs.2 (by simpa using he.placed)
  · exact forall_mem_exprs.2 (by simpa using hf.placed)

/-- An expression is a statement at its own position. -/
theorem tied_ofExpr {e f : Expr} (h : Tied o (expr e) (expr f)) : Tied o (stmt (.ofExpr e)) (stmt (.ofExpr f)) := by
  refine ⟨?_, allPlaced (List.forall_mem_singleton.2 h.located) (forall_mem_exprs.2 (by simpa using h.placed))⟩
  simp [SameShape, Stmt.ofExpr, Stmt.agrees, h.agrees_expr]

/-- An expression that comes as a statement. -/
theorem tied_of_exprStmt {e : Expr} {t : Stmt} (h : Tied o (stmt (.expr pos e)) (stmt t)) :
    ∃ pos' f, t = .expr pos' f ∧ Tied o (expr e) (expr f) := by
  have hshape := h.agrees_stmt
  cases t with
  | expr pos' f =>
    have hagrees : e.agrees .ignore f = true := by simpa [Stmt.agrees] using hshape
    exact ⟨pos', f, rfl, hagrees, h.placed.part (List.mem_singleton.2 rfl)⟩
  | _ => cases hshape

theorem tied_pass (hpos : o.located pos) : Tied o (stmt (.pass pos)) (stmt (.pass pos')) :=
  ⟨rfl, allPlaced (List.forall_mem_singleton.2 hpos) nofun⟩

theorem tied_ifElse (hpos : o.located pos) {e f : Expr} {ss ts : List Stmt} {x y : Option Suite}
    (he : Tied o (expr e) (expr f)) (hs : AllTied o stmt ss ts) (hx : TiedBlock o x y) :
    Tied o (stmt (.ifElse pos e ss x)) (stmt (.ifElse pos' f ts y)) := by
  refine ⟨?_, allPlaced (List.forall_mem_cons.2 ⟨hpos, located_block hx⟩) ?_⟩
  · simp [SameShape, Stmt.agrees, he.agrees_expr, agree_stmts hs, agrees_block hx]
  · simp only [parts, List.forall_mem_append, forall_mem_exprs, forall_mem_stmts, List.forall_mem_singleton]
    exact ⟨⟨he.placed, all hs⟩, all_block hx⟩

theorem tied_while (hpos : o.located pos) {e f : Expr} {ss ts : List Stmt} {x y : Option Suite}
    (he : Tied o (expr e) (expr f)) (hs : AllTied o stmt ss ts) (hx : TiedBlock o x y) :
    Tied o (stmt (.whileLoop pos e ss x)) (stmt (.whileLoop pos' f ts y)) := by
  refine ⟨?_, allPlaced (List.forall_mem_cons.2 ⟨hpos, located_block hx⟩) ?_⟩
  · simp [SameShape, Stmt.agrees, he.agrees_expr, agree_stmts hs, agrees_block hx]
  · simp only [parts, List.forall_mem_append, forall_mem_exprs, forall_mem_stmts, List.forall_mem_singleton]
    exact ⟨⟨he.placed, all hs⟩, all_block hx⟩

theorem tied_for (hpos : o.located pos) {e e' f f' : Expr} {ss ts : List Stmt} {x y : Option Suite} {isAsync : Bool}
    (he : Tied o (expr e) (expr e')) (hf : Tied o (expr f) (expr f')) (hs : AllTied o stmt ss ts)
    (hx : TiedBlock o x y) :
    Tied o (stmt (.forLoop pos e f ss x isAsync)) (stmt (.forLoop pos' e' f' ts y isAsync)) := by
  refine ⟨?_, allPlaced (List.forall_mem_cons.2 ⟨hpos, located_block hx⟩) ?_⟩
  · simp [SameShape, Stmt.agrees, he.agrees_expr, hf.agrees_expr, agree_stmts hs, agrees_block hx]
  · simp only [parts, List.forall_mem_append, forall_mem_exprs, forall_mem_stmts, List.forall_mem_singleton]
    exact ⟨⟨⟨he.placed, hf.placed⟩, all hs⟩, all_block hx⟩

theorem tied_assertion (hpos : o.located pos) {e f : Expr} {x y : Option Expr} (he : Tied o (expr e) (expr f))
    (hx : TiedOption o x y) : Tied o (stmt (.assertion pos e x)) (stmt (.assertion pos' f y)) := by
  refine ⟨?_, allPlaced (List.forall_mem_singleton.2 hpos) ?_⟩
  · simp [SameShape, Stmt.agrees, he.agrees_expr, agrees_option hx]
  · exact forall_mem_exprs.2 (List.forall_mem_cons.2 ⟨he.placed, all_option hx⟩)

theorem tied_ret (hpos : o.located pos) {x y : Option Expr} (hx : TiedOption o x y) :
    Tied o (stmt (.ret pos x)) (stmt (.ret pos' y)) := by
  refine ⟨?_, allPlaced (List.forall_mem_singleton.2 hpos) (forall_mem_exprs.2 (all_option hx))⟩
  simp [SameShape, Stmt.agrees, agrees_option hx]

/-! ## Definitions -/

theorem tied_plainDecorator (hpos : o.located pos) {id : String} {b : Binding} {reserved : Bool} :
    Tied o (decorator ⟨.name pos id b reserved, .none, false, pos⟩)
      (decorator ⟨.name pos' id b reserved, .none, false, pos'⟩) := by
  have hname : Tied o (expr (.name pos id b reserved)) (expr (.name pos' id b reserved)) := tied_name hpos
  have hargs : CallArgs.agrees .ignore .none .none = true := rfl
  refine ⟨?_, allPlaced (List.forall_mem_singleton.2 hpos) (List.forall_mem_append.2 ⟨?_, nofun⟩)⟩
  · simp [SameShape, Decorator.agrees, hname.agrees_expr, hargs]
  · exact forall_mem_exprs.2 (by simpa using hname.placed)

/-- A call as a decorator has the position and the parts of the call. -/
theorem tied_callDecorator {e f : Expr} {a a' : CallArgs} (h : Tied o (expr (.call pos e a)) (expr (.call pos' f a'))) :
    Tied o (decorator ⟨e, a, true, pos⟩) (decorator ⟨f, a', true, pos'⟩) := by
  have hagrees := h.agrees_expr
  simp only [Expr.agrees, samePos_ignore, Bool.true_and, Bool.and_eq_true] at hagrees
  refine ⟨?_, allPlaced (List.forall_mem_singleton.2 h.located) fun p hp => ?_⟩
  · simp [SameShape, Decorator.agrees, hagrees]
  · exact h.placed.inside hp

/-- the lists of two functions' parameters, tied one by one -/
structure ParametersTied (o : Origins) (p q : Parameters) : Prop where
  args : AllTied o expr p.args q.args
  defaults : List.Forall₂ (TiedOption o) p.defaults q.defaults
  annotations : List.Forall₂ (TiedOption o) p.annotations q.annotations
  vararg : TiedToken o p.vararg q.vararg
  kwarg : TiedToken o p.kwarg q.kwarg
  kwonlyargs : AllTied o expr p.kwonlyargs q.kwonlyargs
  kwDefaults : List.Forall₂ (TiedOption o) p.kwDefaults q.kwDefaults
  kwonlyAnnotations : List.Forall₂ (TiedOption o) p.kwonlyAnnotations q.kwonlyAnnotations

theorem tied_parameters {p q : Parameters} (h : ParametersTied o p q) : Tied o (parameters p) (parameters q) := by
  refine ⟨?_, allPlaced (List.forall_mem_append.2 ⟨located_token h.vararg, located_token h.kwarg⟩) ?_⟩
  · cases p
    cases q
    simp [SameShape, Parameters.agrees, agree_exprs h.args, agree_options h.defaults, agree_options h.annotations,
      agrees_token h.vararg, agrees_token h.kwarg, agree_exprs h.kwonlyargs, agree_options h.kwDefaults,
      agree_options h.kwonlyAnnotations]
  · have hread : ∀ e, some e ∈ p.defaults ++ p.annotations ++ p.kwDefaults ++ p.kwonlyAnnotations →
        AllPlaced o (expr e) := by
      intro e he
      simp only [List.mem_append] at he
      rcases he with ((he | he) | he) | he
      · exact all_options h.defaults e he
      · exact all_options h.annotations e he
      · exact all_options h.kwDefaults e he
      · exact all_options h.kwonlyAnnotations e he
    simp only [parts, List.forall_mem_append, forall_mem_exprs]
    refine ⟨⟨all h.args, all h.kwonlyargs⟩, fun e he => ?_⟩
    simp only [List.mem_filterMap, id, exists_eq_right] at he
    exact hread e he

theorem tied_functionDef (hpos : o.located pos) {t u : NameToken} {p q : Parameters} {ss ts : List Stmt}
    {ds es : List Decorator} {isAsync : Bool} (hname : t.agrees .ignore u = true) (hnamed : o.named pos t.pos)
    (hp : Tied o (parameters p) (parameters q)) (hs : AllTied o stmt ss ts) (hd : AllTied o decorator ds es) :
    Tied o (stmt (.functionDef pos t p ss ds isAsync)) (stmt (.functionDef pos' u q ts es isAsync)) := by
  refine ⟨?_, allPlaced ⟨hpos, hnamed⟩ ?_⟩
  · simp [SameShape, Stmt.agrees, hname, hp.agrees_parameters, agree_stmts hs, agree_decorators hd]
  · simp only [parts, List.forall_mem_append, List.forall_mem_cons, forall_mem_stmts, forall_mem_decorators]
    exact ⟨⟨hp.placed, all hs⟩, all hd⟩

theorem tied_classDef (hpos : o.located pos) {t u : NameToken} {xs ys : List Expr} {ss ts : List Stmt}
    {ds es : List Decorator} (hname : t.agrees .ignore u = true) (hnamed : o.named pos t.pos)
    (hx : AllTied o expr xs ys) (hs : AllTied o stmt ss ts) (hd : AllTied o decorator ds es) :
    Tied o (stmt (.classDef pos t xs ss ds)) (stmt (.classDef pos' u ys ts es)) := by
  refine ⟨?_, allPlaced ⟨hpos, hnamed⟩ ?_⟩
  · simp [SameShape, Stmt.agrees, hname, agree_exprs hx, agree_stmts hs, agree_decorators hd]
  · simp only [parts, List.forall_mem_append, forall_mem_exprs, forall_mem_stmts, forall_mem_decorators]
    exact ⟨⟨all hx, all hs⟩, all hd⟩

end Graft
