/-
What an edit does to what a walk meets.

`Expr.edit` and its companions change positions and identifiers all over a tree, and `Expr.marks` and its companions list
what a walk meets there. An edit changes exactly what a walk meets: a walk over the edited tree meets what a walk over the
tree did, each mark edited (`Module.marks_edit`), and an edit that leaves every mark as it is leaves the tree as it is
(`Module.edit_eq_self`). Nothing that an edit can reach is passed over by the walk, then, nor the other way round.

Each of the two is one induction over all sorts of nodes and lists at once, with one case for each constructor.
-/
import Graft.Tree.Walk

namespace Graft

/-- what becomes of a mark -/
def Mark.edit (e : Edit) : Mark → Mark
  | stmt pos => stmt (e.pos .stmt pos)
  | expr pos id => expr (e.pos .expr pos) (id.map e.name)
  | suite pos => suite (e.pos .suite pos)
  | token t => token (t.edit e)
  | decorator pos => decorator (e.pos .decorator pos)

/-! ## A walk over an edited tree -/

theorem tokenMarks_edit (e : Edit) (t : Option NameToken) :
    tokenMarks (t.map (·.edit e)) = (tokenMarks t).map (·.edit e) := by
  cases t <;> rfl

mutual

theorem Expr.marks_edit (e : Edit) : ∀ x : Expr, (x.edit e).marks = x.marks.map (·.edit e)
  | .name .. => rfl
  | .num .. => rfl
  | .str _ _ _ segments => by simp [Expr.edit, Expr.marks, Mark.edit, stmtsMarks_edit e segments]
  | .tuple _ elts _ _ => by simp [Expr.edit, Expr.marks, Mark.edit, exprsMarks_edit e elts]
  | .list _ elts _ => by simp [Expr.edit, Expr.marks, Mark.edit, exprsMarks_edit e elts]
  | .set _ elts => by simp [Expr.edit, Expr.marks, Mark.edit, exprsMarks_edit e elts]
  | .dict _ keys values => by
    simp [Expr.edit, Expr.marks, Mark.edit, exprsMarks_edit e keys, exprsMarks_edit e values]
  | .call _ func args => by simp [Expr.edit, Expr.marks, Mark.edit, func.marks_edit e, args.marks_edit e]
  | .binOp _ left _ right => by simp [Expr.edit, Expr.marks, Mark.edit, left.marks_edit e, right.marks_edit e]
  | .boolOp _ _ values => by simp [Expr.edit, Expr.marks, Mark.edit, exprsMarks_edit e values]
  | .compare _ left _ comparators => by
    simp [Expr.edit, Expr.marks, Mark.edit, left.marks_edit e, exprsMarks_edit e comparators]
  | .ifExp _ test body orelse => by
    simp [Expr.edit, Expr.marks, Mark.edit, test.marks_edit e, body.marks_edit e, orelse.marks_edit e]
  | .await _ value => by simp [Expr.edit, Expr.marks, Mark.edit, value.marks_edit e]
  | .yield _ value => by simp [Expr.edit, Expr.marks, Mark.edit, exprMarks?_edit e value]
termination_by structural x => x

theorem CallArgs.marks_edit (e : Edit) : ∀ a : CallArgs, (a.edit e).marks = a.marks.map (·.edit e)
  | ⟨args, keywords, starargs, kwargs⟩ => by
    simp [CallArgs.edit, CallArgs.marks, exprsMarks_edit e args, keywordsMarks_edit e keywords,
      exprMarks?_edit e starargs, exprMarks?_edit e kwargs]
termination_by structural x => x

theorem Keyword.marks_edit (e : Edit) : ∀ k : Keyword, (k.edit e).marks = k.marks.map (·.edit e)
  | ⟨_, value⟩ => by simp [Keyword.edit, Keyword.marks, Mark.edit, value.marks_edit e]
termination_by structural x => x

theorem Stmt.marks_edit (e : Edit) : ∀ s : Stmt, (s.edit e).marks = s.marks.map (·.edit e)
  | .assign _ targets value => by
    simp [Stmt.edit, Stmt.marks, Mark.edit, exprsMarks_edit e targets, value.marks_edit e]
  | .augAssign _ target _ value => by simp [Stmt.edit, Stmt.marks, Mark.edit, target.marks_edit e, value.marks_edit e]
  | .expr _ value => by simp [Stmt.edit, Stmt.marks, Mark.edit, value.marks_edit e]
  | .pass _ => rfl
  | .ifElse _ test body orelse => by
    simp [Stmt.edit, Stmt.marks, Mark.edit, test.marks_edit e, stmtsMarks_edit e body, suiteMarks?_edit e orelse]
  | .whileLoop _ test body orelse => by
    simp [Stmt.edit, Stmt.marks, Mark.edit, test.marks_edit e, stmtsMarks_edit e body, suiteMarks?_edit e orelse]
  | .forLoop _ target iter body orelse _ => by
    simp [Stmt.edit, Stmt.marks, Mark.edit, target.marks_edit e, iter.marks_edit e, stmtsMarks_edit e body,
      suiteMarks?_edit e orelse]
  | .assertion _ test msg => by simp [Stmt.edit, Stmt.marks, Mark.edit, test.marks_edit e, exprMarks?_edit e msg]
  | .ret _ value => by simp [Stmt.edit, Stmt.marks, Mark.edit, exprMarks?_edit e value]
  | .functionDef _ _ params body decorators _ => by
    simp [Stmt.edit, Stmt.marks, Mark.edit, params.marks_edit e, stmtsMarks_edit e body, decoratorsMarks_edit e decorators]
  | .classDef _ _ bases body decorators => by
    simp [Stmt.edit, Stmt.marks, Mark.edit, exprsMarks_edit e bases, stmtsMarks_edit e body,
      decoratorsMarks_edit e decorators]
termination_by structural x => x

theorem Suite.marks_edit (e : Edit) : ∀ s : Suite, (s.edit e).marks = s.marks.map (·.edit e)
  | ⟨body, _⟩ => by simp [Suite.edit, Suite.marks, Mark.edit, stmtsMarks_edit e body]
termination_by structural x => x

theorem Decorator.marks_edit (e : Edit) : ∀ d : Decorator, (d.edit e).marks = d.marks.map (·.edit e)
  | ⟨func, args, _, _⟩ => by simp [Decorator.edit, Decorator.marks, Mark.edit, func.marks_edit e, args.marks_edit e]
termination_by structural x => x

theorem Parameters.marks_edit (e : Edit) : ∀ p : Parameters, (p.edit e).marks = p.marks.map (·.edit e)
  | ⟨args, defaults, annotations, vararg, kwarg, kwonlyargs, kwDefaults, kwonlyAnnotations⟩ => by
    simp [Parameters.edit, Parameters.marks, tokenMarks_edit, exprsMarks_edit e args, optionsMarks_edit e defaults,
      optionsMarks_edit e annotations, exprsMarks_edit e kwonlyargs, optionsMarks_edit e kwDefaults,
      optionsMarks_edit e kwonlyAnnotations]
termination_by structural x => x

theorem exprsMarks_edit (e : Edit) : ∀ xs : List Expr, exprsMarks (exprsEdit e xs) = (exprsMarks xs).map (·.edit e)
  | [] => rfl
  | x :: xs => by simp [exprsEdit, exprsMarks, x.marks_edit e, exprsMarks_edit e xs]
termination_by structural x => x

theorem exprMarks?_edit (e : Edit) : ∀ x : Option Expr, exprMarks? (exprEdit? e x) = (exprMarks? x).map (·.edit e)
  | none => rfl
  | some x => by simp [exprEdit?, exprMarks?, x.marks_edit e]
termination_by structural x => x

theorem optionsMarks_edit (e : Edit) :
    ∀ xs : List (Option Expr), optionsMarks (optionsEdit e xs) = (optionsMarks xs).map (·.edit e)
  | [] => rfl
  | x :: xs => by simp [optionsEdit, optionsMarks, exprMarks?_edit e x, optionsMarks_edit e xs]
termination_by structural x => x

theorem keywordsMarks_edit (e : Edit) :
    ∀ ks : List Keyword, keywordsMarks (keywordsEdit e ks) = (keywordsMarks ks).map (·.edit e)
  | [] => rfl
  | k :: ks => by simp [keywordsEdit, keywordsMarks, k.marks_edit e, keywordsMarks_edit e ks]
termination_by structural x => x

theorem stmtsMarks_edit (e : Edit) : ∀ ss : List Stmt, stmtsMarks (stmtsEdit e ss) = (stmtsMarks ss).map (·.edit e)
  | [] => rfl
  | s :: ss => by simp [stmtsEdit, stmtsMarks, s.marks_edit e, stmtsMarks_edit e ss]
termination_by structural x => x

theorem suiteMarks?_edit (e : Edit) : ∀ s : Option Suite, suiteMarks? (suiteEdit? e s) = (suiteMarks? s).map (·.edit e)
  | none => rfl
  | some s => by simp [suiteEdit?, suiteMarks?, s.marks_edit e]
termination_by structural x => x

theorem decoratorsMarks_edit (e : Edit) :
    ∀ ds : List Decorator, decoratorsMarks (decoratorsEdit e ds) = (decoratorsMarks ds).map (·.edit e)
  | [] => rfl
  | d :: ds => by simp [decoratorsEdit, decoratorsMarks, d.marks_edit e, decoratorsMarks_edit e ds]
termination_by structural x => x

end

/-- **A walk over an edited module meets the edited marks.** -/
theorem Module.marks_edit (e : Edit) (m : Module) : (m.edit e).marks = m.marks.map (·.edit e) := stmtsMarks_edit e m.body

/-! ## An edit that changes no mark -/

/-- the edit leaves all of these as they are -/
def Edit.Keeps (e : Edit) (marks : List Mark) : Prop := ∀ mark ∈ marks, mark.edit e = mark

namespace Edit

variable {e : Edit}

theorem keeps_nil : e.Keeps [] := nofun

theorem keeps_cons {mark : Mark} {marks : List Mark} : e.Keeps (mark :: marks) ↔ mark.edit e = mark ∧ e.Keeps marks :=
  List.forall_mem_cons

theorem keeps_append {marks marks' : List Mark} : e.Keeps (marks ++ marks') ↔ e.Keeps marks ∧ e.Keeps marks' :=
  List.forall_mem_append

theorem keeps_tokens {t : Option NameToken} (h : e.Keeps (tokenMarks t)) : t.map (·.edit e) = t := by
  cases t with
  | none => rfl
  | some t => exact congrArg some (Mark.token.inj (h _ (.head _)))

end Edit

open Edit

variable {e : Edit}

mutual

theorem Expr.edit_eq_self : ∀ x : Expr, e.Keeps x.marks → x.edit e = x
  | .name .., h => by simpa [Expr.marks, keeps_cons, keeps_nil, Mark.edit, Expr.edit] using h
  | .num .., h => by simpa [Expr.marks, keeps_cons, keeps_nil, Mark.edit, Expr.edit] using h
  | .str _ _ _ segments, h => by
    simp only [Expr.marks, keeps_cons, Mark.edit, Mark.expr.injEq] at h
    rw [Expr.edit, h.1.1, stmtsEdit_eq_self segments h.2]
  | .tuple _ elts _ _, h => by
    simp only [Expr.marks, keeps_cons, Mark.edit, Mark.expr.injEq] at h
    rw [Expr.edit, h.1.1, exprsEdit_eq_self elts h.2]
  | .list _ elts _, h => by
    simp only [Expr.marks, keeps_cons, Mark.edit, Mark.expr.injEq] at h
    rw [Expr.edit, h.1.1, exprsEdit_eq_self elts h.2]
  | .set _ elts, h => by
    simp only [Expr.marks, keeps_cons, Mark.edit, Mark.expr.injEq] at h
    rw [Expr.edit, h.1.1, exprsEdit_eq_self elts h.2]
  | .dict _ keys values, h => by
    simp only [Expr.marks, keeps_cons, keeps_append, Mark.edit, Mark.expr.injEq] at h
    rw [Expr.edit, h.1.1, exprsEdit_eq_self keys h.2.1, exprsEdit_eq_self values h.2.2]
  | .call _ func args, h => by
    simp only [Expr.marks, keeps_cons, keeps_append, Mark.edit, Mark.expr.injEq] at h
    rw [Expr.edit, h.1.1, func.edit_eq_self h.2.1, args.edit_eq_self h.2.2]
  | .binOp _ left _ right, h => by
    simp only [Expr.marks, keeps_cons, keeps_append, Mark.edit, Mark.expr.injEq] at h
    rw [Expr.edit, h.1.1, left.edit_eq_self h.2.1, right.edit_eq_self h.2.2]
  | .boolOp _ _ values, h => by
    simp only [Expr.marks, keeps_cons, Mark.edit, Mark.expr.injEq] at h
    rw [Expr.edit, h.1.1, exprsEdit_eq_self values h.2]
  | .compare _ left _ comparators, h => by
    simp only [Expr.marks, keeps_cons, keeps_append, Mark.edit, Mark.expr.injEq] at h
    rw [Expr.edit, h.1.1, left.edit_eq_self h.2.1, exprsEdit_eq_self comparators h.2.2]
  | .ifExp _ test body orelse, h => by
    simp only [Expr.marks, keeps_cons, keeps_append, Mark.edit, Mark.expr.injEq] at h
    rw [Expr.edit, h.1.1, test.edit_eq_self h.2.1.1, body.edit_eq_self h.2.1.2, orelse.edit_eq_self h.2.2]
  | .await _ value, h => by
    simp only [Expr.marks, keeps_cons, Mark.edit, Mark.expr.injEq] at h
    rw [Expr.edit, h.1.1, value.edit_eq_self h.2]
  | .yield _ value, h => by
    simp only [Expr.marks, keeps_cons, Mark.edit, Mark.expr.injEq] at h
    rw [Expr.edit, h.1.1, exprEdit?_eq_self value h.2]
termination_by structural x => x

theorem CallArgs.edit_eq_self : ∀ a : CallArgs, e.Keeps a.marks → a.edit e = a
  | ⟨args, keywords, starargs, kwargs⟩, h => by
    simp only [CallArgs.marks, keeps_append] at h
    rw [CallArgs.edit, exprsEdit_eq_self args h.1.1.1, keywordsEdit_eq_self keywords h.1.1.2,
      exprEdit?_eq_self starargs h.1.2, exprEdit?_eq_self kwargs h.2]
termination_by structural x => x

theorem Keyword.edit_eq_self : ∀ k : Keyword, e.Keeps k.marks → k.edit e = k
  | ⟨_, value⟩, h => by
    simp only [Keyword.marks, keeps_cons, Mark.edit, Mark.token.injEq] at h
    rw [Keyword.edit, h.1, value.edit_eq_self h.2]
termination_by structural x => x

theorem Stmt.edit_eq_self : ∀ s : Stmt, e.Keeps s.marks → s.edit e = s
  | .assign _ targets value, h => by
    simp only [Stmt.marks, keeps_cons, keeps_append, Mark.edit, Mark.stmt.injEq] at h
    rw [Stmt.edit, h.1, exprsEdit_eq_self targets h.2.1, value.edit_eq_self h.2.2]
  | .augAssign _ target _ value, h => by
    simp only [Stmt.marks, keeps_cons, keeps_append, Mark.edit, Mark.stmt.injEq] at h
    rw [Stmt.edit, h.1, target.edit_eq_self h.2.1, value.edit_eq_self h.2.2]
  | .expr _ value, h => by
    simp only [Stmt.marks, keeps_cons, Mark.edit, Mark.stmt.injEq] at h
    rw [Stmt.edit, h.1, value.edit_eq_self h.2]
  | .pass _, h => by simpa [Stmt.marks, keeps_cons, keeps_nil, Mark.edit, Stmt.edit] using h
  | .ifElse _ test body orelse, h => by
    simp only [Stmt.marks, keeps_cons, keeps_append, Mark.edit, Mark.stmt.injEq] at h
    rw [Stmt.edit, h.1, test.edit_eq_self h.2.1.1, stmtsEdit_eq_self body h.2.1.2, suiteEdit?_eq_self orelse h.2.2]
  | .whileLoop _ test body orelse, h => by
    simp only [Stmt.marks, keeps_cons, keeps_append, Mark.edit, Mark.stmt.injEq] at h
    rw [Stmt.edit, h.1, test.edit_eq_self h.2.1.1, stmtsEdit_eq_self body h.2.1.2, suiteEdit?_eq_self orelse h.2.2]
  | .forLoop _ target iter body orelse _, h => by
    simp only [Stmt.marks, keeps_cons, keeps_append, Mark.edit, Mark.stmt.injEq] at h
    rw [Stmt.edit, h.1, target.edit_eq_self h.2.1.1.1, iter.edit_eq_self h.2.1.1.2, stmtsEdit_eq_self body h.2.1.2,
      suiteEdit?_eq_self orelse h.2.2]
  | .assertion _ test msg, h => by
    simp only [Stmt.marks, keeps_cons, keeps_append, Mark.edit, Mark.stmt.injEq] at h
    rw [Stmt.edit, h.1, test.edit_eq_self h.2.1, exprEdit?_eq_self msg h.2.2]
  | .ret _ value, h => by
    simp only [Stmt.marks, keeps_cons, Mark.edit, Mark.stmt.injEq] at h
    rw [Stmt.edit, h.1, exprEdit?_eq_self value h.2]
  | .functionDef _ _ params body decorators _, h => by
    simp only [Stmt.marks, keeps_cons, keeps_append, Mark.edit, Mark.stmt.injEq, Mark.token.injEq] at h
    rw [Stmt.edit, h.1, decoratorsEdit_eq_self decorators h.2.1, h.2.2.1, params.edit_eq_self h.2.2.2.1,
      stmtsEdit_eq_self body h.2.2.2.2]
  | .classDef _ _ bases body decorators, h => by
    simp only [Stmt.marks, keeps_cons, keeps_append, Mark.edit, Mark.stmt.injEq, Mark.token.injEq] at h
    rw [Stmt.edit, h.1, decoratorsEdit_eq_self decorators h.2.1, h.2.2.1, exprsEdit_eq_self bases h.2.2.2.1,
      stmtsEdit_eq_self body h.2.2.2.2]
termination_by structural x => x

theorem Suite.edit_eq_self : ∀ s : Suite, e.Keeps s.marks → s.edit e = s
  | ⟨body, _⟩, h => by
    simp only [Suite.marks, keeps_cons, Mark.edit, Mark.suite.injEq] at h
    rw [Suite.edit, h.1, stmtsEdit_eq_self body h.2]
termination_by structural x => x

theorem Decorator.edit_eq_self : ∀ d : Decorator, e.Keeps d.marks → d.edit e = d
  | ⟨func, args, _, _⟩, h => by
    simp only [Decorator.marks, keeps_cons, keeps_append, Mark.edit, Mark.decorator.injEq] at h
    rw [Decorator.edit, h.1, func.edit_eq_self h.2.1, args.edit_eq_self h.2.2]
termination_by structural x => x

theorem Parameters.edit_eq_self : ∀ p : Parameters, e.Keeps p.marks → p.edit e = p
  | ⟨args, defaults, annotations, vararg, kwarg, kwonlyargs, kwDefaults, kwonlyAnnotations⟩, h => by
    simp only [Parameters.marks, keeps_append] at h
    obtain ⟨⟨⟨⟨⟨⟨⟨hargs, hdefaults⟩, hannotations⟩, hvararg⟩, hkwarg⟩, hkwonly⟩, hkwDefaults⟩, hkwAnnotations⟩ :=
      h
    rw [Parameters.edit, exprsEdit_eq_self args hargs, optionsEdit_eq_self defaults hdefaults,
      optionsEdit_eq_self annotations hannotations, keeps_tokens hvararg, keeps_tokens hkwarg,
      exprsEdit_eq_self kwonlyargs hkwonly, optionsEdit_eq_self kwDefaults hkwDefaults,
      optionsEdit_eq_self kwonlyAnnotations hkwAnnotations]
termination_by structural x => x

theorem exprsEdit_eq_self : ∀ xs : List Expr, e.Keeps (exprsMarks xs) → exprsEdit e xs = xs
  | [], _ => rfl
  | x :: xs, h => by
    obtain ⟨hx, hxs⟩ := keeps_append.1 h
    rw [exprsEdit, x.edit_eq_self hx, exprsEdit_eq_self xs hxs]
termination_by structural x => x

theorem exprEdit?_eq_self : ∀ x : Option Expr, e.Keeps (exprMarks? x) → exprEdit? e x = x
  | none, _ => rfl
  | some x, h => by rw [exprEdit?, x.edit_eq_self h]
termination_by structural x => x

theorem optionsEdit_eq_self : ∀ xs : List (Option Expr), e.Keeps (optionsMarks xs) → optionsEdit e xs = xs
  | [], _ => rfl
  | x :: xs, h => by
    obtain ⟨hx, hxs⟩ := keeps_append.1 h
    rw [optionsEdit, exprEdit?_eq_self x hx, optionsEdit_eq_self xs hxs]
termination_by structural x => x

theorem keywordsEdit_eq_self : ∀ ks : List Keyword, e.Keeps (keywordsMarks ks) → keywordsEdit e ks = ks
  | [], _ => rfl
  | k :: ks, h => by
    obtain ⟨hk, hks⟩ := keeps_append.1 h
    rw [keywordsEdit, k.edit_eq_self hk, keywordsEdit_eq_self ks hks]
termination_by structural x => x

theorem stmtsEdit_eq_self : ∀ ss : List Stmt, e.Keeps (stmtsMarks ss) → stmtsEdit e ss = ss
  | [], _ => rfl
  | s :: ss, h => by
    obtain ⟨hs, hss⟩ := keeps_append.1 h
    rw [stmtsEdit, s.edit_eq_self hs, stmtsEdit_eq_self ss hss]
termination_by structural x => x

theorem suiteEdit?_eq_self : ∀ s : Option Suite, e.Keeps (suiteMarks? s) → suiteEdit? e s = s
  | none, _ => rfl
  | some s, h => by rw [suiteEdit?, s.edit_eq_self h]
termination_by structural x => x

theorem decoratorsEdit_eq_self : ∀ ds : List Decorator, e.Keeps (decoratorsMarks ds) → decoratorsEdit e ds = ds
  | [], _ => rfl
  | d :: ds, h => by
    obtain ⟨hd, hds⟩ := keeps_append.1 h
    rw [decoratorsEdit, d.edit_eq_self hd, decoratorsEdit_eq_self ds hds]
termination_by structural x => x

end

/-- **An edit that leaves every mark as it is changes nothing.** -/
theorem Module.edit_eq_self {m : Module} (h : e.Keeps m.marks) : m.edit e = m :=
  congrArg Module.mk (stmtsEdit_eq_self m.body h)

end Graft
