/-
Comparing trees directly and comparing them normalized.

`Module.structurallyEqual` resets the positions that do not count in both modules and asks whether the results are the
same. `Module.agrees` compares the modules as they stand, going down both at once and passing over the positions that do
not count. `Module.structurallyEqual_spec` says that the two are one: they answer alike, and what they answer is whether
the normalized modules are the same. It says too what normalizing does: the result agrees with the module in all that
counts, every position that does not count is reset in it, no other module is such, and there is nothing left to reset.

The eraser resets what the policy ignores, so two positions are as good as equal exactly when the eraser makes them equal
(`samePos_iff`); that two nodes agree exactly when the eraser makes them equal follows by induction, one case for each
constructor (`stmtsAgree_iff`).
-/
import Graft.Proofs.Edited
import Graft.Tree.Compare

namespace Graft

/-! ## Agreeing is being erased to the same -/

namespace Policy

theorem samePos_iff {policy : Policy} {part : Part} {p q : Position} :
    policy.samePos part p q = true ↔ policy.eraser.pos part p = policy.eraser.pos part q := by
  cases h : policy.ignores part <;> simp [samePos, eraser, h]

theorem eraser_name (policy : Policy) (id : String) : policy.eraser.name id = id := rfl

end Policy

open Policy (samePos_iff eraser_name)

theorem NameToken.agrees_iff {policy : Policy} {t u : NameToken} :
    t.agrees policy u = true ↔ t.edit policy.eraser = u.edit policy.eraser := by
  cases t
  cases u
  simp [agrees, edit, samePos_iff, eraser_name, and_assoc]

theorem tokensAgree?_iff {policy : Policy} {t u : Option NameToken} :
    tokensAgree? policy t u = true ↔ t.map (·.edit policy.eraser) = u.map (·.edit policy.eraser) := by
  cases t <;> cases u <;> simp [tokensAgree?, NameToken.agrees_iff]

mutual

theorem Expr.agrees_iff (policy : Policy) : ∀ x y : Expr,
    x.agrees policy y = true ↔ x.edit policy.eraser = y.edit policy.eraser
  | .name .., y => by
    cases y <;> simp [Expr.agrees, Expr.edit, samePos_iff, eraser_name, and_assoc]
  | .num .., y => by cases y <;> simp [Expr.agrees, Expr.edit, samePos_iff]
  | .str _ _ _ ss, y => by
    cases y <;> simp [Expr.agrees, Expr.edit, samePos_iff, stmtsAgree_iff policy ss, and_assoc]
  | .tuple _ es _ _, y => by
    cases y <;> simp [Expr.agrees, Expr.edit, samePos_iff, exprsAgree_iff policy es, and_assoc]
  | .list _ es _, y => by
    cases y <;> simp [Expr.agrees, Expr.edit, samePos_iff, exprsAgree_iff policy es, and_assoc]
  | .set _ es, y => by cases y <;> simp [Expr.agrees, Expr.edit, samePos_iff, exprsAgree_iff policy es]
  | .dict _ ks vs, y => by
    cases y <;>
      simp [Expr.agrees, Expr.edit, samePos_iff, exprsAgree_iff policy ks, exprsAgree_iff policy vs, and_assoc]
  | .call _ f a, y => by
    cases y <;> simp [Expr.agrees, Expr.edit, samePos_iff, f.agrees_iff policy, a.agrees_iff policy, and_assoc]
  | .binOp _ l _ r, y => by
    cases y <;> simp [Expr.agrees, Expr.edit, samePos_iff, l.agrees_iff policy, r.agrees_iff policy, and_assoc]
  | .boolOp _ _ vs, y => by
    cases y <;> simp [Expr.agrees, Expr.edit, samePos_iff, exprsAgree_iff policy vs, and_assoc]
  | .compare _ l _ cs, y => by
    cases y <;>
      simp [Expr.agrees, Expr.edit, samePos_iff, l.agrees_iff policy, exprsAgree_iff policy cs, and_assoc]
  | .ifExp _ t b o, y => by
    cases y <;> simp [Expr.agrees, Expr.edit, samePos_iff, t.agrees_iff policy, b.agrees_iff policy,
      o.agrees_iff policy, and_assoc]
  | .await _ v, y => by cases y <;> simp [Expr.agrees, Expr.edit, samePos_iff, v.agrees_iff policy]
  | .yield _ v, y => by cases y <;> simp [Expr.agrees, Expr.edit, samePos_iff, exprAgrees?_iff policy v]
termination_by structural x => x

theorem CallArgs.agrees_iff (policy : Policy) : ∀ x y : CallArgs,
    x.agrees policy y = true ↔ x.edit policy.eraser = y.edit policy.eraser
  | ⟨as, ks, s, k⟩, ⟨_, _, _, _⟩ => by
    simp [CallArgs.agrees, CallArgs.edit, exprsAgree_iff policy as, keywordsAgree_iff policy ks,
      exprAgrees?_iff policy s, exprAgrees?_iff policy k, and_assoc]
termination_by structural x => x

theorem Keyword.agrees_iff (policy : Policy) : ∀ x y : Keyword,
    x.agrees policy y = true ↔ x.edit policy.eraser = y.edit policy.eraser
  | ⟨_, v⟩, ⟨_, _⟩ => by simp [Keyword.agrees, Keyword.edit, NameToken.agrees_iff, v.agrees_iff policy]
termination_by structural x => x

theorem Stmt.agrees_iff (policy : Policy) : ∀ x y : Stmt,
    x.agrees policy y = true ↔ x.edit policy.eraser = y.edit policy.eraser
  | .assign _ ts v, y => by
    cases y <;>
      simp [Stmt.agrees, Stmt.edit, samePos_iff, exprsAgree_iff policy ts, v.agrees_iff policy, and_assoc]
  | .augAssign _ t _ v, y => by
    cases y <;> simp [Stmt.agrees, Stmt.edit, samePos_iff, t.agrees_iff policy, v.agrees_iff policy, and_assoc]
  | .expr _ v, y => by cases y <;> simp [Stmt.agrees, Stmt.edit, samePos_iff, v.agrees_iff policy]
  | .pass _, y => by cases y <;> simp [Stmt.agrees, Stmt.edit, samePos_iff]
  | .ifElse _ t b o, y => by
    cases y <;> simp [Stmt.agrees, Stmt.edit, samePos_iff, t.agrees_iff policy, stmtsAgree_iff policy b,
      suiteAgrees?_iff policy o, and_assoc]
  | .whileLoop _ t b o, y => by
    cases y <;> simp [Stmt.agrees, Stmt.edit, samePos_iff, t.agrees_iff policy, stmtsAgree_iff policy b,
      suiteAgrees?_iff policy o, and_assoc]
  | .forLoop _ t i b o _, y => by
    cases y <;> simp [Stmt.agrees, Stmt.edit, samePos_iff, t.agrees_iff policy, i.agrees_iff policy,
      stmtsAgree_iff policy b, suiteAgrees?_iff policy o, and_assoc]
  | .assertion _ t m, y => by
    cases y <;>
      simp [Stmt.agrees, Stmt.edit, samePos_iff, t.agrees_iff policy, exprAgrees?_iff policy m, and_assoc]
  | .ret _ v, y => by cases y <;> simp [Stmt.agrees, Stmt.edit, samePos_iff, exprAgrees?_iff policy v]
  | .functionDef _ _ ps b ds _, y => by
    cases y <;> simp [Stmt.agrees, Stmt.edit, samePos_iff, NameToken.agrees_iff, ps.agrees_iff policy,
      stmtsAgree_iff policy b, decoratorsAgree_iff policy ds, and_assoc]
  | .classDef _ _ bs b ds, y => by
    cases y <;> simp [Stmt.agrees, Stmt.edit, samePos_iff, NameToken.agrees_iff, exprsAgree_iff policy bs,
      stmtsAgree_iff policy b, decoratorsAgree_iff policy ds, and_assoc]
termination_by structural x => x

theorem Suite.agrees_iff (policy : Policy) : ∀ x y : Suite,
    x.agrees policy y = true ↔ x.edit policy.eraser = y.edit policy.eraser
  | ⟨b, _⟩, ⟨_, _⟩ => by simp [Suite.agrees, Suite.edit, samePos_iff, stmtsAgree_iff policy b]
termination_by structural x => x

theorem Decorator.agrees_iff (policy : Policy) : ∀ x y : Decorator,
    x.agrees policy y = true ↔ x.edit policy.eraser = y.edit policy.eraser
  | ⟨f, a, _, _⟩, ⟨_, _, _, _⟩ => by
    simp [Decorator.agrees, Decorator.edit, samePos_iff, f.agrees_iff policy, a.agrees_iff policy, and_assoc]
termination_by structural x => x

theorem Parameters.agrees_iff (policy : Policy) : ∀ x y : Parameters,
    x.agrees policy y = true ↔ x.edit policy.eraser = y.edit policy.eraser
  | ⟨a, d, n, _, _, ka, kd, kn⟩, ⟨_, _, _, _, _, _, _, _⟩ => by
    simp [Parameters.agrees, Parameters.edit, tokensAgree?_iff, exprsAgree_iff policy a, optionsAgree_iff policy d,
      optionsAgree_iff policy n, exprsAgree_iff policy ka, optionsAgree_iff policy kd, optionsAgree_iff policy kn,
      and_assoc]
termination_by structural x => x

theorem exprsAgree_iff (policy : Policy) : ∀ xs ys : List Expr,
    exprsAgree policy xs ys = true ↔ exprsEdit policy.eraser xs = exprsEdit policy.eraser ys
  | [], ys => by cases ys <;> simp [exprsAgree, exprsEdit]
  | x :: xs, ys => by
    cases ys <;> simp [exprsAgree, exprsEdit, x.agrees_iff policy, exprsAgree_iff policy xs]
termination_by structural x => x

theorem exprAgrees?_iff (policy : Policy) : ∀ x y : Option Expr,
    exprAgrees? policy x y = true ↔ exprEdit? policy.eraser x = exprEdit? policy.eraser y
  | none, y => by cases y <;> simp [exprAgrees?, exprEdit?]
  | some x, y => by cases y <;> simp [exprAgrees?, exprEdit?, x.agrees_iff policy]
termination_by structural x => x

theorem optionsAgree_iff (policy : Policy) : ∀ xs ys : List (Option Expr),
    optionsAgree policy xs ys = true ↔ optionsEdit policy.eraser xs = optionsEdit policy.eraser ys
  | [], ys => by cases ys <;> simp [optionsAgree, optionsEdit]
  | x :: xs, ys => by
    cases ys <;> simp [optionsAgree, optionsEdit, exprAgrees?_iff policy x, optionsAgree_iff policy xs]
termination_by structural x => x

theorem keywordsAgree_iff (policy : Policy) : ∀ xs ys : List Keyword,
    keywordsAgree policy xs ys = true ↔ keywordsEdit policy.eraser xs = keywordsEdit policy.eraser ys
  | [], ys => by cases ys <;> simp [keywordsAgree, keywordsEdit]
  | x :: xs, ys => by
    cases ys <;> simp [keywordsAgree, keywordsEdit, x.agrees_iff policy, keywordsAgree_iff policy xs]
termination_by structural x => x

theorem stmtsAgree_iff (policy : Policy) : ∀ xs ys : List Stmt,
    stmtsAgree policy xs ys = true ↔ stmtsEdit policy.eraser xs = stmtsEdit policy.eraser ys
  | [], ys => by cases ys <;> simp [stmtsAgree, stmtsEdit]
  | x :: xs, ys => by
    cases ys <;> simp [stmtsAgree, stmtsEdit, x.agrees_iff policy, stmtsAgree_iff policy xs]
termination_by structural x => x

theorem suiteAgrees?_iff (policy : Policy) : ∀ x y : Option Suite,
    suiteAgrees? policy x y = true ↔ suiteEdit? policy.eraser x = suiteEdit? policy.eraser y
  | none, y => by cases y <;> simp [suiteAgrees?, suiteEdit?]
  | some x, y => by cases y <;> simp [suiteAgrees?, suiteEdit?, x.agrees_iff policy]
termination_by structural x => x

theorem decoratorsAgree_iff (policy : Policy) : ∀ xs ys : List Decorator,
    decoratorsAgree policy xs ys = true ↔ decoratorsEdit policy.eraser xs = decoratorsEdit policy.eraser ys
  | [], ys => by cases ys <;> simp [decoratorsAgree, decoratorsEdit]
  | x :: xs, ys => by
    cases ys <;> simp [decoratorsAgree, decoratorsEdit, x.agrees_iff policy, decoratorsAgree_iff policy xs]
termination_by structural x => x

end

/-! ## What the eraser keeps -/

namespace Policy

theorem eraser_pos_eq_self {policy : Policy} {part : Part} {p : Position} :
    policy.eraser.pos part p = p ↔ (policy.ignores part = true → p = .unknown) := by
  cases h : policy.ignores part with
  | false => simp [eraser, h]
  | true => simpa [eraser, h] using eq_comm

end Policy

theorem Mark.edit_nothing (mark : Mark) : mark.edit .nothing = mark := by
  cases mark with
  | expr pos id => cases id <;> rfl
  | _ => rfl

theorem Mark.edit_eraser_eq_self {policy : Policy} {mark : Mark} :
    mark.edit policy.eraser = mark ↔ (policy.ignores mark.part = true → mark.pos = .unknown) := by
  cases mark with
  | expr pos id => cases id <;> simp [Mark.edit, Mark.part, Mark.pos, eraser_name, Policy.eraser_pos_eq_self]
  | token t => cases t; simp [Mark.edit, Mark.part, Mark.pos, NameToken.edit, eraser_name, Policy.eraser_pos_eq_self]
  | _ => simp [Mark.edit, Mark.part, Mark.pos, Policy.eraser_pos_eq_self]

theorem Mark.edit_eraser_pos {policy : Policy} (mark : Mark) (h : policy.ignores mark.part = true) :
    (mark.edit policy.eraser).pos = .unknown := by
  cases mark <;> simp_all [Mark.edit, Mark.part, Mark.pos, NameToken.edit, Policy.eraser]

theorem Mark.part_edit (e : Edit) (mark : Mark) : (mark.edit e).part = mark.part := by
  cases mark <;> rfl

namespace Module

/-- whether every position that does not count has been reset -/
def Erased (policy : Policy) (m : Module) : Prop :=
  ∀ mark ∈ m.marks, policy.ignores mark.part = true → mark.pos = .unknown

theorem agrees_iff {policy : Policy} {m n : Module} :
    agrees policy m n = true ↔ m.normalized policy = n.normalized policy :=
  (stmtsAgree_iff policy m.body n.body).trans ⟨congrArg mk, congrArg body⟩

theorem agrees_exact_iff {m n : Module} : agrees .exact m n = true ↔ m = n := by
  have hself (k : Module) : k.normalized .exact = k := edit_eq_self fun mark _ => mark.edit_nothing
  rw [agrees_iff, hself, hself]

theorem erased_normalized (policy : Policy) (m : Module) : (m.normalized policy).Erased policy := by
  intro mark hmark hignored
  rw [normalized, marks_edit] at hmark
  obtain ⟨mark, -, rfl⟩ := List.mem_map.1 hmark
  rw [Mark.part_edit] at hignored
  exact mark.edit_eraser_pos hignored

theorem normalized_eq_self {policy : Policy} {m : Module} (h : m.Erased policy) : m.normalized policy = m :=
  edit_eq_self fun mark hmark => Mark.edit_eraser_eq_self.2 (h mark hmark)

/-- A module is what another normalizes to exactly when it agrees with it and has nothing left to reset. -/
theorem eq_normalized_iff {policy : Policy} {m n : Module} :
    n = m.normalized policy ↔ agrees policy m n = true ∧ n.Erased policy := by
  rw [agrees_iff]
  constructor
  · rintro rfl
    have herased := erased_normalized policy m
    exact ⟨(normalized_eq_self herased).symm, herased⟩
  · rintro ⟨hagree, herased⟩
    rw [hagree, normalized_eq_self herased]

theorem structurallyEqual_iff {policy : Policy} {m n : Module} :
    m.structurallyEqual n policy = true ↔ m.normalized policy = n.normalized policy := agrees_exact_iff

/-- **Structural equality is the comparison that its policy names.** It answers as the direct comparison of the two
modules does, which is whether they are the same once normalized. Normalizing a module gives the one module that agrees
with it and in which every position that does not count is reset; normalizing twice is normalizing once. -/
theorem structurallyEqual_spec (policy : Policy) :
    (∀ l r : Module, l.structurallyEqual r policy = agrees policy l r) ∧
    (∀ l r : Module, l.structurallyEqual r policy = true ↔ l.normalized policy = r.normalized policy) ∧
    (∀ m n : Module, n = m.normalized policy ↔
      agrees policy m n = true ∧ ∀ mark ∈ n.marks, policy.ignores mark.part = true → mark.pos = .unknown) ∧
    ∀ m : Module, (m.normalized policy).normalized policy = m.normalized policy := by
  refine ⟨fun l r => ?_, fun l r => structurallyEqual_iff, fun m n => eq_normalized_iff, fun m => ?_⟩
  · rw [Bool.eq_iff_iff, structurallyEqual_iff, agrees_iff]
  · exact normalized_eq_self (erased_normalized policy m)

end Module

end Graft
