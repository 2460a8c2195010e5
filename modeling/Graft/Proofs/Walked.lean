/-
A walk meets exactly what stands in the tree.

`Expr.marks` and its companions list what a walk over a tree meets, each by recursion over its own sort of node. `parts`
and `Has` describe the same tree one step at a time. `Subtree.mem_marks_iff` says that they agree: what a walk meets is
met at some node that stands in the tree (`own`), and at every such node. So a statement about every node that stands in a
module is one about everything that a walk over it meets.

One step of the walk meets what its description says, in another order (`count_marks`); the rest is induction on how much
there is to meet (`weight`).
-/
import Graft.Proofs.Subtree
import Graft.Tree.Walk

namespace Graft

theorem exprsMarks_eq (es : List Expr) : exprsMarks es = es.flatMap Expr.marks := by
  induction es with
  | nil => rfl
  | cons e es ih => rw [exprsMarks, ih, List.flatMap_cons]

theorem exprMarks?_eq (o : Option Expr) : exprMarks? o = o.toList.flatMap Expr.marks := by
  cases o <;> simp [exprMarks?]

theorem optionsMarks_eq (os : List (Option Expr)) : optionsMarks os = (os.filterMap id).flatMap Expr.marks := by
  induction os with
  | nil => rfl
  | cons o os ih =>
    cases o <;> simp [optionsMarks, exprMarks?, ih]

theorem keywordsMarks_eq (ks : List Keyword) : keywordsMarks ks = ks.flatMap Keyword.marks := by
  induction ks with
  | nil => rfl
  | cons k ks ih => rw [keywordsMarks, ih, List.flatMap_cons]

theorem stmtsMarks_eq (ss : List Stmt) : stmtsMarks ss = ss.flatMap Stmt.marks := by
  induction ss with
  | nil => rfl
  | cons s ss ih => rw [stmtsMarks, ih, List.flatMap_cons]

theorem decoratorsMarks_eq (ds : List Decorator) : decoratorsMarks ds = ds.flatMap Decorator.marks := by
  induction ds with
  | nil => rfl
  | cons d ds ih => rw [decoratorsMarks, ih, List.flatMap_cons]

namespace Subtree

/-- what a walk meets -/
def marks : Subtree → List Mark
  | expr e => e.marks
  | stmt s => s.marks
  | keyword k => k.marks
  | decorator d => d.marks
  | parameters p => p.marks

/-- what a walk meets in some places, one after the other -/
def passed (ps : List (Binding × Subtree)) : List Mark := ps.flatMap fun p => p.2.marks

def suiteMark (suite : Option Suite) : List Mark := suite.toList.map fun s => .suite s.pos

/-- what a walk meets at a node itself, and not in its parts -/
def own : Subtree → List Mark
  | expr e => [.expr e.pos e.id?]
  | stmt (.ifElse pos _ _ orelse) => .stmt pos :: suiteMark orelse
  | stmt (.whileLoop pos _ _ orelse) => .stmt pos :: suiteMark orelse
  | stmt (.forLoop pos _ _ _ orelse _) => .stmt pos :: suiteMark orelse
  | stmt (.functionDef pos token _ _ _ _) => [.stmt pos, .token token]
  | stmt (.classDef pos token _ _ _) => [.stmt pos, .token token]
  | stmt s => [.stmt s.pos]
  | keyword k => [.token k.arg]
  | decorator d => [.decorator d.pos]
  | parameters p => tokenMarks p.vararg ++ tokenMarks p.kwarg

theorem passed_nil : passed [] = [] := rfl

theorem passed_cons (p : Binding × Subtree) (ps : List (Binding × Subtree)) : passed (p :: ps) = p.2.marks ++ passed ps :=
  List.flatMap_cons

theorem passed_append (ps qs : List (Binding × Subtree)) : passed (ps ++ qs) = passed ps ++ passed qs :=
  List.flatMap_append

theorem passed_exprs (b : Binding) (es : List Expr) : passed (exprs b es) = es.flatMap Expr.marks := by
  rw [passed, exprs, List.flatMap_map]
  rfl

theorem passed_stmts (ss : List Stmt) : passed (stmts ss) = ss.flatMap Stmt.marks := by
  rw [passed, stmts, List.flatMap_map]
  rfl

theorem passed_decorators (ds : List Decorator) : passed (decorators ds) = ds.flatMap Decorator.marks := by
  rw [passed, decorators, List.flatMap_map]
  rfl

theorem count_arguments (mark : Mark) (a : CallArgs) : a.marks.count mark = (passed (arguments a)).count mark := by
  obtain ⟨args, keywords, starargs, kwargs⟩ := a
  have hkeywords : passed (keywords.map fun k => (.load, keyword k)) = keywords.flatMap Keyword.marks := by
    rw [passed, List.flatMap_map]
    rfl
  rw [arguments, passed_append, passed_exprs, hkeywords, CallArgs.marks, exprsMarks_eq, exprMarks?_eq, exprMarks?_eq,
    keywordsMarks_eq]
  simp only [List.flatMap_append, List.count_append]
  omega

theorem count_block (mark : Mark) (suite : Option Suite) :
    (suiteMarks? suite).count mark = (suiteMark suite).count mark + (passed (block suite)).count mark := by
  cases suite with
  | none => rfl
  | some s =>
    obtain ⟨body, pos⟩ := s
    rw [suiteMarks?, Suite.marks, stmtsMarks_eq, block, Option.elim_some, passed_stmts]
    simp only [suiteMark, Option.toList_some, List.map_cons, List.map_nil, List.count_cons, List.count_nil]
    omega

/-- What a walk meets in a node is what it meets at the node itself and in its parts, in another order. -/
theorem count_marks (mark : Mark) (b : Binding) (t : Subtree) :
    t.marks.count mark = (own t).count mark + (passed (parts b t)).count mark := by
  rcases t with e | s | ⟨arg, value⟩ | ⟨func, args, isCall, pos⟩ | p
  · cases e <;>
      simp only [marks, own, parts, Expr.marks, Expr.pos, Expr.id?, passed_append, passed_exprs, passed_stmts,
        passed_nil, count_arguments, exprsMarks_eq, stmtsMarks_eq, exprMarks?_eq, List.flatMap_cons, List.flatMap_nil,
        List.flatMap_append, List.count_cons, List.count_append, List.count_nil] <;>
      omega
  · cases s <;>
      simp only [marks, own, parts, Stmt.marks, Stmt.pos, passed_cons, passed_append, passed_exprs, passed_stmts,
        passed_decorators, passed_nil, count_block, exprsMarks_eq, stmtsMarks_eq, exprMarks?_eq, decoratorsMarks_eq,
        List.cons_append, List.flatMap_cons, List.flatMap_nil, List.count_cons, List.count_append, List.count_nil] <;>
      omega
  · simp only [marks, own, parts, Keyword.marks, passed_exprs, List.flatMap_cons, List.flatMap_nil, List.count_cons,
      List.count_append, List.count_nil]
    omega
  · simp only [marks, own, parts, Decorator.marks, passed_append, passed_exprs, count_arguments, List.flatMap_cons,
      List.flatMap_nil, List.count_cons, List.count_append, List.count_nil]
    omega
  · obtain ⟨args, defaults, annotations, vararg, kwarg, kwonlyargs, kwDefaults, kwonlyAnnotations⟩ := p
    simp only [marks, own, parts, Parameters.marks, passed_append, passed_exprs, exprsMarks_eq, optionsMarks_eq,
      List.filterMap_append, List.flatMap_append, List.count_append]
    omega

theorem perm_marks (b : Binding) (t : Subtree) : t.marks.Perm (own t ++ passed (parts b t)) := by
  rw [List.perm_iff_count]
  intro mark
  rw [count_marks mark b, List.count_append]

theorem own_ne_nil (t : Subtree) (h : ∀ p, t ≠ parameters p) : own t ≠ [] := by
  rcases t with e | s | k | d | p
  · exact List.cons_ne_nil _ _
  · cases s <;> exact List.cons_ne_nil _ _
  · exact List.cons_ne_nil _ _
  · exact List.cons_ne_nil _ _
  · exact absurd rfl (h p)

/-- how much a walk meets, made to go down from a node to its parts -/
def weight : Subtree → Nat
  | parameters p => 2 * p.marks.length + 1
  | t => 2 * t.marks.length

/-- Something is met at every node itself but for the parameters of a function, the parts of which are expressions. -/
theorem weight_part {b : Binding} {t : Subtree} {p : Binding × Subtree} (hp : p ∈ parts b t) : weight p.2 < weight t := by
  have hsub : p.2.marks.Sublist (passed (parts b t)) := List.sublist_flatten_of_mem (List.mem_map.2 ⟨p, hp, rfl⟩)
  have hlength : (own t).length + p.2.marks.length ≤ t.marks.length := by
    have hperm := (perm_marks b t).length_eq
    have hle := hsub.length_le
    rw [List.length_append] at hperm
    omega
  have hpart : weight p.2 ≤ 2 * p.2.marks.length + 1 := by
    rcases hp' : p.2 with e | s | k | d | q <;> simp [weight, marks]
  by_cases hparams : ∃ q, t = parameters q
  · obtain ⟨q, rfl⟩ := hparams
    have hexpr : ∃ e, p.2 = expr e := by
      simp only [parts, List.mem_append] at hp
      rcases hp with (hp | hp) | hp
      all_goals
        obtain ⟨e, -, rfl⟩ := List.mem_map.1 hp
        exact ⟨e, rfl⟩
    obtain ⟨e, he⟩ := hexpr
    rw [he] at hlength ⊢
    simp only [weight, marks] at hlength ⊢
    omega
  · have hpos : 0 < (own t).length := List.length_pos_iff.2 (own_ne_nil t fun q hq => hparams ⟨q, hq⟩)
    have ht : weight t = 2 * t.marks.length := by
      rcases t with e | s | k | d | q
      · rfl
      · rfl
      · rfl
      · rfl
      · exact absurd ⟨q, rfl⟩ hparams
    omega

/-- **A walk meets exactly what stands in the tree.** -/
theorem mem_marks_iff {mark : Mark} {b : Binding} {t : Subtree} :
    mark ∈ t.marks ↔ ∃ b' u, Has b t b' u ∧ mark ∈ own u := by
  constructor
  · induction hweight : weight t using Nat.strongRecOn generalizing b t with
    | ind bound ih =>
      intro hmark
      rcases List.mem_append.1 ((perm_marks b t).mem_iff.1 hmark) with hown | hpassed
      · exact ⟨b, t, .self b t, hown⟩
      · obtain ⟨p, hp, hmark⟩ := List.mem_flatMap.1 hpassed
        obtain ⟨b', u, hu, hown⟩ := ih _ (hweight ▸ weight_part hp) rfl hmark
        exact ⟨b', u, .part hp hu, hown⟩
  · rintro ⟨b', u, hu, hown⟩
    induction hu with
    | self b t => exact (perm_marks b t).mem_iff.2 (List.mem_append_left _ hown)
    | @part b b₁ b' t t₁ u hp hu ih =>
      exact (perm_marks b t).mem_iff.2 (List.mem_append_right _ (List.mem_flatMap.2 ⟨_, hp, ih hown⟩))

end Subtree

theorem Module.mem_marks_iff {m : Module} {mark : Mark} :
    mark ∈ m.marks ↔ ∃ b u, m.Has b u ∧ mark ∈ Subtree.own u := by
  rw [Module.marks, stmtsMarks_eq, List.mem_flatMap]
  constructor
  · rintro ⟨s, hs, hmark⟩
    obtain ⟨b, u, hu, hown⟩ := Subtree.mem_marks_iff (t := .stmt s) (b := .load).1 hmark
    exact ⟨b, u, ⟨s, hs, hu⟩, hown⟩
  · rintro ⟨b, u, ⟨s, hs, hu⟩, hown⟩
    exact ⟨s, hs, Subtree.mem_marks_iff.2 ⟨b, u, hu, hown⟩⟩

end Graft
