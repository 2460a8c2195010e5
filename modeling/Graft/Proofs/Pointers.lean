/-
Pointers around declarators.

A declarator may stand behind any number of pointer declarators, each of which holds the next one as its `base`, among
fields of its own (`Wraps`). The tree does not show them. `Pointed` is what a field may hold for this: a declarator with
pointers around it for a declarator, or a list of declarators with pointers around one of them.

`convertModule_pointed`: two documents that differ in the pointers around their declarators, at any places, have the
same module or the same fault in either mode, and the same notes, up to the text of a node that was dropped, which is
written with its pointers.
-/
import Graft.Proofs.Replaced

namespace Graft.Convert

open Graft.Document Attempt

/-- the second declarator is the first one behind pointers, which may be none -/
inductive Wraps (d : Node) : Node → Prop where
  | refl : Wraps d d
  /-- one more pointer around it, whatever else that one holds -/
  | pointer {w pointer : Node} : Wraps d w → pointer.isTagged "CPtrDeclarator" = true → pointer.node? "base" = some w →
      Wraps d pointer

/-- what a field that holds a declarator, or a list of declarators, holds with pointers around one -/
inductive Pointed : String → Value → Value → Prop where
  | declarator {name : String} {d w : Node} : name ∈ declaratorFields → Wraps d w → Pointed name (.object d) (.object w)
  | entry {before after : List Value} {d w : Node} : Wraps d w →
      Pointed "declarators" (.array (before ++ .object d :: after)) (.array (before ++ .object w :: after))

/-- Every declarator declares what the one behind its pointers does. -/
theorem Wraps.stripped {d w : Node} (h : Wraps d w) : stripped w = stripped d := by
  induction h with
  | refl => rfl
  | pointer _ htag hbase ih => exact (stripped_pointer htag hbase).trans ih

theorem Wraps.sameDeclarator {d w : Node} (h : Wraps d w) : SameDeclarator Eq (.object d) (.object w) where
  isAbsent := rfl
  kindName _ := rfl
  asNode := .some (congrArg Value.object h.stripped.symm)

/-- A field that holds a declarator is read for nothing else. -/
theorem declaratorFields_unshared : ∀ name ∈ "declarators" :: declaratorFields,
    name ∉ shownFields ∧ name ∉ numberFields := by decide

/-- No construction sees pointers around a declarator. -/
theorem unseen_pointed : Unseen Pointed where
  shown h := by
    cases h with
    | declarator hname => exact (declaratorFields_unshared _ (List.mem_cons_of_mem _ hname)).1
    | entry => exact (declaratorFields_unshared _ List.mem_cons_self).1
  number h hnumber := by
    cases h with
    | declarator hname => exact absurd hnumber (declaratorFields_unshared _ (List.mem_cons_of_mem _ hname)).2
    | entry => rfl
  declarator h _ := by
    cases h with
    | declarator _ hwraps => exact .some hwraps.stripped.symm
    | entry => exact .none
  declarators h := by
    have hsame := equivalence_sameDeclarator (V := Eq) ⟨Eq.refl, Eq.symm, Eq.trans⟩
    cases h with
    | declarator hname => exact absurd hname (by decide)
    | entry hwraps =>
      refine ⟨rfl, .some (List.rel_append ?_ (.cons hwraps.sameDeclarator ?_))⟩
      · exact (equivalence_forall₂ hsame).refl _
      · exact (equivalence_forall₂ hsame).refl _

/-- **The depth of pointers does not show.** Take two documents that differ in the pointers around the declarators that
a field `declarator` or `base` holds, or that stand in a list `declarators`, in any number of places at any depth. In
either mode they have the same module or the same fault, and the same notes in the same order, up to the text of the
nodes that were dropped. -/
theorem convertModule_pointed {root root' : Node} (h : Replaced Pointed (.object root) (.object root')) (mode : Mode) :
    ((convertModule root).run (.fresh mode)).1.mapError Fault.withoutSubtree =
        ((convertModule root').run (.fresh mode)).1.mapError Fault.withoutSubtree ∧
      ((convertModule root).run (.fresh mode)).2.notes.map Fault.withoutSubtree =
        ((convertModule root').run (.fresh mode)).2.notes.map Fault.withoutSubtree :=
  (lookalike_replaced unseen_pointed).convertModule_eq h mode

/-- a declarator of a name -/
def nameDeclarator (name : String) (fields : List (String × Value)) : Node :=
  ⟨some "CNameDeclarator", ("name", .string name) :: fields⟩

/-- a pointer declarator with a place and a name of its own -/
def pointerTo (d : Node) : Node :=
  ⟨some "CPtrDeclarator", [("line", .number (.int 9)), ("name", .string "p"), ("base", .object d)]⟩

/-- the declarator of a function `f` of one parameter `x` -/
def functionDeclarator (around : Node → Node) : Node := ⟨some "CFuncDeclarator", [
  ("base", .object (around (nameDeclarator "f" []))),
  ("args", .array [.object ⟨some "CArgDecl", [("declarator", .object (around (nameDeclarator "x" [])))]⟩])]⟩

/-- a function, a variable with a default and a node that is dropped, with something around each of their declarators -/
def declaring (around : Node → Node) : Node := ⟨some statListTag, [("stats", .array [
  .object ⟨some "CFuncDef", [("declarator", .object (around (functionDeclarator around)))]⟩,
  .object ⟨some "CVarDef", [("declarators", .array [
    .object (around (nameDeclarator "v" [("default", .object ⟨some "None", []⟩)]))])]⟩,
  .object ⟨some "Lambda", [("declarator", .object (around (nameDeclarator "l" [])))]⟩])]⟩

theorem replaced_declaring {around : Node → Node} (h : ∀ d, Wraps d (around d)) :
    Replaced Pointed (.object (declaring id)) (.object (declaring around)) := by
  have hput (tag : Option String) {name : String} (hname : name ∈ declaratorFields) (d : Node) :
      Replaced Pointed (.object ⟨tag, [(name, .object d)]⟩) (.object ⟨tag, [(name, .object (around d))]⟩) :=
    .node (@FieldChange.put _ _ [] [] _ _ _ (.declarator hname (h d)))
  have hfunction : Replaced Pointed (.object (functionDeclarator id)) (.object (functionDeclarator around)) := by
    apply Anywhere.trans (.node (@FieldChange.put _ _ [] _ _ _ _ (.declarator (by decide) (h _))))
    exact @Anywhere.field _ _ [_] [] "args" _ _ (@Anywhere.item _ [] [] _ _ (hput _ (by decide) _))
  have hdefinition := (@Anywhere.field _ (some "CFuncDef") [] [] "declarator" _ _ hfunction).trans
    (hput _ (by decide) (functionDeclarator around))
  have hvariable (d : Node) : Replaced Pointed (.object ⟨some "CVarDef", [("declarators", .array [.object d])]⟩)
      (.object ⟨some "CVarDef", [("declarators", .array [.object (around d)])]⟩) :=
    .node (@FieldChange.put _ _ [] [] _ _ _ (@Pointed.entry [] [] _ _ (h d)))
  refine @Anywhere.field _ _ [] [] "stats" _ _ ?_
  apply (@Anywhere.item _ [] [_, _] _ _ hdefinition).trans
  apply (@Anywhere.item _ [_] [_] _ _ (hvariable _)).trans
  exact @Anywhere.item _ [_, _] [] _ _ (hput _ (by decide) _)

theorem wraps_twice (d : Node) : Wraps d (pointerTo (pointerTo d)) :=
  .pointer (.pointer .refl rfl rfl) rfl rfl

/-- Behind two pointers each, the declarators make the same function and the same variable, in the place of the
declarators; the dropped node is written with its pointers. -/
theorem convertModule_pointed_twice :
    Replaced Pointed (.object (declaring id)) (.object (declaring fun d => pointerTo (pointerTo d))) ∧
    (((convertModule (declaring id)).run (.fresh .permissive)).1.mapError Fault.withoutSubtree =
        ((convertModule (declaring fun d => pointerTo (pointerTo d))).run (.fresh .permissive)).1.mapError
          Fault.withoutSubtree ∧
      ((convertModule (declaring id)).run (.fresh .permissive)).2.notes.map Fault.withoutSubtree =
        ((convertModule (declaring fun d => pointerTo (pointerTo d))).run (.fresh .permissive)).2.notes.map
          Fault.withoutSubtree) ∧
    ((convertModule (declaring id)).run (.fresh .permissive)).1 = .ok ⟨[
      .functionDef .unknown ⟨"f", .functionName, .unknown⟩
        ⟨[.ident "x" .param .unknown], [none], [none], none, none, [], [], []⟩ [] [] false,
      .assign .unknown [.ident "v" .store .unknown] (.keyword "None" .unknown)]⟩ ∧
    ((convertModule (declaring id)).run (.fresh .permissive)).2.notes ≠
      ((convertModule (declaring fun d => pointerTo (pointerTo d))).run (.fresh .permissive)).2.notes := by
  have hreplaced := replaced_declaring wraps_twice
  refine ⟨hreplaced, convertModule_pointed hreplaced .permissive, ?_, ?_⟩
  · rfl
  · decide +kernel

end Graft.Convert
