/-
How a document spells absence makes no difference.

Values that are the same but for how they spell absence (`Respelled`) are a `Lookalike`: each way in which a construction
reads a value or a field gives the same with both, or values that are related again. Where a text is looked for, the
relation does not take the text `None` for a spelling of absence.

`convertModule_respelled`: two documents that are the same but for how they spell absence have the same module or the same
fault in either mode, and the same notes, up to the text of a node that was dropped, which is written as it was spelled.
-/
import Graft.Proofs.Lookalike

namespace Graft.Convert

open Graft.Document Attempt

/-! ## What no construction tells apart -/

/-- two values that are the same but for how they spell absence, wherever they stand -/
def RespelledSomewhere (v v' : Value) : Prop := ∃ s, Respelled s v v'

/-- The key of an item of a dictionary may be a text, so that `None` is a name there. -/
theorem respelled_key {s : Standing} {n n' : Node} (h : Respelled s (.object n) (.object n')) :
    Option.Rel (fun k k' => RespelledSomewhere (.object k) (.object k') ∧ k.text? "value" = k'.text? "value")
      (n.node? "key") (n'.node? "key") :=
  rel_imp (h.node? "key") fun _ _ hkey => ⟨⟨_, hkey⟩, hkey.text? (by simp [Standing.field])⟩

theorem respelled_declarators {s : Standing} {n n' : Node} (h : Respelled s (.object n) (.object n')) :
    Option.Rel (fun v v' => Option.Rel (List.Forall₂ (SameDeclarator RespelledSomewhere)) v.items? v'.items?)
      (n.present? "declarators") (n'.present? "declarators") := by
  refine rel_imp (h.present? "declarators") fun v v' hv => rel_imp hv.1.asItems fun items items' hitems => ?_
  exact hitems.imp fun _ _ h => ⟨h.isAbsent, h.kindName, rel_imp h.asNode fun _ _ hm => hm.stripped⟩

theorem lookalike_respelled : Lookalike RespelledSomewhere where
  isAbsent := fun ⟨_, h⟩ => h.isAbsent
  kindName := fun ⟨_, h⟩ => h.kindName
  asNode := fun ⟨s, h⟩ => rel_imp h.asNode fun _ _ hm => ⟨s, hm⟩
  asItems := fun ⟨_, h⟩ => rel_imp h.asItems fun _ _ hitems => hitems.imp fun _ _ h => ⟨.free, h⟩
  tag := fun ⟨_, h⟩ => h.tag
  positionOf := fun ⟨_, h⟩ => h.positionOf
  part := fun ⟨_, h⟩ _ => ⟨_, h.field _⟩
  text? := fun ⟨_, h⟩ hname => h.named hname
  integerText? := fun ⟨_, h⟩ => h.integerText?
  boolText? := fun ⟨_, h⟩ htag => h.boolText? htag
  stringText? := fun ⟨_, h⟩ htag => h.text? (by rcases htag with htag | htag <;> simp [Standing.field, textualTags, htag])
  keyText? := fun ⟨_, h⟩ => respelled_key h
  isKeywordOnly := fun ⟨_, h⟩ => congrArg (· == some 1) (h.int? "kw_only")
  flag := fun ⟨_, h⟩ _ => h.flag _
  declarator := fun ⟨_, h⟩ _ => rel_imp (h.node? _) fun _ _ hm => hm.stripped
  declarators := fun ⟨_, h⟩ => respelled_declarators h

/-! ## Documents -/

variable {root root' : Node}

theorem alike_convertModule (h : Respelled .free (.object root) (.object root')) :
    Alike Eq (convertModule root) (convertModule root') :=
  lookalike_respelled.alike_convertModule ⟨.free, h⟩

/-- **The spellings of absence are interchangeable.** Take two documents that are the same but for how they spell absence,
in any number of places at any depth: with `null` in a field or without the field, or, where no text is looked for, with
`null` or the text `None`. In either mode they have the same module or the same fault, and the same notes in the same
order, up to the text of the nodes that were dropped. -/
theorem convertModule_respelled (h : Respelled .free (.object root) (.object root')) (mode : Mode) :
    ((convertModule root).run (.fresh mode)).1.mapError Fault.withoutSubtree =
        ((convertModule root').run (.fresh mode)).1.mapError Fault.withoutSubtree ∧
      ((convertModule root).run (.fresh mode)).2.notes.map Fault.withoutSubtree =
        ((convertModule root').run (.fresh mode)).2.notes.map Fault.withoutSubtree := by
  rw [run_fresh, run_fresh]
  exact ((alike_convertModule h).outcome mode).eq

/-- a document with nothing in its list, in a `yield` and in a node that is dropped, each time spelled `null` -/
def spelledNull : Node := documentOf [] [.null,
  inField ⟨some "ExprStat", []⟩ "expr" (inField ⟨some "YieldExpr", []⟩ "arg" .null),
  inField ⟨some "Lambda", []⟩ "body" .null]

/-- the same with the text `None` in the list and in the node that is dropped, and without the field of the `yield` -/
def spelledOtherwise : Node := documentOf [] [.string "None",
  inField ⟨some "ExprStat", []⟩ "expr" (.object ⟨some "YieldExpr", []⟩),
  inField ⟨some "Lambda", []⟩ "body" (.string "None")]

/-- The two documents have the same module in permissive mode, and one note each, which writes `Lambda` in two ways. -/
theorem convertModule_respelled_yield :
    Respelled .free (.object spelledNull) (.object spelledOtherwise) ∧
    ((convertModule spelledNull).run (.fresh .permissive)).1.mapError Fault.withoutSubtree =
        ((convertModule spelledOtherwise).run (.fresh .permissive)).1.mapError Fault.withoutSubtree ∧
    ((convertModule spelledNull).run (.fresh .permissive)).2.notes.map Fault.withoutSubtree =
        ((convertModule spelledOtherwise).run (.fresh .permissive)).2.notes.map Fault.withoutSubtree ∧
    ((convertModule spelledNull).run (.fresh .permissive)).2.notes ≠
        ((convertModule spelledOtherwise).run (.fresh .permissive)).2.notes := by
  have hyield : Respelled .free (inField ⟨some "ExprStat", []⟩ "expr" (inField ⟨some "YieldExpr", []⟩ "arg" .null))
      (inField ⟨some "ExprStat", []⟩ "expr" (.object ⟨some "YieldExpr", []⟩)) :=
    respelled_insert _ (respelled_omit rfl)
  have hdropped : Respelled .free (inField ⟨some "Lambda", []⟩ "body" .null)
      (inField ⟨some "Lambda", []⟩ "body" (.string "None")) := respelled_insert _ (.absent rfl rfl rfl)
  have hdocument : Respelled .free (.object spelledNull) (.object spelledOtherwise) :=
    respelled_insert _ (.array (.cons (.absent rfl rfl rfl) (.cons hyield (.cons hdropped .nil))))
  obtain ⟨hmodule, hnotes⟩ := convertModule_respelled hdocument .permissive
  refine ⟨hdocument, hmodule, hnotes, ?_⟩
  decide

end Graft.Convert
