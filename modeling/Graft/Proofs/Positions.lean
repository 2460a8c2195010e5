/-
Where the positions of a module come from, and what they have a say in.

- `convertModule_located`: no position is made up. Whatever a walk over a converted module meets stands at no known
  position or where a node of the document does; only the name of a definition may stand elsewhere, a fixed number of
  columns to the right of its keyword. It stands in the line of the definition or of its declarator then, and not left of
  it.
- `convertModule_moved`: positions have no say. Two documents that differ only in where their nodes stand are both
  converted or both refused. The modules are equal but for positions, and the faults and notes say the same but for where
  they point and for the node that is written out.

Both are read off `parallel_convertModule`: the first by following a document along with itself.
-/
import Graft.Proofs.Carried
import Graft.Proofs.Modes
import Graft.Proofs.Statements

namespace Graft

/-- the name that a definition gives -/
def Stmt.definedName? : Stmt → Option NameToken
  | functionDef _ name _ _ _ _ => some name
  | classDef _ name _ _ _ => some name
  | _ => none

namespace Convert

open Graft.Document Attempt

/-! ## Names of definitions -/

/-- A name behind a keyword is in the line of the keyword. -/
theorem namePosition_line (pos : Position) (distance : UInt32) : (namePosition pos distance).line = pos.line := by
  unfold namePosition
  split
  · rfl
  · exact pos.shifted_line distance

/-- It is not left of the keyword, even where there is no column so far to the right. -/
theorem column_le_namePosition (pos : Position) (distance : UInt32) :
    pos.column ≤ (namePosition pos distance).column := by
  unfold namePosition
  split
  · exact UInt32.le_refl _
  · have hbound : pos.column.toNat ≤ Position.lastColumn := Nat.le_sub_one_of_lt pos.column.toNat_lt
    rw [UInt32.le_iff_toNat_le, pos.shifted_column_toNat]
    exact Nat.le_min.2 ⟨Nat.le_add_right _ _, hbound⟩

variable {root root' : Node} {context : Context} {m : Module}

/-! ## Where positions come from -/

/-- Everything in a converted module is placed. -/
theorem placed_convertModule (h : ((convertModule root).run context).1 = .ok m) {b : Binding} {t : Subtree}
    (ht : m.Has b t) : Placed (origins root) t := by
  have hresult : (convertModule root context.mode).result = .ok m := by rwa [run_eq] at h
  have hself := ((parallel_convertModule (.same (.object root))).outcome context.mode).result
  rw [hresult] at hself
  obtain ⟨s, hs, hthere⟩ := ht
  cases hself with
  | ok hbody => exact Tied.all hbody s hs b t hthere

/-- The positions of a node are those of nodes of the document, but for the name of a definition. -/
theorem placed_own {t : Subtree} (h : Placed (origins root) t) {mark : Mark} (hmark : mark ∈ Subtree.own t) :
    Located root mark.pos ∨
      ∃ s token, t = .stmt s ∧ s.definedName? = some token ∧ mark = .token token ∧ NamedAt root s.pos token.pos := by
  cases t with
  | stmt s =>
    cases s with
    | functionDef pos token params body decs isAsync =>
      obtain ⟨hpos, hnamed⟩ := h
      rcases List.mem_cons.1 hmark with rfl | hmark
      · exact .inl hpos
      · exact .inr ⟨_, token, rfl, rfl, List.mem_singleton.1 hmark, hnamed⟩
    | classDef pos token bases body decs =>
      obtain ⟨hpos, hnamed⟩ := h
      rcases List.mem_cons.1 hmark with rfl | hmark
      · exact .inl hpos
      · exact .inr ⟨_, token, rfl, rfl, List.mem_singleton.1 hmark, hnamed⟩
    | _ => exact .inl (h mark hmark)
  | _ => exact .inl (h mark hmark)

/-- The name of a definition is where such names are. -/
theorem placed_definedName {s : Stmt} (h : Placed (origins root) (.stmt s)) {token : NameToken}
    (htoken : s.definedName? = some token) : NamedAt root s.pos token.pos := by
  cases s with
  | functionDef =>
    obtain rfl := Option.some.inj htoken
    exact h.2
  | classDef =>
    obtain rfl := Option.some.inj htoken
    exact h.2
  | _ => cases htoken

/-- The declarator behind the pointers in a node of the document is one of its nodes too. -/
theorem holds_base {o base : Node} (ho : Holds (.object root) (.object o)) (hbase : o.node? "base" = some base) :
    Holds (.object root) (.object (stripped base)) :=
  ho.trans (.field (Node.node?_eq_some.1 hbase) (holds_stripped base))

/-- **No position is made up.** Whatever the document and the mode, if it converts to a module:
- each position in the module is unknown or that of a node of the document, unless it is that of the name of a definition.
  Such a name may also stand a fixed number of columns behind the keyword of its definition, by the tag of the node that
  the definition comes from and stands at;
- the name of a definition is in one line with a node of the document, and not left of it: the node of the definition, or
  the declarator behind the pointers in that node. -/
theorem convertModule_located (h : ((convertModule root).run context).1 = .ok m) :
    (∀ mark ∈ m.marks, mark.pos = .unknown ∨ (∃ o, Holds (.object root) (.object o) ∧ mark.pos = positionOf o) ∨
      ∃ b s token, m.Has b (.stmt s) ∧ s.definedName? = some token ∧ mark = .token token ∧
        ∃ o distance, Holds (.object root) (.object o) ∧ o.tag.bind nameDistance? = some distance ∧
          s.pos = positionOf o ∧ token.pos = namePosition (positionOf o) distance) ∧
    ∀ b s token, m.Has b (.stmt s) → s.definedName? = some token → ∃ o, Holds (.object root) (.object o) ∧
      (s.pos = positionOf o ∨ ∃ d base, Holds (.object root) (.object d) ∧ s.pos = positionOf d ∧
        d.node? "base" = some base ∧ o = stripped base) ∧
      token.pos.line = (positionOf o).line ∧ (positionOf o).column ≤ token.pos.column := by
  refine ⟨fun mark hmark => ?_, fun b s token hs htoken => ?_⟩
  · obtain ⟨b, t, ht, hown⟩ := Module.mem_marks_iff.1 hmark
    rcases placed_own (placed_convertModule h ht) hown with (hunknown | hnode) | ⟨s, token, rfl, htoken, rfl, hnamed⟩
    · exact .inl hunknown
    · exact .inr (.inl hnode)
    · obtain ⟨id, role, pos⟩ := token
      cases hnamed with
      | keyword ho htag hpos => exact .inr (.inr ⟨b, s, _, ht, htoken, rfl, _, _, ho, htag, hpos, rfl⟩)
      | declarator ho hbase _ => exact .inr (.inl ⟨_, holds_base ho hbase, rfl⟩)
  · have hnamed := placed_definedName (placed_convertModule h hs) htoken
    obtain ⟨id, role, pos⟩ := token
    cases hnamed with
    | keyword ho _ hpos => exact ⟨_, ho, .inl hpos, namePosition_line _ _, column_le_namePosition _ _⟩
    | declarator ho hbase hpos =>
      exact ⟨_, holds_base ho hbase, .inr ⟨_, _, ho, hpos, hbase, rfl⟩, rfl, UInt32.le_refl _⟩

/-- a function at a line and a column -/
def functionNode : Node :=
  ⟨some "Def", [("name", .string "f"), ("line", .number (.int 2)), ("col", .number (.int 4))]⟩

/-- a node that is dropped -/
def lambdaNode : Node := ⟨some "Lambda", []⟩

/-- the document of the two -/
def defining : Node := documentOf [] [.object functionNode, .object lambdaNode]

/-- its function -/
def definedFunction : Stmt :=
  .functionDef ⟨2, 5⟩ ⟨"f", .functionName, ⟨2, 9⟩⟩ ⟨[], [], [], none, none, [], [], []⟩ [] [] false

/-- The nodes of the document are these. -/
theorem holds_defining {o : Node} (h : Holds (.object defining) (.object o)) :
    o = defining ∨ o = functionNode ∨ o = lambdaNode := by
  cases h with
  | self => exact .inl rfl
  | field hget ho =>
    obtain ⟨-, rfl⟩ := Prod.mk.inj (List.mem_singleton.1 (Node.mem_of_lookup hget))
    cases ho with
    | item hx ho =>
      rcases List.mem_pair.1 hx with rfl | rfl
      · cases ho with
        | self => exact .inr (.inl rfl)
        | field hget ho =>
          have hmem := Node.mem_of_lookup hget
          simp only [functionNode, List.mem_cons, Prod.mk.injEq, List.not_mem_nil, or_false] at hmem
          rcases hmem with ⟨-, rfl⟩ | ⟨-, rfl⟩ | ⟨-, rfl⟩ <;> cases ho
      · cases ho with
        | self => exact .inr (.inr rfl)
        | field hget => cases hget

/-- The name of the function is four columns behind its keyword, where no node of the document stands. -/
theorem convertModule_located_defining :
    ((convertModule defining).run (.fresh .permissive)).1 = .ok ⟨[definedFunction]⟩ ∧
    ¬ Located defining ⟨2, 9⟩ ∧
    ∃ o distance, Holds (.object defining) (.object o) ∧ o.tag.bind nameDistance? = some distance ∧
      ⟨2, 9⟩ = namePosition (positionOf o) distance := by
  have hrun : ((convertModule defining).run (.fresh .permissive)).1 = .ok ⟨[definedFunction]⟩ := rfl
  have helsewhere : ¬ Located defining ⟨2, 9⟩ := by
    rintro (hunknown | ⟨o, ho, hpos⟩)
    · cases hunknown
    · revert hpos
      rcases holds_defining ho with rfl | rfl | rfl <;> decide
  refine ⟨hrun, helsewhere, ?_⟩
  obtain ⟨hmarks, -⟩ := convertModule_located hrun
  rcases hmarks (.token ⟨"f", .functionName, ⟨2, 9⟩⟩) (by decide) with hunknown | hnode | hname
  · exact absurd (.inl hunknown) helsewhere
  · exact absurd (.inr hnode) helsewhere
  · obtain ⟨b, s, token, -, -, hmark, o, distance, ho, htag, -, hpos⟩ := hname
    cases hmark
    exact ⟨o, distance, ho, htag, hpos⟩

/-! ## What positions have a say in -/

/-- **Positions have no say.** Take two documents that differ only in the fields that say where a node stands, in any of
their nodes. In either mode both are refused, for faults that say the same but for where they point and for the node that
is written out, or both are converted, to modules that are structurally equal where no positions count. The notes
correspond one to one and say the same in this way. -/
theorem convertModule_moved (h : Moved (.object root) (.object root')) (mode : Mode) :
    EndsAlike Fault.withoutPlace (fun m m' => m.structurallyEqual m' .ignore = true)
        ((convertModule root).run (.fresh mode)).1 ((convertModule root').run (.fresh mode)).1 ∧
      ((convertModule root).run (.fresh mode)).2.notes.map Fault.withoutPlace =
        ((convertModule root').run (.fresh mode)).2.notes.map Fault.withoutPlace := by
  rw [run_fresh, run_fresh]
  obtain ⟨hnotes, hend⟩ := (parallel_convertModule h).outcome mode
  refine ⟨hend.imp fun m m' hbody => ?_, hnotes⟩
  have hagree : Module.agrees .ignore m m' = true := Tied.agree_stmts hbody
  exact Module.structurallyEqual_iff.2 (Module.agrees_iff.1 hagree)

/-- the same two nodes, the function at no known column and the other in some line -/
def redefining : Node := documentOf [] [.object (functionNode.insert "col" (.string "far")),
  .object (lambdaNode.insert "line" (.number (.int 7)))]

/-- The function is converted to another place, and the fault of the other node points elsewhere. -/
theorem convertModule_moved_defining :
    Moved (.object defining) (.object redefining) ∧
    (∃ m m', ((convertModule defining).run (.fresh .permissive)).1 = .ok m ∧
      ((convertModule redefining).run (.fresh .permissive)).1 = .ok m' ∧ m ≠ m' ∧
      m.structurallyEqual m' .ignore = true) ∧
    ((convertModule defining).run (.fresh .permissive)).2.notes.map Fault.withoutPlace =
      ((convertModule redefining).run (.fresh .permissive)).2.notes.map Fault.withoutPlace ∧
    ((convertModule defining).run (.fresh .permissive)).2.notes ≠
      ((convertModule redefining).run (.fresh .permissive)).2.notes := by
  have hmoved : Moved (.object defining) (.object redefining) :=
    moved_inside _ (.array (.cons (moved_insert (by decide) _ _) (.cons (moved_insert (by decide) _ _) .nil)))
  obtain ⟨hend, hnotes⟩ := convertModule_moved hmoved .permissive
  have hrun : ((convertModule defining).run (.fresh .permissive)).1 = .ok _ := rfl
  have hrun' : ((convertModule redefining).run (.fresh .permissive)).1 = .ok _ := rfl
  rw [hrun, hrun'] at hend
  refine ⟨hmoved, ⟨_, _, hrun, hrun', nofun, ?_⟩, hnotes, by decide⟩
  cases hend with
  | ok hequal => exact hequal

end Convert

end Graft
