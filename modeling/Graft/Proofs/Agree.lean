/-
Nodes that agree on some of their fields.

What a construction does with a node depends on the tag, on the position and on the few fields that it reads.
`Agree names` relates two nodes that have all of these in common, and nothing else need be: a node and the same node
with another field changed (`agree_insert`). Faults blame such nodes alike (`Agree.blame`).
-/
import Graft.Convert.Field

namespace Graft.Convert

open Graft.Document

/-- the fields that a position is read from -/
def positionFields : List String := ["line", "col"]

/-- two nodes with the same tag, the same position and the same values in some fields -/
structure Agree (names : List String) (n n' : Node) : Prop where
  tag : n.tag = n'.tag
  place : ∀ name ∈ positionFields, n.get? name = n'.get? name
  get : ∀ name ∈ names, n.get? name = n'.get? name

namespace Agree

variable {names : List String} {n n' : Node}

theorem symm (h : Agree names n n') : Agree names n' n :=
  ⟨h.tag.symm, fun name hn => (h.place name hn).symm, fun name hn => (h.get name hn).symm⟩

theorem trans {n'' : Node} (h : Agree names n n') (h' : Agree names n' n'') : Agree names n n'' :=
  ⟨h.tag.trans h'.tag, fun name hn => (h.place name hn).trans (h'.place name hn),
    fun name hn => (h.get name hn).trans (h'.get name hn)⟩

theorem mono {fewer : List String} (h : Agree names n n') (hsub : ∀ name ∈ fewer, name ∈ names) : Agree fewer n n' :=
  ⟨h.tag, h.place, fun name hn => h.get name (hsub name hn)⟩

theorem positionOf (h : Agree names n n') : positionOf n = positionOf n' := by
  unfold Convert.positionOf Node.int?
  rw [h.place "line" (by simp [positionFields]), h.place "col" (by simp [positionFields])]

/-- A fault says the same of nodes that agree. -/
theorem blame (h : Agree names n n') (defect : Defect) : Fault.of n defect = Fault.of n' defect := by
  unfold Fault.of tagOrUntagged
  rw [h.tag, h.positionOf]

end Agree

theorem agree_insert {names : List String} {name : String} (hplace : name ∉ positionFields) (hname : name ∉ names)
    (node : Node) (v : Value) : Agree names node (node.insert name v) := by
  refine ⟨rfl, fun other hother => ?_, fun other hother => ?_⟩
  · exact (node.get?_insert_of_ne (fun h : other = name => hplace (h ▸ hother)) v).symm
  · exact (node.get?_insert_of_ne (fun h : other = name => hname (h ▸ hother)) v).symm

/-- Two values in one field make no other difference. -/
theorem agree_insert_insert {names : List String} {name : String} (hplace : name ∉ positionFields)
    (hname : name ∉ names) (node : Node) (v v' : Value) : Agree names (node.insert name v) (node.insert name v') :=
  (agree_insert hplace hname node v).symm.trans (agree_insert hplace hname node v')

/-! ## Fragments in the place of nodes that are blamed alike

A fragment that does not fit is blamed on the node that owns it, and nothing else of the node matters. -/

variable {n n' : Node}

theorem Piece.toExpr_agree (h : ∀ d, Fault.of n d = Fault.of n' d) (p : Piece) : p.toExpr n = p.toExpr n' := by
  unfold Piece.toExpr
  rw [h]

theorem Piece.toExpr_error {p : Piece} {fault : Fault} (h : p.toExpr n = .error fault) : ∃ d, fault = .of n d := by
  unfold Piece.toExpr at h
  split at h <;> cases h
  exact ⟨_, rfl⟩

namespace Fragment

theorem pieces_agree (h : ∀ d, Fault.of n d = Fault.of n' d) (f : Fragment) : f.pieces n = f.pieces n' := by
  cases f with
  | chain first rest => exact congrArg Except.error (h _)
  | _ => rfl

theorem stmts_agree (h : ∀ d, Fault.of n d = Fault.of n' d) (f : Fragment) : f.stmts n = f.stmts n' := by
  unfold stmts
  rw [pieces_agree h]

theorem exprs_agree (h : ∀ d, Fault.of n d = Fault.of n' d) (f : Fragment) : f.exprs n = f.exprs n' := by
  have htoExpr : Piece.toExpr n = Piece.toExpr n' := funext (Piece.toExpr_agree h)
  unfold exprs
  rw [pieces_agree h, htoExpr]

theorem expr?_agree (h : ∀ d, Fault.of n d = Fault.of n' d) (f : Fragment) : f.expr? n = f.expr? n' := by
  unfold expr?
  simp only [Piece.toExpr_agree h, h]

theorem links_agree (h : ∀ d, Fault.of n d = Fault.of n' d) (f : Fragment) : f.links n = f.links n' := by
  unfold links
  rw [h]

theorem pieces_error {f : Fragment} {fault : Fault} (h : f.pieces n = .error fault) : ∃ d, fault = .of n d := by
  cases f with
  | chain first rest => cases h; exact ⟨_, rfl⟩
  | _ => cases h

theorem stmts_error {f : Fragment} {fault : Fault} (h : f.stmts n = .error fault) : ∃ d, fault = .of n d := by
  unfold stmts at h
  cases hp : f.pieces n with
  | error found => rw [hp] at h; cases h; exact pieces_error hp
  | ok ps => rw [hp] at h; cases h

/-- The first piece that is no expression is blamed. -/
theorem mapM_toExpr_error {ps : List Piece} {fault : Fault} (h : ps.mapM (Piece.toExpr n) = .error fault) :
    ∃ d, fault = .of n d := by
  induction ps with
  | nil => cases h
  | cons p ps ih =>
    rw [List.mapM_cons] at h
    cases hp : p.toExpr n with
    | error found => rw [hp] at h; cases h; exact Piece.toExpr_error hp
    | ok e =>
      rw [hp] at h
      cases hps : ps.mapM (Piece.toExpr n) with
      | error found => exact ih (by rw [hps] at h ⊢; cases h; rfl)
      | ok es => rw [hps] at h; cases h

theorem exprs_error {f : Fragment} {fault : Fault} (h : f.exprs n = .error fault) : ∃ d, fault = .of n d := by
  unfold exprs at h
  cases hp : f.pieces n with
  | error found => rw [hp] at h; cases h; exact pieces_error hp
  | ok ps => rw [hp] at h; exact mapM_toExpr_error h

theorem map_toExpr_error {p : Piece} {fault : Fault} (h : (p.toExpr n).map some = .error fault) :
    ∃ d, fault = .of n d := by
  cases hp : p.toExpr n with
  | error found => rw [hp] at h; cases h; exact Piece.toExpr_error hp
  | ok e => rw [hp] at h; cases h

theorem expr?_error {f : Fragment} {fault : Fault} (h : f.expr? n = .error fault) : ∃ d, fault = .of n d := by
  unfold expr? at h
  split at h
  · cases h
  · exact map_toExpr_error h
  · cases h
  · exact map_toExpr_error h
  · cases h; exact ⟨_, rfl⟩
  · cases h; exact ⟨_, rfl⟩

theorem links_error {f : Fragment} {fault : Fault} (h : f.links n = .error fault) : ∃ d, fault = .of n d := by
  unfold links at h
  split at h <;> cases h
  exact ⟨_, rfl⟩

end Fragment

end Graft.Convert
