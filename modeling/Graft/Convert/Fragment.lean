/-
What a value of a document converts to.

A value may give nothing, one node of the tree, a group of nodes (which has no counterpart in the tree and is spliced
into whatever holds it), or the links of a comparison chain (which mean something inside a comparison only). The
functions at the end take a fragment for what its place asks for: statements, expressions, at most one expression, or
links; `owner` is the node that is blamed when it does not fit.
-/
import Graft.Convert.Attempt
import Graft.Tree.Basic

namespace Graft.Convert

open Graft.Document

/-- a node of the tree, of either sort -/
inductive Piece where
  | stmt (s : Stmt)
  | expr (e : Expr)

/-- one step of a comparison: an operator and its right operand -/
structure Link where
  op : CompareOp
  operand : Expr

inductive Fragment where
  | absent
  | piece (p : Piece)
  | group (ps : List Piece)
  | chain (first : Link) (rest : List Link)

namespace Piece

/-- as a statement; an expression is wrapped -/
def toStmt : Piece → Stmt
  | stmt s => s
  | expr e => .ofExpr e

/-- as an expression; an expression statement is unwrapped -/
def toExpr (owner : Node) : Piece → Except Fault Expr
  | expr e => .ok e
  | stmt (.expr _ e) => .ok e
  | stmt _ => .error (.of owner .statementAsExpression)

end Piece

namespace Fragment

def ofStmt (s : Stmt) : Fragment := piece (.stmt s)

def ofExpr (e : Expr) : Fragment := piece (.expr e)

/-- statements to be spliced in -/
def ofStmts (ss : List Stmt) : Fragment := group (ss.map .stmt)

/-- the nodes of a group -/
def pieces (owner : Node) : Fragment → Except Fault (List Piece)
  | absent => .ok []
  | piece p => .ok [p]
  | group ps => .ok ps
  | chain _ _ => .error (.of owner .linkOutside)

/-- as statements, expressions being wrapped -/
def stmts (owner : Node) (f : Fragment) : Except Fault (List Stmt) :=
  (f.pieces owner).map (·.map Piece.toStmt)

/-- as expressions -/
def exprs (owner : Node) (f : Fragment) : Except Fault (List Expr) := do
  (← f.pieces owner).mapM (Piece.toExpr owner)

/-- as one expression or none -/
def expr? (owner : Node) : Fragment → Except Fault (Option Expr)
  | absent => .ok none
  | piece p => (p.toExpr owner).map some
  | group [] => .ok none
  | group [p] => (p.toExpr owner).map some
  | group _ => .error (.of owner .groupAsExpression)
  | chain _ _ => .error (.of owner .linkOutside)

/-- as the further links of a comparison -/
def links (owner : Node) : Fragment → Except Fault (List Link)
  | absent => .ok []
  | chain first rest => .ok (first :: rest)
  | _ => .error (.of owner .cascadeNotALink)

end Fragment

end Graft.Convert
