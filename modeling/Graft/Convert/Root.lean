/-
Converting a whole document.

The root is a list of statements, and each of them is converted on its own: one that fails is left out in permissive
mode, and the others are converted all the same.
-/
import Graft.Convert.Basic

namespace Graft.Convert

open Graft.Document

/-- one entry of the root: its statements -/
def topLevel (root : Node) (stat : Value) : Attempt (List Stmt) := do
  let fragment ← convert stat .load
  Attempt.contain [] (Attempt.ofExcept (fragment.stmts root))

/-- the module that a document stands for -/
def convertModule (root : Node) : Attempt Module := do
  if !root.isTagged statListTag then Attempt.fail (.unexpectedRoot (tagOrUntagged root))
  else
    let body ← Attempt.gather (topLevel root) (← itemsField root "stats")
    return ⟨body⟩

end Graft.Convert
