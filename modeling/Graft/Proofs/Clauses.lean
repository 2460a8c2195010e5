/-
The clauses of an `if`.

An `if` is converted in three parts: its clauses in their order, then its `else` block, and then the statement is built
from the last clause back to the first (`nested`), each clause around what was built of those after it.

- `result_if_iff`: an `if` is a statement exactly if it has a clause, every entry gives one and the `else` block is
  converted.
- `elseSteps_clauseChain`: the run into `else` blocks, one clause with each step.
- `convert_clauses`: the i-th clause stands i - 1 steps into the `else` blocks of the statement, and the `else` block of the
  whole with the last one. Without a clause, or with one whose condition fails, nothing comes of the statement.
-/
import Graft.Proofs.Loops

namespace Graft.Convert

open Graft.Document Attempt

variable {mode : Mode} {n : Node} {orelse : Option Suite} {first clause : Clause} {clauses rest : List Clause}

/-! ## What the parts of an `if` are -/

/-- the entries of an `if` for its clauses; there are none where the field has no list -/
def clauseEntries (n : Node) : List Value := ((n.present? "if_clauses").bind Value.items?).getD []

/-- the entry is a node whose condition and body are converted to those of the clause, at the position of the node -/
def GivesClause (mode : Mode) (entry : Value) (clause : Clause) : Prop :=
  ∃ m, entry = .object m ∧ (requiredExpr convert m "condition" .load mode).result = .ok clause.test ∧
    (stmtsField convert m "body" mode).result = .ok clause.body ∧ clause.pos = positionOf m

/-- the entry is a node whose condition is not converted -/
def LacksCondition (mode : Mode) (entry : Value) : Prop :=
  ∃ m fault, entry = .object m ∧ (requiredExpr convert m "condition" .load mode).result = .error fault

/-- this is the `else` block of the node: none where the field says nothing, and the statements of the field otherwise -/
def GivesElse (mode : Mode) (n : Node) (orelse : Option Suite) : Prop :=
  match n.present? "else_clause" with
  | none => orelse = none
  | some _ => ∃ body, (stmtsField convert n "else_clause" mode).result = .ok body ∧ orelse = some ⟨body, .unknown⟩

theorem result_ifClause_iff (n : Node) (entry : Value) (clause : Clause) :
    (ifClause convert n entry mode).result = .ok clause ↔ GivesClause mode entry clause := by
  unfold ifClause GivesClause
  constructor
  · intro h
    obtain ⟨m, hm, h⟩ := result_bind_iff.1 h
    obtain ⟨test, htest, h⟩ := result_bind_iff.1 h
    obtain ⟨body, hbody, h⟩ := result_bind_iff.1 h
    cases h
    refine ⟨m, ?_, htest, hbody, rfl⟩
    cases entry <;> cases hm
    rfl
  · rintro ⟨m, rfl, htest, hbody, hpos⟩
    obtain ⟨test, body, pos⟩ := clause
    obtain rfl : pos = positionOf m := hpos
    exact result_bind_iff.2 ⟨m, rfl, result_bind_iff.2 ⟨test, htest, result_bind_iff.2 ⟨body, hbody, rfl⟩⟩⟩

theorem result_clausesOf_iff (n : Node) (clauses : List Clause) :
    (clausesOf convert n mode).result = .ok clauses ↔ List.Forall₂ (GivesClause mode) (clauseEntries n) clauses := by
  show ((clauseEntries n).mapM (ifClause convert n) mode).result = .ok clauses ↔ _
  simp only [result_mapM_iff, result_ifClause_iff]

theorem result_elseOf_iff (n : Node) (orelse : Option Suite) :
    (elseOf convert n mode).result = .ok orelse ↔ GivesElse mode n orelse := by
  unfold elseOf GivesElse
  cases n.present? "else_clause" with
  | none => simp [eq_comm]
  | some v =>
    simp only [Option.isSome_some, if_true, result_bind_iff]
    simp [eq_comm]

/-- An `if` is a statement exactly if all of its parts are converted and one of them is a clause. -/
theorem result_if_iff (n : Node) (s : Stmt) :
    (ifStmt convert n mode).result = .ok s ↔ ∃ first rest orelse,
      List.Forall₂ (GivesClause mode) (clauseEntries n) (first :: rest) ∧ GivesElse mode n orelse ∧
        s = clauseChain orelse first rest := by
  simp only [ifStmt_eq, result_bind_iff, result_clausesOf_iff]
  constructor
  · rintro ⟨clauses, hclauses, h⟩
    cases clauses with
    | nil => cases h
    | cons first rest =>
      obtain ⟨orelse, horelse, h⟩ := result_bind_iff.1 h
      cases h
      exact ⟨first, rest, orelse, hclauses, (result_elseOf_iff n orelse).1 horelse, rfl⟩
  · rintro ⟨first, rest, orelse, hclauses, horelse, rfl⟩
    exact ⟨first :: rest, hclauses, result_bind_iff.2 ⟨orelse, (result_elseOf_iff n orelse).2 horelse, rfl⟩⟩

/-! ## The loop from the last clause to the first -/

/-- what the loop has in hand: the statement that was built so far, and the `else` block if it was not used -/
structure Nesting where
  built : Option Stmt
  orelse : Option Suite

/-- one turn of the loop: a clause is put around what was built, or takes the `else` block where nothing was -/
def Nesting.around (state : Nesting) (clause : Clause) : Nesting :=
  match state.built with
  | some inner => ⟨some (.ifElse clause.pos clause.test clause.body (some ⟨[inner], .unknown⟩)), state.orelse⟩
  | none => ⟨some (.ifElse clause.pos clause.test clause.body state.orelse), none⟩

/-- the loop over some clauses, the last of them first -/
def nested (orelse : Option Suite) (clauses : List Clause) : Nesting :=
  clauses.reverse.foldl Nesting.around ⟨none, orelse⟩

theorem nested_cons (orelse : Option Suite) (clause : Clause) (clauses : List Clause) :
    nested orelse (clause :: clauses) = (nested orelse clauses).around clause := by
  simp [nested]

/-- **The run of the loop.** It builds the chain of its clauses, and the `else` block is used up by the last of them. -/
theorem nested_eq_clauseChain (orelse : Option Suite) (first : Clause) (rest : List Clause) :
    nested orelse (first :: rest) = ⟨some (clauseChain orelse first rest), none⟩ := by
  induction rest generalizing first with
  | nil => rfl
  | cons next rest ih => rw [nested_cons, ih]; rfl

/-- An `if` runs the loop. Its statement is required of the loop once more, which always has one there. -/
theorem ifStmt_eq_nested (n : Node) :
    ifStmt convert n = clausesOf convert n >>= fun clauses =>
      if clauses.isEmpty then fail (.of n .noClauses)
      else elseOf convert n >>= fun orelse => orDefect n .noClauses (nested orelse clauses).built := by
  rw [ifStmt_eq]
  refine bind_congr fun clauses => ?_
  cases clauses with
  | nil => rfl
  | cons first rest =>
    simp only [nested_eq_clauseChain, orDefect]
    rfl

/-! ## Into the `else` blocks -/

/-- the only statement of an `else` block at no known position -/
def elseStep : Stmt → Option Stmt
  | .ifElse _ _ _ (some ⟨[inner], pos⟩) => if pos = .unknown then some inner else none
  | _ => none

/-- so many steps into `else` blocks -/
def elseSteps : Nat → Stmt → Option Stmt
  | 0, s => some s
  | steps + 1, s => (elseStep s).bind (elseSteps steps)

/-- Each step into the `else` blocks of a chain leaves one of its clauses behind. -/
theorem elseSteps_clauseChain (orelse : Option Suite) {steps : Nat}
    (h : (first :: rest).drop steps = clause :: clauses) :
    elseSteps steps (clauseChain orelse first rest) = some (clauseChain orelse clause clauses) := by
  induction steps generalizing first rest with
  | zero =>
    cases h
    rfl
  | succ steps ih =>
    cases rest with
    | nil => simp at h
    | cons next rest =>
      have hstep : elseStep (clauseChain orelse first (next :: rest)) = some (clauseChain orelse next rest) := rfl
      rw [elseSteps, hstep, Option.bind_some]
      exact ih h

/-- The clauses of a chain in their order: each has its own condition, body and position, the last one the `else` block and
any other the statement of the one after it. -/
theorem clauseChain_keeps (orelse : Option Suite) (first : Clause) (rest : List Clause) (i : Nat)
    (h : i < (first :: rest).length) :
    ∃ block, elseSteps i (clauseChain orelse first rest) =
        some (.ifElse (first :: rest)[i].pos (first :: rest)[i].test (first :: rest)[i].body block) ∧
      if i = rest.length then block = orelse else ∃ inner, block = some ⟨[inner], .unknown⟩ := by
  have hdrop := List.drop_eq_getElem_cons h
  rw [elseSteps_clauseChain orelse hdrop]
  cases hafter : (first :: rest).drop (i + 1) with
  | nil =>
    have hlast : i = rest.length := by
      have hlength := List.drop_eq_nil_iff.1 hafter
      simp only [List.length_cons] at h hlength
      omega
    exact ⟨orelse, rfl, by rw [if_pos hlast]⟩
  | cons next after =>
    have hnotLast : i ≠ rest.length := by
      rintro rfl
      simp at hafter
    exact ⟨_, rfl, by rw [if_neg hnotLast]; exact ⟨_, rfl⟩⟩

/-! ## Main result -/

theorem convert_ifStat (hn : n.tag = some "IfStat") (b : Binding) :
    convert (.object n) b = contain .absent (Fragment.ofStmt <$> ifStmt convert n) := by
  have hkind : "IfStat" ∈ Kind.ifStat.tags := by decide
  rw [convert_tagged hn hkind, construct]

theorem result_convert_if (hn : n.tag = some "IfStat") (b : Binding) {s : Stmt}
    (h : (ifStmt convert n mode).result = .ok s) : (convert (.object n) b mode).result = .ok (.ofStmt s) := by
  have hstmt : ((Fragment.ofStmt <$> ifStmt convert n) mode).result = .ok (.ofStmt s) := by
    rw [map_eq_pure_bind]
    exact result_bind_iff.2 ⟨s, h, rfl⟩
  rw [convert_ifStat hn, contain_of_result hstmt, hstmt]

/-- what is left of a node after some notes and a fault: one more note in permissive mode, and the fault in strict mode -/
def failedNode (notes : List Fault) (fault : Fault) : Mode → Outcome Fragment
  | .permissive => ⟨notes ++ [fault], .ok .absent⟩
  | .strict => ⟨notes, .error fault⟩

/-- A failure is contained at its node. -/
theorem contain_of_error {x : Attempt Fragment} {fault : Fault} (h : (x mode).result = .error fault) :
    contain .absent x mode = failedNode (x mode).notes fault mode := by
  cases mode with
  | permissive =>
    rw [outcome_contain, h]
    rfl
  | strict =>
    have hstrict : Mode.strict = .permissive → Lenient x := nofun
    rw [contain_at hstrict]
    exact congrArg (Outcome.mk (x .strict).notes) h

theorem convert_if_error (hn : n.tag = some "IfStat") (b : Binding) {fault : Fault}
    (h : (ifStmt convert n mode).result = .error fault) :
    convert (.object n) b mode = failedNode (ifStmt convert n mode).notes fault mode := by
  have hstmt := outcome_map Fragment.ofStmt (ifStmt convert n) mode
  rw [h] at hstmt
  rw [convert_ifStat hn, contain_of_error (congrArg Outcome.result hstmt), hstmt]

/-- Without a clause, or with one whose condition fails, the statement fails. -/
theorem result_if_fails (h : clauseEntries n = [] ∨ ∃ entry ∈ clauseEntries n, LacksCondition mode entry) :
    ∃ fault, (ifStmt convert n mode).result = .error fault := by
  cases hresult : (ifStmt convert n mode).result with
  | error fault => exact ⟨fault, rfl⟩
  | ok s =>
    exfalso
    obtain ⟨first, rest, orelse, hclauses, -, -⟩ := (result_if_iff n s).1 hresult
    obtain hnone | ⟨entry, hentry, m, fault, hm, hfault⟩ := h
    · rw [hnone] at hclauses
      cases hclauses
    · obtain ⟨i, hi, rfl⟩ := List.getElem_of_mem hentry
      obtain ⟨m', hm', htest, -⟩ := hclauses.get hi (hclauses.length_eq ▸ hi)
      cases hm.symm.trans hm'
      rw [hfault] at htest
      cases htest

/-- **An `if` keeps its clauses.** In either mode:
- If there are clauses and all of them and the `else` block are converted, the statement is what the loop builds. Going into
  its `else` blocks i times leads to the clause at index i, with the condition, the body and the position of that clause.
  The last clause has the `else` block of the whole, and any other a block at no known position with the next one alone.
- If there are no clauses, or one whose condition fails, the statement fails: nothing comes of it but notes.
- What is built by the loop is required of it once more, and is always there. -/
theorem convert_clauses (hn : n.tag = some "IfStat") (b : Binding) (mode : Mode) :
    (∀ clauses orelse, clauses ≠ [] → List.Forall₂ (GivesClause mode) (clauseEntries n) clauses →
      GivesElse mode n orelse →
      ∃ s, (convert (.object n) b mode).result = .ok (.ofStmt s) ∧ nested orelse clauses = ⟨some s, none⟩ ∧
        ∀ i (h : i < clauses.length), ∃ block,
          elseSteps i s = some (.ifElse clauses[i].pos clauses[i].test clauses[i].body block) ∧
          if i + 1 = clauses.length then block = orelse else ∃ inner, block = some ⟨[inner], .unknown⟩) ∧
    ((clauseEntries n = [] ∨ ∃ entry ∈ clauseEntries n, LacksCondition mode entry) →
      ∃ notes fault, ifStmt convert n mode = ⟨notes, .error fault⟩ ∧
        convert (.object n) b mode = failedNode notes fault mode) ∧
    (ifStmt convert n = clausesOf convert n >>= fun clauses =>
      if clauses.isEmpty then fail (.of n .noClauses)
      else elseOf convert n >>= fun orelse => orDefect n .noClauses (nested orelse clauses).built) ∧
    ∀ orelse clauses, clauses ≠ [] → (nested orelse clauses).built ≠ none := by
  refine ⟨fun clauses orelse hsome hclauses horelse => ?_, fun hbad => ?_, ifStmt_eq_nested n,
    fun orelse clauses hsome => ?_⟩
  · cases clauses with
    | nil => exact absurd rfl hsome
    | cons first rest =>
      have hif : (ifStmt convert n mode).result = .ok (clauseChain orelse first rest) :=
        (result_if_iff n _).2 ⟨first, rest, orelse, hclauses, horelse, rfl⟩
      refine ⟨clauseChain orelse first rest, result_convert_if hn b hif, nested_eq_clauseChain orelse first rest,
        fun i h => ?_⟩
      obtain ⟨block, hblock, hkeeps⟩ := clauseChain_keeps orelse first rest i h
      refine ⟨block, hblock, ?_⟩
      simpa using hkeeps
  · obtain ⟨fault, hfault⟩ := result_if_fails hbad
    exact ⟨_, fault, by rw [← hfault], convert_if_error hn b hfault⟩
  · cases clauses with
    | nil => exact absurd rfl hsome
    | cons first rest => simp [nested_eq_clauseChain]

/-- a clause with a condition, at the start of a line -/
def clauseNode (condition : Value) (line : Int) : Value :=
  .object ⟨some "IfClause", [("line", .number (.int line)), ("col", .number (.int 0)), ("condition", condition),
    ("body", passNode)]⟩

/-- an `if` with these clauses, and one statement in its `else` block -/
def ifWith (clauses : List Value) : Node :=
  ⟨some "IfStat", [("if_clauses", .array clauses), ("else_clause", passNode)]⟩

/-- `if a: pass`, `elif b: pass` and `else: pass` have the `else` block one step further in than `b`. A statement for a
condition drops the whole. -/
theorem convert_clauses_elif :
    (∃ s, (convert (.object (ifWith [clauseNode (nameNode "a") 1, clauseNode (nameNode "b") 3])) .load .strict).result =
        .ok (.ofStmt s) ∧
      elseSteps 1 s = some (.ifElse ⟨3, 1⟩ (.ident "b" .load .unknown) [.pass .unknown]
        (some ⟨[.pass .unknown], .unknown⟩))) ∧
    ∃ notes fault, convert (.object (ifWith [clauseNode (nameNode "a") 1, clauseNode passNode 3])) .load .permissive =
      ⟨notes ++ [fault], .ok .absent⟩ := by
  refine ⟨?_, ?_⟩
  · have hclauses : List.Forall₂ (GivesClause .strict)
        (clauseEntries (ifWith [clauseNode (nameNode "a") 1, clauseNode (nameNode "b") 3]))
        [⟨.ident "a" .load .unknown, [.pass .unknown], ⟨1, 1⟩⟩, ⟨.ident "b" .load .unknown, [.pass .unknown], ⟨3, 1⟩⟩] :=
      .cons ⟨_, rfl, rfl, rfl, by decide⟩ (.cons ⟨_, rfl, rfl, rfl, by decide⟩ .nil)
    obtain ⟨s, hs, -, hsteps⟩ := (convert_clauses rfl .load .strict).1 _ (some ⟨[.pass .unknown], .unknown⟩)
      (by simp) hclauses ⟨_, rfl, rfl⟩
    obtain ⟨block, hstep, hblock⟩ := hsteps 1 (by decide)
    refine ⟨s, hs, ?_⟩
    rw [if_pos (by decide)] at hblock
    rw [hstep, hblock]
    rfl
  · have hlacks : LacksCondition .permissive (clauseNode passNode 3) :=
      ⟨_, .malformed "IfClause" .statementAsExpression ⟨3, 1⟩, rfl, rfl⟩
    have hentry : clauseNode passNode 3 ∈ clauseEntries (ifWith [clauseNode (nameNode "a") 1, clauseNode passNode 3]) :=
      .tail _ (.head _)
    obtain ⟨notes, fault, -, hdropped⟩ :=
      (convert_clauses rfl .load .permissive).2.1 (.inr ⟨clauseNode passNode 3, hentry, hlacks⟩)
    exact ⟨notes, fault, hdropped⟩

end Graft.Convert
