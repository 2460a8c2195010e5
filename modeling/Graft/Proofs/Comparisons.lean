/-
Chains of comparisons.

The operators of a comparison after its first hang off it as links, each held in the field `cascade` of the one before
(`Linked`). Every link is a node of its own, so that it is converted with the links after it and its failure is contained
there: what is gathered from the end of the chain back to its head are the links that can be read (`ReadsLink`).

- `further_linked`: the run along a chain. What its last node has further is handed on behind the links before it.
- `convert_comparison`: a comparison has the operators and the operands of its head and of all its links, in their order;
  in permissive mode a link that cannot be read cuts the chain off before it, with a note.
-/
import Graft.Proofs.Loops

namespace Graft.Convert

open Graft.Document Attempt

variable {mode : Mode} {n m last : Node} {links : List Node}

/-! ## Chains in a document -/

/-- the last node of a chain that starts at a node, with the links between in their order -/
inductive Linked : Node → List Node → Node → Prop where
  | here {n : Node} : Linked n [] n
  | next {n m last : Node} {links : List Node} : n.get? "cascade" = some (.object m) → m.tag = some "CascadedCmp" →
      Linked m links last → Linked n (m :: links) last

/-- the node has an operator and a right operand, which make this link -/
def ReadsLink (mode : Mode) (m : Node) (link : Link) : Prop :=
  ∃ token, m.text? "operator" = some token ∧ link.op = .ofToken token ∧
    (requiredExpr convert m "operand2" .load mode).result = .ok link.operand

/-- the notes on the right operands of some nodes -/
def operandNotes (mode : Mode) (nodes : List Node) : List Fault :=
  nodes.flatMap fun m => (requiredExpr convert m "operand2" .load mode).notes

/-! ## One node of a chain -/

/-- the links after a node -/
def further (n : Node) : Attempt (List Link) :=
  field convert n "cascade" .load >>= fun f => ofExcept (f.links n)

theorem comparisonLinks_eq (n : Node) :
    comparisonLinks convert n = operatorToken n >>= fun token => requiredExpr convert n "operand2" .load >>= fun operand =>
      further n >>= fun rest => pure (⟨.ofToken token, operand⟩, rest) := by
  simp only [comparisonLinks, further, bind_assoc]
  rfl

/-- A node that is read gives its link and the links after it. -/
theorem outcome_link {link : Link} (h : ReadsLink mode n link) {notes : List Fault} {rest : List Link}
    (hrest : further n mode = ⟨notes, .ok rest⟩) :
    comparisonLinks convert n mode = ⟨operandNotes mode [n] ++ notes, .ok (link, rest)⟩ := by
  obtain ⟨token, htoken, hop, hoperand⟩ := h
  obtain ⟨op, operand⟩ := link
  obtain rfl : op = .ofToken token := hop
  rw [comparisonLinks_eq, operatorToken, htoken, orDefect, pure_bind, outcome_bind, hoperand]
  simp only [outcome_bind, hrest]
  simp [Outcome.after, operandNotes]

/-- A node that is not read fails. -/
theorem outcome_unread (h : ∀ link, ¬ ReadsLink mode n link) :
    ∃ fault, (comparisonLinks convert n mode).result = .error fault := by
  rw [comparisonLinks_eq, operatorToken]
  cases htoken : n.text? "operator" with
  | none => exact ⟨_, rfl⟩
  | some token =>
    rw [orDefect, pure_bind, outcome_bind]
    cases hoperand : (requiredExpr convert n "operand2" .load mode).result with
    | error fault => exact ⟨fault, rfl⟩
    | ok operand => exact absurd ⟨token, htoken, rfl, hoperand⟩ (h ⟨.ofToken token, operand⟩)

theorem further_end (h : n.present? "cascade" = none) : further n = pure [] := by
  rw [further, field_nothing h]
  rfl

/-- The links after a node are contained at the node that has the first of them. -/
theorem further_held (hget : n.get? "cascade" = some (.object m)) (htag : m.tag = some "CascadedCmp") :
    further n = contain .absent (cascadeLinks convert m) >>= fun f => ofExcept (f.links n) := by
  have hkind : "CascadedCmp" ∈ Kind.cascadedCmp.tags := by decide
  rw [further, field, hget]
  show convert (.object m) .load >>= _ = _
  rw [convert_tagged htag hkind]
  rfl

theorem further_read (hget : n.get? "cascade" = some (.object m)) (htag : m.tag = some "CascadedCmp") {first : Link}
    {rest : List Link} {notes : List Fault} (h : comparisonLinks convert m mode = ⟨notes, .ok (first, rest)⟩) :
    further n mode = ⟨notes, .ok (first :: rest)⟩ := by
  have hlinks : cascadeLinks convert m mode = ⟨notes, .ok (.chain first rest)⟩ := by
    rw [cascadeLinks, outcome_bind, h]
    simp [Outcome.after]
  have hcontained : contain .absent (cascadeLinks convert m) mode = ⟨notes, .ok (.chain first rest)⟩ := by
    rw [contain_of_result (by rw [hlinks]), hlinks]
  rw [further_held hget htag, outcome_bind, hcontained]
  simp [outcome_ofExcept, Fragment.links, Outcome.after]

/-- In permissive mode a link that fails is as good as none, but for its notes. -/
theorem further_unread (hget : n.get? "cascade" = some (.object m)) (htag : m.tag = some "CascadedCmp")
    (h : ∀ link, ¬ ReadsLink .permissive m link) : ∃ notes, notes ≠ [] ∧ further n .permissive = ⟨notes, .ok []⟩ := by
  obtain ⟨fault, hfault⟩ := outcome_unread h
  have hlinks : (cascadeLinks convert m .permissive).result = .error fault := by
    rw [cascadeLinks, outcome_bind, hfault]
  refine ⟨(cascadeLinks convert m .permissive).notes ++ [fault], by simp, ?_⟩
  rw [further_held hget htag, outcome_bind, outcome_contain, hlinks]
  simp [outcome_ofExcept, Fragment.links, Outcome.after]

/-! ## Along a chain -/

/-- **The run along a chain.** What the last node has further is handed back, link by link, to the node that the chain starts
at. -/
theorem further_linked (h : Linked n links last) {parts : List Link} (hparts : List.Forall₂ (ReadsLink mode) links parts)
    {notes : List Fault} {rest : List Link} (hlast : further last mode = ⟨notes, .ok rest⟩) :
    further n mode = ⟨operandNotes mode links ++ notes, .ok (parts ++ rest)⟩ := by
  induction h generalizing parts with
  | here =>
    cases hparts
    exact hlast
  | @next n m last links hget htag _ ih =>
    cases hparts with
    | @cons _ link _ parts hlink hparts =>
      rw [further_read hget htag (outcome_link hlink (ih hparts hlast))]
      simp [operandNotes]

/-! ## Main result -/

/-- the comparison at a node, of a first operand with these links -/
def comparisonOf (n : Node) (left : Expr) (links : List Link) : Fragment :=
  .ofExpr (.compare (positionOf n) left (links.map Link.op) (links.map Link.operand))

/-- A comparison is its first operand with the links of its head and of those after it. -/
theorem outcome_comparison (hn : n.tag = some "PrimaryCmp") (b : Binding) {left : Expr} {link : Link}
    (hleft : (requiredExpr convert n "operand1" .load mode).result = .ok left) (hlink : ReadsLink mode n link)
    {notes : List Fault} {rest : List Link} (hrest : further n mode = ⟨notes, .ok rest⟩) :
    convert (.object n) b mode =
      ⟨(requiredExpr convert n "operand1" .load mode).notes ++ (operandNotes mode [n] ++ notes),
        .ok (comparisonOf n left (link :: rest))⟩ := by
  have hkind : "PrimaryCmp" ∈ Kind.primaryCmp.tags := by decide
  have hcompare : (Fragment.ofExpr <$> compareExpr convert n) mode =
      ⟨(requiredExpr convert n "operand1" .load mode).notes ++ (operandNotes mode [n] ++ notes),
        .ok (comparisonOf n left (link :: rest))⟩ := by
    simp only [compareExpr, map_eq_pure_bind, bind_assoc]
    rw [outcome_bind, hleft]
    simp only [outcome_bind, outcome_link hlink hrest]
    simp [Outcome.after, comparisonOf]
  rw [convert_tagged hn hkind, construct, contain_of_result (by rw [hcompare]), hcompare]

/-- **Comparisons are flattened completely and in order.** Take a comparison that is followed by a chain of links, and whose
first operand is an expression.
- If the head and every link can be read, and nothing follows the last of them, the comparison has their operators and their
  right operands in the order of the chain, in either mode, with the notes on its operands in that order.
- If the head and some links can be read and the next one cannot, then in permissive mode it has exactly those, with a note
  at least after theirs. -/
theorem convert_comparison (hn : n.tag = some "PrimaryCmp") (hlinks : Linked n links last) (b : Binding) :
    (∀ mode left parts, (requiredExpr convert n "operand1" .load mode).result = .ok left →
      List.Forall₂ (ReadsLink mode) (n :: links) parts → last.present? "cascade" = none →
      convert (.object n) b mode =
        ⟨(requiredExpr convert n "operand1" .load mode).notes ++ operandNotes mode (n :: links),
          .ok (comparisonOf n left parts)⟩) ∧
    ∀ left parts bad, (requiredExpr convert n "operand1" .load .permissive).result = .ok left →
      List.Forall₂ (ReadsLink .permissive) (n :: links) parts → last.get? "cascade" = some (.object bad) →
      bad.tag = some "CascadedCmp" → (∀ link, ¬ ReadsLink .permissive bad link) →
      ∃ noted, noted ≠ [] ∧ convert (.object n) b .permissive =
        ⟨(requiredExpr convert n "operand1" .load .permissive).notes ++ operandNotes .permissive (n :: links) ++ noted,
          .ok (comparisonOf n left parts)⟩ := by
  refine ⟨fun mode left parts hleft hparts hend => ?_, fun left parts bad hleft hparts hget htag hbad => ?_⟩
  · cases hparts with
    | cons hlink hparts =>
      have hlast : further last mode = ⟨[], .ok []⟩ := by rw [further_end hend]; rfl
      rw [outcome_comparison hn b hleft hlink (further_linked hlinks hparts hlast)]
      simp [operandNotes]
  · cases hparts with
    | cons hlink hparts =>
      obtain ⟨noted, hnoted, hlast⟩ := further_unread hget htag hbad
      refine ⟨noted, hnoted, ?_⟩
      rw [outcome_comparison hn b hleft hlink (further_linked hlinks hparts hlast)]
      simp [operandNotes]

/-- one more link of a comparison, with something in its own field for links -/
def linkNode (operator operand : String) (cascade : Value) : Node :=
  ⟨some "CascadedCmp", [("operator", .string operator), ("operand2", nameNode operand), ("cascade", cascade)]⟩

/-- `a < b`, followed by something -/
def comparedWith (cascade : Value) : Node :=
  ⟨some "PrimaryCmp", [("operand1", nameNode "a"), ("operator", .string "<"), ("operand2", nameNode "b"),
    ("cascade", cascade)]⟩

/-- `a < b <= c` has both operators and, in strict mode, no fault. A further link without an operator is cut off. -/
theorem convert_comparison_cut :
    Linked (comparedWith (.object (linkNode "<=" "c" .null))) [linkNode "<=" "c" .null] (linkNode "<=" "c" .null) ∧
    convert (.object (comparedWith (.object (linkNode "<=" "c" .null)))) .load .strict = ⟨[], .ok (.ofExpr
      (.compare .unknown (.ident "a" .load .unknown) [.lt, .ltE]
        [.ident "b" .load .unknown, .ident "c" .load .unknown]))⟩ ∧
    ∃ noted, noted ≠ [] ∧
      convert (.object (comparedWith (.object (linkNode "<=" "c" (.object ⟨some "CascadedCmp", []⟩))))) .load .permissive =
        ⟨noted, .ok (.ofExpr (.compare .unknown (.ident "a" .load .unknown) [.lt, .ltE]
          [.ident "b" .load .unknown, .ident "c" .load .unknown]))⟩ := by
  have hlinked (cascade : Value) : Linked (comparedWith (.object (linkNode "<=" "c" cascade)))
      [linkNode "<=" "c" cascade] (linkNode "<=" "c" cascade) := .next rfl rfl .here
  have hparts (mode : Mode) (cascade : Value) : List.Forall₂ (ReadsLink mode)
      [comparedWith (.object (linkNode "<=" "c" cascade)), linkNode "<=" "c" cascade]
      [⟨.lt, .ident "b" .load .unknown⟩, ⟨.ltE, .ident "c" .load .unknown⟩] := by
    cases mode <;> exact .cons ⟨"<", rfl, rfl, rfl⟩ (.cons ⟨"<=", rfl, rfl, rfl⟩ .nil)
  have hbad : ∀ link, ¬ ReadsLink .permissive ⟨some "CascadedCmp", []⟩ link := by
    rintro link ⟨token, htoken, -⟩
    cases htoken
  refine ⟨hlinked .null, ?_, ?_⟩
  · exact (convert_comparison rfl (hlinked .null) .load).1 .strict _ _ rfl (hparts .strict .null) rfl
  · obtain ⟨noted, hnoted, hcut⟩ := (convert_comparison rfl (hlinked _) .load).2 _ _ _ rfl
      (hparts .permissive (.object ⟨some "CascadedCmp", []⟩)) rfl rfl hbad
    exact ⟨noted, hnoted, hcut⟩

end Graft.Convert
