/-
The declarators of a variable declaration, in permissive mode.

A declaration goes over its entries twice. First it notes every entry that is no node (`strayNotes`), then it converts the
declarators among them, one after the other. A declarator without a name is noted and costs nothing else, and a function
gives what a node gives. A named variable whose default is no expression (`Spoils`) ends the declaration: what was declared
before it is lost, and what comes after it is not converted.

- `statements_declaration`: what a declaration comes to in the body that holds it.
- `declaration_append`: a declaration of two lists of entries in a row, beside the declarations of each. The statements
  follow each other if no entry spoils the declaration, and are all lost if one does; the notes of entries that are no
  nodes come before those of declarators.
- `spoiled_declaration_differs`: a variable that is lost for the default of another.
-/
import Graft.Proofs.Loops

namespace Graft.Convert

open Graft.Document Attempt

/-- a variable declaration with these other fields and these entries -/
def declaration (fields : List (String × Value)) (entries : List Value) : Node :=
  (⟨some "CVarDef", fields⟩ : Node).insert "declarators" (.array entries)

/-- a named variable whose default is no expression -/
def Spoils (v : Value) : Prop :=
  ∃ m, v = .object m ∧ (stripped m).isTagged "CFuncDeclarator" = false ∧ (stripped m).text? "name" ≠ none ∧
    ∃ fault, (optionalExpr convert (stripped m) "default" .load .permissive).result = .error fault

variable {fields : List (String × Value)}

/-! ## The two passes over the entries -/

/-- the notes on the entries that say something and are no nodes -/
def strayNotes (fields : List (String × Value)) (entries : List Value) : List Fault :=
  entries.flatMap fun v =>
    if v.node?.isSome || v.isAbsent then []
    else [.of (declaration fields []) (.entryNotANode "declarators" v.kindName)]

/-- what the declarators among the entries come to -/
def declaredPieces (fields : List (String × Value)) (entries : List Value) : Attempt (List Piece) :=
  gather (fun v => match v.node? with
    | some m => variablePieces convert (declaration fields []) m
    | none => pure []) entries

theorem strayNotes_append (fields : List (String × Value)) (xs ys : List Value) :
    strayNotes fields (xs ++ ys) = strayNotes fields xs ++ strayNotes fields ys :=
  List.flatMap_append

theorem outcome_entries (fields : List (String × Value)) (entries : List Value) :
    gather (entryNode "declarators" (declaration fields [])) entries .permissive =
      ⟨strayNotes fields entries, .ok (entries.filterMap Value.node?)⟩ := by
  induction entries with
  | nil => rfl
  | cons v entries ih =>
    have hentry : entryNode "declarators" (declaration fields []) v .permissive =
        ⟨strayNotes fields [v], .ok v.node?.toList⟩ := by
      cases hv : v.node? with
      | some m =>
        cases v <;> cases hv
        rfl
      | none =>
        rw [entryNode_other hv]
        cases habsent : v.isAbsent with
        | true => simp [strayNotes, hv, habsent]
        | false =>
          simp only [Bool.false_eq_true, if_false, outcome_bind, outcome_anomaly]
          simp [strayNotes, hv, habsent, Outcome.after]
    have hstray : strayNotes fields (v :: entries) = strayNotes fields [v] ++ strayNotes fields entries :=
      strayNotes_append fields [v] entries
    rw [gather, outcome_bind, hentry, hstray]
    simp only [outcome_bind, ih]
    cases hv : v.node? <;> simp [Outcome.after, hv]

/-- The entries of a declaration do not change what is blamed. -/
theorem agree_declaration (fields : List (String × Value)) (entries : List Value) :
    Agree [] (declaration fields entries) (declaration fields []) :=
  agree_insert_insert (by simp [positionFields]) (by simp) _ _ _

/-- A declaration is its two passes, with the failures of the second contained. -/
theorem convert_declaration (fields : List (String × Value)) (entries : List Value) (b : Binding) :
    convert (.object (declaration fields entries)) b =
      contain .absent (gather (entryNode "declarators" (declaration fields [])) entries >>= fun _ =>
        .group <$> declaredPieces fields entries) := by
  have htag : (declaration fields entries).tag = some "CVarDef" := rfl
  have hkind : "CVarDef" ∈ Kind.cVarDef.tags := by decide
  have hitems : itemsField (declaration fields entries) "declarators" = pure entries := by
    unfold itemsField Node.present? declaration
    rw [Node.get?_insert_self]
    rfl
  have hblame := (agree_declaration fields entries).blame
  have hentry : entryNode "declarators" (declaration fields entries) =
      entryNode "declarators" (declaration fields []) :=
    funext fun v => (settles_entryNode "declarators" v).agree _ _ (agree_declaration fields entries)
  have hpieces : variablePieces convert (declaration fields entries) =
      variablePieces convert (declaration fields []) := by
    funext m
    simp only [variablePieces, Fragment.pieces_agree hblame]
  have hentries : nodeEntries (declaration fields entries) "declarators" =
      gather (entryNode "declarators" (declaration fields [])) entries := by
    rw [← hentry]
    show itemsField (declaration fields entries) "declarators" >>= gather (entryNode "declarators" _) = _
    rw [hitems, pure_bind]
  rw [convert_tagged htag hkind, construct, variablesGroup, hentries, hpieces, ← bind_assoc,
    gather_picked (yields_entryNode "declarators" _)]
  simp only [bind_assoc, map_eq_pure_bind]
  rfl

/-- What comes of a first part without a failure stands before what is contained. -/
theorem outcome_contain_bind {α β : Type} {x : Attempt α} {notes : List Fault} {a : α}
    (h : x .permissive = ⟨notes, .ok a⟩) (fallback : β) (f : α → Attempt β) :
    contain fallback (x >>= f) .permissive = (contain fallback (f a) .permissive).after notes := by
  rw [outcome_contain, outcome_bind, h, outcome_contain]
  cases hr : (f a .permissive).result with
  | error fault => simp [hr, Outcome.after]
  | ok b => simp [hr, Outcome.after]

/-- The statements of a declaration are those of its declarators, or none if a declarator ends it; the notes on entries
that are no nodes come first. -/
theorem statements_declaration (fields : List (String × Value)) (entries : List Value) (owner : Node) :
    statements owner (.object (declaration fields entries)) .permissive =
      (contain [] (List.map Piece.toStmt <$> declaredPieces fields entries) .permissive).after
        (strayNotes fields entries) := by
  have hconvert : convert (.object (declaration fields entries)) .load .permissive =
      (contain .absent (.group <$> declaredPieces fields entries) .permissive).after (strayNotes fields entries) := by
    rw [convert_declaration, outcome_contain_bind (outcome_entries fields entries)]
  rw [outcome_contain, map_eq_pure_bind, outcome_bind] at hconvert ⊢
  cases hpieces : (declaredPieces fields entries .permissive).result with
  | error fault =>
    rw [hpieces] at hconvert
    exact outcome_statements hconvert owner
  | ok ps =>
    rw [hpieces] at hconvert
    exact outcome_statements hconvert owner

/-! ## What ends a declaration -/

/-- A function declarator gives statements, or nothing. -/
theorem outcome_declarator {m : Node} (htag : m.isTagged "CFuncDeclarator" = true) (owner : Node) :
    ∃ ps, ((convert (.object m) .load >>= fun f => ofExcept (f.pieces owner)) .permissive).result = .ok ps := by
  obtain ⟨notes, fragment, hconvert⟩ := (lenient_convert (.object m) .load).outcome
  have hfree : fragment.Free := by
    intro first rest hchain
    obtain ⟨m', hm', hlink⟩ := linksOf_convertWithin _ _ _ .permissive fragment (by rw [← convert, hconvert]) first rest
      hchain
    cases hm'
    obtain htag : m.tag = some "CFuncDeclarator" := beq_iff_eq.1 htag
    rw [htag] at hlink
    exact absurd (Option.some.inj hlink) (by decide)
  obtain ⟨ps, hps⟩ := hfree.pieces_ok owner
  refine ⟨ps, ?_⟩
  simp [outcome_bind, hconvert, outcome_ofExcept, hps]

theorem variablePieces_eq (n m : Node) :
    variablePieces convert n m =
      if (stripped m).isTagged "CFuncDeclarator" then
        convert (.object (stripped m)) .load >>= fun f => ofExcept (f.pieces n)
      else variableOf convert (stripped m) := rfl

/-- A variable fails with its default. -/
theorem variableOf_fails_iff (m : Node) :
    (∃ fault, (variableOf convert m .permissive).result = .error fault) ↔
      m.text? "name" ≠ none ∧ ∃ fault, (optionalExpr convert m "default" .load .permissive).result = .error fault := by
  unfold variableOf
  cases hname : m.text? "name" with
  | none =>
    simp only [outcome_bind, outcome_anomaly]
    simp
  | some name =>
    simp only [outcome_bind]
    cases hdefault : (optionalExpr convert m "default" .load .permissive).result <;> simp

/-- A declarator fails exactly if it spoils the declaration. -/
theorem variablePieces_fails_iff (n m : Node) :
    (∃ fault, (variablePieces convert n m .permissive).result = .error fault) ↔ Spoils (.object m) := by
  have hspoils : Spoils (.object m) ↔ (stripped m).isTagged "CFuncDeclarator" = false ∧
      (stripped m).text? "name" ≠ none ∧
        ∃ fault, (optionalExpr convert (stripped m) "default" .load .permissive).result = .error fault := by
    refine ⟨?_, fun h => ⟨m, rfl, h⟩⟩
    rintro ⟨m', hm', h⟩
    cases hm'
    exact h
  rw [hspoils, variablePieces_eq]
  cases htag : (stripped m).isTagged "CFuncDeclarator" with
  | true =>
    obtain ⟨ps, hps⟩ := outcome_declarator htag n
    simp [hps]
  | false => simpa using variableOf_fails_iff (stripped m)

/-- Exactly an entry that spoils it ends a declaration. -/
theorem declaredPieces_fails_iff (fields : List (String × Value)) (entries : List Value) :
    (∃ fault, (declaredPieces fields entries .permissive).result = .error fault) ↔ ∃ v ∈ entries, Spoils v := by
  rw [declaredPieces, gather_fails_iff]
  refine exists_congr fun v => and_congr_right fun _ => ?_
  cases v with
  | object m => exact variablePieces_fails_iff _ m
  | _ => simp [Value.node?, Spoils]

/-! ## Main result -/

/-- what the declarators of some entries leave in a body -/
def declaredStmts (fields : List (String × Value)) (entries : List Value) : Attempt (List Stmt) :=
  contain [] (List.map Piece.toStmt <$> declaredPieces fields entries)

theorem declaredStmts_sound (fields : List (String × Value)) {entries : List Value} (h : ∀ v ∈ entries, ¬ Spoils v) :
    ∃ notes ps, declaredPieces fields entries .permissive = ⟨notes, .ok ps⟩ ∧
      declaredStmts fields entries .permissive = ⟨notes, .ok (ps.map Piece.toStmt)⟩ := by
  rcases hpieces : declaredPieces fields entries .permissive with ⟨notes, fault | ps⟩
  · obtain ⟨v, hv, hspoils⟩ := (declaredPieces_fails_iff fields entries).1 ⟨fault, by rw [hpieces]⟩
    exact absurd hspoils (h v hv)
  · refine ⟨notes, ps, rfl, ?_⟩
    rw [declaredStmts, outcome_contain, map_eq_pure_bind, outcome_bind, hpieces]
    simp [Outcome.after]

theorem declaredStmts_spoiled (fields : List (String × Value)) {entries : List Value} (h : ∃ v ∈ entries, Spoils v) :
    ∃ notes fault, declaredPieces fields entries .permissive = ⟨notes, .error fault⟩ ∧
      declaredStmts fields entries .permissive = ⟨notes ++ [fault], .ok []⟩ := by
  obtain ⟨fault, hfault⟩ := (declaredPieces_fails_iff fields entries).2 h
  refine ⟨(declaredPieces fields entries .permissive).notes, fault, by rw [← hfault], ?_⟩
  rw [declaredStmts, outcome_contain, map_eq_pure_bind, outcome_bind, hfault]

theorem declaredPieces_append (fields : List (String × Value)) (xs ys : List Value) :
    declaredPieces fields (xs ++ ys) = do
      let first ← declaredPieces fields xs
      let second ← declaredPieces fields ys
      return first ++ second :=
  gather_append _ xs ys

/-- Declarators that were all converted leave their statements if those after them are converted too. -/
theorem declaredStmts_append {xs : List Value} {ps : List Piece} {notes : List Fault}
    (h : declaredPieces fields xs .permissive = ⟨notes, .ok ps⟩) (ys : List Value) :
    declaredStmts fields (xs ++ ys) .permissive =
      match declaredPieces fields ys .permissive with
      | ⟨notes', .ok qs⟩ => ⟨notes ++ notes', .ok (ps.map Piece.toStmt ++ qs.map Piece.toStmt)⟩
      | ⟨notes', .error fault⟩ => ⟨notes ++ (notes' ++ [fault]), .ok []⟩ := by
  have hparts : List.map Piece.toStmt <$> declaredPieces fields (xs ++ ys) = declaredPieces fields xs >>= fun ps =>
      (fun qs => (ps ++ qs).map Piece.toStmt) <$> declaredPieces fields ys := by
    rw [declaredPieces_append]
    simp only [map_eq_pure_bind, bind_assoc, pure_bind]
  rw [declaredStmts, hparts, outcome_contain_bind h, outcome_contain, map_eq_pure_bind, outcome_bind]
  rcases declaredPieces fields ys .permissive with ⟨notes', fault | qs⟩
  · rfl
  · simp [Outcome.after]

/-- Nothing comes after a declarator that ends the declaration. -/
theorem declaredStmts_append_spoiled {xs : List Value} (h : ∃ v ∈ xs, Spoils v) (ys : List Value) :
    declaredStmts fields (xs ++ ys) .permissive = declaredStmts fields xs .permissive := by
  obtain ⟨notes, fault, hfault, hstmts⟩ := declaredStmts_spoiled fields h
  rw [hstmts, declaredStmts, declaredPieces_append, outcome_contain, map_eq_pure_bind, outcome_bind, outcome_bind, hfault]

/-- **One list of declarators after another.** A declaration leaves the statements of its declarators in the body that holds
it, and notes the entries that are no nodes before anything else. Take the declaration of two lists of entries in a row.
- If no entry spoils it, its statements are those of the two declarations in a row, and so are the notes of each of its two
  passes.
- If an entry of the second list spoils it and none of the first does, it leaves nothing, the statements of the first list
  included, and has all the notes of the two declarations.
- If an entry of the first list spoils it, it leaves nothing either, and the declarators of the second list are not
  converted. -/
theorem declaration_append (fields : List (String × Value)) (xs ys : List Value) (owner : Node) :
    ∃ own own' first second,
      statements owner (.object (declaration fields xs)) .permissive = ⟨strayNotes fields xs ++ own, .ok first⟩ ∧
      statements owner (.object (declaration fields ys)) .permissive = ⟨strayNotes fields ys ++ own', .ok second⟩ ∧
      ((∀ v ∈ xs ++ ys, ¬ Spoils v) →
        statements owner (.object (declaration fields (xs ++ ys))) .permissive =
          ⟨strayNotes fields xs ++ strayNotes fields ys ++ (own ++ own'), .ok (first ++ second)⟩) ∧
      ((∀ v ∈ xs, ¬ Spoils v) → (∃ v ∈ ys, Spoils v) → own' ≠ [] ∧ second = [] ∧
        statements owner (.object (declaration fields (xs ++ ys))) .permissive =
          ⟨strayNotes fields xs ++ strayNotes fields ys ++ (own ++ own'), .ok []⟩) ∧
      ((∃ v ∈ xs, Spoils v) → own ≠ [] ∧ first = [] ∧
        statements owner (.object (declaration fields (xs ++ ys))) .permissive =
          ⟨strayNotes fields xs ++ strayNotes fields ys ++ own, .ok []⟩) := by
  have hstatements (entries : List Value) : statements owner (.object (declaration fields entries)) .permissive =
      (declaredStmts fields entries .permissive).after (strayNotes fields entries) :=
    statements_declaration fields entries owner
  have hlenient (entries : List Value) : Lenient (declaredStmts fields entries) := lenient_contain _ _
  obtain ⟨own, first, hfirst⟩ := (hlenient xs).outcome
  obtain ⟨own', second, hsecond⟩ := (hlenient ys).outcome
  refine ⟨own, own', first, second, ?_, ?_, fun hsound => ?_, fun hxs hys => ?_, fun hxs => ?_⟩
  · rw [hstatements, hfirst]
    rfl
  · rw [hstatements, hsecond]
    rfl
  · obtain ⟨hxs, hys⟩ := List.forall_mem_append.1 hsound
    obtain ⟨notes, ps, hps, hfirst'⟩ := declaredStmts_sound fields hxs
    obtain ⟨notes', qs, hqs, hsecond'⟩ := declaredStmts_sound fields hys
    cases hfirst.symm.trans hfirst'
    cases hsecond.symm.trans hsecond'
    rw [hstatements, declaredStmts_append hps, hqs, strayNotes_append]
    rfl
  · obtain ⟨notes, ps, hps, hfirst'⟩ := declaredStmts_sound fields hxs
    obtain ⟨notes', fault, hfault, hsecond'⟩ := declaredStmts_spoiled fields hys
    cases hfirst.symm.trans hfirst'
    cases hsecond.symm.trans hsecond'
    refine ⟨by simp, rfl, ?_⟩
    rw [hstatements, declaredStmts_append hps, hfault, strayNotes_append]
    rfl
  · obtain ⟨notes, fault, -, hfirst'⟩ := declaredStmts_spoiled fields hxs
    cases hfirst.symm.trans hfirst'
    refine ⟨by simp, rfl, ?_⟩
    rw [hstatements, declaredStmts_append_spoiled hxs, hfirst, strayNotes_append]
    rfl

/-- a declarator of this name -/
def declaratorNode (name : String) : Value := .object ⟨some "CNameDeclarator", [("name", .string name)]⟩

/-- a declarator of the name `b` whose default is a statement -/
def statementDefault : Value :=
  .object ⟨some "CNameDeclarator", [("name", .string "b"), ("default", passNode)]⟩

/-- a declarator without a name -/
def unnamedDeclarator : Value := .object ⟨some "CNameDeclarator", []⟩

theorem not_spoils_named (name : String) : ¬ Spoils (declaratorNode name) := by
  rintro ⟨m, hm, -, -, fault, hdefault⟩
  cases hm
  cases hdefault

/-- A text and a declarator without a name are left out of a declaration, and the variables on either side of them are
declared. A default that is a statement takes the variable before it along. -/
theorem declaration_append_mixed :
    (∀ v ∈ [declaratorNode "a", unnamedDeclarator] ++ [.string "x", declaratorNode "b"], ¬ Spoils v) ∧
    (∃ s s', statements ⟨none, []⟩ (.object (declaration [] ([declaratorNode "a", unnamedDeclarator] ++
        [.string "x", declaratorNode "b"]))) .permissive =
      ⟨[.malformed "CVarDef" (.entryNotANode "declarators" "string") .unknown,
        .malformed "CNameDeclarator" .unnamedVariable .unknown], .ok [s, s']⟩) ∧
    (∀ v ∈ [declaratorNode "a"], ¬ Spoils v) ∧ (∃ v ∈ [statementDefault], Spoils v) ∧
    (statements ⟨none, []⟩ (.object (declaration [] ([declaratorNode "a"] ++ [statementDefault]))) .permissive).result =
      .ok [] := by
  have hsound : ∀ v ∈ [declaratorNode "a", unnamedDeclarator] ++ [.string "x", declaratorNode "b"], ¬ Spoils v := by
    intro v hv
    simp only [List.cons_append, List.nil_append, List.mem_cons, List.not_mem_nil, or_false] at hv
    rcases hv with rfl | rfl | rfl | rfl
    · exact not_spoils_named "a"
    · rintro ⟨m, hm, -, hname, -⟩
      cases hm
      exact hname rfl
    · rintro ⟨m, hm, -⟩
      cases hm
    · exact not_spoils_named "b"
  have hnamed : ∀ v ∈ [declaratorNode "a"], ¬ Spoils v := List.forall_mem_singleton.2 (not_spoils_named "a")
  have hspoiled : ∃ v ∈ [statementDefault], Spoils v :=
    ⟨_, .head _, _, rfl, rfl, by decide, .of ⟨some "CNameDeclarator", []⟩ .statementAsExpression, rfl⟩
  refine ⟨hsound, ?_, hnamed, hspoiled, ?_⟩
  · obtain ⟨own, own', first, second, hfirst, hsecond, hwhole, -⟩ := declaration_append []
      [declaratorNode "a", unnamedDeclarator] [.string "x", declaratorNode "b"] ⟨none, []⟩
    cases hfirst
    cases hsecond
    exact ⟨_, _, hwhole hsound⟩
  · obtain ⟨own, own', first, second, -, -, -, hlost, -⟩ :=
      declaration_append [] [declaratorNode "a"] [statementDefault] ⟨none, []⟩
    rw [(hlost hnamed hspoiled).2.2]

/-- A variable that is declared on its own is lost where a declarator beside it has a statement for its default. -/
theorem spoiled_declaration_differs :
    ∃ s fault,
      statements ⟨none, []⟩ (.object (declaration [] [declaratorNode "a"])) .permissive = ⟨[], .ok [s]⟩ ∧
      statements ⟨none, []⟩ (.object (declaration [] [statementDefault])) .permissive = ⟨[fault], .ok []⟩ ∧
      statements ⟨none, []⟩ (.object (declaration [] ([declaratorNode "a"] ++ [statementDefault]))) .permissive =
        ⟨[fault], .ok []⟩ ∧
      statements ⟨none, []⟩ (.object (declaration [] ([declaratorNode "a"] ++ [statementDefault]))) .permissive ≠
        ⟨[] ++ [fault], .ok ([s] ++ [])⟩ :=
  ⟨_, _, rfl, rfl, rfl, nofun⟩

end Graft.Convert
