/-
Conversion keeps its promise to the tree.

With a converter that builds fragments that fit, every construction makes a good node of its parts: there is one lemma for
each, step by step as the construction goes, and `fits_construct` puts them together by kind. What an expression binds is
settled by its kind: names, tuples and lists are bound as their place calls for, and any other expression binds nothing
(`Read`). A statement is never that of an expression (`Stands`), but for the one that a document writes as such, which is a
group. By induction on the depth, the converter itself builds fragments that fit (`builds_convert`).
-/
import Graft.Proofs.Depth
import Graft.Proofs.Fits

namespace Graft.Convert

open Graft.Document Attempt Subtree

variable {root n : Node} {c : Converter} {b : Binding}

/-! ## Expressions without parts -/

theorem read_num (pos : Position) (digits : String) : Read root (.num pos digits) := ⟨good_num, fun _ => .other rfl⟩

theorem read_keyword (id : String) (pos : Position) : Read root (.keyword id pos) := ⟨good_name, fun _ => .reserved⟩

theorem exprFits_name (v : Value) (pos : Position) (id : String) (b : Binding) :
    ExprFits root v b (.ident id b pos) := ⟨good_name, fun _ => .name⟩

theorem read_string (n : Node) (name : String) (marks : StringMarks) : Read root (stringExpr n name marks) :=
  ⟨good_str (fun h => absurd rfl h) nofun, fun _ => .other rfl⟩

theorem read_sizeof (n : Node) : Read root (sizeofExpr n) :=
  ⟨good_call good_name argumentsGood_none, fun _ => .other rfl⟩

theorem yields_name (v : Value) (n : Node) (b : Binding) : Yields (nameExpr n b) (ExprFits root v b) :=
  yields_then fun id => yields_pure (exprFits_name v _ id b)

theorem yields_int (n : Node) : Yields (intExpr n) (Read root) := yields_then fun _ => yields_pure (read_num _ _)

theorem yields_bool (n : Node) : Yields (boolExpr n) (Read root) := yields_then fun _ => yields_pure (read_keyword _ _)

/-! ## Statements that are no expressions -/

/-- the statement is good, and stands for no expression -/
structure Stands (root : Node) (s : Stmt) : Prop where
  good : Good (GroupedAt root) .load (.stmt s)
  apart : ∀ pos e, s ≠ .expr pos e

theorem Stands.fits {s : Stmt} (h : Stands root s) (v : Value) : StmtFits root v s := ⟨h.good, fun _ => h.apart⟩

/-- A name is always bound where it is assigned by a declaration. -/
theorem stands_assignName {value : Expr} (name : String) (pos pos' : Position)
    (h : Good (GroupedAt root) .load (.expr value)) : Stands root (.assign pos [.ident name .store pos'] value) :=
  ⟨good_assign (fun _ => .name) good_name h, nofun⟩

theorem yields_typedef (n : Node) : Yields (typedefStmt n) (Stands root) := by
  refine yields_then fun declarator => yields_then fun name => yields_pure ?_
  refine stands_assignName name _ _ ?_
  have hnamed : ∀ (m : Node) e, namedExpr? m .load = some e → Good (GroupedAt root) .load (.expr e) := by
    intro m e he
    obtain ⟨id, -, rfl⟩ := Option.map_eq_some_iff.1 he
    exact good_name
  cases hbase : baseTypeName? n .load with
  | none => exact good_name
  | some e =>
    obtain ⟨base, -, he⟩ := Option.bind_eq_some_iff.1 hbase
    rcases Option.or_eq_some_iff.1 he with he | ⟨-, he⟩
    · exact hnamed base e he
    · obtain ⟨inner, -, he⟩ := Option.bind_eq_some_iff.1 he
      exact hnamed inner e he

theorem yields_enumMember (n : Node) : Yields (enumMember n) fun ss => ∀ s ∈ ss, Stands root s := by
  unfold enumMember
  split
  · exact yields_pure (List.forall_mem_singleton.2 (stands_assignName _ _ _ good_num))
  · exact yields_then fun _ => yields_pure nofun

section Constructions

variable (hc : Builds root c) (hn : Holds (.object root) (.object n))

include hc hn

/-! ## Operations -/

theorem yields_binOp : Yields (binOpExpr c n) (Read root) := by
  refine yields_bind (yields_operand hc hn "operand1") fun left hleft => ?_
  refine yields_bind (yields_operand hc hn "operand2") fun right hright => ?_
  refine yields_then fun token => yields_pure ?_
  exact ⟨good_binOp hleft hright, fun _ => .other rfl⟩

theorem yields_boolOp : Yields (boolOpExpr c n) (Read root) := by
  refine yields_bind (yields_operand hc hn "operand1") fun left hleft => ?_
  refine yields_bind (yields_operand hc hn "operand2") fun right hright => ?_
  refine yields_then fun token => yields_pure ?_
  exact ⟨good_boolOp hleft hright, fun _ => .other rfl⟩

theorem yields_comparison : Yields (comparisonLinks c n) fun links =>
    ∀ link ∈ links.1 :: links.2, Good (GroupedAt root) .load (.expr link.operand) := by
  refine yields_then fun token => ?_
  refine yields_bind (yields_operand hc hn "operand2") fun operand hoperand => ?_
  refine yields_bind (yields_field hc hn "cascade" rfl) fun f hf => ?_
  refine yields_bind (yields_ofExcept fun rest hrest => fits_links hf hrest) fun rest hrest => yields_pure ?_
  exact List.forall_mem_cons.2 ⟨hoperand, hrest⟩

/-- The operators and the operands are those of the same links. -/
theorem yields_compare : Yields (compareExpr c n) (Read root) := by
  refine yields_bind (yields_operand hc hn "operand1") fun left hleft => ?_
  refine yields_bind (yields_comparison hc hn) fun links hlinks => yields_pure ?_
  refine ⟨good_compare (by simp) (by simp) hleft fun e he => ?_, fun _ => .other rfl⟩
  obtain ⟨link, hlink, rfl⟩ := List.mem_map.1 he
  exact hlinks link hlink

theorem yields_cascade (v : Value) (b : Binding) : Yields (cascadeLinks c n) (Fits root v b) :=
  yields_bind (yields_comparison hc hn) fun _ hlinks => yields_pure hlinks

theorem yields_cond : Yields (condExpr c n) (Read root) := by
  refine yields_bind (yields_operand hc hn "test") fun test htest => ?_
  refine yields_bind (yields_operand hc hn "true_val") fun body hbody => ?_
  refine yields_bind (yields_operand hc hn "false_val") fun orelse horelse => yields_pure ?_
  exact ⟨good_ifExp htest hbody horelse, fun _ => .other rfl⟩

theorem yields_await : Yields (awaitExpr c n) (Read root) := by
  refine yields_bind (yields_operand hc hn "arg") fun value hvalue => yields_pure ?_
  exact ⟨good_await hvalue, fun _ => .other rfl⟩

theorem yields_yield : Yields (yieldExpr c n) (Read root) := by
  refine yields_bind (yields_operand? hc hn "arg") fun value hvalue => yields_pure ?_
  exact ⟨good_yield hvalue, fun _ => .other rfl⟩

/-! ## Displays -/

/-- A display is bound as its elements are, which have a group among them if it does. -/
theorem yields_tuple (hb : b.inner = b) (htag : n.tag = some "Tuple") :
    Yields (tupleExpr c n b) (ExprFits root (.object n) b) := by
  refine yields_bind (yields_exprs hc hn "args" hb) fun elts helts => yields_pure ?_
  refine ⟨good_tuple hb fun e he => (helts e he).good, fun hplain => .tuple fun e he => (helts e he).bound ?_⟩
  exact fun h => hplain (.element htag (by simp [displayTags]) h)

theorem yields_list (hb : b.inner = b) (htag : n.tag = some "List") :
    Yields (listExpr c n b) (ExprFits root (.object n) b) := by
  refine yields_bind (yields_exprs hc hn "args" hb) fun elts helts => yields_pure ?_
  refine ⟨good_list hb fun e he => (helts e he).good, fun hplain => .list fun e he => (helts e he).bound ?_⟩
  exact fun h => hplain (.element htag (by simp [displayTags]) h)

theorem yields_set : Yields (setExpr c n) (Read root) := by
  refine yields_bind (yields_operands hc hn "args") fun elts helts => yields_pure ?_
  exact ⟨good_set helts, fun _ => .other rfl⟩

theorem yields_dictEntry : Yields (dictEntry c n) fun entry =>
    Good (GroupedAt root) .load (.expr entry.1) ∧ Good (GroupedAt root) .load (.expr entry.2) := by
  refine yields_bind (yields_operand hc hn "key") fun key hkey => ?_
  exact yields_bind (yields_operand hc hn "value") fun value hvalue => yields_pure ⟨hkey, hvalue⟩

theorem yields_dict : Yields (dictExpr c n) (Read root) := by
  refine yields_bind (yields_objectItems n _ _) fun items hitems => ?_
  refine yields_bind (yields_mapM fun m hm => yields_dictEntry hc (hn.trans (hitems m hm))) fun entries hentries => ?_
  refine yields_pure ⟨good_dict (by simp) (fun e he => ?_) fun e he => ?_, fun _ => .other rfl⟩
  · obtain ⟨entry, hentry, rfl⟩ := List.mem_map.1 he
    exact (hentries entry hentry).1
  · obtain ⟨entry, hentry, rfl⟩ := List.mem_map.1 he
    exact (hentries entry hentry).2

theorem yields_segment (m : Node) :
    Yields (segmentStmts c m n) fun ss => ∀ s ∈ ss, Good (GroupedAt root) .load (.stmt s) := by
  have hstmts : ∀ v f, Fits root v .load f →
      Yields (ofExcept (f.stmts m)) fun ss => ∀ s ∈ ss, Good (GroupedAt root) .load (.stmt s) :=
    fun v f hf => yields_ofExcept fun ss hss => fits_stmts hf hss
  unfold segmentStmts
  cases n.isTagged "FormattedValue" with
  | true => exact yields_bind (yields_field hc hn "value" rfl) (hstmts _)
  | false => exact yields_bind (hc.fits hn rfl) (hstmts _)

theorem yields_joinedStr : Yields (joinedStrExpr c n) (Read root) := by
  refine yields_bind (yields_nodeEntries n "values") fun entries hentries => ?_
  refine yields_bind (yields_gather fun m hm => yields_segment hc (hn.trans (hentries m hm)) n) fun segments hsegments => ?_
  exact yields_pure ⟨good_str (fun _ => rfl) hsegments, fun _ => .other rfl⟩

/-! ## Calls -/

theorem yields_simpleCall : Yields (simpleCallExpr c n) (Read root) := by
  refine yields_bind (yields_operand hc hn "function") fun func hfunc => ?_
  refine yields_bind (yields_operands hc hn "args") fun args hargs => yields_pure ?_
  exact ⟨good_call hfunc (argumentsGood_positional hargs), fun _ => .other rfl⟩

theorem yields_keywordItem : Yields (keywordItem c n) fun k => Good (GroupedAt root) .load (.keyword k) := by
  refine yields_then fun key => yields_then fun name => ?_
  exact yields_bind (yields_operand hc hn "value") fun value hvalue => yields_pure (good_keyword rfl hvalue)

theorem yields_positional : Yields (positionalArgs c n) fun args =>
    (∀ e ∈ args.1, Good (GroupedAt root) .load (.expr e)) ∧
      ∀ e, args.2 = some e → Good (GroupedAt root) .load (.expr e) := by
  have hlist : ∀ m name, Holds (.object root) (.object m) →
      Yields (exprsField c m name .load >>= fun args => pure (args, none)) fun args =>
        (∀ e ∈ args.1, Good (GroupedAt root) .load (.expr e)) ∧
          ∀ e, args.2 = some e → Good (GroupedAt root) .load (.expr e) :=
    fun m name hm => yields_bind (yields_operands hc hm name) fun args hargs => yields_pure ⟨hargs, nofun⟩
  unfold positionalArgs
  split
  · rename_i m hget
    have hm : Holds (.object root) (.object m) := hn.trans (.field (Node.node?_eq_some.1 hget) (.self _))
    split
    · exact hlist m "args" hm
    · split
      · exact yields_bind (yields_operand? hc hm "arg") fun star hstar => yields_pure ⟨nofun, hstar⟩
      · exact hlist n "positional_args" hn
  · exact hlist n "positional_args" hn

theorem yields_keywords : Yields (keywordArgs c n) fun args =>
    (∀ k ∈ args.1, Good (GroupedAt root) .load (.keyword k)) ∧
      ∀ e, args.2 = some e → Good (GroupedAt root) .load (.expr e) := by
  have hstar : Yields (optionalExpr c n "keyword_args" .load >>= fun star => pure ([], star)) fun args =>
      (∀ k ∈ args.1, Good (GroupedAt root) .load (.keyword k)) ∧
        ∀ e, args.2 = some e → Good (GroupedAt root) .load (.expr e) :=
    yields_bind (yields_operand? hc hn "keyword_args") fun star hstar => yields_pure ⟨nofun, hstar⟩
  unfold keywordArgs
  split
  · rename_i m hget
    have hm : Holds (.object root) (.object m) := hn.trans (.field (Node.node?_eq_some.1 hget) (.self _))
    split
    · refine yields_bind (yields_objectItems m _ _) fun items hitems => ?_
      refine yields_bind (yields_mapM fun i hi => yields_keywordItem hc (hm.trans (hitems i hi))) fun ks hks => ?_
      exact yields_pure ⟨hks, nofun⟩
    · exact hstar
  · exact hstar

theorem yields_generalCall : Yields (generalCallExpr c n) (Read root) := by
  refine yields_bind (yields_operand hc hn "function") fun func hfunc => ?_
  refine yields_bind (yields_positional hc hn) fun positional hpositional => ?_
  refine yields_bind (yields_keywords hc hn) fun keywords hkeywords => yields_pure ?_
  exact ⟨good_call hfunc ⟨hpositional.1, hkeywords.1, hpositional.2, hkeywords.2⟩, fun _ => .other rfl⟩

/-! ## Statements -/

/-- What a group holds was read, and is put in the place of the group. -/
theorem yields_statList (htag : n.tag = some "StatList") (b : Binding) :
    Yields (statListGroup c n) (Fits root (.object n) b) := by
  refine yields_bind (yields_field hc hn "stats" rfl) fun f hf => ?_
  refine yields_bind (yields_ofExcept fun ps hps => fits_pieces hf hps) fun ps hps => yields_pure fun p hp => ?_
  have hgrouped : Grouped (.object n) := .here htag (by simp [groupTags])
  have hpiece : PieceFits root (held n "stats") .load p := hps p hp
  cases p with
  | expr e => exact ⟨(ExprFits.good hpiece).anywhere b, fun h => absurd hgrouped h⟩
  | stmt s => exact ⟨StmtFits.good hpiece, fun h => absurd hgrouped h⟩

theorem yields_exprStat (htag : n.tag = some "ExprStat") : Yields (exprStatStmt c n) (StmtFits root (.object n)) := by
  refine yields_bind (yields_operand hc hn "expr") fun value hvalue => yields_pure ?_
  exact ⟨good_ofExpr (good_moveTo hvalue _), fun h => absurd (.here htag (by simp [groupTags])) h⟩

theorem yields_assignment (htarget : targetField? n = some "lhs") : Yields (assignmentStmt c n) (Stands root) := by
  refine yields_bind (yields_required hc hn "lhs" rfl) fun target hfits => ?_
  refine yields_bind (yields_operand hc hn "rhs") fun value hvalue => yields_pure ?_
  refine ⟨good_assign (fun hat => hfits.bound fun h => hat ?_) hfits.good hvalue, nofun⟩
  exact ⟨n, "lhs", hn, rfl, htarget, h⟩

theorem yields_augAssignment (htarget : targetField? n = some "lhs") :
    Yields (augAssignmentStmt c n) (Stands root) := by
  refine yields_bind (yields_required hc hn "lhs" rfl) fun target hfits => ?_
  refine yields_bind (yields_operand hc hn "rhs") fun value hvalue => ?_
  refine yields_then fun token => yields_pure ?_
  refine ⟨good_augAssign (fun hat => hfits.bound fun h => hat ?_) hfits.good hvalue, nofun⟩
  exact ⟨n, "lhs", hn, rfl, htarget, h⟩

/-- a clause of an `if` is good: its condition and its statements -/
structure ClauseGood (root : Node) (clause : Clause) : Prop where
  test : Good (GroupedAt root) .load (.expr clause.test)
  body : ∀ s ∈ clause.body, Good (GroupedAt root) .load (.stmt s)

theorem yields_clauses : Yields (clausesOf c n) fun clauses => ∀ clause ∈ clauses, ClauseGood root clause := by
  refine yields_mapM fun v hv => yields_bind (yields_need fun m hm => hm) fun m hm => ?_
  have hholds : Holds (.object n) v := by
    cases hget : n.present? "if_clauses" with
    | none => simp [hget] at hv
    | some w =>
      cases w with
      | array items =>
        have hitem : v ∈ items := by simpa [hget, Value.items?] using hv
        exact .field (Option.filter_eq_some_iff.1 hget).1 (.item hitem (.self v))
      | _ => simp [hget, Value.items?] at hv
  have hm : Holds (.object root) (.object m) := by
    cases v with
    | object m' =>
      cases hm
      exact hn.trans hholds
    | _ => cases hm
  refine yields_bind (yields_operand hc hm "condition") fun test htest => ?_
  exact yields_bind (yields_stmts hc hm "body") fun body hbody => yields_pure ⟨htest, hbody⟩

omit hc hn in
/-- The clauses are statements in each other, the last of which has the `else` block. -/
theorem stands_clauseChain {orelse : Option Suite} {first : Clause} {rest : List Clause}
    (horelse : BlockGood (GroupedAt root) orelse) (h : ∀ clause ∈ first :: rest, ClauseGood root clause) :
    Stands root (clauseChain orelse first rest) := by
  induction rest generalizing first with
  | nil =>
    have hfirst : ClauseGood root first := h first List.mem_cons_self
    exact ⟨good_ifElse hfirst.test hfirst.body horelse, nofun⟩
  | cons next rest ih =>
    obtain ⟨hfirst, hothers⟩ := List.forall_mem_cons.1 h
    have hnext : Stands root (clauseChain orelse next rest) := ih hothers
    refine ⟨good_ifElse hfirst.test hfirst.body fun body hbody => ?_, nofun⟩
    cases hbody
    exact List.forall_mem_singleton.2 hnext.good

theorem yields_elseOf : Yields (elseOf c n) (BlockGood (GroupedAt root)) := by
  unfold elseOf
  split
  · refine yields_bind (yields_stmts hc hn "else_clause") fun body hbody => yields_pure fun suite hsuite => ?_
    cases hsuite
    exact hbody
  · exact yields_pure nofun

theorem yields_if : Yields (ifStmt c n) (Stands root) := by
  rw [ifStmt_eq]
  refine yields_bind (yields_clauses hc hn) fun clauses hclauses => ?_
  cases clauses with
  | nil => exact yields_fail
  | cons first rest =>
    exact yields_bind (yields_elseOf hc hn) fun orelse horelse => yields_pure (stands_clauseChain horelse hclauses)

omit hc hn in
theorem blockGood_filled {body : List Stmt} (h : ∀ s ∈ body, Good (GroupedAt root) .load (.stmt s)) :
    BlockGood (GroupedAt root) (filledSuite body) := by
  intro suite hsuite
  unfold filledSuite at hsuite
  split at hsuite
  · cases hsuite
  · cases hsuite
    exact h

omit hc hn in
theorem filledSuite_ne_nil {body : List Stmt} {suite : Suite} (h : filledSuite body = some suite) :
    suite.body ≠ [] := by
  unfold filledSuite at h
  split at h
  · cases h
  · rename_i hbody
    cases h
    simpa using hbody

theorem yields_while : Yields (whileStmt c n) (Stands root) := by
  refine yields_bind (yields_operand hc hn "condition") fun test htest => ?_
  refine yields_bind (yields_stmts hc hn "body") fun body hbody => ?_
  refine yields_bind (yields_stmts hc hn "else_clause") fun orelse horelse => yields_pure ?_
  exact ⟨good_while (fun _ hsuite => filledSuite_ne_nil hsuite) htest hbody (blockGood_filled horelse), nofun⟩

theorem yields_forElse : Yields (forElse c n) (BlockGood (GroupedAt root)) := by
  unfold forElse
  split
  · refine yields_bind (yields_stmts hc hn "stats") fun body hbody => yields_pure fun suite hsuite => ?_
    cases hsuite
    exact hbody
  · refine yields_bind (hc.fits hn rfl) fun f hf => ?_
    refine yields_bind (yields_ofExcept fun body hbody => fits_stmts hf hbody) fun body hbody => yields_pure ?_
    exact blockGood_filled hbody

theorem yields_for (htarget : targetField? n = some "target") (isAsync : Bool) :
    Yields (forStmt c isAsync n) (Stands root) := by
  refine yields_bind (yields_required hc hn "target" rfl) fun target hfits => ?_
  refine yields_bind (yields_need fun it hit => hit) fun it hit => ?_
  have hholds : Holds (.object root) (.object it) := hn.trans (.field (Node.node?_eq_some.1 hit) (.self _))
  refine yields_bind (yields_operand hc hholds "sequence") fun iter hiter => ?_
  refine yields_bind (yields_stmts hc hn "body") fun body hbody => ?_
  have haimed : ¬ GroupedAt root (positionOf n) → target.Bound .store := by
    intro hat
    refine hfits.bound fun h => hat ?_
    exact ⟨n, "target", hn, rfl, htarget, h⟩
  cases hclause : n.node? "else_clause" with
  | none => exact yields_pure ⟨good_for haimed hfits.good hiter hbody nofun, nofun⟩
  | some clause =>
    have hin : Holds (.object root) (.object clause) := hn.trans (.field (Node.node?_eq_some.1 hclause) (.self _))
    refine yields_bind (yields_forElse hc hin) fun orelse horelse => yields_pure ?_
    exact ⟨good_for haimed hfits.good hiter hbody horelse, nofun⟩

theorem yields_assert : Yields (assertStmt c n) (Stands root) := by
  refine yields_bind (yields_operand hc hn "cond") fun test htest => ?_
  refine yields_bind (yields_operand? hc hn "value") fun msg hmsg => yields_pure ?_
  exact ⟨good_assertion htest hmsg, nofun⟩

theorem yields_return : Yields (returnStmt c n) (Stands root) := by
  refine yields_bind (yields_operand? hc hn "value") fun value hvalue => yields_pure ?_
  exact ⟨good_ret hvalue, nofun⟩

/-! ## Parameters and definitions -/

/-- a parameter is named for its sort, and its default and annotation are good -/
structure ParameterGood (root : Node) (p : Parameter) : Prop where
  name : p.name.IsParameter (if p.keywordOnly then .kwOnlyParam else .param)
  default : ∀ e, p.default = some e → Good (GroupedAt root) .load (.expr e)
  annotation : ∀ e, p.annotation = some e → Good (GroupedAt root) .load (.expr e)

omit hc hn in
/-- Whatever a parameter is named after, its name is not empty. -/
theorem isParameter_name {e : Expr} (h : parameterName? n b = some e) : e.IsParameter b := by
  have hnamed : ∀ m : Node, namedExpr? m b = some e → e.IsParameter b := by
    intro m he
    obtain ⟨id, hid, rfl⟩ := Option.map_eq_some_iff.1 he
    have hfilled : (!id.isEmpty) = true := (Option.filter_eq_some_iff.1 hid).2
    exact ⟨_, id, rfl, by simpa using hfilled⟩
  rcases Option.or_eq_some_iff.1 h with he | ⟨-, he⟩
  · obtain ⟨declarator, -, he⟩ := Option.bind_eq_some_iff.1 he
    exact hnamed declarator he
  · obtain ⟨base, -, he⟩ := Option.bind_eq_some_iff.1 he
    rcases Option.or_eq_some_iff.1 he with he | ⟨-, he⟩
    · exact hnamed base he
    · obtain ⟨inner, -, he⟩ := Option.bind_eq_some_iff.1 he
      exact hnamed inner he

theorem yields_parameter {v : Value} (hv : Holds (.object n) v) :
    Yields (parameter c n v) fun ps => ∀ p ∈ ps, ParameterGood root p := by
  refine yields_bind (yields_need fun m hm => hm) fun m hm => ?_
  have hm : Holds (.object root) (.object m) := by
    cases v with
    | object m' =>
      cases hm
      exact hn.trans hv
    | _ => cases hm
  simp only
  split
  · exact yields_then fun _ => yields_pure nofun
  · rename_i name hname
    refine yields_bind (yields_operand? hc hm "default") fun default hdefault => ?_
    refine yields_bind (yields_operand? hc hm "annotation") fun annotation hannotation => yields_pure ?_
    exact List.forall_mem_singleton.2 ⟨isParameter_name hname, hdefault, hannotation⟩

omit hc hn in
theorem collector?_role {name : String} {role : Role} {token : NameToken} (h : collector? n name role = some token) :
    token.role = role := by
  obtain ⟨m, -, hm⟩ := Option.bind_eq_some_iff.1 h
  obtain ⟨id, -, rfl⟩ := Option.map_eq_some_iff.1 hm
  rfl

/-- The lists that run in parallel are made of the same parameters. -/
theorem yields_parameters : Yields (parameters c n) fun p => Good (GroupedAt root) .load (.parameters p) := by
  refine yields_bind (yields_itemsField n "args") fun items hitems => ?_
  refine yields_bind (yields_gather fun v hv => yields_parameter hc hn (hitems v hv)) fun all hall => yields_pure ?_
  have hgood : ∀ p ∈ all, ∀ e, p.default = some e ∨ p.annotation = some e → Good (GroupedAt root) .load (.expr e) := by
    intro p hp e he
    rcases he with he | he
    · exact (hall p hp).default e he
    · exact ParameterGood.annotation (hall p hp) e he
  refine good_parameters ⟨by simp, by simp, by simp, by simp, fun e he => ?_, fun e he => ?_,
    fun token htoken => collector?_role htoken, fun token htoken => collector?_role htoken⟩ fun e he => ?_
  · obtain ⟨p, hp, rfl⟩ := List.mem_map.1 he
    obtain ⟨hmem, hsort⟩ := List.mem_filter.1 hp
    have hname := (hall p hmem).name
    rwa [if_neg (by simpa using hsort)] at hname
  · obtain ⟨p, hp, rfl⟩ := List.mem_map.1 he
    obtain ⟨hmem, hsort⟩ := List.mem_filter.1 hp
    have hname := (hall p hmem).name
    rwa [if_pos hsort] at hname
  · simp only [List.mem_append, List.mem_map, List.mem_filter] at he
    rcases he with ((⟨p, ⟨hp, -⟩, he⟩ | ⟨p, ⟨hp, -⟩, he⟩) | ⟨p, ⟨hp, -⟩, he⟩) | ⟨p, ⟨hp, -⟩, he⟩
    · exact hgood p hp e (.inl he)
    · exact hgood p hp e (.inr he)
    · exact hgood p hp e (.inl he)
    · exact hgood p hp e (.inr he)

omit hc hn in
/-- A name becomes a plain decorator at its position, and a call is taken apart. -/
theorem good_decoratorOf {e : Expr} {d : Decorator} (h : decoratorOf? e = some d)
    (he : Good (GroupedAt root) .load (.expr e)) : Good (GroupedAt root) .load (.decorator d) := by
  unfold decoratorOf? at h
  split at h
  · rename_i pos id binding reserved
    cases h
    exact good_decorator (fun _ => ⟨⟨id, binding, reserved, rfl⟩, rfl⟩) he (forall_arguments argumentsGood_none)
  · rename_i pos func args
    cases h
    obtain ⟨hfunc, hargs⟩ := List.forall_mem_append.1 (throughout_iff.1 he).2
    exact good_decorator nofun (forall_exprs.1 hfunc func (List.mem_singleton.2 rfl)) hargs
  · cases h

theorem yields_decorator :
    Yields (decorator c n) fun ds => ∀ d ∈ ds, Good (GroupedAt root) .load (.decorator d) := by
  refine yields_bind (yields_operand? hc hn "decorator") fun expr hexpr => ?_
  cases expr with
  | none => exact yields_pure nofun
  | some e =>
    simp only
    split
    · rename_i d hd
      exact yields_pure (List.forall_mem_singleton.2 (good_decoratorOf hd (hexpr e rfl)))
    · exact yields_then fun _ => yields_pure nofun

theorem yields_decorators :
    Yields (decorators c n) fun ds => ∀ d ∈ ds, Good (GroupedAt root) .load (.decorator d) := by
  refine yields_bind (yields_nodeEntries n "decorators") fun entries hentries => ?_
  exact yields_gather fun m hm => yields_decorator hc (hn.trans (hentries m hm))

theorem yields_function : Yields (functionStmt c n) (Stands root) := by
  refine yields_then fun name => ?_
  refine yields_bind (yields_parameters hc hn) fun params hparams => ?_
  refine yields_bind (yields_decorators hc hn) fun decs hdecs => ?_
  refine yields_bind (yields_stmts hc hn "body") fun body hbody => yields_pure ?_
  exact ⟨good_functionDef rfl hparams hbody hdecs, nofun⟩

/-- The elements of a lone tuple are read as the tuple was. -/
theorem yields_bases :
    Yields (classBases c n) fun bases => ∀ e ∈ bases, Good (GroupedAt root) .load (.expr e) := by
  refine yields_bind (yields_operands hc hn "bases") fun bases hbases => ?_
  split
  · rename_i pos elts binding comma
    have htuple : Good (GroupedAt root) .load (.expr (.tuple pos elts binding comma)) :=
      hbases _ (List.mem_singleton.2 rfl)
    exact yields_pure (forall_exprs.1 (throughout_iff.1 htuple).2)
  · exact yields_pure hbases

theorem yields_class (name : String) (distance : NameDistance) : Yields (classStmt c name distance n) (Stands root) := by
  refine yields_then fun id => ?_
  refine yields_bind (yields_bases hc hn) fun bases hbases => ?_
  refine yields_bind (yields_stmts hc hn "body") fun body hbody => ?_
  refine yields_bind (yields_decorators hc hn) fun decs hdecs => yields_pure ?_
  exact ⟨good_classDef rfl hbases hbody hdecs, nofun⟩

/-! ## C declarations -/

theorem yields_declaredFunction {rest : Attempt (List Decorator × List Stmt)}
    (hrest : Yields rest fun last => (∀ d ∈ last.1, Good (GroupedAt root) .load (.decorator d)) ∧
      ∀ s ∈ last.2, Good (GroupedAt root) .load (.stmt s)) :
    Yields (declaredFunction c n rest) (Stands root) := by
  refine yields_then fun base => yields_then fun name => ?_
  refine yields_bind (yields_parameters hc hn) fun params hparams => ?_
  refine yields_bind hrest fun last hlast => yields_pure ?_
  exact ⟨good_functionDef rfl hparams hlast.2 hlast.1, nofun⟩

theorem yields_functionDeclarator : Yields (functionDeclaratorStmt c n) (Stands root) :=
  yields_declaredFunction hc hn (yields_pure ⟨nofun, nofun⟩)

theorem yields_cFunction : Yields (cFunctionStmt c n) (Stands root) := by
  refine yields_bind (yields_need fun d hd => hd) fun d hd => ?_
  obtain ⟨m, hm, rfl⟩ := Option.map_eq_some_iff.1 hd
  have hd : Holds (.object root) (.object (stripped m)) :=
    hn.trans (.field (Node.node?_eq_some.1 hm) (holds_stripped m))
  refine yields_declaredFunction hc hd ?_
  refine yields_bind (yields_decorators hc hn) fun decs hdecs => ?_
  exact yields_bind (yields_stmts hc hn "body") fun body hbody => yields_pure ⟨hdecs, hbody⟩

theorem yields_struct : Yields (structStmt c n) (Stands root) := by
  refine yields_then fun name => ?_
  refine yields_bind (yields_stmts hc hn "attributes") fun body hbody => yields_pure ?_
  exact ⟨good_classDef rfl nofun hbody nofun, nofun⟩

theorem yields_enum (v : Value) (b : Binding) : Yields (enumFragment c n) (Fits root v b) := by
  refine yields_then fun items => ?_
  have hmembers : Yields (Attempt.gather enumMember items) fun ss => ∀ s ∈ ss, Stands root s :=
    yields_gather fun m _ => yields_enumMember m
  refine yields_bind hmembers fun members hmembers => ?_
  split
  · refine yields_pure fun p hp => ?_
    obtain ⟨s, hs, rfl⟩ := List.mem_map.1 hp
    exact (hmembers s hs).fits v
  · refine yields_bind (yields_decorators hc hn) fun decs hdecs => yields_pure ?_
    exact ⟨good_classDef rfl nofun (fun s hs => (hmembers s hs).good) hdecs, fun _ => nofun⟩

/-- A function among the declarators is converted as if it was to be read, which makes no difference for it. -/
theorem yields_variable {m : Node} (hm : Holds (.object n) (.object m)) {v : Value} (hb : b.inner = b) :
    Yields (variablePieces c n m) fun ps => ∀ p ∈ ps, PieceFits root v b p := by
  have hd : Holds (.object root) (.object (stripped m)) := hn.trans (hm.trans (holds_stripped m))
  unfold variablePieces
  simp only
  split
  · rename_i hfunction
    have htag : (stripped m).tag = some "CFuncDeclarator" := beq_iff_eq.1 hfunction
    have hreads : ¬ Binds (stripped m) := by simp [Binds, displayTags, htag]
    have hplain : ¬ Grouped (.object (stripped m)) := by
      rw [grouped_object htag]
      simp [groupTags, displayTags]
    rw [← hc.reads hreads b]
    refine yields_bind (hc.fits hd hb) fun f hf => yields_ofExcept fun ps hps p hp => ?_
    have hpiece : PieceFits root (.object (stripped m)) b p := fits_pieces hf hps p hp
    cases p with
    | expr e => exact ⟨ExprFits.good hpiece, fun _ => ExprFits.bound hpiece hplain⟩
    | stmt s => exact ⟨StmtFits.good hpiece, fun _ => StmtFits.apart hpiece hplain⟩
  · split
    · exact yields_then fun _ => yields_pure nofun
    · refine yields_bind (yields_operand? hc hd "default") fun value hvalue => yields_pure ?_
      refine List.forall_mem_singleton.2 (Stands.fits (stands_assignName _ _ _ ?_) v)
      cases value with
      | none => exact good_name
      | some e => exact hvalue e rfl

theorem yields_variables (v : Value) (hb : b.inner = b) : Yields (variablesGroup c n) (Fits root v b) := by
  refine yields_bind (yields_nodeEntries n "declarators") fun entries hentries => ?_
  exact yields_bind (yields_gather fun m hm => yields_variable hc hn (hentries m hm) hb) fun ps hps => yields_pure hps

theorem yields_extern (htag : n.tag = some "CDefExtern") (b : Binding) :
    Yields (externGroup c n) (Fits root (.object n) b) := by
  refine yields_bind (yields_stmts hc hn "body") fun body hbody => yields_pure fun p hp => ?_
  obtain ⟨s, hs, rfl⟩ := List.mem_map.1 hp
  have hgrouped : Grouped (.object n) := .here htag (by simp [groupTags])
  exact ⟨hbody s hs, fun h => absurd hgrouped h⟩

/-! ## All kinds of node -/

omit hc hn in
theorem fits_ofExpr {v : Value} {x : Attempt Expr} (h : Yields x (Read root)) :
    Yields (Fragment.ofExpr <$> x) (Fits root v b) := h.map fun _ he => he.fits v b

omit hc hn in
theorem fits_ofStmt {v : Value} {x : Attempt Stmt} (h : Yields x (Stands root)) :
    Yields (Fragment.ofStmt <$> x) (Fits root v b) := h.map fun _ hs => hs.fits v

/-- **Every construction builds a fragment that fits.** -/
theorem fits_construct (hb : b.inner = b) {kind : Kind} (hkind : n.tag.bind Kind.ofTag? = some kind) :
    Yields (construct c n b kind) (Fits root (.object n) b) := by
  obtain ⟨tag, htag, hof⟩ := Option.bind_eq_some_iff.1 hkind
  have hmem : tag ∈ kind.tags := Kind.mem_tags_of_ofTag? hof
  cases kind with
  | int => exact fits_ofExpr (yields_int n)
  | name => exact (yields_name _ n b).map fun _ he => he
  | bool => exact fits_ofExpr (yields_bool n)
  | noneLiteral => exact yields_pure ((read_keyword "None" _).fits _ b)
  | string => exact yields_pure ((read_string n _ _).fits _ b)
  | unicode => exact yields_pure ((read_string n _ _).fits _ b)
  | bytes => exact yields_pure ((read_string n _ _).fits _ b)
  | joinedStr => exact fits_ofExpr (yields_joinedStr hc hn)
  | tuple =>
    obtain rfl : tag = "Tuple" := List.mem_singleton.1 hmem
    exact (yields_tuple hc hn hb htag).map fun _ he => he
  | list =>
    obtain rfl : tag = "List" := List.mem_singleton.1 hmem
    exact (yields_list hc hn hb htag).map fun _ he => he
  | set => exact fits_ofExpr (yields_set hc hn)
  | dict => exact fits_ofExpr (yields_dict hc hn)
  | passStat => exact yields_pure ⟨good_pass, fun _ => nofun⟩
  | exprStat =>
    obtain rfl : tag = "ExprStat" := List.mem_singleton.1 hmem
    exact (yields_exprStat hc hn htag).map fun _ hs => hs
  | singleAssignment =>
    obtain rfl : tag = "SingleAssignment" := List.mem_singleton.1 hmem
    exact fits_ofStmt (yields_assignment hc hn (by simp [targetField?, htag]))
  | inPlaceAssignment =>
    obtain rfl : tag = "InPlaceAssignment" := List.mem_singleton.1 hmem
    exact fits_ofStmt (yields_augAssignment hc hn (by simp [targetField?, htag]))
  | ifStat => exact fits_ofStmt (yields_if hc hn)
  | whileStat => exact fits_ofStmt (yields_while hc hn)
  | forInStat =>
    obtain rfl : tag = "ForInStat" := List.mem_singleton.1 hmem
    exact fits_ofStmt (yields_for hc hn (by simp [targetField?, htag]) false)
  | asyncForStat =>
    obtain rfl : tag = "AsyncForStat" := List.mem_singleton.1 hmem
    exact fits_ofStmt (yields_for hc hn (by simp [targetField?, htag]) true)
  | assertStat => exact fits_ofStmt (yields_assert hc hn)
  | returnStat => exact fits_ofStmt (yields_return hc hn)
  | statList =>
    obtain rfl : tag = "StatList" := List.mem_singleton.1 hmem
    exact yields_statList hc hn htag b
  | funcDef => exact fits_ofStmt (yields_function hc hn)
  | cFuncDef => exact fits_ofStmt (yields_cFunction hc hn)
  | cFuncDeclarator => exact fits_ofStmt (yields_functionDeclarator hc hn)
  | pyClassDef => exact fits_ofStmt (yields_class hc hn _ _)
  | cClassDef => exact fits_ofStmt (yields_class hc hn _ _)
  | cStructOrUnionDef => exact fits_ofStmt (yields_struct hc hn)
  | cEnumDef => exact yields_enum hc hn _ b
  | cTypeDef => exact fits_ofStmt (yields_typedef n)
  | cVarDef => exact yields_variables hc hn _ hb
  | cDefExtern =>
    obtain rfl : tag = "CDefExtern" := List.mem_singleton.1 hmem
    exact yields_extern hc hn htag b
  | simpleCall => exact fits_ofExpr (yields_simpleCall hc hn)
  | generalCall => exact fits_ofExpr (yields_generalCall hc hn)
  | sizeof => exact yields_pure ((read_sizeof n).fits _ b)
  | arithmetic => exact fits_ofExpr (yields_binOp hc hn)
  | boolBinop => exact fits_ofExpr (yields_boolOp hc hn)
  | primaryCmp => exact fits_ofExpr (yields_compare hc hn)
  | cascadedCmp => exact yields_cascade hc hn _ b
  | condExpr => exact fits_ofExpr (yields_cond hc hn)
  | awaitExpr => exact fits_ofExpr (yields_await hc hn)
  | yieldExpr => exact fits_ofExpr (yields_yield hc hn)

theorem fits_convertNode (hb : b.inner = b) : Yields (convertNode c n b) (Fits root (.object n) b) := by
  refine yields_contain trivial ?_
  cases htag : n.tag with
  | none => exact yields_fail
  | some tag =>
    cases hkind : Kind.ofTag? tag with
    | none => simpa only [hkind] using yields_fail
    | some kind =>
      have hof : n.tag.bind Kind.ofTag? = some kind := by simp [htag, hkind]
      simpa only [hkind] using fits_construct hc hn hb hof

end Constructions

/-- Only names, tuples and lists are bound as their place calls for. -/
theorem construct_reads_load {kind : Kind} (hkind : n.tag.bind Kind.ofTag? = some kind) (h : ¬ Binds n) (b : Binding) :
    construct c n b kind = construct c n .load kind := by
  obtain ⟨tag, htag, hof⟩ := Option.bind_eq_some_iff.1 hkind
  have hmem : tag ∈ kind.tags := Kind.mem_tags_of_ofTag? hof
  have hbinds : tag ∉ "Name" :: displayTags := fun hbinding => h ⟨tag, hbinding, htag⟩
  cases kind with
  | name => exact absurd (by decide) (List.mem_singleton.1 hmem ▸ hbinds)
  | tuple => exact absurd (by decide) (List.mem_singleton.1 hmem ▸ hbinds)
  | list => exact absurd (by decide) (List.mem_singleton.1 hmem ▸ hbinds)
  | _ => rfl

theorem convertNode_reads_load (h : ¬ Binds n) (b : Binding) : convertNode c n b = convertNode c n .load := by
  unfold convertNode
  cases htag : n.tag with
  | none => rfl
  | some tag =>
    cases hkind : Kind.ofTag? tag with
    | none => simp only [hkind]
    | some kind =>
      have hof : n.tag.bind Kind.ofTag? = some kind := by simp [htag, hkind]
      simp only [hkind, construct_reads_load hof h b]

/-! ## All values -/

theorem fits_convertItem (hc : Builds root c) (hb : b.inner = b) {items : List Value}
    (hitems : Holds (.object root) (.array items)) {x : Value} (hx : x ∈ items) :
    Yields (convertItem c b x) fun ps => ∀ p ∈ ps, PieceFits root (.array items) b p := by
  have hpiece : ∀ p, PieceFits root x b p → PieceFits root (.array items) b p := by
    intro p hp
    cases p with
    | expr e => exact ⟨ExprFits.good hp, fun h => ExprFits.bound hp fun hgrouped => h (.item hx hgrouped)⟩
    | stmt s => exact ⟨StmtFits.good hp, fun h => StmtFits.apart hp fun hgrouped => h (.item hx hgrouped)⟩
  refine yields_bind (hc.fits (hitems.trans (.item hx (.self x))) hb) fun f hf => ?_
  cases f with
  | absent => exact yields_pure nofun
  | piece p => exact yields_pure (List.forall_mem_singleton.2 (hpiece p hf))
  | group ps => exact yields_pure fun p hp => hpiece p (hf p hp)
  | chain first rest => exact yields_then fun _ => yields_pure nofun

/-- At every depth the converter builds what fits, if it does at the depth below, which is for what is inside a value. -/
theorem builds_convertWithin (root : Node) (depth : Nat) : Builds root (convertWithin depth) := by
  induction depth with
  | zero => exact ⟨fun _ _ => yields_pure trivial, fun _ _ => rfl⟩
  | succ depth ih =>
    refine ⟨fun {v b} hv hb => ?_, fun h b => convertNode_reads_load h b⟩
    cases habsent : v.isAbsent with
    | true =>
      rw [convertWithin_absent depth habsent]
      exact yields_pure trivial
    | false =>
      cases v with
      | null => cases habsent
      | object node => exact fits_convertNode ih hv hb
      | array items => exact (yields_gather fun x hx => fits_convertItem ih hb hv hx).map fun _ h => h
      | _ =>
        rw [convertWithin_stray depth habsent rfl rfl]
        exact yields_contain trivial yields_fail

/-- **The converter builds what fits.** -/
theorem builds_convert (root : Node) : Builds root convert := by
  refine ⟨fun {v b} hv hb => (builds_convertWithin root v.depth).fits hv hb, fun {m} h b => ?_⟩
  exact (builds_convertWithin root (Value.object m).depth).reads h b

end Graft.Convert
