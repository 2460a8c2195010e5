/-
How each construction reads its node.

One lemma for each construction says which fields it hands on and which it reads itself, step by step as the construction
goes. Together they make `construct_reads`: the construction of a kind reads its node by the table `Kind.slots`.
-/
import Graft.Proofs.Reads

namespace Graft.Convert

open Graft.Document Attempt

variable {others : List String}

/-! ## Fields that are converted -/

theorem settles_expr? (f : Fragment) : Settles others fun n => ofExcept (f.expr? n) :=
  .ofExcept (fun _ _ h => f.expr?_agree h.blame) fun _ _ => Fragment.expr?_error

theorem settles_exprs (f : Fragment) : Settles others fun n => ofExcept (f.exprs n) :=
  .ofExcept (fun _ _ h => f.exprs_agree h.blame) fun _ _ => Fragment.exprs_error

theorem settles_stmts (f : Fragment) : Settles others fun n => ofExcept (f.stmts n) :=
  .ofExcept (fun _ _ h => f.stmts_agree h.blame) fun _ _ => Fragment.stmts_error

theorem settles_pieces (f : Fragment) : Settles others fun n => ofExcept (f.pieces n) :=
  .ofExcept (fun _ _ h => f.pieces_agree h.blame) fun _ _ => Fragment.pieces_error

theorem settles_links (f : Fragment) : Settles others fun n => ofExcept (f.links n) :=
  .ofExcept (fun _ _ h => f.links_agree h.blame) fun _ _ => Fragment.links_error

theorem reads_whole (name : String) (b : Binding) : Reads [(name, .whole)] others fun c n => field c n name b :=
  reads_field name (takes_whole b) (.const Fragment.absent)

theorem reads_optional (name : String) (b : Binding) :
    Reads [(name, .whole)] others fun c n => optionalExpr c n name b :=
  reads_settle (reads_whole name b) settles_expr?

theorem reads_required (name : String) (b : Binding) :
    Reads [(name, .whole)] others fun c n => requiredExpr c n name b :=
  reads_settle (reads_optional name b) fun _ => .orDefect _ fun _ _ _ => rfl

theorem reads_stmts (name : String) : Reads [(name, .whole)] others fun c n => stmtsField c n name :=
  reads_settle (reads_whole name .load) settles_stmts

theorem reads_exprs (name : String) (b : Binding) : Reads [(name, .whole)] others fun c n => exprsField c n name b :=
  reads_settle (reads_whole name b) settles_exprs

/-! ## Fields that are read -/

theorem Agree.text? {names : List String} {n n' : Node} (h : Agree names n n') {name : String} (hname : name ∈ names) :
    n.text? name = n'.text? name := by
  unfold Node.text?
  rw [h.get name hname]

theorem Agree.node? {names : List String} {n n' : Node} (h : Agree names n n') {name : String} (hname : name ∈ names) :
    n.node? name = n'.node? name := by
  unfold Node.node?
  rw [h.get name hname]

theorem Agree.flag {names : List String} {n n' : Node} (h : Agree names n n') {name : String} (hname : name ∈ names) :
    n.flag name = n'.flag name := by
  unfold Node.flag
  rw [h.text? hname]

/-- a text that the node has to have -/
theorem settles_text {name : String} (d : Defect) (h : name ∈ others) :
    Settles others fun n => orDefect n d (n.text? name) :=
  .orDefect d fun _ _ hn => hn.text? h

theorem settles_operator (h : "operator" ∈ others) : Settles others operatorToken := settles_text .noOperator h

/-! ## Atoms -/

theorem settles_name (b : Binding) : Settles ["name"] fun n => nameExpr n b := by
  refine .bind (settles_text .noName (by simp)) fun _ => ?_
  exact .pure fun _ _ h => by rw [h.positionOf]

theorem settles_int : Settles ["value"] intExpr := by
  refine .bind (.orDefect .noInteger fun n n' h => ?_) fun _ => ?_
  · unfold integerText? Node.present?
    rw [h.get "value" (by simp)]
  · exact .pure fun _ _ h => by rw [h.positionOf]

theorem settles_bool : Settles ["value"] boolExpr := by
  refine .bind (.orDefect .noBoolean fun n n' h => ?_) fun _ => ?_
  · unfold boolText?
    rw [h.get "value" (by simp)]
  · exact .pure fun _ _ h => by rw [h.positionOf]

theorem settles_string (name : String) (marks : StringMarks) :
    Settles [name] fun n => pure (Fragment.ofExpr (stringExpr n name marks)) :=
  .pure fun n n' h => by
    unfold stringExpr
    rw [h.positionOf, h.text? (by simp)]

theorem settles_typedef : Settles ["declarator", "base_type"] typedefStmt := by
  have hdeclarator : ∀ n n', Agree ["declarator", "base_type"] n n' → declarator? n = declarator? n' := fun n n' h => by
    unfold declarator?
    rw [h.node? (by simp)]
  refine .bind (.orDefect .noDeclarator hdeclarator) fun d => ?_
  refine .bind (.orDefect .unnamedTypedef fun _ _ _ => rfl) fun _ => ?_
  refine .pure fun n n' h => ?_
  unfold baseTypeName?
  rw [h.positionOf, h.node? (by simp : "base_type" ∈ _)]

/-! ## Operations -/

theorem reads_binOp : Reads [("operand1", .whole), ("operand2", .whole)] ["operator"] binOpExpr := by
  refine reads_bind (reads_required "operand1" .load) (fun _ => ?_) (by decide)
  refine reads_bind (reads_required "operand2" .load) (fun _ => ?_) (by decide)
  refine reads_then (settles_operator (by simp)).reads (fun _ => ?_) (by decide)
  exact (Settles.pure fun _ _ h => by rw [h.positionOf]).reads

theorem reads_boolOp : Reads [("operand1", .whole), ("operand2", .whole)] ["operator"] boolOpExpr := by
  refine reads_bind (reads_required "operand1" .load) (fun _ => ?_) (by decide)
  refine reads_bind (reads_required "operand2" .load) (fun _ => ?_) (by decide)
  refine reads_then (settles_operator (by simp)).reads (fun _ => ?_) (by decide)
  exact (Settles.pure fun _ _ h => by rw [h.positionOf]).reads

theorem reads_comparison : Reads [("operand2", .whole), ("cascade", .whole)] ["operator"] comparisonLinks := by
  refine reads_then (settles_operator (by simp)).reads (fun _ => ?_) (by decide)
  refine reads_bind (reads_required "operand2" .load) (fun _ => ?_) (by decide)
  refine reads_bind (reads_whole "cascade" .load) (fun _ => ?_) (by decide)
  exact (Settles.bind (settles_links _) fun _ => .const _).reads

theorem reads_compare :
    Reads [("operand1", .whole), ("operand2", .whole), ("cascade", .whole)] ["operator"] compareExpr := by
  refine reads_bind (reads_required "operand1" .load) (fun _ => ?_) (by decide)
  refine reads_settle reads_comparison fun _ => ?_
  exact .pure fun _ _ h => by rw [h.positionOf]

theorem reads_cascade : Reads [("operand2", .whole), ("cascade", .whole)] ["operator"] cascadeLinks :=
  reads_settle reads_comparison fun _ => .const _

theorem reads_cond : Reads [("test", .whole), ("true_val", .whole), ("false_val", .whole)] [] condExpr := by
  refine reads_bind (reads_required "test" .load) (fun _ => ?_) (by decide)
  refine reads_bind (reads_required "true_val" .load) (fun _ => ?_) (by decide)
  refine reads_bind (reads_required "false_val" .load) (fun _ => ?_) (by decide)
  exact (Settles.pure fun _ _ h => by rw [h.positionOf]).reads

theorem reads_await : Reads [("arg", .whole)] [] awaitExpr := by
  refine reads_settle (reads_required "arg" .load) fun _ => ?_
  exact .pure fun _ _ h => by rw [h.positionOf]

theorem reads_yield : Reads [("arg", .whole)] [] yieldExpr := by
  refine reads_settle (reads_optional "arg" .load) fun _ => ?_
  exact .pure fun _ _ h => by rw [h.positionOf]

/-! ## Displays -/

theorem reads_tuple (b : Binding) : Reads [("args", .whole)] [] fun c n => tupleExpr c n b := by
  refine reads_settle (reads_exprs "args" b) fun _ => ?_
  exact .pure fun _ _ h => by rw [h.positionOf]

theorem reads_listExpr (b : Binding) : Reads [("args", .whole)] [] fun c n => listExpr c n b := by
  refine reads_settle (reads_exprs "args" b) fun _ => ?_
  exact .pure fun _ _ h => by rw [h.positionOf]

theorem reads_set : Reads [("args", .whole)] [] setExpr := by
  refine reads_settle (reads_exprs "args" .load) fun _ => ?_
  exact .pure fun _ _ h => by rw [h.positionOf]

theorem reads_dictEntry : Reads [("key", .whole), ("value", .whole)] [] dictEntry := by
  refine reads_bind (reads_required "key" .load) (fun _ => ?_) (by decide)
  exact reads_settle (reads_required "value" .load) fun _ => .const _

theorem reads_dict : Reads [("key_value_pairs", .pairs)] [] dictExpr := by
  have hitems : Reads [("key_value_pairs", .pairs)] [] fun c n =>
      dictItems n >>= fun nodes => nodes.mapM (dictEntry c) :=
    reads_objectItems "key_value_pairs" .dictItemNotAnObject reads_dictEntry (by decide)
  refine (reads_settle hitems fun entries => ?_).congr fun c n => (bind_assoc _ _ _).symm
  exact .pure fun _ _ h => by rw [h.positionOf]

/-- a segment of an interpolated string: a formatted value is looked into, and any other node converted -/
theorem takes_segment :
    Takes (.opened "FormattedValue" [("value", .whole)] .object) fun c n v =>
      match v.node? with
      | some m => segmentStmts c n m
      | none => pure [] := by
  have hvalue : Reads [("value", .whole)] [] fun c m => field c m "value" .load := reads_whole "value" .load
  refine (takes_bind (takes_opened (takes_node hvalue (by decide) (.const Fragment.absent))
    (takes_object .load (fun f => .const f) fun _ => rfl)) settles_stmts).congr fun c n v => ?_
  cases v with
  | object m =>
    simp only [Value.node?, segmentStmts, bears, Option.any_some, bind_pure]
    cases m.isTagged "FormattedValue" <;> rfl
  | _ => rfl

/-- Where a list of nodes hands on what is in them, its entries are nodes. -/
theorem leads_node {tag : String} {blank : Value} {C : Option Hole} {slots : List (String × Shape)} {D : Hole}
    (h : Leads tag blank C (.node slots) D) (w : Value) : (D w).node? ≠ none := by
  cases h with
  | node => simp [inField, Value.node?]

theorem leads_segment {tag : String} {blank : Value} {C : Option Hole} {D : Hole}
    (h : Leads tag blank C (.opened "FormattedValue" [("value", .whole)] .object) D) (w : Value)
    (hw : Fills tag blank w) : (D w).node? ≠ none ∨ D w = .null := by
  cases h with
  | opened => exact .inl (by simp [inField, Value.node?])
  | other _ h =>
    cases h with
    | object => exact .inl (by simp [inField, Value.node?])
    | dropped hblank =>
      subst hblank
      obtain rfl | ⟨o, -, rfl⟩ := hw
      · exact .inr rfl
      · exact .inl (by simp [Value.node?])

theorem reads_joinedStr : Reads [("values", .segments)] [] joinedStrExpr := by
  have hvalues : Reads [("values", .segments)] [] fun c n => nodeEntries n "values" >>= gather (segmentStmts c n) :=
    reads_nodeEntries "values" takes_segment fun h w hw => leads_segment h w hw
  refine (reads_settle hvalues fun _ => ?_).congr fun c n => (bind_assoc _ _ _).symm
  exact .pure fun _ _ h => by rw [h.positionOf]

/-! ## Calls -/

theorem reads_simpleCall : Reads [("function", .whole), ("args", .whole)] [] simpleCallExpr := by
  refine reads_bind (reads_required "function" .load) (fun _ => ?_) (by decide)
  refine reads_settle (reads_exprs "args" .load) fun _ => ?_
  exact .pure fun _ _ h => by rw [h.positionOf]

/-- the name of an argument that is passed by name -/
def keywordName (key : Node) : Attempt NameToken := do
  let name ← (key.text? "value").or (key.text? "unicode_value") |> Attempt.orDefect key .keywordNotAString
  return ⟨name, .keywordName, positionOf key⟩

theorem settles_keywordName : Settles ["value", "unicode_value"] keywordName := by
  refine .bind (.orDefect .keywordNotAString fun n n' h => ?_) fun _ => ?_
  · rw [h.text? (by simp), h.text? (by simp : "unicode_value" ∈ _)]
  · exact .pure fun _ _ h => by rw [h.positionOf]

theorem reads_keywordItem : Reads [("value", .whole)] ["key"] keywordItem := by
  have hkey : Reads [] ["key"] fun _ n => match n.node? "key" with
      | some key => keywordName key
      | none => Attempt.fail (.of n .keywordWithoutKey) := reads_inner "key" settles_keywordName (.fail _)
  have hvalue : ∀ token : NameToken, Reads [("value", .whole)] ["key"] fun c n =>
      requiredExpr c n "value" .load >>= fun value => pure (⟨token, value⟩ : Keyword) := fun _ =>
    reads_settle (reads_required "value" .load) fun _ => .const _
  refine (reads_then hkey hvalue (by decide)).congr fun c n => ?_
  unfold keywordItem
  cases n.node? "key" with
  | none => simp [Attempt.orDefect]
  | some key => simp [Attempt.orDefect, keywordName]

theorem takes_positional :
    Takes .positional fun c n v =>
      if bears "Tuple" v then
        match v.node? with
        | some m => exprsField c m "args" .load >>= fun args => pure (args, none)
        | none => pure ([], none)
      else if bears "AsTuple" v then
        match v.node? with
        | some m => optionalExpr c m "arg" .load >>= fun star => pure ([], star)
        | none => pure ([], none)
      else (c v .load >>= fun f => ofExcept (f.exprs n)) >>= fun args => pure (args, none) := by
  have hargs : Reads [("args", .whole)] [] fun c m =>
      exprsField c m "args" .load >>= fun args => (pure (args, none) : Attempt (List Expr × Option Expr)) :=
    reads_settle (reads_exprs "args" .load) fun _ => .const _
  have hstar : Reads [("arg", .whole)] [] fun c m =>
      optionalExpr c m "arg" .load >>= fun star => (pure ([], star) : Attempt (List Expr × Option Expr)) :=
    reads_settle (reads_optional "arg" .load) fun _ => .const _
  refine takes_opened (takes_node hargs (by decide) (.const _)) ?_
  refine takes_opened (takes_node hstar (by decide) (.const _)) ?_
  exact takes_bind (takes_bind (takes_whole .load) settles_exprs) fun _ => .const _

theorem reads_positional : Reads [("positional_args", .positional)] [] positionalArgs := by
  refine (reads_field "positional_args" takes_positional (.const ([], none))).congr fun c n => ?_
  unfold positionalArgs Node.node? exprsField field
  cases n.get? "positional_args" with
  | none => rfl
  | some v =>
    cases v with
    | object m =>
      simp only [Option.bind_some, Value.node?, bears, Option.any_some]
      rfl
    | _ =>
      simp only [Option.bind_some, Value.node?, bears, Option.any_none]
      rfl

theorem takes_keywords :
    Takes .keywords fun c n v =>
      if bears "Dict" v then
        match v.node? with
        | some m =>
          (dictItems m >>= fun nodes => nodes.mapM (keywordItem c)) >>= fun keywords => pure (keywords, none)
        | none => pure ([], none)
      else (c v .load >>= fun f => ofExcept (f.expr? n)) >>= fun star => pure ([], star) := by
  have hpairs : Reads [("key_value_pairs", .items (.node [("value", .whole)]))] [] fun c m =>
      (dictItems m >>= fun nodes => nodes.mapM (keywordItem c)) >>= fun keywords =>
        (pure (keywords, none) : Attempt (List Keyword × Option Expr)) :=
    reads_settle (reads_objectItems "key_value_pairs" .dictItemNotAnObject reads_keywordItem (by decide))
      fun _ => .const _
  refine takes_opened (takes_node hpairs (by decide) (.const _)) ?_
  exact takes_bind (takes_bind (takes_whole .load) settles_expr?) fun _ => .const _

theorem reads_keywords : Reads [("keyword_args", .keywords)] [] keywordArgs := by
  refine (reads_field "keyword_args" takes_keywords (.const ([], none))).congr fun c n => ?_
  unfold keywordArgs Node.node? optionalExpr field
  cases n.get? "keyword_args" with
  | none => rfl
  | some v =>
    cases v with
    | object m =>
      simp only [Option.bind_some, Value.node?, bears, Option.any_some, bind_assoc]
      rfl
    | _ =>
      simp only [Option.bind_some, Value.node?, bears, Option.any_none]
      rfl

theorem reads_generalCall :
    Reads [("function", .whole), ("positional_args", .positional), ("keyword_args", .keywords)] [] generalCallExpr := by
  refine reads_bind (reads_required "function" .load) (fun _ => ?_) (by decide)
  refine reads_bind reads_positional (fun _ => ?_) (by decide)
  refine reads_bind reads_keywords (fun _ => ?_) (by decide)
  exact (Settles.pure fun _ _ h => by rw [h.positionOf]).reads

/-! ## Statements -/

theorem reads_statList : Reads [("stats", .whole)] [] statListGroup :=
  reads_settle (reads_whole "stats" .load) fun f => .bind (settles_pieces f) fun _ => .const _

theorem reads_exprStat : Reads [("expr", .whole)] [] exprStatStmt := by
  refine reads_settle (reads_required "expr" .load) fun _ => ?_
  exact .pure fun _ _ h => by rw [h.positionOf]

theorem reads_assignment : Reads [("lhs", .whole), ("rhs", .whole)] [] assignmentStmt := by
  refine reads_bind (reads_required "lhs" .store) (fun _ => ?_) (by decide)
  refine reads_settle (reads_required "rhs" .load) fun _ => ?_
  exact .pure fun _ _ h => by rw [h.positionOf]

theorem reads_augAssignment : Reads [("lhs", .whole), ("rhs", .whole)] ["operator"] augAssignmentStmt := by
  refine reads_bind (reads_required "lhs" .augStore) (fun _ => ?_) (by decide)
  refine reads_bind (reads_required "rhs" .load) (fun _ => ?_) (by decide)
  refine reads_then (settles_operator (by simp)).reads (fun _ => ?_) (by decide)
  exact (Settles.pure fun _ _ h => by rw [h.positionOf]).reads

theorem takes_clause : Takes (.node [("condition", .whole), ("body", .whole)]) ifClause := by
  have hclause : Reads [("condition", .whole), ("body", .whole)] [] fun c m => do
      let test ← requiredExpr c m "condition" .load
      let body ← stmtsField c m "body"
      return (⟨test, body, positionOf m⟩ : Clause) := by
    refine reads_bind (reads_required "condition" .load) (fun _ => ?_) (by decide)
    refine reads_settle (reads_stmts "body") fun _ => ?_
    exact .pure fun _ _ h => by rw [h.positionOf]
  refine (takes_node hclause (by decide) (.fail .clauseNotAnObject)).congr fun c n v => ?_
  cases v <;> simp [ifClause, Value.node?, Attempt.orDefect]

/-- the clauses of an `if`, of which there are none where the field has no list -/
def clausesOf (convert : Converter) (node : Node) : Attempt (List Clause) :=
  (((node.present? "if_clauses").bind Value.items?).getD []).mapM (ifClause convert node)

theorem reads_clauses : Reads [("if_clauses", .clauses)] [] clausesOf := by
  have hclause : Takes (.node [("condition", .whole), ("body", .whole)]) fun c n v =>
      (fun clause => [clause]) <$> ifClause c n v := by
    simp only [map_eq_pure_bind]
    exact takes_bind takes_clause fun _ => .const _
  have hitems := takes_each (g := fun _ _ => pure []) hclause fun _ => .const []
  refine (reads_field "if_clauses" hitems (.const [])).congr fun c n => ?_
  unfold clausesOf Node.present?
  cases n.get? "if_clauses" with
  | none => rfl
  | some v =>
    cases v with
    | array items =>
      simp [Option.filter, Value.isAbsent, Value.items?, mapM_eq_gather]
    | string text =>
      cases htext : (Value.string text).isAbsent <;> simp [Option.filter, htext, Value.items?]
    | _ => rfl

/-- the `else` block of an `if` -/
def elseOf (convert : Converter) (node : Node) : Attempt (Option Suite) :=
  if (node.present? "else_clause").isSome then do
    let body ← stmtsField convert node "else_clause"
    return some ⟨body, .unknown⟩
  else return none

theorem ifStmt_eq (convert : Converter) (node : Node) :
    ifStmt convert node = clausesOf convert node >>= fun clauses =>
      match clauses with
      | [] => Attempt.fail (.of node .noClauses)
      | first :: rest => elseOf convert node >>= fun orelse => pure (clauseChain orelse first rest) := by
  unfold ifStmt clausesOf elseOf
  refine bind_congr fun clauses => ?_
  cases clauses with
  | nil => rfl
  | cons first rest => cases (node.present? "else_clause").isSome <;> simp

theorem reads_elseOf : Reads [("else_clause", .block)] others elseOf := by
  have hblock : Takes .block fun c n v =>
      if v.isAbsent then pure none
      else c v .load >>= fun f => ofExcept (f.stmts n) >>= fun body => pure (some (⟨body, .unknown⟩ : Suite)) :=
    takes_block (fun f => .bind (settles_stmts f) fun _ => .const _) fun _ => rfl
  refine (reads_field "else_clause" hblock (.const none)).congr fun c n => ?_
  unfold elseOf stmtsField field Node.present?
  cases n.get? "else_clause" with
  | none => rfl
  | some v =>
    cases habsent : v.isAbsent with
    | true => simp [Option.filter, habsent]
    | false =>
      simp only [Option.filter, habsent, Bool.not_false, if_true, Option.isSome_some, bind_assoc]
      rfl

theorem reads_if : Reads [("if_clauses", .clauses), ("else_clause", .block)] [] ifStmt := by
  refine (reads_bind reads_clauses (fun clauses => ?_) (by decide)).congr fun c n => ifStmt_eq c n
  cases clauses with
  | nil => exact reads_less (.fail .noClauses) (by decide)
  | cons first rest => exact reads_settle reads_elseOf fun orelse => .const (clauseChain orelse first rest)

theorem reads_while : Reads [("condition", .whole), ("body", .whole), ("else_clause", .whole)] [] whileStmt := by
  refine reads_bind (reads_required "condition" .load) (fun _ => ?_) (by decide)
  refine reads_bind (reads_stmts "body") (fun _ => ?_) (by decide)
  refine reads_settle (reads_stmts "else_clause") fun _ => ?_
  exact .pure fun _ _ h => by rw [h.positionOf]

theorem takes_loopElse :
    Takes .loopElse fun c _ v =>
      match v.node? with
      | some clause => forElse c clause
      | none => pure none := by
  have hstats : Reads [("stats", .whole)] [] fun c m =>
      stmtsField c m "stats" >>= fun body => pure (some (⟨body, positionOf m⟩ : Suite)) :=
    reads_settle (reads_stmts "stats") fun _ => .pure fun _ _ h => by rw [h.positionOf]
  have hother : ∀ f : Fragment, Settles [] fun m => ofExcept (f.stmts m) >>= fun body => pure (filledSuite body) := by
    intro f
    exact .bind (settles_stmts f) fun _ => .const _
  refine (takes_opened (takes_node hstats (by decide) (.const none)) (takes_object .load hother fun _ => rfl)).congr
    fun c n v => ?_
  cases v with
  | object m =>
    simp only [Value.node?, bears, Option.any_some, forElse]
    rfl
  | _ => rfl

theorem reads_iterator : Reads [("iterator", .iterator)] others fun c n =>
    orDefect n .noIterator (n.node? "iterator") >>= fun it => requiredExpr c it "sequence" .load := by
  have hsequence : Reads [("sequence", .whole)] [] fun c m => requiredExpr c m "sequence" .load :=
    reads_required "sequence" .load
  refine (reads_field "iterator" (takes_node hsequence (by decide) (.fail .noIterator)) (.fail .noIterator)).congr
    fun c n => ?_
  unfold Node.node?
  cases n.get? "iterator" with
  | none => simp [orDefect]
  | some v => cases v <;> simp [orDefect, Value.node?]

theorem reads_loopElse : Reads [("else_clause", .loopElse)] others fun c n =>
    match n.node? "else_clause" with
    | some clause => forElse c clause
    | none => pure none := by
  refine (reads_field "else_clause" takes_loopElse (.const none)).congr fun c n => ?_
  unfold Node.node?
  cases n.get? "else_clause" <;> rfl

theorem reads_for (isAsync : Bool) : Reads
    [("target", .whole), ("iterator", .iterator), ("body", .whole), ("else_clause", .loopElse)] ["is_async"]
    (forStmt · isAsync) := by
  have hfor : Reads
      [("target", .whole), ("iterator", .iterator), ("body", .whole), ("else_clause", .loopElse)] ["is_async"] fun c n =>
        requiredExpr c n "target" .store >>= fun target =>
        (orDefect n .noIterator (n.node? "iterator") >>= fun it => requiredExpr c it "sequence" .load) >>= fun iter =>
        stmtsField c n "body" >>= fun body =>
        (match n.node? "else_clause" with
          | some clause => forElse c clause
          | none => pure none) >>= fun orelse =>
        pure (Stmt.forLoop (positionOf n) target iter body orelse (isAsync || n.flag "is_async")) := by
    refine reads_bind (reads_required "target" .store) (fun _ => ?_) (by decide)
    refine reads_bind reads_iterator (fun _ => ?_) (by decide)
    refine reads_bind (reads_stmts "body") (fun _ => ?_) (by decide)
    refine reads_bind reads_loopElse (fun _ => ?_) (by decide)
    exact (Settles.pure fun _ _ h => by rw [h.positionOf, h.flag (by simp)]).reads
  refine hfor.congr fun c n => ?_
  unfold forStmt
  simp only [bind_assoc]
  cases n.node? "else_clause" <;> simp

theorem reads_assert : Reads [("cond", .whole), ("value", .whole)] [] assertStmt := by
  refine reads_bind (reads_required "cond" .load) (fun _ => ?_) (by decide)
  refine reads_settle (reads_optional "value" .load) fun _ => ?_
  exact .pure fun _ _ h => by rw [h.positionOf]

theorem reads_return : Reads [("value", .whole)] [] returnStmt := by
  refine reads_settle (reads_optional "value" .load) fun _ => ?_
  exact .pure fun _ _ h => by rw [h.positionOf]

/-! ## Parameters and definitions -/

/-- one parameter, whose name and sort are read from its node -/
def parameterOf (convert : Converter) (node : Node) : Attempt (List Parameter) :=
  match parameterName? node (if isKeywordOnly node then .kwOnlyParam else .param) with
  | none => do
    Attempt.anomaly (.of node .unnamedParameter)
    return []
  | some name => do
    let default ← optionalExpr convert node "default" .load
    let annotation ← optionalExpr convert node "annotation" .load
    return [⟨isKeywordOnly node, name, default, annotation⟩]

theorem Agree.declarator? {names : List String} {n n' : Node} (h : Agree names n n') (hname : "declarator" ∈ names) :
    declarator? n = declarator? n' := by
  unfold Convert.declarator?
  rw [h.node? hname]

theorem Agree.baseTypeName? {names : List String} {n n' : Node} (h : Agree names n n') (hname : "base_type" ∈ names)
    (b : Binding) : baseTypeName? n b = baseTypeName? n' b := by
  unfold Convert.baseTypeName?
  rw [h.node? hname]

theorem reads_parameterOf :
    Reads [("default", .whole), ("annotation", .whole)] ["kw_only", "declarator", "base_type"] parameterOf := by
  have hparameter : ∀ key : Bool × Option Expr,
      Reads [("default", .whole), ("annotation", .whole)] ["kw_only", "declarator", "base_type"] fun c n =>
        match key.2 with
        | none => Attempt.anomaly (.of n .unnamedParameter) >>= fun _ => pure []
        | some name => do
          let default ← optionalExpr c n "default" .load
          let annotation ← optionalExpr c n "annotation" .load
          return [(⟨key.1, name, default, annotation⟩ : Parameter)] := by
    rintro ⟨keywordOnly, name⟩
    cases name with
    | none => exact reads_less (.bind (.anomaly _) fun _ => .const _) (by decide)
    | some name =>
      refine reads_bind (reads_optional "default" .load) (fun _ => ?_) (by decide)
      exact reads_settle (reads_optional "annotation" .load) fun _ => .const _
  refine (reads_on (g := fun n => (isKeywordOnly n, parameterName? n (if isKeywordOnly n then .kwOnlyParam else .param)))
    (fun n n' h => ?_) hparameter (by decide)).congr fun c n => rfl
  have hkeyword : isKeywordOnly n = isKeywordOnly n' := by
    unfold isKeywordOnly Node.int?
    rw [h.get "kw_only" (by simp)]
  unfold parameterName?
  rw [hkeyword, h.declarator? (by simp), h.baseTypeName? (by simp)]

theorem takes_parameter : Takes (.node [("default", .whole), ("annotation", .whole)]) parameter := by
  refine (takes_node reads_parameterOf (by decide) (.fail .parameterNotAnObject)).congr fun c n v => ?_
  cases v with
  | object m =>
    simp only [parameter, Value.node?, Attempt.orDefect, pure_bind]
    rfl
  | _ => simp [parameter, Value.node?, Attempt.orDefect]

theorem reads_parameters (hstar : "star_arg" ∈ others) (hstarstar : "starstar_arg" ∈ others)
    (hapart : Apart [("args", .parameters)] others) : Reads [("args", .parameters)] others parameters := by
  refine (reads_last (reads_each "args" takes_parameter) (fun all => ?_) hapart).congr fun c n => (bind_assoc _ _ _).symm
  refine (Settles.pure fun n n' h => ?_).reads
  unfold collector?
  rw [h.node? hstar, h.node? hstarstar]

theorem reads_decorator : Reads [("decorator", .whole)] [] decorator := by
  refine reads_settle (reads_optional "decorator" .load) fun expr => ?_
  cases expr with
  | none => exact .const []
  | some expr =>
    cases hd : decoratorOf? expr with
    | none =>
      simp only [hd]
      exact .bind (.anomaly _) fun _ => .const []
    | some d =>
      simp only [hd]
      exact .const [d]

theorem reads_decorators : Reads [("decorators", .decorators)] others decorators :=
  reads_nodeEntries "decorators" (takes_node reads_decorator (by decide) (.const [])) fun h w _ => .inl (leads_node h w)

theorem reads_function : Reads [("args", .parameters), ("decorators", .decorators), ("body", .whole)]
    ["name", "star_arg", "starstar_arg", "is_async_def"] functionStmt := by
  refine reads_then (settles_text .noFunctionName (by simp)).reads (fun _ => ?_) (by decide)
  refine reads_bind (reads_parameters (by simp) (by simp) (by decide)) (fun _ => ?_) (by decide)
  refine reads_bind reads_decorators (fun _ => ?_) (by decide)
  refine reads_bind (reads_stmts "body") (fun _ => ?_) (by decide)
  refine (Settles.pure fun n n' h => ?_).reads
  unfold definedName
  rw [h.positionOf, h.flag (by simp)]

theorem reads_bases : Reads [("bases", .whole)] others classBases := by
  refine reads_settle (reads_exprs "bases" .load) fun bases => ?_
  split
  · exact .const _
  · exact .const _

theorem reads_class {name : String} (d : NameDistance)
    (hapart : Apart [("bases", .whole), ("body", .whole), ("decorators", .decorators)] [name]) :
    Reads [("bases", .whole), ("body", .whole), ("decorators", .decorators)] [name] (classStmt · name d) := by
  refine reads_then (settles_text (.noClassName name) (by simp)).reads (fun _ => ?_) hapart
  refine reads_bind reads_bases (fun _ => ?_) hapart
  refine reads_bind (reads_stmts "body") (fun _ => ?_) hapart.tail
  refine reads_bind reads_decorators (fun _ => ?_) hapart.tail.tail
  refine (Settles.pure fun n n' h => ?_).reads
  unfold definedName
  rw [h.positionOf]

/-! ## C declarations -/

theorem reads_struct : Reads [("attributes", .whole)] ["name"] structStmt := by
  refine reads_then (settles_text .noStructName (by simp)).reads (fun _ => ?_) (by decide)
  refine reads_settle (reads_stmts "attributes") fun _ => ?_
  refine .pure fun n n' h => ?_
  unfold definedName
  rw [h.positionOf]

theorem settles_enumMember : Settles ["name"] enumMember := by
  have hunnamed : Settles ["name"] fun n => anomaly (.of n .unnamedMember) >>= fun _ => pure ([] : List Stmt) :=
    .bind (.anomaly _) fun _ => .const _
  refine ⟨fun n n' h => ?_, fun n d h => ?_⟩
  · unfold enumMember
    rw [h.text? (by simp), h.positionOf, h.blame]
  · unfold enumMember at h
    split at h
    · rcases h with h | h <;> cases h
    · exact hunnamed.blames n d h

/-- The members of an enumeration are read, and nothing of them is handed on. -/
theorem reads_members : Reads [] ["items", "name"] fun _ n => nodeEntries n "items" >>= Attempt.gather enumMember := by
  have hmembers : Reads [("items", .items (.node []))] ["name"] fun _ n =>
      nodeEntries n "items" >>= Attempt.gather enumMember :=
    reads_nodeEntries "items" (takes_node settles_enumMember.reads (by simp) (.const []))
      fun h w _ => .inl (leads_node h w)
  refine reads_closed hmembers fun v x h => ?_
  cases h with
  | items _ h =>
    cases h with
    | node hslot => cases hslot

theorem reads_enum : Reads [("decorators", .decorators)] ["items", "name"] enumFragment := by
  have hbody : ∀ (members : List Stmt) (name : Option String),
      Reads [("decorators", .decorators)] ["items", "name"] fun c n =>
        name.elim (pure (Fragment.ofStmts members)) fun name => decorators c n >>= fun decs =>
          pure (.ofStmt (.classDef (positionOf n) (definedName n name .className .enumeration) [] members decs)) := by
    intro members name
    cases name with
    | none => exact reads_less (.const _) (by decide)
    | some name =>
      refine reads_settle reads_decorators fun _ => .pure fun n n' h => ?_
      unfold definedName
      rw [h.positionOf]
  have hmembers := reads_then reads_members (fun members => reads_on (g := fun n => (n.present? "name").bind Value.text?)
    (fun n n' h => by unfold Node.present?; rw [h.get "name" (by simp)]) (hbody members) (by decide)) (by decide)
  refine hmembers.congr fun c n => ?_
  unfold enumFragment
  rw [bind_assoc]
  refine bind_congr fun _ => bind_congr fun members => ?_
  cases (n.present? "name").bind Value.text? <;> rfl

/-- the name and the parameters of a declared function -/
def declaredHead (convert : Converter) (declarator : Node) : Attempt (Position × NameToken × Parameters) := do
  let base ← (declarator.node? "base").map stripped |> Attempt.orDefect declarator .noBase
  let name ← base.filledText? "name" |> Attempt.orDefect declarator .unnamedFunction
  let params ← parameters convert declarator
  return (positionOf declarator, ⟨name, .functionName, positionOf base⟩, params)

theorem declaredFunction_eq (convert : Converter) (declarator : Node) (rest : Attempt (List Decorator × List Stmt)) :
    declaredFunction convert declarator rest = declaredHead convert declarator >>= fun head => rest >>= fun last =>
      pure (.functionDef head.1 head.2.1 head.2.2 last.2 last.1 false) := by
  unfold declaredFunction declaredHead
  simp only [bind_assoc, pure_bind]

theorem reads_declaredHead : Reads [("args", .parameters)] ["base", "star_arg", "starstar_arg"] declaredHead := by
  have hbase : Settles ["base", "star_arg", "starstar_arg"] fun n =>
      orDefect n .noBase ((n.node? "base").map stripped) :=
    .orDefect .noBase fun n n' h => by rw [h.node? (by simp)]
  refine reads_then hbase.reads (fun base => ?_) (by decide)
  refine reads_then (Settles.orDefect .unnamedFunction fun _ _ _ => rfl).reads (fun _ => ?_) (by decide)
  refine reads_bind (reads_parameters (by simp) (by simp) (by decide)) (fun _ => ?_) (by decide)
  exact (Settles.pure fun _ _ h => by rw [h.positionOf]).reads

theorem reads_functionDeclarator :
    Reads [("args", .parameters)] ["base", "star_arg", "starstar_arg"] functionDeclaratorStmt := by
  have hstmt := reads_settle (Y := fun head _ => (pure ([], []) : Attempt (List Decorator × List Stmt)) >>= fun last =>
    pure (Stmt.functionDef head.1 head.2.1 head.2.2 last.2 last.1 false)) reads_declaredHead fun _ =>
      .bind (.const _) fun _ => .const _
  exact hstmt.congr fun c n => declaredFunction_eq c n _

theorem reads_declarator : Reads [("declarator", .declarator false)] others fun c n =>
    orDefect n .noDeclarator (declarator? n) >>= fun declarator => declaredHead c declarator := by
  have hdeclarator := takes_declarator false (k := fun n _ => Attempt.fail (.of n .noDeclarator)) reads_declaredHead
    (fun _ => .fail .noDeclarator) (.fail .noDeclarator)
  refine (reads_field "declarator" hdeclarator (.fail .noDeclarator)).congr fun c n => ?_
  unfold declarator? Node.node?
  cases n.get? "declarator" with
  | none => simp [orDefect]
  | some v => cases v <;> simp [orDefect, Value.node?, behindPointers]

theorem reads_cFunction : Reads [("declarator", .declarator false), ("decorators", .decorators), ("body", .whole)] []
    cFunctionStmt := by
  have hfunction : Reads [("declarator", .declarator false), ("decorators", .decorators), ("body", .whole)] [] fun c n =>
      (orDefect n .noDeclarator (declarator? n) >>= fun declarator => declaredHead c declarator) >>= fun head =>
      decorators c n >>= fun decs => stmtsField c n "body" >>= fun body =>
      pure (Stmt.functionDef head.1 head.2.1 head.2.2 body decs false) := by
    refine reads_bind reads_declarator (fun _ => ?_) (by decide)
    refine reads_bind reads_decorators (fun _ => ?_) (by decide)
    exact reads_settle (reads_stmts "body") fun _ => .const _
  refine hfunction.congr fun c n => ?_
  unfold cFunctionStmt
  simp only [declaredFunction_eq, bind_assoc, pure_bind]

/-- the assignment of one declared variable -/
def variableOf (convert : Converter) (declarator : Node) : Attempt (List Piece) :=
  match declarator.text? "name" with
  | none => do
    Attempt.anomaly (.of declarator .unnamedVariable)
    return []
  | some name => do
    let value ← optionalExpr convert declarator "default" .load
    return [.stmt (assignName name (value.getD (.keyword "None" (positionOf declarator))) (positionOf declarator))]

theorem reads_variableOf : Reads [("default", .whole)] ["name"] variableOf := by
  refine (reads_on (g := fun n => n.text? "name") (X := fun name c n => match name with
    | none => Attempt.anomaly (.of n .unnamedVariable) >>= fun _ => pure []
    | some name => optionalExpr c n "default" .load >>= fun value =>
      pure [Piece.stmt (assignName name (value.getD (.keyword "None" (positionOf n))) (positionOf n))])
    (fun n n' h => h.text? (by simp)) (fun name => ?_) (by decide)).congr fun c n => rfl
  cases name with
  | none => exact reads_less (.bind (.anomaly _) fun _ => .const _) (by decide)
  | some name => exact reads_settle (reads_optional "default" .load) fun _ => .pure fun _ _ h => by rw [h.positionOf]

theorem leads_declarator {tag : String} {blank : Value} {C : Option Hole} {ofVariable : Bool} {D : Hole}
    (h : Leads tag blank C (.declarator ofVariable) D) (w : Value) : (D w).node? ≠ none := by
  cases h <;> simp [inField, Value.node?]

theorem reads_variables : Reads [("declarators", .items (.declarator true))] [] variablesGroup := by
  have hentry : Takes (.declarator true) fun c n v =>
      match v.node? with
      | some m => variablePieces c n m
      | none => pure [] := by
    refine (takes_declarator true reads_variableOf settles_pieces (.const [])).congr fun c n v => ?_
    cases v with
    | object m =>
      simp only [Value.node?, variablePieces, behindPointers, Bool.true_and]
      cases (stripped m).isTagged "CFuncDeclarator" <;> rfl
    | _ => rfl
  have hentries : Reads [("declarators", .items (.declarator true))] [] fun c n =>
      nodeEntries n "declarators" >>= Attempt.gather (variablePieces c n) :=
    reads_nodeEntries "declarators" hentry fun h w _ => .inl (leads_declarator h w)
  exact (reads_settle hentries fun pieces => .const (Fragment.group pieces)).congr fun c n => (bind_assoc _ _ _).symm

theorem reads_extern : Reads [("body", .whole)] [] externGroup :=
  reads_settle (reads_stmts "body") fun _ => .const _

/-! ## All kinds of node -/

/-- **Every construction reads its node by the table.** -/
theorem construct_reads (kind : Kind) (b : Binding) :
    ∃ others, Reads kind.slots others fun c n => construct c n b kind := by
  cases kind with
  | int => exact ⟨_, reads_map _ settles_int.reads⟩
  | name => exact ⟨_, reads_map _ (settles_name b).reads⟩
  | bool => exact ⟨_, reads_map _ settles_bool.reads⟩
  | noneLiteral => exact ⟨[], (Settles.pure fun _ _ h => by unfold noneExpr; rw [h.positionOf]).reads⟩
  | string => exact ⟨_, (settles_string _ _).reads⟩
  | unicode => exact ⟨_, (settles_string _ _).reads⟩
  | bytes => exact ⟨_, (settles_string _ _).reads⟩
  | joinedStr => exact ⟨_, reads_map _ reads_joinedStr⟩
  | tuple => exact ⟨_, reads_map _ (reads_tuple b)⟩
  | list => exact ⟨_, reads_map _ (reads_listExpr b)⟩
  | set => exact ⟨_, reads_map _ reads_set⟩
  | dict => exact ⟨_, reads_map _ reads_dict⟩
  | passStat => exact ⟨[], (Settles.pure fun _ _ h => by unfold passStmt; rw [h.positionOf]).reads⟩
  | exprStat => exact ⟨_, reads_map _ reads_exprStat⟩
  | singleAssignment => exact ⟨_, reads_map _ reads_assignment⟩
  | inPlaceAssignment => exact ⟨_, reads_map _ reads_augAssignment⟩
  | ifStat => exact ⟨_, reads_map _ reads_if⟩
  | whileStat => exact ⟨_, reads_map _ reads_while⟩
  | forInStat => exact ⟨_, reads_map _ (reads_for false)⟩
  | asyncForStat => exact ⟨_, reads_map _ (reads_for true)⟩
  | assertStat => exact ⟨_, reads_map _ reads_assert⟩
  | returnStat => exact ⟨_, reads_map _ reads_return⟩
  | statList => exact ⟨_, reads_statList⟩
  | funcDef => exact ⟨_, reads_map _ reads_function⟩
  | cFuncDef => exact ⟨_, reads_map _ reads_cFunction⟩
  | cFuncDeclarator => exact ⟨_, reads_map _ reads_functionDeclarator⟩
  | pyClassDef => exact ⟨_, reads_map _ (reads_class .pythonClass (by decide))⟩
  | cClassDef => exact ⟨_, reads_map _ (reads_class .extensionType (by decide))⟩
  | cStructOrUnionDef => exact ⟨_, reads_map _ reads_struct⟩
  | cEnumDef => exact ⟨_, reads_enum⟩
  | cTypeDef => exact ⟨_, reads_map _ settles_typedef.reads⟩
  | cVarDef => exact ⟨_, reads_variables⟩
  | cDefExtern => exact ⟨_, reads_extern⟩
  | simpleCall => exact ⟨_, reads_map _ reads_simpleCall⟩
  | generalCall => exact ⟨_, reads_map _ reads_generalCall⟩
  | sizeof => exact ⟨[], (Settles.pure fun _ _ h => by unfold sizeofExpr; rw [h.positionOf]).reads⟩
  | arithmetic => exact ⟨_, reads_map _ reads_binOp⟩
  | boolBinop => exact ⟨_, reads_map _ reads_boolOp⟩
  | primaryCmp => exact ⟨_, reads_map _ reads_compare⟩
  | cascadedCmp => exact ⟨_, reads_cascade⟩
  | condExpr => exact ⟨_, reads_map _ reads_cond⟩
  | awaitExpr => exact ⟨_, reads_map _ reads_await⟩
  | yieldExpr => exact ⟨_, reads_map _ reads_yield⟩

end Graft.Convert
