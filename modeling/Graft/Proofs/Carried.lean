/-
Conversion is carried along where nodes stand.

Take two documents that differ in where their nodes stand. What the first converts to has its positions from nodes of the
first (`origins`), and what the second converts to has the same shape: no construction looks at a position. A converter
`Carries` when it takes twins to fragments that are tied in this way (`FragmentTied`), with the same notes but for where
they point (`Parallel`).

With a converter that carries for what is inside it, every construction takes twin nodes to tied results: it meets their
fields through ways of reading that look at no position, hands on values that are twins again, and gives the node its own
position. There is one lemma for each construction, step by step as the construction goes, and `parallel_construct` puts
them together by kind. By induction on the depth the converter itself carries (`carries_convert`), and so does the
conversion of a document (`parallel_convertModule`).
-/
import Graft.Convert.Root
import Graft.Proofs.Constructions
import Graft.Proofs.Depth
import Graft.Proofs.Moved
import Graft.Proofs.Tied

namespace Graft.Convert

open Graft.Document Attempt Tied

/-! ## Where positions come from -/

/-- the columns from the keyword of a definition to its name, by the tag of the definition -/
def nameDistance? : String → Option UInt32
  | "Def" => some 4
  | "PyClassDef" => some 7
  | "CEnumDef" => some 7
  | "CClassDef" => some 6
  | "CStructOrUnionDef" => some 6
  | _ => none

/-- where a definition that stands at `pos` has its name -/
inductive NamedAt (root : Node) (pos : Position) : Position → Prop where
  /-- behind its keyword -/
  | keyword {o : Node} {distance : UInt32} : Holds (.object root) (.object o) →
      o.tag.bind nameDistance? = some distance → pos = positionOf o →
      NamedAt root pos (namePosition (positionOf o) distance)
  /-- where the declarator stands that is behind the pointers of its own -/
  | declarator {o base : Node} : Holds (.object root) (.object o) → o.node? "base" = some base →
      pos = positionOf o → NamedAt root pos (positionOf (stripped base))

/-- the positions that a document has -/
def origins (root : Node) : Origins := ⟨Located root, NamedAt root⟩

/-! ## What twins convert to -/

variable {root : Node}

/-- two pieces of one sort that are tied -/
inductive PieceTied (root : Node) : Piece → Piece → Prop where
  | stmt {s t : Stmt} : Tied (origins root) (.stmt s) (.stmt t) → PieceTied root (.stmt s) (.stmt t)
  | expr {e f : Expr} : Tied (origins root) (.expr e) (.expr f) → PieceTied root (.expr e) (.expr f)

/-- two links with one operator and operands that are tied -/
structure LinkTied (root : Node) (l l' : Link) : Prop where
  op : l.op = l'.op
  operand : Tied (origins root) (.expr l.operand) (.expr l'.operand)

/-- two fragments of one sort that are tied throughout -/
inductive FragmentTied (root : Node) : Fragment → Fragment → Prop where
  | absent : FragmentTied root .absent .absent
  | piece {p q : Piece} : PieceTied root p q → FragmentTied root (.piece p) (.piece q)
  | group {ps qs : List Piece} : List.Forall₂ (PieceTied root) ps qs → FragmentTied root (.group ps) (.group qs)
  | chain {l l' : Link} {ls ls' : List Link} : LinkTied root l l' → List.Forall₂ (LinkTied root) ls ls' →
      FragmentTied root (.chain l ls) (.chain l' ls')

/-- the attempts do the same, but for where nodes stand -/
abbrev Parallel {α β : Type} (R : α → β → Prop) (x : Attempt α) (y : Attempt β) : Prop :=
  AlikeUpTo Fault.withoutPlace R x y

/-- a converter that looks at no position and makes up none -/
structure Carries (root : Node) (c : Converter) : Prop where
  null : ∀ b, c .null b = pure .absent
  tied : ∀ {v v' : Value}, Twins root v v' → ∀ b, Parallel (FragmentTied root) (c v b) (c v' b)

/-- two nodes that are twins -/
abbrev TwinNodes (root : Node) (m m' : Node) : Prop := Twins root (.object m) (.object m')

/-- two expressions that are tied -/
abbrev TiedExpr (root : Node) (e f : Expr) : Prop := Tied (origins root) (.expr e) (.expr f)

/-- two statements that are tied -/
abbrev TiedStmt (root : Node) (s t : Stmt) : Prop := Tied (origins root) (.stmt s) (.stmt t)

/-- two expressions that are tied, or none -/
abbrev TiedExpr? (root : Node) : Option Expr → Option Expr → Prop := TiedOption (origins root)

abbrev TiedExprs (root : Node) : List Expr → List Expr → Prop := AllTied (origins root) .expr

abbrev TiedStmts (root : Node) : List Stmt → List Stmt → Prop := AllTied (origins root) .stmt

variable {n n' : Node}

section Owner

variable (h : TwinNodes root n n')

include h

/-! ### What their places ask for -/

omit h in
theorem tied_toStmt {p q : Piece} (hp : PieceTied root p q) : TiedStmt root p.toStmt q.toStmt := by
  cases hp with
  | stmt hs => exact hs
  | expr he => exact tied_ofExpr he

theorem endsAlike_toExpr {p q : Piece} (hp : PieceTied root p q) :
    EndsAlike Fault.withoutPlace (TiedExpr root) (p.toExpr n) (q.toExpr n') := by
  cases hp with
  | expr he => exact .ok he
  | @stmt s t hs =>
    have hshape := hs.agrees_stmt
    cases s with
    | expr pos e =>
      obtain ⟨pos', f, rfl, he⟩ := tied_of_exprStmt hs
      exact .ok he
    | _ => cases t <;> first | exact .error (h.blame _) | cases hshape

theorem endsAlike_pieces {f f' : Fragment} (hf : FragmentTied root f f') :
    EndsAlike Fault.withoutPlace (List.Forall₂ (PieceTied root)) (f.pieces n) (f'.pieces n') := by
  cases hf with
  | absent => exact .ok .nil
  | piece hp => exact .ok (.cons hp .nil)
  | group hps => exact .ok hps
  | chain => exact .error (h.blame _)

theorem endsAlike_stmts {f f' : Fragment} (hf : FragmentTied root f f') :
    EndsAlike Fault.withoutPlace (TiedStmts root) (f.stmts n) (f'.stmts n') :=
  (endsAlike_pieces h hf).map fun _ _ hps =>
    List.forall₂_map_left_iff.2 (List.forall₂_map_right_iff.2 (hps.imp fun _ _ => tied_toStmt))

theorem endsAlike_exprs {f f' : Fragment} (hf : FragmentTied root f f') :
    EndsAlike Fault.withoutPlace (TiedExprs root) (f.exprs n) (f'.exprs n') :=
  (endsAlike_pieces h hf).bind fun _ _ hps => .mapM hps fun _ _ => endsAlike_toExpr h

theorem endsAlike_expr? {f f' : Fragment} (hf : FragmentTied root f f') :
    EndsAlike Fault.withoutPlace (TiedExpr? root) (f.expr? n) (f'.expr? n') := by
  have hone {p q : Piece} (hp : PieceTied root p q) :
      EndsAlike Fault.withoutPlace (TiedExpr? root) ((p.toExpr n).map some) ((q.toExpr n').map some) :=
    (endsAlike_toExpr h hp).map fun _ _ he => .some he
  cases hf with
  | absent => exact .ok .none
  | piece hp => exact hone hp
  | group hps =>
    cases hps with
    | nil => exact .ok .none
    | cons hp hrest =>
      cases hrest with
      | nil => exact hone hp
      | cons => exact .error (h.blame _)
  | chain => exact .error (h.blame _)

theorem endsAlike_links {f f' : Fragment} (hf : FragmentTied root f f') :
    EndsAlike Fault.withoutPlace (List.Forall₂ (LinkTied root)) (f.links n) (f'.links n') := by
  cases hf with
  | absent => exact .ok .nil
  | chain hl hls => exact .ok (.cons hl hls)
  | piece => exact .error (h.blame _)
  | group => exact .error (h.blame _)

end Owner

/-! ## Fields that are read -/

section Reading

variable (h : TwinNodes root n n')

include h

/-- What both nodes have, or lack and are blamed alike for. -/
theorem parallel_need {α : Type} {o o' : Option α} (d : Defect) (ho : o = o') :
    Parallel Eq (orDefect n d o) (orDefect n' d o') := by
  rw [ho]
  cases o' with
  | none => exact alike_fail (h.blame d)
  | some a => exact alike_refl _

theorem parallel_operator : Parallel Eq (operatorToken n) (operatorToken n') :=
  parallel_need h .noOperator (h.text? "operator" (by decide))

theorem parallel_itemsField (name : String) (hname : name ∉ positionFields) :
    Parallel (List.Forall₂ (Twins root)) (itemsField n name) (itemsField n' name) := by
  unfold itemsField
  rcases rel_cases (h.present? name hname) with ⟨hnone, hnone'⟩ | ⟨v, v', hv, hv', hrel⟩
  · rw [hnone, hnone']
    exact alike_pure .nil
  · rw [hv, hv']
    exact alike_lack (h.blame _) hrel.asItems

theorem parallel_entryNode (name : String) {v v' : Value} (hv : Twins root v v') :
    Parallel (List.Forall₂ (TwinNodes root)) (entryNode name n v) (entryNode name n' v') := by
  rcases rel_cases hv.asNode with ⟨hnone, hnone'⟩ | ⟨m, m', hm, hm', htwins⟩
  · rw [entryNode_other hnone, entryNode_other hnone', ← hv.moved.isAbsent, ← hv.moved.kindName]
    cases v.isAbsent with
    | true => exact alike_pure .nil
    | false => exact alike_then (alike_anomaly (h.blame _)) fun _ => alike_pure .nil
  · cases v <;> cases hm
    cases v' <;> cases hm'
    exact alike_pure (.cons htwins .nil)

theorem parallel_nodeEntries (name : String) (hname : name ∉ positionFields) :
    Parallel (List.Forall₂ (TwinNodes root)) (nodeEntries n name) (nodeEntries n' name) := by
  refine alike_bind (parallel_itemsField h name hname) fun items items' hitems => ?_
  exact alike_gather hitems fun v v' hv => parallel_entryNode h name hv

theorem parallel_dictItems : Parallel (List.Forall₂ (TwinNodes root)) (dictItems n) (dictItems n') := by
  refine alike_bind (parallel_itemsField h "key_value_pairs" (by decide)) fun items items' hitems => ?_
  exact alike_mapM hitems fun v v' hv => alike_lack (h.blame _) hv.asNode

/-! ## Atoms -/

theorem parallel_name (b : Binding) : Parallel (TiedExpr root) (nameExpr n b) (nameExpr n' b) :=
  alike_then (parallel_need h .noName (h.text? "name" (by decide))) fun _ => alike_pure (tied_name h.located)

theorem parallel_int : Parallel (TiedExpr root) (intExpr n) (intExpr n') :=
  alike_then (parallel_need h .noInteger h.integerText?) fun _ => alike_pure (tied_num h.located)

theorem parallel_bool : Parallel (TiedExpr root) (boolExpr n) (boolExpr n') :=
  alike_then (parallel_need h .noBoolean h.boolText?) fun _ => alike_pure (tied_name h.located)

theorem tied_stringExpr (name : String) (hname : name ∉ positionFields) (marks : StringMarks) :
    TiedExpr root (stringExpr n name marks) (stringExpr n' name marks) := by
  unfold stringExpr
  rw [← h.text? name hname]
  exact tied_str h.located .nil

theorem tied_namedExpr? (b : Binding) : TiedExpr? root (namedExpr? n b) (namedExpr? n' b) := by
  unfold namedExpr?
  rw [← h.filledText? "name" (by decide)]
  cases n.filledText? "name" with
  | none => exact .none
  | some name => exact .some (tied_name h.located)

omit h in
/-- The first of two that is there. -/
theorem tied_or {x x' y y' : Option Expr} (hx : TiedExpr? root x x') (hy : TiedExpr? root y y') :
    TiedExpr? root (x.or y) (x'.or y') := by
  cases hx with
  | none => exact hy
  | some he => exact .some he

omit h in
theorem tied_getD {x y : Option Expr} {e f : Expr} (hx : TiedExpr? root x y) (he : TiedExpr root e f) :
    TiedExpr root (x.getD e) (y.getD f) := by
  cases hx with
  | none => exact he
  | some he => exact he

omit h in
theorem tied_reserved (id : String) {pos : Position} (hpos : Located root pos) (pos' : Position) :
    TiedExpr root (.keyword id pos) (.keyword id pos') := tied_name hpos

omit h in
theorem tied_bind {o o' : Option Node} (ho : Option.Rel (TwinNodes root) o o') (b : Binding) :
    TiedExpr? root (o.bind (namedExpr? · b)) (o'.bind (namedExpr? · b)) := by
  cases ho with
  | none => exact .none
  | some hm => exact tied_namedExpr? hm b

theorem tied_baseTypeName? (b : Binding) : TiedExpr? root (baseTypeName? n b) (baseTypeName? n' b) := by
  unfold baseTypeName?
  rcases rel_cases (h.node? "base_type" (by decide)) with ⟨hnone, hnone'⟩ | ⟨m, m', hm, hm', hbase⟩
  · rw [hnone, hnone']
    exact .none
  · rw [hm, hm']
    exact tied_or (tied_namedExpr? hbase b) (tied_bind (hbase.node? "base_type_node" (by decide)) b)

omit h in
/-- `name = value`, at one position. -/
theorem tied_assignName (name : String) {e f : Expr} {pos pos' : Position} (hpos : Located root pos)
    (he : TiedExpr root e f) : TiedStmt root (assignName name e pos) (assignName name f pos') :=
  tied_assign hpos (tied_name hpos) he

theorem parallel_typedef : Parallel (TiedStmt root) (typedefStmt n) (typedefStmt n') := by
  refine alike_bind (alike_lack (h.blame .noDeclarator) h.declarator?) fun d d' hd => ?_
  refine alike_then (parallel_need h .unnamedTypedef (hd.text? "name" (by decide))) fun name => ?_
  have hvalue := tied_getD (tied_baseTypeName? h .load) (tied_reserved "None" located_unknown .unknown)
  exact alike_pure (tied_assign h.located (tied_name hd.located) hvalue)

theorem parallel_enumMember : Parallel (TiedStmts root) (enumMember n) (enumMember n') := by
  unfold enumMember
  rw [← h.text? "name" (by decide)]
  cases n.text? "name" with
  | none => exact alike_then (alike_anomaly (h.blame _)) fun _ => alike_pure .nil
  | some name => exact alike_pure (.cons (tied_assignName name h.located (tied_num h.located)) .nil)

end Reading

/-! ## Fields that are converted -/

section Converting

variable {c : Converter} (hc : Carries root c) (h : TwinNodes root n n')

include hc h

theorem parallel_field (name : String) (hname : name ∉ positionFields) (b : Binding) :
    Parallel (FragmentTied root) (field c n name b) (field c n' name b) := by
  rw [field_held hc.null, field_held hc.null]
  exact hc.tied (h.field name hname) b

theorem parallel_optional (name : String) (hname : name ∉ positionFields) (b : Binding) :
    Parallel (TiedExpr? root) (optionalExpr c n name b) (optionalExpr c n' name b) :=
  alike_bind (parallel_field hc h name hname b) fun _ _ hf => alike_ofExcept (endsAlike_expr? h hf)

theorem parallel_required (name : String) (hname : name ∉ positionFields) (b : Binding) :
    Parallel (TiedExpr root) (requiredExpr c n name b) (requiredExpr c n' name b) :=
  alike_bind (parallel_optional hc h name hname b) fun _ _ he => alike_lack (h.blame _) he

theorem parallel_stmts (name : String) (hname : name ∉ positionFields) :
    Parallel (TiedStmts root) (stmtsField c n name) (stmtsField c n' name) :=
  alike_bind (parallel_field hc h name hname .load) fun _ _ hf => alike_ofExcept (endsAlike_stmts h hf)

theorem parallel_exprs (name : String) (hname : name ∉ positionFields) (b : Binding) :
    Parallel (TiedExprs root) (exprsField c n name b) (exprsField c n' name b) :=
  alike_bind (parallel_field hc h name hname b) fun _ _ hf => alike_ofExcept (endsAlike_exprs h hf)

/-! ## Operations -/

theorem parallel_binOp : Parallel (TiedExpr root) (binOpExpr c n) (binOpExpr c n') := by
  refine alike_bind (parallel_required hc h "operand1" (by decide) .load) fun left left' hleft => ?_
  refine alike_bind (parallel_required hc h "operand2" (by decide) .load) fun right right' hright => ?_
  exact alike_then (parallel_operator h) fun token => alike_pure (tied_binOp h.located hleft hright)

theorem parallel_boolOp : Parallel (TiedExpr root) (boolOpExpr c n) (boolOpExpr c n') := by
  refine alike_bind (parallel_required hc h "operand1" (by decide) .load) fun left left' hleft => ?_
  refine alike_bind (parallel_required hc h "operand2" (by decide) .load) fun right right' hright => ?_
  refine alike_then (parallel_operator h) fun token => ?_
  exact alike_pure (tied_boolOp h.located (.cons hleft (.cons hright .nil)))

/-- the links of two comparisons, tied one by one -/
def LinksTied (root : Node) (links links' : Link × List Link) : Prop :=
  LinkTied root links.1 links'.1 ∧ List.Forall₂ (LinkTied root) links.2 links'.2

theorem parallel_comparison : Parallel (LinksTied root) (comparisonLinks c n) (comparisonLinks c n') := by
  refine alike_then (parallel_operator h) fun token => ?_
  refine alike_bind (parallel_required hc h "operand2" (by decide) .load) fun operand operand' hoperand => ?_
  refine alike_bind (parallel_field hc h "cascade" (by decide) .load) fun f f' hf => ?_
  refine alike_bind (alike_ofExcept (endsAlike_links h hf)) fun rest rest' hrest => ?_
  exact alike_pure ⟨⟨rfl, hoperand⟩, hrest⟩

omit hc h in
/-- Links that are tied have the same operators, and operands that are tied. -/
theorem tied_links {ls ls' : List Link} (hls : List.Forall₂ (LinkTied root) ls ls') :
    ls.map Link.op = ls'.map Link.op ∧ TiedExprs root (ls.map Link.operand) (ls'.map Link.operand) := by
  induction hls with
  | nil => exact ⟨rfl, .nil⟩
  | cons hl _ ih =>
    obtain ⟨hops, hoperands⟩ := ih
    exact ⟨by rw [List.map_cons, List.map_cons, hl.op, hops], .cons hl.operand hoperands⟩

theorem parallel_compare : Parallel (TiedExpr root) (compareExpr c n) (compareExpr c n') := by
  refine alike_bind (parallel_required hc h "operand1" (by decide) .load) fun left left' hleft => ?_
  refine alike_bind (parallel_comparison hc h) fun links links' hlinks => ?_
  obtain ⟨hops, hoperands⟩ := tied_links (List.Forall₂.cons hlinks.1 hlinks.2)
  refine alike_pure ?_
  simp only [hops]
  exact tied_compare h.located hleft hoperands

theorem parallel_cascade : Parallel (FragmentTied root) (cascadeLinks c n) (cascadeLinks c n') :=
  alike_bind (parallel_comparison hc h) fun _ _ hlinks => alike_pure (.chain hlinks.1 hlinks.2)

theorem parallel_cond : Parallel (TiedExpr root) (condExpr c n) (condExpr c n') := by
  refine alike_bind (parallel_required hc h "test" (by decide) .load) fun test test' htest => ?_
  refine alike_bind (parallel_required hc h "true_val" (by decide) .load) fun body body' hbody => ?_
  refine alike_bind (parallel_required hc h "false_val" (by decide) .load) fun orelse orelse' horelse => ?_
  exact alike_pure (tied_ifExp h.located htest hbody horelse)

theorem parallel_await : Parallel (TiedExpr root) (awaitExpr c n) (awaitExpr c n') :=
  alike_bind (parallel_required hc h "arg" (by decide) .load) fun _ _ hvalue => alike_pure (tied_await h.located hvalue)

theorem parallel_yield : Parallel (TiedExpr root) (yieldExpr c n) (yieldExpr c n') :=
  alike_bind (parallel_optional hc h "arg" (by decide) .load) fun _ _ hvalue => alike_pure (tied_yield h.located hvalue)

/-! ## Displays -/

theorem parallel_tuple (b : Binding) : Parallel (TiedExpr root) (tupleExpr c n b) (tupleExpr c n' b) :=
  alike_bind (parallel_exprs hc h "args" (by decide) b) fun _ _ helts => alike_pure (tied_tuple h.located helts)

theorem parallel_list (b : Binding) : Parallel (TiedExpr root) (listExpr c n b) (listExpr c n' b) :=
  alike_bind (parallel_exprs hc h "args" (by decide) b) fun _ _ helts => alike_pure (tied_list h.located helts)

theorem parallel_set : Parallel (TiedExpr root) (setExpr c n) (setExpr c n') :=
  alike_bind (parallel_exprs hc h "args" (by decide) .load) fun _ _ helts => alike_pure (tied_set h.located helts)

/-- two keys that are tied with two values that are -/
def EntryTied (root : Node) (entry entry' : Expr × Expr) : Prop :=
  TiedExpr root entry.1 entry'.1 ∧ TiedExpr root entry.2 entry'.2

theorem parallel_dictEntry : Parallel (EntryTied root) (dictEntry c n) (dictEntry c n') := by
  refine alike_bind (parallel_required hc h "key" (by decide) .load) fun key key' hkey => ?_
  refine alike_bind (parallel_required hc h "value" (by decide) .load) fun value value' hvalue => ?_
  exact alike_pure ⟨hkey, hvalue⟩

theorem parallel_dict : Parallel (TiedExpr root) (dictExpr c n) (dictExpr c n') := by
  refine alike_bind (parallel_dictItems h) fun items items' hitems => ?_
  refine alike_bind (alike_mapM hitems fun m m' hm => parallel_dictEntry hc hm) fun entries entries' hentries => ?_
  have hkeys : TiedExprs root (entries.map Prod.fst) (entries'.map Prod.fst) :=
    List.rel_map (fun _ _ hentry => hentry.1) hentries
  have hvalues : TiedExprs root (entries.map Prod.snd) (entries'.map Prod.snd) :=
    List.rel_map (fun _ _ hentry => hentry.2) hentries
  exact alike_pure (tied_dict h.located hkeys hvalues)

theorem parallel_segment {m m' : Node} (hm : TwinNodes root m m') :
    Parallel (TiedStmts root) (segmentStmts c n m) (segmentStmts c n' m') := by
  have hstmts (f f' : Fragment) (hf : FragmentTied root f f') :
      Parallel (TiedStmts root) (ofExcept (f.stmts n)) (ofExcept (f'.stmts n')) := alike_ofExcept (endsAlike_stmts h hf)
  unfold segmentStmts
  rw [← hm.isTagged]
  cases m.isTagged "FormattedValue" with
  | true => exact alike_bind (parallel_field hc hm "value" (by decide) .load) hstmts
  | false => exact alike_bind (hc.tied hm .load) hstmts

theorem parallel_joinedStr : Parallel (TiedExpr root) (joinedStrExpr c n) (joinedStrExpr c n') := by
  refine alike_bind (parallel_nodeEntries h "values" (by decide)) fun entries entries' hentries => ?_
  refine alike_bind (alike_gather hentries fun m m' hm => parallel_segment hc h hm) fun segments segments' hsegments => ?_
  exact alike_pure (tied_str h.located hsegments)

/-! ## Calls -/

theorem parallel_simpleCall : Parallel (TiedExpr root) (simpleCallExpr c n) (simpleCallExpr c n') := by
  refine alike_bind (parallel_required hc h "function" (by decide) .load) fun func func' hfunc => ?_
  refine alike_bind (parallel_exprs hc h "args" (by decide) .load) fun args args' hargs => ?_
  exact alike_pure (tied_call h.located hfunc (argumentsTied_positional hargs))

/-- two arguments passed by name that are tied -/
abbrev TiedKeyword (root : Node) (k l : Keyword) : Prop := Tied (origins root) (.keyword k) (.keyword l)

/-- The name of an argument stands where its key does. -/
theorem parallel_keywordItem : Parallel (TiedKeyword root) (keywordItem c n) (keywordItem c n') := by
  refine alike_bind (alike_lack (h.blame .keywordWithoutKey) (h.node? "key" (by decide))) fun key key' hkey => ?_
  have hvalue : key.text? "value" = key'.text? "value" := hkey.text? "value" (by decide)
  have hunicode : key.text? "unicode_value" = key'.text? "unicode_value" := hkey.text? "unicode_value" (by decide)
  refine alike_then (parallel_need hkey .keywordNotAString (by rw [hvalue, hunicode])) fun name => ?_
  refine alike_bind (parallel_required hc h "value" (by decide) .load) fun value value' hvalue => ?_
  exact alike_pure (tied_keyword (by simp [NameToken.agrees]) hkey.located hvalue)

/-- the positional arguments of two calls, tied one by one, with their star arguments -/
def PositionalTied (root : Node) (a a' : List Expr × Option Expr) : Prop :=
  TiedExprs root a.1 a'.1 ∧ TiedExpr? root a.2 a'.2

theorem parallel_positional : Parallel (PositionalTied root) (positionalArgs c n) (positionalArgs c n') := by
  have hlist : Parallel (PositionalTied root) (exprsField c n "positional_args" .load >>= fun args => pure (args, none))
      (exprsField c n' "positional_args" .load >>= fun args => pure (args, none)) :=
    alike_bind (parallel_exprs hc h "positional_args" (by decide) .load) fun _ _ hargs => alike_pure ⟨hargs, .none⟩
  unfold positionalArgs
  rcases rel_cases (h.node? "positional_args" (by decide)) with ⟨hnone, hnone'⟩ | ⟨m, m', hnode, hnode', hm⟩
  · rw [hnone, hnone']
    exact hlist
  · simp only [hnode, hnode', ← hm.isTagged]
    split
    · exact alike_bind (parallel_exprs hc hm "args" (by decide) .load) fun _ _ hargs => alike_pure ⟨hargs, .none⟩
    · split
      · exact alike_bind (parallel_optional hc hm "arg" (by decide) .load) fun _ _ hstar => alike_pure ⟨.nil, hstar⟩
      · exact hlist

/-- the arguments of two calls that are passed by name, tied one by one, with their double-star arguments -/
def KeywordsTied (root : Node) (a a' : List Keyword × Option Expr) : Prop :=
  AllTied (origins root) .keyword a.1 a'.1 ∧ TiedExpr? root a.2 a'.2

theorem parallel_keywords : Parallel (KeywordsTied root) (keywordArgs c n) (keywordArgs c n') := by
  have hstar : Parallel (KeywordsTied root) (optionalExpr c n "keyword_args" .load >>= fun star => pure ([], star))
      (optionalExpr c n' "keyword_args" .load >>= fun star => pure ([], star)) :=
    alike_bind (parallel_optional hc h "keyword_args" (by decide) .load) fun _ _ hstar => alike_pure ⟨.nil, hstar⟩
  unfold keywordArgs
  rcases rel_cases (h.node? "keyword_args" (by decide)) with ⟨hnone, hnone'⟩ | ⟨m, m', hnode, hnode', hm⟩
  · rw [hnone, hnone']
    exact hstar
  · simp only [hnode, hnode', ← hm.isTagged]
    split
    · refine alike_bind (parallel_dictItems hm) fun items items' hitems => ?_
      refine alike_bind (alike_mapM hitems fun i i' hi => parallel_keywordItem hc hi) fun ks ls hkeywords => ?_
      exact alike_pure ⟨hkeywords, .none⟩
    · exact hstar

theorem parallel_generalCall : Parallel (TiedExpr root) (generalCallExpr c n) (generalCallExpr c n') := by
  refine alike_bind (parallel_required hc h "function" (by decide) .load) fun func func' hfunc => ?_
  refine alike_bind (parallel_positional hc h) fun args args' hargs => ?_
  refine alike_bind (parallel_keywords hc h) fun keywords keywords' hkeywords => ?_
  exact alike_pure (tied_call h.located hfunc ⟨hargs.1, hkeywords.1, hargs.2, hkeywords.2⟩)

/-! ## Statements -/

theorem parallel_statList : Parallel (FragmentTied root) (statListGroup c n) (statListGroup c n') := by
  refine alike_bind (parallel_field hc h "stats" (by decide) .load) fun f f' hf => ?_
  exact alike_bind (alike_ofExcept (endsAlike_pieces h hf)) fun ps qs hps => alike_pure (.group hps)

theorem parallel_exprStat : Parallel (TiedStmt root) (exprStatStmt c n) (exprStatStmt c n') :=
  alike_bind (parallel_required hc h "expr" (by decide) .load) fun _ _ hvalue =>
    alike_pure (tied_ofExpr (tied_moveTo hvalue h.located))

theorem parallel_assignment : Parallel (TiedStmt root) (assignmentStmt c n) (assignmentStmt c n') := by
  refine alike_bind (parallel_required hc h "lhs" (by decide) .store) fun target target' htarget => ?_
  refine alike_bind (parallel_required hc h "rhs" (by decide) .load) fun value value' hvalue => ?_
  exact alike_pure (tied_assign h.located htarget hvalue)

theorem parallel_augAssignment : Parallel (TiedStmt root) (augAssignmentStmt c n) (augAssignmentStmt c n') := by
  refine alike_bind (parallel_required hc h "lhs" (by decide) .augStore) fun target target' htarget => ?_
  refine alike_bind (parallel_required hc h "rhs" (by decide) .load) fun value value' hvalue => ?_
  exact alike_then (parallel_operator h) fun token => alike_pure (tied_augAssign h.located htarget hvalue)

/-- two clauses that are tied, the first at a position of the document -/
structure ClauseTied (root : Node) (k l : Clause) : Prop where
  test : TiedExpr root k.test l.test
  body : TiedStmts root k.body l.body
  located : Located root k.pos

theorem parallel_ifClause {v v' : Value} (hv : Twins root v v') :
    Parallel (ClauseTied root) (ifClause c n v) (ifClause c n' v') := by
  refine alike_bind (alike_lack (h.blame .clauseNotAnObject) hv.asNode) fun m m' hm => ?_
  refine alike_bind (parallel_required hc hm "condition" (by decide) .load) fun test test' htest => ?_
  refine alike_bind (parallel_stmts hc hm "body" (by decide)) fun body body' hbody => ?_
  exact alike_pure ⟨htest, hbody, hm.located⟩

theorem parallel_clauses : Parallel (List.Forall₂ (ClauseTied root)) (clausesOf c n) (clausesOf c n') := by
  have hentries : List.Forall₂ (Twins root) (((n.present? "if_clauses").bind Value.items?).getD [])
      (((n'.present? "if_clauses").bind Value.items?).getD []) := by
    rcases rel_cases (h.present? "if_clauses" (by decide)) with ⟨hnone, hnone'⟩ | ⟨v, v', hv, hv', htwins⟩
    · rw [hnone, hnone']
      exact .nil
    · rw [hv, hv', Option.bind_some, Option.bind_some]
      rcases rel_cases htwins.asItems with ⟨hnone, hnone'⟩ | ⟨items, items', hitems, hitems', hentries⟩
      · rw [hnone, hnone']
        exact .nil
      · rw [hitems, hitems']
        exact hentries
  exact alike_mapM hentries fun v v' hv => parallel_ifClause hc h hv

theorem parallel_elseOf : Parallel (TiedBlock (origins root)) (elseOf c n) (elseOf c n') := by
  unfold elseOf
  rw [← h.isSome_present? "else_clause" (by decide)]
  cases (n.present? "else_clause").isSome with
  | true =>
    exact alike_bind (parallel_stmts hc h "else_clause" (by decide)) fun _ _ hbody =>
      alike_pure (.some ⟨located_unknown, hbody⟩)
  | false => exact alike_pure .none

omit hc h in
/-- The clauses after the first go into its `else` block, which is at no position. -/
theorem tied_clauseChain {orelse orelse' : Option Suite} (horelse : TiedBlock (origins root) orelse orelse')
    {rest rest' : List Clause} (hrest : List.Forall₂ (ClauseTied root) rest rest') {first first' : Clause}
    (hfirst : ClauseTied root first first') :
    TiedStmt root (clauseChain orelse first rest) (clauseChain orelse' first' rest') := by
  induction hrest generalizing first first' with
  | nil => exact tied_ifElse hfirst.located hfirst.test hfirst.body horelse
  | cons hnext _ ih =>
    have hinner := ih hnext
    exact tied_ifElse hfirst.located hfirst.test hfirst.body (.some ⟨located_unknown, .cons hinner .nil⟩)

theorem parallel_if : Parallel (TiedStmt root) (ifStmt c n) (ifStmt c n') := by
  rw [ifStmt_eq, ifStmt_eq]
  refine alike_bind (parallel_clauses hc h) fun clauses clauses' hclauses => ?_
  cases hclauses with
  | nil => exact alike_fail (h.blame .noClauses)
  | cons hfirst hrest =>
    exact alike_bind (parallel_elseOf hc h) fun _ _ horelse => alike_pure (tied_clauseChain horelse hrest hfirst)

omit hc h in
theorem tied_filledSuite {ss ts : List Stmt} (hs : TiedStmts root ss ts) :
    TiedBlock (origins root) (filledSuite ss) (filledSuite ts) := by
  cases hs with
  | nil => exact .none
  | cons hfirst hrest => exact .some ⟨located_unknown, .cons hfirst hrest⟩

theorem parallel_while : Parallel (TiedStmt root) (whileStmt c n) (whileStmt c n') := by
  refine alike_bind (parallel_required hc h "condition" (by decide) .load) fun test test' htest => ?_
  refine alike_bind (parallel_stmts hc h "body" (by decide)) fun body body' hbody => ?_
  refine alike_bind (parallel_stmts hc h "else_clause" (by decide)) fun orelse orelse' horelse => ?_
  exact alike_pure (tied_while h.located htest hbody (tied_filledSuite horelse))

theorem parallel_forElse : Parallel (TiedBlock (origins root)) (forElse c n) (forElse c n') := by
  unfold forElse
  rw [← h.isTagged]
  cases n.isTagged statListTag with
  | true =>
    exact alike_bind (parallel_stmts hc h "stats" (by decide)) fun _ _ hbody => alike_pure (.some ⟨h.located, hbody⟩)
  | false =>
    refine alike_bind (hc.tied h .load) fun f f' hf => ?_
    exact alike_bind (alike_ofExcept (endsAlike_stmts h hf)) fun _ _ hbody => alike_pure (tied_filledSuite hbody)

theorem parallel_for (isAsync : Bool) : Parallel (TiedStmt root) (forStmt c isAsync n) (forStmt c isAsync n') := by
  refine alike_bind (parallel_required hc h "target" (by decide) .store) fun target target' htarget => ?_
  refine alike_bind (alike_lack (h.blame .noIterator) (h.node? "iterator" (by decide))) fun it it' hit => ?_
  refine alike_bind (parallel_required hc hit "sequence" (by decide) .load) fun iter iter' hiter => ?_
  refine alike_bind (parallel_stmts hc h "body" (by decide)) fun body body' hbody => ?_
  rw [← h.flag "is_async" (by decide)]
  rcases rel_cases (h.node? "else_clause" (by decide)) with ⟨hnone, hnone'⟩ | ⟨m, m', hnode, hnode', hclause⟩
  · rw [hnone, hnone']
    exact alike_pure (tied_for h.located htarget hiter hbody .none)
  · rw [hnode, hnode']
    exact alike_bind (parallel_forElse hc hclause) fun _ _ horelse =>
      alike_pure (tied_for h.located htarget hiter hbody horelse)

theorem parallel_assert : Parallel (TiedStmt root) (assertStmt c n) (assertStmt c n') := by
  refine alike_bind (parallel_required hc h "cond" (by decide) .load) fun test test' htest => ?_
  refine alike_bind (parallel_optional hc h "value" (by decide) .load) fun msg msg' hmsg => ?_
  exact alike_pure (tied_assertion h.located htest hmsg)

theorem parallel_return : Parallel (TiedStmt root) (returnStmt c n) (returnStmt c n') :=
  alike_bind (parallel_optional hc h "value" (by decide) .load) fun _ _ hvalue => alike_pure (tied_ret h.located hvalue)

/-! ## Parameters and definitions -/

/-- two parameters of one sort that are tied -/
structure ParameterTied (root : Node) (p q : Parameter) : Prop where
  keywordOnly : p.keywordOnly = q.keywordOnly
  name : TiedExpr root p.name q.name
  default : TiedExpr? root p.default q.default
  annotation : TiedExpr? root p.annotation q.annotation

theorem parallel_parameter {v v' : Value} (hv : Twins root v v') :
    Parallel (List.Forall₂ (ParameterTied root)) (parameter c n v) (parameter c n' v') := by
  refine alike_bind (alike_lack (h.blame .parameterNotAnObject) hv.asNode) fun m m' hm => ?_
  have hkeyword : isKeywordOnly m = isKeywordOnly m' := by
    unfold isKeywordOnly
    rw [hm.int? "kw_only" (by decide)]
  have hname (b : Binding) : TiedExpr? root (parameterName? m b) (parameterName? m' b) :=
    tied_or (tied_bind hm.declarator? b) (tied_baseTypeName? hm b)
  simp only [← hkeyword]
  rcases rel_cases (hname (if isKeywordOnly m then .kwOnlyParam else .param)) with
    ⟨hnone, hnone'⟩ | ⟨name, name', hsome, hsome', htied⟩
  · rw [hnone, hnone']
    exact alike_then (alike_anomaly (hm.blame _)) fun _ => alike_pure .nil
  · rw [hsome, hsome']
    refine alike_bind (parallel_optional hc hm "default" (by decide) .load) fun default default' hdefault => ?_
    refine alike_bind (parallel_optional hc hm "annotation" (by decide) .load) fun _ _ hannotation => ?_
    exact alike_pure (.cons ⟨rfl, htied, hdefault, hannotation⟩ .nil)

omit hc in
theorem tied_collector? (name : String) (hname : name ∉ positionFields) (role : Role) :
    TiedToken (origins root) (collector? n name role) (collector? n' name role) := by
  unfold collector?
  rcases rel_cases (h.node? name hname) with ⟨hnone, hnone'⟩ | ⟨m, m', hm, hm', htwins⟩
  · rw [hnone, hnone']
    exact .none
  · rw [hm, hm', Option.bind_some, Option.bind_some, ← htwins.text? "name" (by decide)]
    cases m.text? "name" with
    | none => exact .none
    | some id => exact .some ⟨by simp [NameToken.agrees], htwins.located⟩

omit hc h in
/-- The parameters of one sort. -/
theorem parameterTied_filter {ps qs : List Parameter} (hps : List.Forall₂ (ParameterTied root) ps qs)
    (sort : Bool → Bool) : List.Forall₂ (ParameterTied root) (ps.filter fun p => sort p.keywordOnly)
      (qs.filter fun q => sort q.keywordOnly) :=
  List.rel_filter (fun p q hpq => by simp only [hpq.keywordOnly]) hps

theorem parallel_parameters :
    Parallel (fun p q => Tied (origins root) (.parameters p) (.parameters q)) (parameters c n) (parameters c n') := by
  refine alike_bind (parallel_itemsField h "args" (by decide)) fun items items' hitems => ?_
  refine alike_bind (alike_gather hitems fun v v' hv => parallel_parameter hc h hv) fun ps qs hps => ?_
  have hnamed := parameterTied_filter hps (!·)
  have hkeyword := parameterTied_filter hps id
  exact alike_pure (tied_parameters {
    args := List.rel_map (fun _ _ hp => hp.name) hnamed
    defaults := List.rel_map (fun _ _ hp => hp.default) hnamed
    annotations := List.rel_map (fun _ _ hp => hp.annotation) hnamed
    vararg := tied_collector? h "star_arg" (by decide) .varArg
    kwarg := tied_collector? h "starstar_arg" (by decide) .kwArg
    kwonlyargs := List.rel_map (fun _ _ hp => hp.name) hkeyword
    kwDefaults := List.rel_map (fun _ _ hp => hp.default) hkeyword
    kwonlyAnnotations := List.rel_map (fun _ _ hp => hp.annotation) hkeyword })

/-- two decorators that are tied -/
abbrev TiedDecorator (root : Node) (d e : Decorator) : Prop := Tied (origins root) (.decorator d) (.decorator e)

omit hc h in
theorem tied_decoratorOf? {e f : Expr} (he : TiedExpr root e f) :
    Option.Rel (TiedDecorator root) (decoratorOf? e) (decoratorOf? f) := by
  have hagrees := he.agrees_expr
  cases e with
  | name pos id b reserved =>
    cases f with
    | name pos' id' b' reserved' =>
      simp only [Expr.agrees, samePos_ignore, Bool.true_and, Bool.and_eq_true, beq_iff_eq] at hagrees
      obtain ⟨⟨rfl, rfl⟩, rfl⟩ := hagrees
      exact .some (tied_plainDecorator he.located)
    | _ => cases hagrees
  | call pos func args =>
    cases f with
    | call pos' func' args' => exact .some (tied_callDecorator he)
    | _ => cases hagrees
  | _ => cases f <;> first | exact .none | cases hagrees

theorem parallel_decorator : Parallel (List.Forall₂ (TiedDecorator root)) (decorator c n) (decorator c n') := by
  refine alike_bind (parallel_optional hc h "decorator" (by decide) .load) fun x y hx => ?_
  cases hx with
  | none => exact alike_pure .nil
  | some he =>
    simp only
    rcases rel_cases (tied_decoratorOf? he) with ⟨hnone, hnone'⟩ | ⟨d, d', hd, hd', htied⟩
    · rw [hnone, hnone']
      exact alike_then (alike_anomaly (h.blame _)) fun _ => alike_pure .nil
    · rw [hd, hd']
      exact alike_pure (.cons htied .nil)

theorem parallel_decorators : Parallel (List.Forall₂ (TiedDecorator root)) (decorators c n) (decorators c n') := by
  refine alike_bind (parallel_nodeEntries h "decorators" (by decide)) fun entries entries' hentries => ?_
  exact alike_gather hentries fun m m' hm => parallel_decorator hc hm

/-- two names of definitions of one kind, the first where a definition at the position may have it -/
structure NameTied (root : Node) (pos : Position) (t u : NameToken) : Prop where
  agrees : t.agrees .ignore u = true
  named : NamedAt root pos t.pos

omit hc in
/-- A definition that is named behind its keyword. -/
theorem tied_definedName (distance : NameDistance) (htag : n.tag.bind nameDistance? = some distance.columns)
    (name : String) (role : Role) :
    NameTied root (positionOf n) (definedName n name role distance) (definedName n' name role distance) := by
  refine ⟨by simp [NameToken.agrees, definedName], ?_⟩
  exact .keyword (h.within n (.self _)) htag rfl

theorem parallel_function (htag : n.tag = some "Def") :
    Parallel (TiedStmt root) (functionStmt c n) (functionStmt c n') := by
  refine alike_then (parallel_need h .noFunctionName (h.text? "name" (by decide))) fun name => ?_
  refine alike_bind (parallel_parameters hc h) fun params params' hparams => ?_
  refine alike_bind (parallel_decorators hc h) fun decs decs' hdecs => ?_
  refine alike_bind (parallel_stmts hc h "body" (by decide)) fun body body' hbody => ?_
  have hname := tied_definedName h .function (by rw [htag]; rfl) name .functionName
  rw [← h.flag "is_async_def" (by decide)]
  exact alike_pure (tied_functionDef h.located hname.agrees hname.named hparams hbody hdecs)

/-- A lone tuple is a tuple in both, and stands for its elements. -/
theorem parallel_bases : Parallel (TiedExprs root) (classBases c n) (classBases c n') := by
  refine alike_bind (parallel_exprs hc h "bases" (by decide) .load) fun bases bases' hbases => ?_
  cases hbases with
  | nil => exact alike_pure .nil
  | @cons e f _ _ he hrest =>
    cases hrest with
    | cons hsecond hrest =>
      simp only
      exact alike_pure (.cons he (.cons hsecond hrest))
    | nil =>
      cases e with
      | tuple pos es b comma =>
        obtain ⟨pos', fs, rfl, helts⟩ := tied_of_tuple he
        exact alike_pure helts
      | _ =>
        have hagrees := he.agrees_expr
        cases f <;> first | exact alike_pure (List.Forall₂.cons he .nil) | cases hagrees

theorem parallel_class (name : String) (hname : name ∉ positionFields) {distance : NameDistance}
    (htag : n.tag.bind nameDistance? = some distance.columns) :
    Parallel (TiedStmt root) (classStmt c name distance n) (classStmt c name distance n') := by
  refine alike_then (parallel_need h (.noClassName name) (h.text? name hname)) fun id => ?_
  refine alike_bind (parallel_bases hc h) fun bases bases' hbases => ?_
  refine alike_bind (parallel_stmts hc h "body" (by decide)) fun body body' hbody => ?_
  refine alike_bind (parallel_decorators hc h) fun decs decs' hdecs => ?_
  have hname := tied_definedName h distance htag id .className
  exact alike_pure (tied_classDef h.located hname.agrees hname.named hbases hbody hdecs)

/-! ## C declarations -/

/-- the decorators and bodies of two functions, tied one by one -/
def RestTied (root : Node) (rest rest' : List Decorator × List Stmt) : Prop :=
  List.Forall₂ (TiedDecorator root) rest.1 rest'.1 ∧ TiedStmts root rest.2 rest'.2

/-- A function is named by the declarator inside its own, behind the pointers. -/
theorem parallel_declaredFunction {rest rest' : Attempt (List Decorator × List Stmt)}
    (hrest : Parallel (RestTied root) rest rest') :
    Parallel (TiedStmt root) (declaredFunction c n rest) (declaredFunction c n' rest') := by
  have hbase : Option.Rel (fun m m' => TwinNodes root m m' ∧ NamedAt root (positionOf n) (positionOf m))
      ((n.node? "base").map stripped) ((n'.node? "base").map stripped) := by
    rcases rel_cases (h.node? "base" (by decide)) with ⟨hnone, hnone'⟩ | ⟨m, m', hm, hm', htwins⟩
    · rw [hnone, hnone']
      exact .none
    · rw [hm, hm']
      exact .some ⟨htwins.stripped, .declarator (h.within n (.self _)) hm rfl⟩
  refine alike_bind (alike_lack (h.blame .noBase) hbase) fun m m' hm => ?_
  obtain ⟨hm, hnamed⟩ := hm
  refine alike_then (parallel_need h .unnamedFunction (hm.filledText? "name" (by decide))) fun name => ?_
  refine alike_bind (parallel_parameters hc h) fun params params' hparams => ?_
  refine alike_bind hrest fun last last' hlast => ?_
  exact alike_pure (tied_functionDef h.located (by simp [NameToken.agrees]) hnamed hparams hlast.2 hlast.1)

theorem parallel_functionDeclarator :
    Parallel (TiedStmt root) (functionDeclaratorStmt c n) (functionDeclaratorStmt c n') :=
  parallel_declaredFunction hc h (alike_pure ⟨.nil, .nil⟩)

theorem parallel_cFunction : Parallel (TiedStmt root) (cFunctionStmt c n) (cFunctionStmt c n') := by
  refine alike_bind (alike_lack (h.blame .noDeclarator) h.declarator?) fun d d' hd => ?_
  refine parallel_declaredFunction hc hd ?_
  refine alike_bind (parallel_decorators hc h) fun decs decs' hdecs => ?_
  exact alike_bind (parallel_stmts hc h "body" (by decide)) fun body body' hbody => alike_pure ⟨hdecs, hbody⟩

theorem parallel_struct (htag : n.tag = some "CStructOrUnionDef") :
    Parallel (TiedStmt root) (structStmt c n) (structStmt c n') := by
  refine alike_then (parallel_need h .noStructName (h.text? "name" (by decide))) fun name => ?_
  refine alike_bind (parallel_stmts hc h "attributes" (by decide)) fun body body' hbody => ?_
  have hname := tied_definedName h .structure (by rw [htag]; rfl) name .className
  exact alike_pure (tied_classDef h.located hname.agrees hname.named .nil hbody .nil)

omit hc h in
theorem fragmentTied_stmts {ss ts : List Stmt} (hs : TiedStmts root ss ts) :
    FragmentTied root (.ofStmts ss) (.ofStmts ts) := .group (List.rel_map (fun _ _ hst => .stmt hst) hs)

theorem parallel_enum (htag : n.tag = some "CEnumDef") :
    Parallel (FragmentTied root) (enumFragment c n) (enumFragment c n') := by
  refine alike_bind (parallel_nodeEntries h "items" (by decide)) fun items items' hitems => ?_
  refine alike_bind (alike_gather hitems fun m m' hm => parallel_enumMember hm) fun members members' hmembers => ?_
  rw [← h.presentText? "name" (by decide)]
  cases (n.present? "name").bind Value.text? with
  | none => exact alike_pure (fragmentTied_stmts hmembers)
  | some name =>
    refine alike_bind (parallel_decorators hc h) fun decs decs' hdecs => ?_
    have hname := tied_definedName h .enumeration (by rw [htag]; rfl) name .className
    exact alike_pure (.piece (.stmt (tied_classDef h.located hname.agrees hname.named .nil hmembers hdecs)))

theorem parallel_variable {m m' : Node} (hm : TwinNodes root m m') :
    Parallel (List.Forall₂ (PieceTied root)) (variablePieces c n m) (variablePieces c n' m') := by
  have hd := hm.stripped
  unfold variablePieces
  simp only [← hd.isTagged, ← hd.text? "name" (by decide)]
  split
  · exact alike_bind (hc.tied hd .load) fun f f' hf => alike_ofExcept (endsAlike_pieces h hf)
  · split
    · exact alike_then (alike_anomaly (hd.blame _)) fun _ => alike_pure .nil
    · refine alike_bind (parallel_optional hc hd "default" (by decide) .load) fun value value' hvalue => ?_
      have htied := tied_getD hvalue (tied_reserved "None" hd.located (positionOf (stripped m')))
      exact alike_pure (.cons (.stmt (tied_assignName _ hd.located htied)) .nil)

theorem parallel_variables : Parallel (FragmentTied root) (variablesGroup c n) (variablesGroup c n') := by
  refine alike_bind (parallel_nodeEntries h "declarators" (by decide)) fun entries entries' hentries => ?_
  refine alike_bind (alike_gather hentries fun m m' hm => parallel_variable hc h hm) fun ps qs hps => ?_
  exact alike_pure (.group hps)

theorem parallel_extern : Parallel (FragmentTied root) (externGroup c n) (externGroup c n') :=
  alike_bind (parallel_stmts hc h "body" (by decide)) fun _ _ hbody => alike_pure (fragmentTied_stmts hbody)

/-! ## All kinds of node -/

omit hc h in
theorem parallel_ofExpr {x y : Attempt Expr} (hx : Parallel (TiedExpr root) x y) :
    Parallel (FragmentTied root) (.ofExpr <$> x) (.ofExpr <$> y) := alike_map_of hx fun _ _ he => .piece (.expr he)

omit hc h in
theorem parallel_ofStmt {x y : Attempt Stmt} (hx : Parallel (TiedStmt root) x y) :
    Parallel (FragmentTied root) (.ofStmt <$> x) (.ofStmt <$> y) := alike_map_of hx fun _ _ hs => .piece (.stmt hs)

/-- **Every construction takes twin nodes to what is tied.** -/
theorem parallel_construct {kind : Kind} (hkind : n.tag.bind Kind.ofTag? = some kind) (b : Binding) :
    Parallel (FragmentTied root) (construct c n b kind) (construct c n' b kind) := by
  obtain ⟨tag, htag, hof⟩ := Option.bind_eq_some_iff.1 hkind
  have hmem : tag ∈ kind.tags := Kind.mem_tags_of_ofTag? hof
  cases kind with
  | int => exact parallel_ofExpr (parallel_int h)
  | name => exact parallel_ofExpr (parallel_name h b)
  | bool => exact parallel_ofExpr (parallel_bool h)
  | noneLiteral => exact alike_pure (.piece (.expr (tied_name h.located)))
  | string => exact alike_pure (.piece (.expr (tied_stringExpr h "unicode_value" (by decide) _)))
  | unicode => exact alike_pure (.piece (.expr (tied_stringExpr h "value" (by decide) _)))
  | bytes => exact alike_pure (.piece (.expr (tied_stringExpr h "value" (by decide) _)))
  | joinedStr => exact parallel_ofExpr (parallel_joinedStr hc h)
  | tuple => exact parallel_ofExpr (parallel_tuple hc h b)
  | list => exact parallel_ofExpr (parallel_list hc h b)
  | set => exact parallel_ofExpr (parallel_set hc h)
  | dict => exact parallel_ofExpr (parallel_dict hc h)
  | passStat => exact alike_pure (.piece (.stmt (tied_pass h.located)))
  | exprStat => exact parallel_ofStmt (parallel_exprStat hc h)
  | singleAssignment => exact parallel_ofStmt (parallel_assignment hc h)
  | inPlaceAssignment => exact parallel_ofStmt (parallel_augAssignment hc h)
  | ifStat => exact parallel_ofStmt (parallel_if hc h)
  | whileStat => exact parallel_ofStmt (parallel_while hc h)
  | forInStat => exact parallel_ofStmt (parallel_for hc h false)
  | asyncForStat => exact parallel_ofStmt (parallel_for hc h true)
  | assertStat => exact parallel_ofStmt (parallel_assert hc h)
  | returnStat => exact parallel_ofStmt (parallel_return hc h)
  | statList => exact parallel_statList hc h
  | funcDef =>
    obtain rfl : tag = "Def" := List.mem_singleton.1 hmem
    exact parallel_ofStmt (parallel_function hc h htag)
  | cFuncDef => exact parallel_ofStmt (parallel_cFunction hc h)
  | cFuncDeclarator => exact parallel_ofStmt (parallel_functionDeclarator hc h)
  | pyClassDef =>
    obtain rfl : tag = "PyClassDef" := List.mem_singleton.1 hmem
    exact parallel_ofStmt (parallel_class hc h "name" (by decide) (by rw [htag]; rfl))
  | cClassDef =>
    obtain rfl : tag = "CClassDef" := List.mem_singleton.1 hmem
    exact parallel_ofStmt (parallel_class hc h "class_name" (by decide) (by rw [htag]; rfl))
  | cStructOrUnionDef =>
    obtain rfl : tag = "CStructOrUnionDef" := List.mem_singleton.1 hmem
    exact parallel_ofStmt (parallel_struct hc h htag)
  | cEnumDef =>
    obtain rfl : tag = "CEnumDef" := List.mem_singleton.1 hmem
    exact parallel_enum hc h htag
  | cTypeDef => exact parallel_ofStmt (parallel_typedef h)
  | cVarDef => exact parallel_variables hc h
  | cDefExtern => exact parallel_extern hc h
  | simpleCall => exact parallel_ofExpr (parallel_simpleCall hc h)
  | generalCall => exact parallel_ofExpr (parallel_generalCall hc h)
  | sizeof => exact alike_pure (.piece (.expr (tied_call h.located (tied_name h.located) argumentsTied_none)))
  | arithmetic => exact parallel_ofExpr (parallel_binOp hc h)
  | boolBinop => exact parallel_ofExpr (parallel_boolOp hc h)
  | primaryCmp => exact parallel_ofExpr (parallel_compare hc h)
  | cascadedCmp => exact parallel_cascade hc h
  | condExpr => exact parallel_ofExpr (parallel_cond hc h)
  | awaitExpr => exact parallel_ofExpr (parallel_await hc h)
  | yieldExpr => exact parallel_ofExpr (parallel_yield hc h)

/-- A node that is dropped is noted under its tag, wherever it stands and whatever is written in it. -/
theorem parallel_convertNode (b : Binding) : Parallel (FragmentTied root) (convertNode c n b) (convertNode c n' b) := by
  refine alike_contain .absent ?_
  rw [← h.tag]
  cases htag : n.tag with
  | none => exact alike_fail (h.blame .noTag)
  | some tag =>
    cases hkind : Kind.ofTag? tag with
    | none =>
      have hfault : (Fault.unknown tag n).withoutPlace = (Fault.unknown tag n').withoutPlace := rfl
      simpa only [hkind] using alike_fail hfault
    | some kind =>
      have hof : n.tag.bind Kind.ofTag? = some kind := by simp [htag, hkind]
      simpa only [hkind] using parallel_construct hc h hof b

omit h in
theorem parallel_convertItem (b : Binding) {v v' : Value} (hv : Twins root v v') :
    Parallel (List.Forall₂ (PieceTied root)) (convertItem c b v) (convertItem c b v') := by
  refine alike_bind (hc.tied hv b) fun f f' hf => ?_
  cases hf with
  | absent => exact alike_pure .nil
  | piece hp => exact alike_pure (.cons hp .nil)
  | group hps => exact alike_pure hps
  | chain => exact alike_then (alike_refl _) fun _ => alike_pure .nil

omit h in
theorem parallel_convertItems (b : Binding) {items items' : List Value}
    (hitems : List.Forall₂ (Twins root) items items') :
    Parallel (FragmentTied root) (convertItems c items b) (convertItems c items' b) :=
  alike_map_of (alike_gather hitems fun _ _ hv => parallel_convertItem hc b hv) fun _ _ hps => .group hps

end Converting

/-! ## All values -/

/-- At every depth the converter carries if it does at the depth below, which is for what is inside a value. -/
theorem carries_convertWithin (depth : Nat) : Carries root (convertWithin depth) := by
  induction depth with
  | zero => exact ⟨fun _ => rfl, fun _ _ => alike_pure .absent⟩
  | succ depth ih =>
    refine ⟨fun _ => rfl, fun {v v'} hv b => ?_⟩
    cases habsent : v.isAbsent with
    | true =>
      rw [convertWithin_absent depth habsent, convertWithin_absent depth (hv.moved.isAbsent ▸ habsent)]
      exact alike_pure .absent
    | false =>
      have habsent' : v'.isAbsent = false := hv.moved.isAbsent ▸ habsent
      rcases rel_cases hv.asNode with ⟨hnode, hnode'⟩ | ⟨m, m', hm, hm', htwins⟩
      · rcases rel_cases hv.asItems with ⟨hitems, hitems'⟩ | ⟨items, items', hi, hi', htwins⟩
        · rw [convertWithin_stray depth habsent hnode hitems, convertWithin_stray depth habsent' hnode' hitems',
            hv.moved.kindName]
          exact alike_contain .absent (alike_fail rfl)
        · cases v <;> cases hi
          cases v' <;> cases hi'
          exact parallel_convertItems ih b htwins
      · cases v <;> cases hm
        cases v' <;> cases hm'
        exact parallel_convertNode ih htwins b

/-- Both values are converted to the depth of the deeper one. -/
theorem carries_convert : Carries root convert := by
  refine ⟨fun _ => rfl, fun {v v'} hv b => ?_⟩
  have hdepth := (carries_convertWithin (max v.depth v'.depth)).tied hv b
  rwa [convertWithin_eq (Nat.le_max_left _ _), convertWithin_eq (Nat.le_max_right _ _)] at hdepth

/-! ## Documents -/

variable {root' : Node}

theorem parallel_topLevel (h : TwinNodes root root root') {stat stat' : Value} (hstat : Twins root stat stat') :
    Parallel (TiedStmts root) (topLevel root stat) (topLevel root' stat') :=
  alike_bind (carries_convert.tied hstat .load) fun _ _ hf => alike_contain .nil (alike_ofExcept (endsAlike_stmts h hf))

/-- **The conversion of a document is carried along.** -/
theorem parallel_convertModule (h : Moved (.object root) (.object root')) :
    Parallel (fun m m' => TiedStmts root m.body m'.body) (convertModule root) (convertModule root') := by
  have htwins : TwinNodes root root root' := ⟨fun _ ho => ho, h⟩
  unfold convertModule tagOrUntagged
  rw [← htwins.isTagged, ← htwins.tag]
  split
  · exact alike_fail rfl
  · refine alike_bind (parallel_itemsField htwins "stats" (by decide)) fun stats stats' hstats => ?_
    refine alike_bind (alike_gather hstats fun _ _ hstat => parallel_topLevel htwins hstat) fun body body' hbody => ?_
    exact alike_pure hbody

end Graft.Convert
