/-
What a construction can tell apart.

A relation of values is a `Lookalike` when no way in which a construction reads a value tells related ones apart: each
gives the same for both, or values that are related again. So such a relation has to be kept by the fields that are read
and by no others, and `readFields` lists these. A field `declarator` or `base` is only ever looked at through its
pointers, and so are the entries of `declarators`.

A converter is faithful to the relation when `null` gives nothing and related values are converted alike. With a faithful
converter for what is inside it, every construction takes related nodes alike. There is one lemma for each construction,
step by step as the construction goes, and `alike_construct` puts them together by kind. By induction on the depth the
converter itself is faithful (`Lookalike.faithful_convert`).

`Lookalike.convertModule_alike`: two documents that are related have the same module or the same fault in either mode, and
the same notes, up to the text of a node that was dropped, which is written as it stands.
-/
import Graft.Proofs.Alike
import Graft.Proofs.Depth
import Graft.Proofs.Respelled
import Graft.Proofs.Statements

namespace Graft.Convert

open Graft.Document Attempt

/-! ## The fields that are read -/

/-- the fields that are converted, or looked at as nodes or as lists -/
def partFields : List String :=
  ["annotation", "arg", "args", "attributes", "base_type", "base_type_node", "bases", "body", "cascade", "cond",
    "condition", "decorator", "decorators", "default", "else_clause", "expr", "false_val", "function", "if_clauses",
    "items", "iterator", "key", "key_value_pairs", "keyword_args", "lhs", "operand1", "operand2", "positional_args", "rhs",
    "sequence", "star_arg", "starstar_arg", "stats", "target", "test", "true_val", "value", "values"]

/-- the fields that hold a declarator -/
def declaratorFields : List String := ["base", "declarator"]

/-- the fields that mark a node as asynchronous -/
def asyncFields : List String := ["is_async", "is_async_def"]

/-- the fields that any construction reads -/
def readFields : List String :=
  partFields ++ declaratorFields ++ "declarators" :: textualFields ++ asyncFields ++ "kw_only" :: positionFields

/-! ## The relation -/

/-- entries of a list of declarators that declare what is related, behind their pointers -/
structure SameDeclarator (V : Value → Value → Prop) (v v' : Value) : Prop where
  isAbsent : v.isAbsent = v'.isAbsent
  kindName : v.isAbsent = false → v.kindName = v'.kindName
  asNode : Option.Rel (fun m m' => V (.object (stripped m)) (.object (stripped m'))) v.node? v'.node?

/-- a relation of values that no construction tells apart -/
structure Lookalike (V : Value → Value → Prop) : Prop where
  isAbsent {v v' : Value} : V v v' → v.isAbsent = v'.isAbsent
  kindName {v v' : Value} : V v v' → v.isAbsent = false → v.kindName = v'.kindName
  asNode {v v' : Value} : V v v' → Option.Rel (fun m m' => V (.object m) (.object m')) v.node? v'.node?
  asItems {v v' : Value} : V v v' → Option.Rel (List.Forall₂ V) v.items? v'.items?
  tag {n n' : Node} : V (.object n) (.object n') → n.tag = n'.tag
  positionOf {n n' : Node} : V (.object n) (.object n') → positionOf n = positionOf n'
  /-- what is converted is related again -/
  part {n n' : Node} {name : String} : V (.object n) (.object n') → name ∈ partFields → V (held n name) (held n' name)
  text? {n n' : Node} {name : String} : V (.object n) (.object n') → name ∈ textualFields → n.text? name = n'.text? name
  integerText? {n n' : Node} : V (.object n) (.object n') → integerText? n = integerText? n'
  boolText? {n n' : Node} : V (.object n) (.object n') → n.tag = some "Bool" → boolText? n = boolText? n'
  stringText? {n n' : Node} : V (.object n) (.object n') → n.tag = some "Unicode" ∨ n.tag = some "Bytes" →
    n.text? "value" = n'.text? "value"
  /-- the text of a key of a dictionary may be the name of an argument -/
  keyText? {n n' : Node} : V (.object n) (.object n') →
    Option.Rel (fun k k' => V (.object k) (.object k') ∧ k.text? "value" = k'.text? "value") (n.node? "key") (n'.node? "key")
  isKeywordOnly {n n' : Node} : V (.object n) (.object n') → isKeywordOnly n = isKeywordOnly n'
  flag {n n' : Node} {name : String} : V (.object n) (.object n') → name ∈ asyncFields → n.flag name = n'.flag name
  declarator {n n' : Node} {name : String} : V (.object n) (.object n') → name ∈ declaratorFields →
    Option.Rel (fun d d' => V (.object (stripped d)) (.object (stripped d'))) (n.node? name) (n'.node? name)
  declarators {n n' : Node} : V (.object n) (.object n') →
    Option.Rel (fun v v' => Option.Rel (List.Forall₂ (SameDeclarator V)) v.items? v'.items?)
      (n.present? "declarators") (n'.present? "declarators")

/-- a converter that does not tell related values apart -/
structure Faithful (V : Value → Value → Prop) (c : Converter) : Prop where
  null : ∀ b, c .null b = pure .absent
  alike : ∀ {v v' : Value}, V v v' → ∀ b, Alike Eq (c v b) (c v' b)

/-- two nodes that are related as values -/
abbrev RelatedNodes (V : Value → Value → Prop) (m m' : Node) : Prop := V (.object m) (.object m')

variable {V : Value → Value → Prop} {c : Converter} {n n' : Node}

/-- What a field says as a text is the text, unless that says that there is nothing. -/
theorem presentText?_eq (m : Node) (name : String) :
    (m.present? name).bind Value.text? = (m.text? name).filter (· != "None") := by
  unfold Node.present? Node.text?
  rcases m.get? name with _ | v
  · rfl
  · cases v with
    | string text => by_cases htext : text = "None" <;> simp [Value.isAbsent, Value.text?, Option.filter, htext]
    | _ => simp [Value.isAbsent, Value.text?, Option.filter]

namespace Lookalike

variable (L : Lookalike V) (h : V (.object n) (.object n'))

include L h

theorem isTagged (kind : String) : n.isTagged kind = n'.isTagged kind := by
  unfold Node.isTagged
  rw [L.tag h]

/-- A fault says the same of related nodes. -/
theorem blame (d : Defect) : Fault.of n d = Fault.of n' d := by
  unfold Fault.of tagOrUntagged
  rw [L.tag h, L.positionOf h]

theorem node? (name : String) (hname : name ∈ partFields) :
    Option.Rel (RelatedNodes V) (n.node? name) (n'.node? name) := by
  rw [Respelled.node?_held, Respelled.node?_held]
  exact L.asNode (L.part h hname)

theorem present? (name : String) (hname : name ∈ partFields) :
    Option.Rel V (n.present? name) (n'.present? name) := by
  rw [Respelled.present?_held, Respelled.present?_held, ← L.isAbsent (L.part h hname)]
  cases (held n name).isAbsent with
  | true => exact .none
  | false => exact .some (L.part h hname)

theorem isSome_present? (name : String) (hname : name ∈ partFields) :
    (n.present? name).isSome = (n'.present? name).isSome := by
  rcases rel_cases (L.present? h name hname) with ⟨hv, hv'⟩ | ⟨v, v', hv, hv', -⟩
  · rw [hv, hv']
  · rw [hv, hv', Option.isSome_some, Option.isSome_some]

theorem name? : n.text? "name" = n'.text? "name" := L.text? h (by simp [textualFields])

theorem filledName? : n.filledText? "name" = n'.filledText? "name" := by
  unfold Node.filledText?
  rw [L.name? h]

/-- The text that a kind of node is named after, if it says anything. -/
theorem presentName? : (n.present? "name").bind Value.text? = (n'.present? "name").bind Value.text? := by
  rw [presentText?_eq, presentText?_eq, L.name? h]

theorem declarator? : Option.Rel (RelatedNodes V) (declarator? n) (declarator? n') :=
  rel_map (L.declarator h (by simp [declaratorFields])) fun _ _ hd => hd

theorem namedExpr? (b : Binding) : namedExpr? n b = namedExpr? n' b := by
  unfold Convert.namedExpr?
  rw [L.filledName? h, L.positionOf h]

theorem baseTypeName? (b : Binding) : baseTypeName? n b = baseTypeName? n' b := by
  refine bind_eq_of_rel (L.node? h "base_type" (by simp [partFields])) fun base base' hbase => ?_
  have hinner : (base.node? "base_type_node").bind (Convert.namedExpr? · b) =
      (base'.node? "base_type_node").bind (Convert.namedExpr? · b) :=
    bind_eq_of_rel (L.node? hbase "base_type_node" (by simp [partFields])) fun _ _ h => L.namedExpr? h b
  rw [L.namedExpr? hbase b, hinner]

end Lookalike

/-! ## Fields that are read -/

section Reading

variable (L : Lookalike V) (h : V (.object n) (.object n'))

include L h

/-- What both nodes have, or lack and are blamed alike for. -/
theorem alike_need {α : Type} {o o' : Option α} (d : Defect) (ho : o = o') :
    Alike Eq (orDefect n d o) (orDefect n' d o') := by
  rw [ho]
  cases o' with
  | none => exact alike_fail (congrArg Fault.withoutSubtree (L.blame h d))
  | some a => exact alike_refl _

theorem alike_operator : Alike Eq (operatorToken n) (operatorToken n') :=
  alike_need L h .noOperator (L.text? h (by simp [textualFields]))

/-- The items of two lists that are related item by item. -/
theorem alike_itemsOf {W : Value → Value → Prop} {name : String}
    (hlist : Option.Rel (fun v v' => Option.Rel (List.Forall₂ W) v.items? v'.items?) (n.present? name) (n'.present? name)) :
    Alike (List.Forall₂ W) (itemsField n name) (itemsField n' name) := by
  unfold itemsField
  rcases rel_cases hlist with ⟨hnone, hnone'⟩ | ⟨v, v', hv, hv', hitems⟩
  · rw [hnone, hnone']
    exact alike_pure .nil
  · rw [hv, hv']
    exact alike_orDefect (L.blame h _) hitems

/-- An entry that says nothing is skipped, and any other that is no node is of one type in both. -/
theorem alike_entryNode {R : Node → Node → Prop} (name : String) {v v' : Value} (habsent : v.isAbsent = v'.isAbsent)
    (hkind : v.isAbsent = false → v.kindName = v'.kindName) (hnode : Option.Rel R v.node? v'.node?) :
    Alike (List.Forall₂ R) (entryNode name n v) (entryNode name n' v') := by
  rcases rel_cases hnode with ⟨hm, hm'⟩ | ⟨m, m', hm, hm', hrel⟩
  · rw [entryNode_other hm, entryNode_other hm', ← habsent, ← L.blame h]
    cases hv : v.isAbsent with
    | true => exact alike_pure .nil
    | false =>
      rw [← hkind hv]
      exact alike_then (alike_refl _) fun _ => alike_pure .nil
  · cases v <;> cases hm
    cases v' <;> cases hm'
    exact alike_pure (.cons hrel .nil)

theorem alike_itemsField (name : String) (hname : name ∈ partFields) :
    Alike (List.Forall₂ V) (itemsField n name) (itemsField n' name) := by
  refine alike_itemsOf L h ?_
  rcases rel_cases (L.present? h name hname) with ⟨hnone, hnone'⟩ | ⟨v, v', hv, hv', hrel⟩
  · rw [hnone, hnone']
    exact .none
  · rw [hv, hv']
    exact .some (L.asItems hrel)

theorem alike_nodeEntries (name : String) (hname : name ∈ partFields) :
    Alike (List.Forall₂ (RelatedNodes V)) (nodeEntries n name) (nodeEntries n' name) := by
  refine alike_bind (alike_itemsField L h name hname) fun items items' hitems => ?_
  exact alike_gather hitems fun v v' hv => alike_entryNode L h name (L.isAbsent hv) (L.kindName hv) (L.asNode hv)

/-- The entries of a list of declarators are related behind their pointers. -/
theorem alike_declarators : Alike (List.Forall₂ fun m m' => RelatedNodes V (stripped m) (stripped m'))
    (nodeEntries n "declarators") (nodeEntries n' "declarators") := by
  refine alike_bind (alike_itemsOf L h (L.declarators h)) fun items items' hitems => ?_
  exact alike_gather hitems fun v v' hv => alike_entryNode L h "declarators" hv.isAbsent hv.kindName hv.asNode

theorem alike_objectItems (name : String) (d : Defect) (hname : name ∈ partFields) :
    Alike (List.Forall₂ (RelatedNodes V)) (objectItems n name d) (objectItems n' name d) := by
  refine alike_bind (alike_itemsField L h name hname) fun items items' hitems => ?_
  exact alike_mapM hitems fun v v' hv => alike_orDefect (L.blame h d) (L.asNode hv)

theorem alike_dictItems : Alike (List.Forall₂ (RelatedNodes V)) (dictItems n) (dictItems n') :=
  alike_objectItems L h "key_value_pairs" .dictItemNotAnObject (by simp [partFields])

/-! ## Atoms -/

theorem alike_name (b : Binding) : Alike Eq (nameExpr n b) (nameExpr n' b) := by
  refine alike_then (alike_need L h .noName (L.name? h)) fun id => ?_
  exact alike_pure (by rw [L.positionOf h])

theorem alike_int : Alike Eq (intExpr n) (intExpr n') := by
  refine alike_then (alike_need L h .noInteger (L.integerText? h)) fun text => ?_
  exact alike_pure (by rw [L.positionOf h])

theorem alike_bool (htag : n.tag = some "Bool") : Alike Eq (boolExpr n) (boolExpr n') := by
  refine alike_then (alike_need L h .noBoolean (L.boolText? h htag)) fun text => ?_
  exact alike_pure (by rw [L.positionOf h])

theorem stringExpr_eq {name : String} (htext : n.text? name = n'.text? name) (marks : StringMarks) :
    stringExpr n name marks = stringExpr n' name marks := by
  unfold stringExpr
  rw [L.positionOf h, htext]

theorem alike_typedef : Alike Eq (typedefStmt n) (typedefStmt n') := by
  refine alike_bind (alike_orDefect (L.blame h .noDeclarator) (L.declarator? h)) fun d d' hd => ?_
  refine alike_then (alike_need L h .unnamedTypedef (L.name? hd)) fun name => ?_
  exact alike_pure (by rw [L.positionOf h, L.positionOf hd, L.baseTypeName? h])

theorem alike_enumMember : Alike Eq (enumMember n) (enumMember n') := by
  have hname : n.text? "name" = n'.text? "name" := L.name? h
  refine alike_of_eq ?_
  unfold enumMember
  rw [hname, L.positionOf h, L.blame h]

end Reading

/-! ## Fields that are converted -/

section Converting

variable (L : Lookalike V) (hc : Faithful V c) (h : V (.object n) (.object n'))

include L hc h

theorem alike_field (name : String) (b : Binding)
    (hname : name ∈ partFields) :
    Alike Eq (field c n name b) (field c n' name b) := by
  rw [field_held hc.null, field_held hc.null]
  exact hc.alike (L.part h hname) b

theorem alike_optional (name : String) (b : Binding)
    (hname : name ∈ partFields) :
    Alike Eq (optionalExpr c n name b) (optionalExpr c n' name b) := by
  refine alike_then (alike_field L hc h name b hname) fun f => ?_
  exact alike_of_eq (congrArg ofExcept (f.expr?_agree (L.blame h)))

theorem alike_required (name : String) (b : Binding)
    (hname : name ∈ partFields) :
    Alike Eq (requiredExpr c n name b) (requiredExpr c n' name b) :=
  alike_then (alike_optional L hc h name b hname) fun _ => alike_need L h _ rfl

theorem alike_stmts (name : String)
    (hname : name ∈ partFields) :
    Alike Eq (stmtsField c n name) (stmtsField c n' name) := by
  refine alike_then (alike_field L hc h name .load hname) fun f => ?_
  exact alike_of_eq (congrArg ofExcept (f.stmts_agree (L.blame h)))

theorem alike_exprs (name : String) (b : Binding)
    (hname : name ∈ partFields) :
    Alike Eq (exprsField c n name b) (exprsField c n' name b) := by
  refine alike_then (alike_field L hc h name b hname) fun f => ?_
  exact alike_of_eq (congrArg ofExcept (f.exprs_agree (L.blame h)))

/-! ## Operations -/

theorem alike_binOp : Alike Eq (binOpExpr c n) (binOpExpr c n') := by
  refine alike_then (alike_required L hc h "operand1" .load (by simp [partFields])) fun left => ?_
  refine alike_then (alike_required L hc h "operand2" .load (by simp [partFields])) fun right => ?_
  refine alike_then (alike_operator L h) fun token => ?_
  exact alike_pure (by rw [L.positionOf h])

theorem alike_boolOp : Alike Eq (boolOpExpr c n) (boolOpExpr c n') := by
  refine alike_then (alike_required L hc h "operand1" .load (by simp [partFields])) fun left => ?_
  refine alike_then (alike_required L hc h "operand2" .load (by simp [partFields])) fun right => ?_
  refine alike_then (alike_operator L h) fun token => ?_
  exact alike_pure (by rw [L.positionOf h])

theorem alike_comparison : Alike Eq (comparisonLinks c n) (comparisonLinks c n') := by
  refine alike_then (alike_operator L h) fun token => ?_
  refine alike_then (alike_required L hc h "operand2" .load (by simp [partFields])) fun operand => ?_
  refine alike_then (alike_field L hc h "cascade" .load (by simp [partFields])) fun f => ?_
  exact alike_then (alike_of_eq (congrArg ofExcept (f.links_agree (L.blame h)))) fun rest => alike_refl _

theorem alike_compare : Alike Eq (compareExpr c n) (compareExpr c n') := by
  refine alike_then (alike_required L hc h "operand1" .load (by simp [partFields])) fun left => ?_
  refine alike_then (alike_comparison L hc h) fun links => ?_
  exact alike_pure (by rw [L.positionOf h])

theorem alike_cascade : Alike Eq (cascadeLinks c n) (cascadeLinks c n') :=
  alike_then (alike_comparison L hc h) fun _ => alike_refl _

theorem alike_cond : Alike Eq (condExpr c n) (condExpr c n') := by
  refine alike_then (alike_required L hc h "test" .load (by simp [partFields])) fun test => ?_
  refine alike_then (alike_required L hc h "true_val" .load (by simp [partFields])) fun body => ?_
  refine alike_then (alike_required L hc h "false_val" .load (by simp [partFields])) fun orelse => ?_
  exact alike_pure (by rw [L.positionOf h])

theorem alike_await : Alike Eq (awaitExpr c n) (awaitExpr c n') := by
  refine alike_then (alike_required L hc h "arg" .load (by simp [partFields])) fun value => ?_
  exact alike_pure (by rw [L.positionOf h])

theorem alike_yield : Alike Eq (yieldExpr c n) (yieldExpr c n') := by
  refine alike_then (alike_optional L hc h "arg" .load (by simp [partFields])) fun value => ?_
  exact alike_pure (by rw [L.positionOf h])

/-! ## Displays -/

theorem alike_tuple (b : Binding) : Alike Eq (tupleExpr c n b) (tupleExpr c n' b) := by
  refine alike_then (alike_exprs L hc h "args" b (by simp [partFields])) fun elts => ?_
  exact alike_pure (by rw [L.positionOf h])

theorem alike_list (b : Binding) : Alike Eq (listExpr c n b) (listExpr c n' b) := by
  refine alike_then (alike_exprs L hc h "args" b (by simp [partFields])) fun elts => ?_
  exact alike_pure (by rw [L.positionOf h])

theorem alike_set : Alike Eq (setExpr c n) (setExpr c n') := by
  refine alike_then (alike_exprs L hc h "args" .load (by simp [partFields])) fun elts => ?_
  exact alike_pure (by rw [L.positionOf h])

theorem alike_dictEntry : Alike Eq (dictEntry c n) (dictEntry c n') := by
  refine alike_then (alike_required L hc h "key" .load (by simp [partFields])) fun key => ?_
  exact alike_then (alike_required L hc h "value" .load (by simp [partFields])) fun value => alike_refl _

theorem alike_dict : Alike Eq (dictExpr c n) (dictExpr c n') := by
  refine alike_bind (alike_dictItems L h) fun items items' hitems => ?_
  refine alike_then (alike_mapM_eq hitems fun m m' hm => alike_dictEntry L hc hm) fun entries => ?_
  exact alike_pure (by rw [L.positionOf h])

theorem alike_segment {m m' : Node} (hm : RelatedNodes V m m') :
    Alike Eq (segmentStmts c n m) (segmentStmts c n' m') := by
  have hstmts : ∀ f : Fragment, Alike Eq (ofExcept (f.stmts n)) (ofExcept (f.stmts n')) := fun f =>
    alike_of_eq (congrArg ofExcept (f.stmts_agree (L.blame h)))
  unfold segmentStmts
  rw [← L.isTagged hm]
  cases m.isTagged "FormattedValue" with
  | true => exact alike_then (alike_field L hc hm "value" .load (by simp [partFields])) hstmts
  | false => exact alike_then (hc.alike hm .load) hstmts

theorem alike_joinedStr : Alike Eq (joinedStrExpr c n) (joinedStrExpr c n') := by
  refine alike_bind (alike_nodeEntries L h "values" (by simp [partFields])) fun entries entries' hentries => ?_
  refine alike_then (alike_gather_eq hentries fun m m' hm => alike_segment L hc h hm) fun segments => ?_
  exact alike_pure (by rw [L.positionOf h])

/-! ## Calls -/

theorem alike_simpleCall : Alike Eq (simpleCallExpr c n) (simpleCallExpr c n') := by
  refine alike_then (alike_required L hc h "function" .load (by simp [partFields])) fun func => ?_
  refine alike_then (alike_exprs L hc h "args" .load (by simp [partFields])) fun args => ?_
  exact alike_pure (by rw [L.positionOf h])

/-- The text of a key is read as a text, so that the text `None` is a name there. -/
theorem alike_keywordItem : Alike Eq (keywordItem c n) (keywordItem c n') := by
  refine alike_bind (alike_orDefect (L.blame h .keywordWithoutKey) (L.keyText? h)) fun key key' hkey => ?_
  obtain ⟨hkey, hvalue⟩ := hkey
  have hunicode : key.text? "unicode_value" = key'.text? "unicode_value" := L.text? hkey (by simp [textualFields])
  refine alike_then (alike_need L hkey .keywordNotAString (by rw [hvalue, hunicode])) fun name => ?_
  refine alike_then (alike_required L hc h "value" .load (by simp [partFields])) fun value => ?_
  exact alike_pure (by rw [L.positionOf hkey])

theorem alike_positional : Alike Eq (positionalArgs c n) (positionalArgs c n') := by
  have hlist : Alike Eq (exprsField c n "positional_args" .load >>= fun args => pure (args, none))
      (exprsField c n' "positional_args" .load >>= fun args => pure (args, (none : Option Expr))) :=
    alike_then (alike_exprs L hc h "positional_args" .load (by simp [partFields])) fun args => alike_refl _
  unfold positionalArgs
  rcases rel_cases (L.node? h "positional_args" (by simp [partFields])) with ⟨hnone, hnone'⟩ | ⟨m, m', hnode, hnode', hm⟩
  · rw [hnone, hnone']
    exact hlist
  · simp only [hnode, hnode', ← L.isTagged hm]
    split
    · exact alike_then (alike_exprs L hc hm "args" .load (by simp [partFields])) fun args => alike_refl _
    · split
      · exact alike_then (alike_optional L hc hm "arg" .load (by simp [partFields])) fun star => alike_refl _
      · exact hlist

theorem alike_keywords : Alike Eq (keywordArgs c n) (keywordArgs c n') := by
  have hstar : Alike Eq (optionalExpr c n "keyword_args" .load >>= fun star => pure ([], star))
      (optionalExpr c n' "keyword_args" .load >>= fun star => pure (([] : List Keyword), star)) :=
    alike_then (alike_optional L hc h "keyword_args" .load (by simp [partFields])) fun star => alike_refl _
  unfold keywordArgs
  rcases rel_cases (L.node? h "keyword_args" (by simp [partFields])) with ⟨hnone, hnone'⟩ | ⟨m, m', hnode, hnode', hm⟩
  · rw [hnone, hnone']
    exact hstar
  · simp only [hnode, hnode', ← L.isTagged hm]
    split
    · refine alike_bind (alike_dictItems L hm) fun items items' hitems => ?_
      exact alike_then (alike_mapM_eq hitems fun i i' hi => alike_keywordItem L hc hi) fun keywords => alike_refl _
    · exact hstar

theorem alike_generalCall : Alike Eq (generalCallExpr c n) (generalCallExpr c n') := by
  refine alike_then (alike_required L hc h "function" .load (by simp [partFields])) fun func => ?_
  refine alike_then (alike_positional L hc h) fun positional => ?_
  refine alike_then (alike_keywords L hc h) fun keywords => ?_
  exact alike_pure (by rw [L.positionOf h])

/-! ## Statements -/

theorem alike_statList : Alike Eq (statListGroup c n) (statListGroup c n') := by
  refine alike_then (alike_field L hc h "stats" .load (by simp [partFields])) fun f => ?_
  exact alike_then (alike_of_eq (congrArg ofExcept (f.pieces_agree (L.blame h)))) fun pieces => alike_refl _

theorem alike_exprStat : Alike Eq (exprStatStmt c n) (exprStatStmt c n') := by
  refine alike_then (alike_required L hc h "expr" .load (by simp [partFields])) fun value => ?_
  exact alike_pure (by rw [L.positionOf h])

theorem alike_assignment : Alike Eq (assignmentStmt c n) (assignmentStmt c n') := by
  refine alike_then (alike_required L hc h "lhs" .store (by simp [partFields])) fun target => ?_
  refine alike_then (alike_required L hc h "rhs" .load (by simp [partFields])) fun value => ?_
  exact alike_pure (by rw [L.positionOf h])

theorem alike_augAssignment : Alike Eq (augAssignmentStmt c n) (augAssignmentStmt c n') := by
  refine alike_then (alike_required L hc h "lhs" .augStore (by simp [partFields])) fun target => ?_
  refine alike_then (alike_required L hc h "rhs" .load (by simp [partFields])) fun value => ?_
  refine alike_then (alike_operator L h) fun token => ?_
  exact alike_pure (by rw [L.positionOf h])

theorem alike_ifClause {v v' : Value} (hv : V v v') : Alike Eq (ifClause c n v) (ifClause c n' v') := by
  refine alike_bind (alike_orDefect (L.blame h .clauseNotAnObject) (L.asNode hv)) fun m m' hm => ?_
  refine alike_then (alike_required L hc hm "condition" .load (by simp [partFields])) fun test => ?_
  refine alike_then (alike_stmts L hc hm "body" (by simp [partFields])) fun body => ?_
  exact alike_pure (by rw [L.positionOf hm])

theorem alike_clauses : Alike Eq (clausesOf c n) (clausesOf c n') := by
  have hentries : List.Forall₂ V (((n.present? "if_clauses").bind Value.items?).getD [])
      (((n'.present? "if_clauses").bind Value.items?).getD []) := by
    rcases rel_cases (L.present? h "if_clauses" (by simp [partFields])) with ⟨hnone, hnone'⟩ | ⟨v, v', hv, hv', hrel⟩
    · rw [hnone, hnone']
      exact .nil
    · rw [hv, hv', Option.bind_some, Option.bind_some]
      rcases rel_cases (L.asItems hrel) with ⟨hnone, hnone'⟩ | ⟨items, items', hitems, hitems', hentries⟩
      · rw [hnone, hnone']
        exact .nil
      · rw [hitems, hitems']
        exact hentries
  exact alike_mapM_eq hentries fun v v' hv => alike_ifClause L hc h hv

theorem alike_elseOf : Alike Eq (elseOf c n) (elseOf c n') := by
  unfold elseOf
  rw [← L.isSome_present? h "else_clause" (by simp [partFields])]
  cases (n.present? "else_clause").isSome with
  | true => exact alike_then (alike_stmts L hc h "else_clause" (by simp [partFields])) fun body => alike_refl _
  | false => exact alike_refl _

theorem alike_if : Alike Eq (ifStmt c n) (ifStmt c n') := by
  rw [ifStmt_eq, ifStmt_eq]
  refine alike_then (alike_clauses L hc h) fun clauses => ?_
  cases clauses with
  | nil => exact alike_fail (congrArg Fault.withoutSubtree (L.blame h .noClauses))
  | cons first rest => exact alike_then (alike_elseOf L hc h) fun orelse => alike_refl _

theorem alike_while : Alike Eq (whileStmt c n) (whileStmt c n') := by
  refine alike_then (alike_required L hc h "condition" .load (by simp [partFields])) fun test => ?_
  refine alike_then (alike_stmts L hc h "body" (by simp [partFields])) fun body => ?_
  refine alike_then (alike_stmts L hc h "else_clause" (by simp [partFields])) fun orelse => ?_
  exact alike_pure (by rw [L.positionOf h])

theorem alike_forElse : Alike Eq (forElse c n) (forElse c n') := by
  unfold forElse
  rw [← L.isTagged h]
  cases n.isTagged statListTag with
  | true =>
    refine alike_then (alike_stmts L hc h "stats" (by simp [partFields])) fun body => ?_
    exact alike_pure (by rw [L.positionOf h])
  | false =>
    refine alike_then (hc.alike h .load) fun f => ?_
    exact alike_then (alike_of_eq (congrArg ofExcept (f.stmts_agree (L.blame h)))) fun body => alike_refl _

theorem alike_for (isAsync : Bool) : Alike Eq (forStmt c isAsync n) (forStmt c isAsync n') := by
  refine alike_then (alike_required L hc h "target" .store (by simp [partFields])) fun target => ?_
  refine alike_bind (alike_orDefect (L.blame h .noIterator) (L.node? h "iterator" (by simp [partFields]))) fun it it' hit => ?_
  refine alike_then (alike_required L hc hit "sequence" .load (by simp [partFields])) fun iter => ?_
  refine alike_then (alike_stmts L hc h "body" (by simp [partFields])) fun body => ?_
  rcases rel_cases (L.node? h "else_clause" (by simp [partFields])) with ⟨hnone, hnone'⟩ | ⟨clause, clause', hnode, hnode', hclause⟩
  · rw [hnone, hnone']
    exact alike_pure (by rw [L.positionOf h, L.flag h (by simp [asyncFields])])
  · rw [hnode, hnode']
    refine alike_then (alike_forElse L hc hclause) fun orelse => ?_
    exact alike_pure (by rw [L.positionOf h, L.flag h (by simp [asyncFields])])

theorem alike_assert : Alike Eq (assertStmt c n) (assertStmt c n') := by
  refine alike_then (alike_required L hc h "cond" .load (by simp [partFields])) fun test => ?_
  refine alike_then (alike_optional L hc h "value" .load (by simp [partFields])) fun msg => ?_
  exact alike_pure (by rw [L.positionOf h])

theorem alike_return : Alike Eq (returnStmt c n) (returnStmt c n') := by
  refine alike_then (alike_optional L hc h "value" .load (by simp [partFields])) fun value => ?_
  exact alike_pure (by rw [L.positionOf h])

/-! ## Parameters and definitions -/

omit hc in
theorem parameterName?_eq (b : Binding) : parameterName? n b = parameterName? n' b := by
  have hdeclarator : (declarator? n).bind (namedExpr? · b) = (declarator? n').bind (namedExpr? · b) := by
    refine bind_eq_of_rel (L.declarator? h) fun d d' hd => ?_
    exact L.namedExpr? hd b
  unfold parameterName?
  rw [hdeclarator, L.baseTypeName? h]

theorem alike_parameter {v v' : Value} (hv : V v v') : Alike Eq (parameter c n v) (parameter c n' v') := by
  refine alike_bind (alike_orDefect (L.blame h .parameterNotAnObject) (L.asNode hv)) fun m m' hm => ?_
  simp only [← L.isKeywordOnly hm, ← parameterName?_eq L hm, ← L.blame hm]
  cases parameterName? m (if isKeywordOnly m then .kwOnlyParam else .param) with
  | none => exact alike_refl _
  | some name =>
    refine alike_then (alike_optional L hc hm "default" .load (by simp [partFields])) fun default => ?_
    exact alike_then (alike_optional L hc hm "annotation" .load (by simp [partFields])) fun annotation => alike_refl _

omit hc in
theorem collector?_eq (name : String) (role : Role)
    (hname : name ∈ partFields) : collector? n name role = collector? n' name role := by
  refine bind_eq_of_rel (L.node? h name hname) fun m m' hm => ?_
  rw [L.name? hm, L.positionOf hm]

theorem alike_parameters : Alike Eq (parameters c n) (parameters c n') := by
  refine alike_bind (alike_itemsField L h "args" (by simp [partFields])) fun items items' hitems => ?_
  refine alike_then (alike_gather_eq hitems fun v v' hv => alike_parameter L hc h hv) fun all => ?_
  exact alike_pure (by rw [collector?_eq L h _ _ (by simp [partFields]), collector?_eq L h _ _ (by simp [partFields])])

theorem alike_decorator : Alike Eq (decorator c n) (decorator c n') := by
  refine alike_then (alike_optional L hc h "decorator" .load (by simp [partFields])) fun expr => ?_
  rw [L.blame h]
  exact alike_refl _

theorem alike_decorators : Alike Eq (decorators c n) (decorators c n') := by
  refine alike_bind (alike_nodeEntries L h "decorators" (by simp [partFields])) fun entries entries' hentries => ?_
  exact alike_gather_eq hentries fun m m' hm => alike_decorator L hc hm

omit hc in
theorem definedName_eq (name : String) (role : Role) (distance : NameDistance) :
    definedName n name role distance = definedName n' name role distance := by
  unfold definedName
  rw [L.positionOf h]

theorem alike_function : Alike Eq (functionStmt c n) (functionStmt c n') := by
  refine alike_then (alike_need L h .noFunctionName (L.name? h)) fun name => ?_
  refine alike_then (alike_parameters L hc h) fun params => ?_
  refine alike_then (alike_decorators L hc h) fun decs => ?_
  refine alike_then (alike_stmts L hc h "body" (by simp [partFields])) fun body => ?_
  exact alike_pure (by rw [L.positionOf h, definedName_eq L h, L.flag h (by simp [asyncFields])])

theorem alike_bases : Alike Eq (classBases c n) (classBases c n') :=
  alike_then (alike_exprs L hc h "bases" .load (by simp [partFields])) fun _ => alike_refl _

theorem alike_class {name : String} (hname : name ∈ textualFields) (distance : NameDistance) :
    Alike Eq (classStmt c name distance n) (classStmt c name distance n') := by
  refine alike_then (alike_need L h (.noClassName name) (L.text? h hname)) fun id => ?_
  refine alike_then (alike_bases L hc h) fun bases => ?_
  refine alike_then (alike_stmts L hc h "body" (by simp [partFields])) fun body => ?_
  refine alike_then (alike_decorators L hc h) fun decs => ?_
  exact alike_pure (by rw [L.positionOf h, definedName_eq L h])

/-! ## C declarations -/

theorem alike_declaredFunction {rest rest' : Attempt (List Decorator × List Stmt)} (hrest : Alike Eq rest rest') :
    Alike Eq (declaredFunction c n rest) (declaredFunction c n' rest') := by
  have hbase : Option.Rel (RelatedNodes V) ((n.node? "base").map stripped) ((n'.node? "base").map stripped) :=
    rel_map (L.declarator h (by simp [declaratorFields])) fun _ _ hm => hm
  refine alike_bind (alike_orDefect (L.blame h .noBase) hbase) fun m m' hm => ?_
  refine alike_then (alike_need L h .unnamedFunction (L.filledName? hm)) fun name => ?_
  refine alike_then (alike_parameters L hc h) fun params => ?_
  refine alike_then hrest fun last => ?_
  exact alike_pure (by rw [L.positionOf h, L.positionOf hm])

theorem alike_functionDeclarator : Alike Eq (functionDeclaratorStmt c n) (functionDeclaratorStmt c n') :=
  alike_declaredFunction L hc h (alike_refl _)

theorem alike_cFunction : Alike Eq (cFunctionStmt c n) (cFunctionStmt c n') := by
  refine alike_bind (alike_orDefect (L.blame h .noDeclarator) (L.declarator? h)) fun d d' hd => ?_
  refine alike_declaredFunction L hc hd ?_
  refine alike_then (alike_decorators L hc h) fun decs => ?_
  exact alike_then (alike_stmts L hc h "body" (by simp [partFields])) fun body => alike_refl _

theorem alike_struct : Alike Eq (structStmt c n) (structStmt c n') := by
  refine alike_then (alike_need L h .noStructName (L.name? h)) fun name => ?_
  refine alike_then (alike_stmts L hc h "attributes" (by simp [partFields])) fun body => ?_
  exact alike_pure (by rw [L.positionOf h, definedName_eq L h])

theorem alike_enum : Alike Eq (enumFragment c n) (enumFragment c n') := by
  refine alike_bind (alike_nodeEntries L h "items" (by simp [partFields])) fun items items' hitems => ?_
  refine alike_then (alike_gather_eq hitems fun m m' hm => alike_enumMember L hm) fun members => ?_
  rw [← L.presentName? h]
  cases (n.present? "name").bind Value.text? with
  | none => exact alike_refl _
  | some name =>
    refine alike_then (alike_decorators L hc h) fun decs => ?_
    exact alike_pure (by rw [L.positionOf h, definedName_eq L h])

theorem alike_variable {m m' : Node} (hd : RelatedNodes V (stripped m) (stripped m')) :
    Alike Eq (variablePieces c n m) (variablePieces c n' m') := by
  have hname : (stripped m).text? "name" = (stripped m').text? "name" := L.name? hd
  unfold variablePieces
  simp only [← L.isTagged hd, ← hname, ← L.positionOf hd, ← L.blame hd]
  split
  · refine alike_then (hc.alike hd .load) fun f => ?_
    exact alike_of_eq (congrArg ofExcept (f.pieces_agree (L.blame h)))
  · split
    · exact alike_refl _
    · exact alike_then (alike_optional L hc hd "default" .load (by simp [partFields])) fun value => alike_refl _

theorem alike_variables : Alike Eq (variablesGroup c n) (variablesGroup c n') := by
  refine alike_bind (alike_declarators L h) fun entries entries' hentries => ?_
  exact alike_then (alike_gather_eq hentries fun m m' hm => alike_variable L hc h hm) fun pieces => alike_refl _

theorem alike_extern : Alike Eq (externGroup c n) (externGroup c n') :=
  alike_then (alike_stmts L hc h "body" (by simp [partFields])) fun _ => alike_refl _

/-! ## All kinds of node -/

/-- **Every construction takes related nodes alike.** -/
theorem alike_construct {kind : Kind} (hkind : n.tag.bind Kind.ofTag? = some kind) (b : Binding) :
    Alike Eq (construct c n b kind) (construct c n' b kind) := by
  obtain ⟨tag, htag, hof⟩ := Option.bind_eq_some_iff.1 hkind
  have hmem : tag ∈ kind.tags := Kind.mem_tags_of_ofTag? hof
  cases kind with
  | int => exact alike_map _ (alike_int L h)
  | name => exact alike_map _ (alike_name L h b)
  | bool =>
    obtain rfl : tag = "Bool" := List.mem_singleton.1 hmem
    exact alike_map _ (alike_bool L h htag)
  | noneLiteral => exact alike_pure (by unfold noneExpr; rw [L.positionOf h])
  | string => exact alike_pure (by rw [stringExpr_eq L h (L.text? h (by simp [textualFields]))])
  | unicode =>
    obtain rfl : tag = "Unicode" := List.mem_singleton.1 hmem
    exact alike_pure (by rw [stringExpr_eq L h (L.stringText? h (by simp [htag]))])
  | bytes =>
    obtain rfl : tag = "Bytes" := List.mem_singleton.1 hmem
    exact alike_pure (by rw [stringExpr_eq L h (L.stringText? h (by simp [htag]))])
  | joinedStr => exact alike_map _ (alike_joinedStr L hc h)
  | tuple => exact alike_map _ (alike_tuple L hc h b)
  | list => exact alike_map _ (alike_list L hc h b)
  | set => exact alike_map _ (alike_set L hc h)
  | dict => exact alike_map _ (alike_dict L hc h)
  | passStat => exact alike_pure (by unfold passStmt; rw [L.positionOf h])
  | exprStat => exact alike_map _ (alike_exprStat L hc h)
  | singleAssignment => exact alike_map _ (alike_assignment L hc h)
  | inPlaceAssignment => exact alike_map _ (alike_augAssignment L hc h)
  | ifStat => exact alike_map _ (alike_if L hc h)
  | whileStat => exact alike_map _ (alike_while L hc h)
  | forInStat => exact alike_map _ (alike_for L hc h false)
  | asyncForStat => exact alike_map _ (alike_for L hc h true)
  | assertStat => exact alike_map _ (alike_assert L hc h)
  | returnStat => exact alike_map _ (alike_return L hc h)
  | statList => exact alike_statList L hc h
  | funcDef => exact alike_map _ (alike_function L hc h)
  | cFuncDef => exact alike_map _ (alike_cFunction L hc h)
  | cFuncDeclarator => exact alike_map _ (alike_functionDeclarator L hc h)
  | pyClassDef => exact alike_map _ (alike_class L hc h (by simp [textualFields]) .pythonClass)
  | cClassDef => exact alike_map _ (alike_class L hc h (by simp [textualFields]) .extensionType)
  | cStructOrUnionDef => exact alike_map _ (alike_struct L hc h)
  | cEnumDef => exact alike_enum L hc h
  | cTypeDef => exact alike_map _ (alike_typedef L h)
  | cVarDef => exact alike_variables L hc h
  | cDefExtern => exact alike_extern L hc h
  | simpleCall => exact alike_map _ (alike_simpleCall L hc h)
  | generalCall => exact alike_map _ (alike_generalCall L hc h)
  | sizeof => exact alike_pure (by unfold sizeofExpr; rw [L.positionOf h])
  | arithmetic => exact alike_map _ (alike_binOp L hc h)
  | boolBinop => exact alike_map _ (alike_boolOp L hc h)
  | primaryCmp => exact alike_map _ (alike_compare L hc h)
  | cascadedCmp => exact alike_cascade L hc h
  | condExpr => exact alike_map _ (alike_cond L hc h)
  | awaitExpr => exact alike_map _ (alike_await L hc h)
  | yieldExpr => exact alike_map _ (alike_yield L hc h)

/-- A dropped node is noted at its position under its tag, which are the same, and written out as it is spelled. -/
theorem alike_convertNode (b : Binding) : Alike Eq (convertNode c n b) (convertNode c n' b) := by
  refine alike_contain rfl ?_
  rw [← L.tag h]
  cases htag : n.tag with
  | none => exact alike_fail (congrArg Fault.withoutSubtree (L.blame h .noTag))
  | some tag =>
    cases hkind : Kind.ofTag? tag with
    | none =>
      have hfault : (Fault.unknown tag n).withoutSubtree = (Fault.unknown tag n').withoutSubtree := by
        unfold Fault.unknown Fault.withoutSubtree
        rw [L.positionOf h]
      simpa only [hkind] using alike_fail hfault
    | some kind =>
      have hof : n.tag.bind Kind.ofTag? = some kind := by simp [htag, hkind]
      simpa only [hkind] using alike_construct L hc h hof b

end Converting

theorem alike_convertItem (hc : Faithful V c) (b : Binding) {v v' : Value} (hv : V v v') :
    Alike Eq (convertItem c b v) (convertItem c b v') :=
  alike_then (hc.alike hv b) fun _ => alike_refl _

theorem alike_convertItems (hc : Faithful V c) (b : Binding) {items items' : List Value}
    (hitems : List.Forall₂ V items items') : Alike Eq (convertItems c items b) (convertItems c items' b) :=
  alike_map _ (alike_gather_eq hitems fun _ _ hv => alike_convertItem hc b hv)

namespace Lookalike

variable (L : Lookalike V)

include L

/-! ## All values -/

/-- At every depth the converter is faithful if it is at the depth below, which is for what is inside a value. -/
theorem faithful_convertWithin (depth : Nat) : Faithful V (convertWithin depth) := by
  induction depth with
  | zero => exact ⟨fun _ => rfl, fun _ _ => alike_refl _⟩
  | succ depth ih =>
    refine ⟨fun _ => rfl, fun {v v'} hv b => ?_⟩
    have habsent := L.isAbsent hv
    cases hsays : v.isAbsent with
    | true =>
      rw [convertWithin_absent depth hsays, convertWithin_absent depth (habsent ▸ hsays)]
      exact alike_refl _
    | false =>
      rcases rel_cases (L.asNode hv) with ⟨hnode, hnode'⟩ | ⟨m, m', hm, hm', hnodes⟩
      · rcases rel_cases (L.asItems hv) with ⟨hitems, hitems'⟩ | ⟨items, items', hi, hi', hrel⟩
        · rw [convertWithin_stray depth hsays hnode hitems, convertWithin_stray depth (habsent ▸ hsays) hnode' hitems',
            L.kindName hv hsays]
          exact alike_refl _
        · cases v <;> cases hi
          cases v' <;> cases hi'
          exact alike_convertItems ih b hrel
      · cases v <;> cases hm
        cases v' <;> cases hm'
        exact alike_convertNode L ih hnodes b

/-- Both values are converted to the depth of the deeper one. -/
theorem faithful_convert : Faithful V convert := by
  refine ⟨fun _ => rfl, fun {v v'} hv b => ?_⟩
  have hdepth := (L.faithful_convertWithin (max v.depth v'.depth)).alike hv b
  rwa [convertWithin_eq (Nat.le_max_left _ _), convertWithin_eq (Nat.le_max_right _ _)] at hdepth

/-! ## Documents -/

variable {root root' : Node} (h : V (.object root) (.object root'))

include h

theorem alike_topLevel {stat stat' : Value} (hstat : V stat stat') :
    Alike Eq (topLevel root stat) (topLevel root' stat') := by
  refine alike_then (L.faithful_convert.alike hstat .load) fun f => ?_
  rw [f.stmts_agree (L.blame h)]
  exact alike_refl _

/-- **Documents that no construction tells apart are converted alike.** -/
theorem alike_convertModule : Alike Eq (convertModule root) (convertModule root') := by
  unfold convertModule tagOrUntagged
  rw [← L.isTagged h, ← L.tag h]
  split
  · exact alike_refl _
  · refine alike_bind (alike_itemsField L h "stats" (by simp [partFields])) fun stats stats' hstats => ?_
    exact alike_then (alike_gather_eq hstats fun _ _ hstat => L.alike_topLevel h hstat) fun body => alike_refl _

/-- In either mode they have the same module or the same fault, and the same notes in the same order, up to the text of the
nodes that were dropped. -/
theorem convertModule_eq (mode : Mode) :
    ((convertModule root).run (.fresh mode)).1.mapError Fault.withoutSubtree =
        ((convertModule root').run (.fresh mode)).1.mapError Fault.withoutSubtree ∧
      ((convertModule root).run (.fresh mode)).2.notes.map Fault.withoutSubtree =
        ((convertModule root').run (.fresh mode)).2.notes.map Fault.withoutSubtree := by
  rw [run_fresh, run_fresh]
  exact ((L.alike_convertModule h).outcome mode).eq

end Lookalike

end Graft.Convert
