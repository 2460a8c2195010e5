/-
What a rendering is made of.

A node is rendered as its label with its members in brackets (`Expr.render_eq`), but for `pass`, which is its label alone
(`Stmt.render_eq`). In a legible tree, where no text has a bracket or a comma, the members are items, texts that brackets
and commas take apart: that is shown for all sorts of nodes at once, by induction, one case for each constructor
(`Expr.items`).
-/
import Graft.Proofs.Delimited
import Graft.Proofs.Tied

namespace Graft

/-! ## Labels and members -/

def NameToken.members (t : NameToken) : List String := ["id=" ++ t.id, "ctx=" ++ t.role.name]

def CallArgs.members (a : CallArgs) : List String :=
  ["args=" ++ bracketed (exprTexts a.args), "keywords=" ++ bracketed (keywordTexts a.keywords),
    "starargs=" ++ orNull (exprText? a.starargs), "kwargs=" ++ orNull (exprText? a.kwargs)]

def Keyword.members (k : Keyword) : List String := ["arg=" ++ k.arg.render, "value=" ++ k.value.render]

def Suite.members (s : Suite) : List String := ["body=" ++ bracketed (stmtTexts s.body)]

def Decorator.members (d : Decorator) : List String :=
  ("func=" ++ d.func.render) :: d.args.members ++ ["isCall=" ++ boolText d.isCall]

def Parameters.members (p : Parameters) : List String :=
  ["args=" ++ bracketed (exprTexts p.args), "vararg=" ++ orNull (p.vararg.map NameToken.render),
    "kwarg=" ++ orNull (p.kwarg.map NameToken.render), "defaults=" ++ bracketed (optionTexts p.defaults),
    "kwonlyargs=" ++ bracketed (exprTexts p.kwonlyargs), "kw_defaults=" ++ bracketed (optionTexts p.kwDefaults),
    "annotation=" ++ bracketed (optionTexts p.annotations),
    "kwonlyargannotation=" ++ bracketed (optionTexts p.kwonlyAnnotations)]

namespace Expr

/-- the kind that an expression is shown under -/
def label : Expr → String
  | name .. => "Name"
  | num .. => "Num"
  | str .. => "Str"
  | tuple .. => "Tuple"
  | list .. => "List"
  | set .. => "Set"
  | dict .. => "Dict"
  | call .. => "Call"
  | binOp .. => "BinOp"
  | boolOp .. => "BoolOp"
  | compare .. => "Compare"
  | ifExp .. => "IfExp"
  | await .. => "Await"
  | yield .. => "Yield"

/-- what is shown of an expression, each under its own name -/
def members : Expr → List String
  | name _ id binding reserved => ["id=" ++ id, "ctx=" ++ binding.name, "reserved=" ++ boolText reserved]
  | num _ digits => ["n=" ++ digits, "type=Int"]
  | str _ text marks segments =>
    ["s=" ++ text, "unicode=" ++ boolText marks.unicode, "raw=" ++ boolText marks.raw,
      "binary=" ++ boolText marks.binary, "fstring=" ++ boolText marks.fstring,
      "fstring_nodes=" ++ bracketed (stmtTexts segments)]
  | tuple _ elts binding comma =>
    ["elts=" ++ bracketed (exprTexts elts), "ctx=" ++ binding.name, "endsWithComma=" ++ boolText comma]
  | list _ elts binding => ["elts=" ++ bracketed (exprTexts elts), "ctx=" ++ binding.name]
  | set _ elts => ["elts=" ++ bracketed (exprTexts elts)]
  | dict _ keys values => ["keys=" ++ bracketed (exprTexts keys), "values=" ++ bracketed (exprTexts values)]
  | call _ func args => ("func=" ++ func.render) :: args.members
  | binOp _ left op right => ["left=" ++ left.render, "op=" ++ op.name, "right=" ++ right.render]
  | boolOp _ op values => ["op=" ++ op.name, "values=" ++ bracketed (exprTexts values)]
  | compare _ left ops comparators =>
    ["left=" ++ left.render, "ops=" ++ bracketed (ops.map CompareOp.name),
      "comparators=" ++ bracketed (exprTexts comparators)]
  | ifExp _ test body orelse => ["test=" ++ test.render, "body=" ++ body.render, "orelse=" ++ orelse.render]
  | await _ value => ["value=" ++ value.render]
  | yield _ value => ["value=" ++ orNull (exprText? value)]

end Expr

namespace Stmt

def label : Stmt → String
  | assign .. => "Assign"
  | augAssign .. => "AugAssign"
  | expr .. => "Expr"
  | pass _ => "Pass"
  | ifElse .. => "If"
  | whileLoop .. => "While"
  | forLoop .. => "For"
  | assertion .. => "Assert"
  | ret .. => "Return"
  | functionDef .. => "FunctionDef"
  | classDef .. => "ClassDef"

def members : Stmt → List String
  | assign _ targets value => ["targets=" ++ bracketed (exprTexts targets), "value=" ++ value.render]
  | augAssign _ target op value => ["target=" ++ target.render, "op=" ++ op.name, "value=" ++ value.render]
  | expr _ value => ["value=" ++ value.render]
  | pass _ => []
  | ifElse _ test body orelse =>
    ["test=" ++ test.render, "body=" ++ bracketed (stmtTexts body), "orelse=" ++ orNull (suiteText? orelse)]
  | whileLoop _ test body orelse =>
    ["test=" ++ test.render, "body=" ++ bracketed (stmtTexts body), "orelse=" ++ orNull (suiteText? orelse)]
  | forLoop _ target iter body orelse isAsync =>
    ["target=" ++ target.render, "iter=" ++ iter.render, "body=" ++ bracketed (stmtTexts body),
      "orelse=" ++ orNull (suiteText? orelse), "async=" ++ boolText isAsync]
  | assertion _ test msg => ["test=" ++ test.render, "msg=" ++ orNull (exprText? msg)]
  | ret _ value => ["value=" ++ orNull (exprText? value)]
  | functionDef _ name params body decorators isAsync =>
    ["name=" ++ name.render, "args=" ++ params.render, "body=" ++ bracketed (stmtTexts body),
      "decs=" ++ bracketed (decoratorTexts decorators), "async=" ++ boolText isAsync]
  | classDef _ name bases body decorators =>
    ["name=" ++ name.render, "bases=" ++ bracketed (exprTexts bases), "body=" ++ bracketed (stmtTexts body),
      "decs=" ++ bracketed (decoratorTexts decorators)]

end Stmt

/-! ## A node is rendered as its label with its members -/

theorem NameToken.render_eq (t : NameToken) : t.render = enclosed "NameTok" t.members := by
  rw [← String.toList_inj]
  simp [render, members]

theorem Expr.render_eq (e : Expr) : e.render = enclosed e.label e.members := by
  rw [← String.toList_inj, render.eq_def]
  cases e with
  | call pos func args =>
    cases args
    simp [CallArgs.render.eq_def, label, members, CallArgs.members]
  | _ => simp [label, members]

theorem Keyword.render_eq (k : Keyword) : k.render = enclosed "keyword" k.members := by
  rw [← String.toList_inj, render.eq_def]
  cases k
  simp [members]

theorem Suite.render_eq (s : Suite) : s.render = enclosed "Suite" s.members := by
  rw [← String.toList_inj, render.eq_def]
  cases s
  simp [members]

theorem Decorator.render_eq (d : Decorator) : d.render = enclosed "decorator" d.members := by
  obtain ⟨func, args, isCall, pos⟩ := d
  rw [← String.toList_inj, render.eq_def]
  cases args
  simp [CallArgs.render.eq_def, members, CallArgs.members]

theorem Parameters.render_eq (p : Parameters) : p.render = enclosed "arguments" p.members := by
  rw [← String.toList_inj, render.eq_def]
  cases p
  simp [members]

/-- Only `pass` has no brackets. -/
theorem Stmt.render_eq (s : Stmt) :
    s.label ≠ "Pass" ∧ s.render = enclosed s.label s.members ∨ ∃ pos, s = .pass pos := by
  cases s with
  | pass pos => exact .inr ⟨pos, rfl⟩
  | _ =>
    left
    refine ⟨by simp [label], ?_⟩
    rw [← String.toList_inj, render.eq_def]
    simp [label, members]

/-! ## Legible trees -/

namespace Subtree

/-- the identifiers, number texts and string texts of a node itself -/
def texts : Subtree → List String
  | expr (.name _ id _ _) => [id]
  | expr (.num _ digits) => [digits]
  | expr (.str _ text _ _) => [text]
  | stmt (.functionDef _ name _ _ _ _) => [name.id]
  | stmt (.classDef _ name _ _ _) => [name.id]
  | keyword k => [k.arg.id]
  | parameters p => (p.vararg.toList ++ p.kwarg.toList).map NameToken.id
  | _ => []

/-- the texts of everything in the node are without brackets and commas -/
def Legible (t : Subtree) : Prop := Throughout (fun _ u => ∀ text ∈ u.texts, Clear text) .load t

theorem parts_any {b b' : Binding} {t u : Subtree} (h : (b', u) ∈ parts b t) (c : Binding) :
    ∃ c', (c', u) ∈ parts c t := by
  have hexprs {elts : List Expr} (hu : (b', u) ∈ exprs b.inner elts) : (c.inner, u) ∈ exprs c.inner elts := by
    obtain ⟨-, x, hx, rfl⟩ := mem_exprs.1 hu
    exact mem_exprs.2 ⟨rfl, x, hx, rfl⟩
  rcases t with e | s | _ | _ | _
  · cases e with
    | tuple pos elts binding comma => exact ⟨_, hexprs h⟩
    | list pos elts binding => exact ⟨_, hexprs h⟩
    | _ => exact ⟨_, h⟩
  · cases s <;> exact ⟨_, h⟩
  · exact ⟨_, h⟩
  · exact ⟨_, h⟩
  · exact ⟨_, h⟩

/-- What stands in a node stands in it wherever the node does. -/
theorem has_any {b b' : Binding} {t u : Subtree} (h : Has b t b' u) (c : Binding) : ∃ c', Has c t c' u := by
  induction h generalizing c with
  | self b t => exact ⟨c, .self c t⟩
  | part hp _ ih =>
    obtain ⟨c', hp'⟩ := parts_any hp c
    obtain ⟨c'', hu⟩ := ih c'
    exact ⟨c'', .part hp' hu⟩

theorem Legible.part {t : Subtree} (h : Legible t) : ∀ p ∈ parts .load t, Legible p.2 := by
  intro p hp b u hu
  obtain ⟨c, hc⟩ := has_any hu p.1
  exact h c u (.part hp hc)

theorem Legible.texts {t : Subtree} (h : Legible t) : ∀ text ∈ t.texts, Clear text := Throughout.here h

def LegibleArguments (a : CallArgs) : Prop :=
  (∀ e ∈ a.args, Legible (expr e)) ∧ (∀ k ∈ a.keywords, Legible (keyword k)) ∧
    (∀ e ∈ a.starargs, Legible (expr e)) ∧ ∀ e ∈ a.kwargs, Legible (expr e)

def LegibleBlock (suite : Option Suite) : Prop := ∀ s ∈ suite, ∀ t ∈ s.body, Legible (stmt t)

def LegibleToken (token : Option NameToken) : Prop := ∀ t ∈ token, Clear t.id

/-- the texts of the node are clear, and its parts are legible -/
def Spelled : Subtree → Prop
  | expr (.name _ id _ _) => Clear id
  | expr (.num _ digits) => Clear digits
  | expr (.str _ text _ segments) => Clear text ∧ ∀ s ∈ segments, Legible (stmt s)
  | expr (.tuple _ elts _ _) => ∀ e ∈ elts, Legible (expr e)
  | expr (.list _ elts _) => ∀ e ∈ elts, Legible (expr e)
  | expr (.set _ elts) => ∀ e ∈ elts, Legible (expr e)
  | expr (.dict _ keys values) => (∀ e ∈ keys, Legible (expr e)) ∧ ∀ e ∈ values, Legible (expr e)
  | expr (.call _ func args) => Legible (expr func) ∧ LegibleArguments args
  | expr (.binOp _ left _ right) => Legible (expr left) ∧ Legible (expr right)
  | expr (.boolOp _ _ values) => ∀ e ∈ values, Legible (expr e)
  | expr (.compare _ left _ comparators) => Legible (expr left) ∧ ∀ e ∈ comparators, Legible (expr e)
  | expr (.ifExp _ test body orelse) => Legible (expr test) ∧ Legible (expr body) ∧ Legible (expr orelse)
  | expr (.await _ value) => Legible (expr value)
  | expr (.yield _ value) => ∀ e ∈ value, Legible (expr e)
  | stmt (.assign _ targets value) => (∀ e ∈ targets, Legible (expr e)) ∧ Legible (expr value)
  | stmt (.augAssign _ target _ value) => Legible (expr target) ∧ Legible (expr value)
  | stmt (.expr _ value) => Legible (expr value)
  | stmt (.pass _) => True
  | stmt (.ifElse _ test body orelse) =>
    Legible (expr test) ∧ (∀ s ∈ body, Legible (stmt s)) ∧ LegibleBlock orelse
  | stmt (.whileLoop _ test body orelse) =>
    Legible (expr test) ∧ (∀ s ∈ body, Legible (stmt s)) ∧ LegibleBlock orelse
  | stmt (.forLoop _ target iter body orelse _) =>
    Legible (expr target) ∧ Legible (expr iter) ∧ (∀ s ∈ body, Legible (stmt s)) ∧ LegibleBlock orelse
  | stmt (.assertion _ test msg) => Legible (expr test) ∧ ∀ e ∈ msg, Legible (expr e)
  | stmt (.ret _ value) => ∀ e ∈ value, Legible (expr e)
  | stmt (.functionDef _ name params body decs _) =>
    Clear name.id ∧ Legible (parameters params) ∧ (∀ s ∈ body, Legible (stmt s)) ∧ ∀ d ∈ decs, Legible (decorator d)
  | stmt (.classDef _ name bases body decs) =>
    Clear name.id ∧ (∀ e ∈ bases, Legible (expr e)) ∧ (∀ s ∈ body, Legible (stmt s)) ∧
      ∀ d ∈ decs, Legible (decorator d)
  | keyword k => Clear k.arg.id ∧ Legible (expr k.value)
  | decorator d => Legible (expr d.func) ∧ LegibleArguments d.args
  | parameters p =>
    (LegibleToken p.vararg ∧ LegibleToken p.kwarg) ∧ (∀ e ∈ p.args, Legible (expr e)) ∧
      (∀ e ∈ p.kwonlyargs, Legible (expr e)) ∧ (∀ e, some e ∈ p.defaults → Legible (expr e)) ∧
        (∀ e, some e ∈ p.annotations → Legible (expr e)) ∧ (∀ e, some e ∈ p.kwDefaults → Legible (expr e)) ∧
          ∀ e, some e ∈ p.kwonlyAnnotations → Legible (expr e)

theorem forall_mem_arguments {a : CallArgs} : (∀ p ∈ arguments a, Legible p.2) ↔ LegibleArguments a := by
  simp only [arguments, LegibleArguments, List.forall_mem_append, forall_mem_exprs, List.forall_mem_map, and_assoc]
  simp [and_left_comm, and_comm]

theorem forall_mem_block {suite : Option Suite} : (∀ p ∈ block suite, Legible p.2) ↔ LegibleBlock suite := by
  cases suite <;> simp [block, LegibleBlock, -Prod.forall]

/-- A node is legible exactly when its own texts are clear and its parts legible. -/
theorem legible_iff {t : Subtree} : Legible t ↔ t.Spelled := by
  have hboth : Legible t ↔ (∀ text ∈ t.texts, Clear text) ∧ ∀ p ∈ parts .load t, Legible p.2 := by
    refine ⟨fun h => ⟨h.texts, h.part⟩, fun h => throughout_iff.2 ⟨h.1, fun p hp => ?_⟩⟩
    exact Throughout.place (fun _ _ hu => hu) (h.2 p hp) p.1
  rw [hboth]
  rcases t with e | s | k | d | p
  · cases e <;> simp [texts, parts, Spelled, forall_mem_arguments, -Prod.forall, or_imp, forall_and]
  · cases s <;> simp [texts, parts, Spelled, forall_mem_block, -Prod.forall, or_imp, forall_and]
  · simp [texts, parts, Spelled, -Prod.forall]
  · simp [texts, parts, Spelled, forall_mem_arguments, -Prod.forall, or_imp, forall_and]
  · simp [texts, parts, Spelled, LegibleToken, -Prod.forall, or_imp, forall_and, and_assoc]

theorem Legible.spelled {t : Subtree} (h : Legible t) : t.Spelled := legible_iff.1 h

end Subtree

open Subtree

/-! ## Members are items -/

@[simp] theorem clear_boolText (b : Bool) : Clear (boolText b) := by cases b <;> decide

@[simp] theorem clear_binding (b : Binding) : Clear b.name := by cases b <;> decide

@[simp] theorem clear_role (r : Role) : Clear r.name := by cases r <;> decide

@[simp] theorem clear_binaryOp (op : BinaryOp) : Clear op.name := by cases op <;> decide

@[simp] theorem clear_boolOp (op : BoolOp) : Clear op.name := by cases op <;> decide

theorem item_compareOp (op : CompareOp) : Item op.name := by
  cases op <;> exact item_of_clear (by decide) (by decide)

theorem items_compareOps (ops : List CompareOp) : ∀ name ∈ ops.map CompareOp.name, Item name := by
  intro name hname
  obtain ⟨op, -, rfl⟩ := List.mem_map.1 hname
  exact item_compareOp op

theorem NameToken.items {t : NameToken} (h : Clear t.id) : ∀ m ∈ t.members, Item m := by
  simp +decide [members, item_key, closed_of_clear, h]

theorem NameToken.item {t : NameToken} (h : Clear t.id) : Item t.render := by
  rw [render_eq]
  exact item_enclosed (by decide) (items h)

theorem token?_item {t : Option NameToken} (h : LegibleToken t) : Item (orNull (t.map NameToken.render)) := by
  cases t with
  | none => exact item_of_clear (by decide) (by decide)
  | some t => exact NameToken.item (h t rfl)

theorem Expr.clear_label (e : Expr) : Clear e.label := by cases e <;> simp +decide [label]

theorem Expr.item {e : Expr} (h : ∀ m ∈ e.members, Item m) : Item e.render := by
  rw [render_eq]
  exact item_enclosed e.clear_label h

theorem Keyword.item {k : Keyword} (h : ∀ m ∈ k.members, Item m) : Item k.render := by
  rw [render_eq]
  exact item_enclosed (by decide) h

theorem Suite.item {s : Suite} (h : ∀ m ∈ s.members, Item m) : Item s.render := by
  rw [render_eq]
  exact item_enclosed (by decide) h

theorem Decorator.item {d : Decorator} (h : ∀ m ∈ d.members, Item m) : Item d.render := by
  rw [render_eq]
  exact item_enclosed (by decide) h

theorem Parameters.item {p : Parameters} (h : ∀ m ∈ p.members, Item m) : Item p.render := by
  rw [render_eq]
  exact item_enclosed (by decide) h

theorem Stmt.clear_label (s : Stmt) : Clear s.label := by cases s <;> simp +decide [label]

theorem Stmt.item {s : Stmt} (h : ∀ m ∈ s.members, Item m) : Item s.render := by
  rcases s.render_eq with ⟨-, heq⟩ | ⟨pos, rfl⟩
  · rw [heq]
    exact item_enclosed s.clear_label h
  · have hpass : Item "Pass" := item_of_clear (by decide) (by decide)
    exact hpass

mutual

theorem Expr.items : ∀ e : Expr, Legible (expr e) → ∀ m ∈ e.members, Item m
  | .name _ id _ _, h => by
    have hid : Clear id := h.spelled
    simp +decide [Expr.members, item_key, closed_of_clear, hid]
  | .num _ digits, h => by
    have hdigits : Clear digits := h.spelled
    simp +decide [Expr.members, item_key, item_of_clear, closed_of_clear, hdigits]
  | .str _ text _ segments, h => by
    obtain ⟨htext, hsegments⟩ := h.spelled
    have hsegments := closed_bracketed (stmts_items segments hsegments)
    simp +decide [Expr.members, item_key, closed_of_clear, htext, hsegments]
  | .tuple _ elts _ _, h => by
    have helts := closed_bracketed (exprs_items elts h.spelled)
    simp +decide [Expr.members, item_key, closed_of_clear, helts]
  | .list _ elts _, h => by
    have helts := closed_bracketed (exprs_items elts h.spelled)
    simp +decide [Expr.members, item_key, closed_of_clear, helts]
  | .set _ elts, h => by
    have helts := closed_bracketed (exprs_items elts h.spelled)
    simp +decide [Expr.members, item_key, helts]
  | .dict _ keys values, h => by
    obtain ⟨hkeys, hvalues⟩ := h.spelled
    have hkeys := closed_bracketed (exprs_items keys hkeys)
    have hvalues := closed_bracketed (exprs_items values hvalues)
    simp +decide [Expr.members, item_key, hkeys, hvalues]
  | .call _ func args, h => by
    obtain ⟨hfunc, hargs⟩ := h.spelled
    have hfunc := (Expr.item (func.items hfunc)).closed
    have hkey : Item ("func=" ++ func.render) := item_key (by decide) (by decide) hfunc
    exact List.forall_mem_cons.2 ⟨hkey, args.items hargs⟩
  | .binOp _ left _ right, h => by
    obtain ⟨hleft, hright⟩ := h.spelled
    have hleft := (Expr.item (left.items hleft)).closed
    have hright := (Expr.item (right.items hright)).closed
    simp +decide [Expr.members, item_key, closed_of_clear, hleft, hright]
  | .boolOp _ _ values, h => by
    have hvalues := closed_bracketed (exprs_items values h.spelled)
    simp +decide [Expr.members, item_key, closed_of_clear, hvalues]
  | .compare _ left ops comparators, h => by
    obtain ⟨hleft, hcomparators⟩ := h.spelled
    have hleft := (Expr.item (left.items hleft)).closed
    have hops := closed_bracketed (items_compareOps ops)
    have hcomparators := closed_bracketed (exprs_items comparators hcomparators)
    simp +decide [Expr.members, item_key, hleft, hops, hcomparators]
  | .ifExp _ test body orelse, h => by
    obtain ⟨htest, hbody, horelse⟩ := h.spelled
    have htest := (Expr.item (test.items htest)).closed
    have hbody := (Expr.item (body.items hbody)).closed
    have horelse := (Expr.item (orelse.items horelse)).closed
    simp +decide [Expr.members, item_key, htest, hbody, horelse]
  | .await _ value, h => by
    have hvalue := (Expr.item (value.items h.spelled)).closed
    simp +decide [Expr.members, item_key, hvalue]
  | .yield _ value, h => by
    have hvalue := (expr?_item value h.spelled).closed
    simp +decide [Expr.members, item_key, hvalue]
termination_by structural e => e

theorem CallArgs.items : ∀ a : CallArgs, LegibleArguments a → ∀ m ∈ a.members, Item m
  | ⟨args, keywords, starargs, kwargs⟩, h => by
    obtain ⟨hargs, hkeywords, hstarargs, hkwargs⟩ := h
    have hargs := closed_bracketed (exprs_items args hargs)
    have hkeywords := closed_bracketed (keywords_items keywords hkeywords)
    have hstarargs := (expr?_item starargs hstarargs).closed
    have hkwargs := (expr?_item kwargs hkwargs).closed
    simp +decide [CallArgs.members, item_key, hargs, hkeywords, hstarargs, hkwargs]
termination_by structural a => a

theorem Keyword.items : ∀ k : Keyword, Legible (keyword k) → ∀ m ∈ k.members, Item m
  | ⟨arg, value⟩, h => by
    obtain ⟨harg, hvalue⟩ := h.spelled
    have harg := (NameToken.item harg).closed
    have hvalue := (Expr.item (value.items hvalue)).closed
    simp +decide [Keyword.members, item_key, harg, hvalue]
termination_by structural k => k

theorem Stmt.items : ∀ s : Stmt, Legible (stmt s) → ∀ m ∈ s.members, Item m
  | .assign _ targets value, h => by
    obtain ⟨htargets, hvalue⟩ := h.spelled
    have htargets := closed_bracketed (exprs_items targets htargets)
    have hvalue := (Expr.item (value.items hvalue)).closed
    simp +decide [Stmt.members, item_key, htargets, hvalue]
  | .augAssign _ target _ value, h => by
    obtain ⟨htarget, hvalue⟩ := h.spelled
    have htarget := (Expr.item (target.items htarget)).closed
    have hvalue := (Expr.item (value.items hvalue)).closed
    simp +decide [Stmt.members, item_key, closed_of_clear, htarget, hvalue]
  | .expr _ value, h => by
    have hvalue := (Expr.item (value.items h.spelled)).closed
    simp +decide [Stmt.members, item_key, hvalue]
  | .pass _, _ => by simp [Stmt.members]
  | .ifElse _ test body orelse, h => by
    obtain ⟨htest, hbody, horelse⟩ := h.spelled
    have htest := (Expr.item (test.items htest)).closed
    have hbody := closed_bracketed (stmts_items body hbody)
    have horelse := (suite?_item orelse horelse).closed
    simp +decide [Stmt.members, item_key, htest, hbody, horelse]
  | .whileLoop _ test body orelse, h => by
    obtain ⟨htest, hbody, horelse⟩ := h.spelled
    have htest := (Expr.item (test.items htest)).closed
    have hbody := closed_bracketed (stmts_items body hbody)
    have horelse := (suite?_item orelse horelse).closed
    simp +decide [Stmt.members, item_key, htest, hbody, horelse]
  | .forLoop _ target iter body orelse _, h => by
    obtain ⟨htarget, hiter, hbody, horelse⟩ := h.spelled
    have htarget := (Expr.item (target.items htarget)).closed
    have hiter := (Expr.item (iter.items hiter)).closed
    have hbody := closed_bracketed (stmts_items body hbody)
    have horelse := (suite?_item orelse horelse).closed
    simp +decide [Stmt.members, item_key, closed_of_clear, htarget, hiter, hbody, horelse]
  | .assertion _ test msg, h => by
    obtain ⟨htest, hmsg⟩ := h.spelled
    have htest := (Expr.item (test.items htest)).closed
    have hmsg := (expr?_item msg hmsg).closed
    simp +decide [Stmt.members, item_key, htest, hmsg]
  | .ret _ value, h => by
    have hvalue := (expr?_item value h.spelled).closed
    simp +decide [Stmt.members, item_key, hvalue]
  | .functionDef _ name params body decs _, h => by
    obtain ⟨hname, hparams, hbody, hdecs⟩ := h.spelled
    have hname := (NameToken.item hname).closed
    have hparams := (Parameters.item (params.items hparams)).closed
    have hbody := closed_bracketed (stmts_items body hbody)
    have hdecs := closed_bracketed (decorators_items decs hdecs)
    simp +decide [Stmt.members, item_key, closed_of_clear, hname, hparams, hbody, hdecs]
  | .classDef _ name bases body decs, h => by
    obtain ⟨hname, hbases, hbody, hdecs⟩ := h.spelled
    have hname := (NameToken.item hname).closed
    have hbases := closed_bracketed (exprs_items bases hbases)
    have hbody := closed_bracketed (stmts_items body hbody)
    have hdecs := closed_bracketed (decorators_items decs hdecs)
    simp +decide [Stmt.members, item_key, hname, hbases, hbody, hdecs]
termination_by structural s => s

theorem Suite.items : ∀ s : Suite, (∀ t ∈ s.body, Legible (stmt t)) → ∀ m ∈ s.members, Item m
  | ⟨body, _⟩, h => by
    have hbody := closed_bracketed (stmts_items body h)
    simp +decide [Suite.members, item_key, hbody]
termination_by structural s => s

theorem Decorator.items : ∀ d : Decorator, Legible (decorator d) → ∀ m ∈ d.members, Item m
  | ⟨func, args, isCall, _⟩, h => by
    obtain ⟨hfunc, hargs⟩ := h.spelled
    have hfunc := (Expr.item (func.items hfunc)).closed
    have hkey : Item ("func=" ++ func.render) := item_key (by decide) (by decide) hfunc
    have hcall : Item ("isCall=" ++ boolText isCall) := item_key (by decide) (by decide) (closed_of_clear (by simp))
    refine List.forall_mem_append.2 ⟨List.forall_mem_cons.2 ⟨hkey, args.items hargs⟩, ?_⟩
    simpa using hcall
termination_by structural d => d

theorem Parameters.items : ∀ p : Parameters, Legible (parameters p) → ∀ m ∈ p.members, Item m
  | ⟨args, defaults, annotations, vararg, kwarg, kwonlyargs, kwDefaults, kwonlyAnnotations⟩, h => by
    obtain ⟨⟨hvararg, hkwarg⟩, hargs, hkwonlyargs, hdefaults, hannotations, hkwDefaults, hkwonlyAnnotations⟩ := h.spelled
    have hvararg := (token?_item hvararg).closed
    have hkwarg := (token?_item hkwarg).closed
    have hargs := closed_bracketed (exprs_items args hargs)
    have hkwonlyargs := closed_bracketed (exprs_items kwonlyargs hkwonlyargs)
    have hdefaults := closed_bracketed (options_items defaults hdefaults)
    have hannotations := closed_bracketed (options_items annotations hannotations)
    have hkwDefaults := closed_bracketed (options_items kwDefaults hkwDefaults)
    have hkwonlyAnnotations := closed_bracketed (options_items kwonlyAnnotations hkwonlyAnnotations)
    simp +decide [Parameters.members, item_key, hargs, hvararg, hkwarg, hdefaults, hkwonlyargs, hkwDefaults,
      hannotations, hkwonlyAnnotations]
termination_by structural p => p

theorem exprs_items : ∀ es : List Expr, (∀ e ∈ es, Legible (expr e)) → ∀ text ∈ exprTexts es, Item text
  | [], _ => by simp [exprTexts]
  | e :: es, h => by
    rw [List.forall_mem_cons] at h
    exact List.forall_mem_cons.2 ⟨Expr.item (e.items h.1), exprs_items es h.2⟩
termination_by structural es => es

theorem expr?_item : ∀ o : Option Expr, (∀ e ∈ o, Legible (expr e)) → Item (orNull (exprText? o))
  | none, _ => item_of_clear (by decide) (by decide)
  | some e, h => Expr.item (e.items (h e rfl))
termination_by structural o => o

theorem options_items :
    ∀ os : List (Option Expr), (∀ e, some e ∈ os → Legible (expr e)) → ∀ text ∈ optionTexts os, Item text
  | [], _ => by simp [optionTexts]
  | o :: os, h => by
    have ho : Item (orNull (exprText? o)) := expr?_item o fun e he => h e (he ▸ List.mem_cons_self)
    exact List.forall_mem_cons.2 ⟨ho, options_items os fun e he => h e (List.mem_cons_of_mem o he)⟩
termination_by structural os => os

theorem keywords_items : ∀ ks : List Keyword, (∀ k ∈ ks, Legible (keyword k)) → ∀ text ∈ keywordTexts ks, Item text
  | [], _ => by simp [keywordTexts]
  | k :: ks, h => by
    rw [List.forall_mem_cons] at h
    exact List.forall_mem_cons.2 ⟨Keyword.item (k.items h.1), keywords_items ks h.2⟩
termination_by structural ks => ks

theorem stmts_items : ∀ ss : List Stmt, (∀ s ∈ ss, Legible (stmt s)) → ∀ text ∈ stmtTexts ss, Item text
  | [], _ => by simp [stmtTexts]
  | s :: ss, h => by
    rw [List.forall_mem_cons] at h
    exact List.forall_mem_cons.2 ⟨Stmt.item (s.items h.1), stmts_items ss h.2⟩
termination_by structural ss => ss

theorem suite?_item : ∀ o : Option Suite, LegibleBlock o → Item (orNull (suiteText? o))
  | none, _ => item_of_clear (by decide) (by decide)
  | some s, h => Suite.item (s.items (h s rfl))
termination_by structural o => o

theorem decorators_items :
    ∀ ds : List Decorator, (∀ d ∈ ds, Legible (decorator d)) → ∀ text ∈ decoratorTexts ds, Item text
  | [], _ => by simp [decoratorTexts]
  | d :: ds, h => by
    rw [List.forall_mem_cons] at h
    exact List.forall_mem_cons.2 ⟨Decorator.item (d.items h.1), decorators_items ds h.2⟩
termination_by structural ds => ds

end

end Graft
