/-
The parameters of a function, in their order.

An entry of a list of parameters is named by the first of up to three nodes that has a name (`nameSources`), and is left
out where none has one. Those that are named go into two groups of lists, by whether they can only be passed by name.

- `result_parameterOf_iff`, `parameter_fails_iff`: what one entry gives, and when it fails.
- `parameters_partition`: the lists of either group belong together item by item, and are those of the named entries in
  the order of the document. A call fails exactly for an entry that cannot be read.
-/
import Mathlib.Data.List.Forall2
import Graft.Proofs.Variables

namespace Graft.Convert

open Graft.Document Attempt

variable {c : Converter} {mode : Mode} {n function : Node} {entry : Value} {entries : List Value} {b : Binding}

/-! ## What an entry says -/

/-- the node is what a declarator declares, behind any number of pointers -/
inductive Declares : Node → Node → Prop where
  | itself {declarator : Node} : Bare declarator → Declares declarator declarator
  | pointer {declarator base inner : Node} : declarator.isTagged "CPtrDeclarator" = true →
      declarator.node? "base" = some base → Declares base inner → Declares declarator inner

/-- where the name of a parameter is looked for: what its declarator declares, its base type, and the node of that -/
def nameSources (n : Node) : List Node :=
  ((n.node? "declarator").map stripped).toList ++ (n.node? "base_type").toList ++
    ((n.node? "base_type").bind (·.node? "base_type_node")).toList

/-- whether there is a name for the parameter -/
def hasName (n : Node) : Bool := (nameSources n).any fun source => (source.filledText? "name").isSome

/-- the expression is the name of the parameter, at the first place where there is one -/
def NamedBy (n : Node) (b : Binding) (e : Expr) : Prop :=
  ∃ earlier source later id, nameSources n = earlier ++ source :: later ∧
    (∀ other ∈ earlier, other.filledText? "name" = none) ∧ source.filledText? "name" = some id ∧
    e = .ident id b (positionOf source)

/-- a piece that is an expression, or a statement of one -/
inductive IsExpr : Piece → Expr → Prop where
  | expr (e : Expr) : IsExpr (.expr e) e
  | stmt (pos : Position) (e : Expr) : IsExpr (.stmt (.expr pos e)) e

/-- a fragment that is one expression, or none -/
inductive AtMostOne : Fragment → Option Expr → Prop where
  | absent : AtMostOne .absent none
  | none : AtMostOne (.group []) none
  | one {p : Piece} {e : Expr} : IsExpr p e → AtMostOne (.piece p) (some e)
  | single {p : Piece} {e : Expr} : IsExpr p e → AtMostOne (.group [p]) (some e)

/-- what a field holds is converted to this expression, or to none -/
def FieldGives (c : Converter) (mode : Mode) (n : Node) (name : String) (o : Option Expr) : Prop :=
  ∃ fragment, (field c n name .load mode).result = .ok fragment ∧ AtMostOne fragment o

/-- the name, the default and the annotation of a parameter, names being bound in this way -/
structure GivesRow (c : Converter) (mode : Mode) (b : Binding) (n : Node)
    (row : Expr × Option Expr × Option Expr) : Prop where
  name : NamedBy n b row.1
  default : FieldGives c mode n "default" row.2.1
  annotation : FieldGives c mode n "annotation" row.2.2

/-- the value is the number one, or a text of it: blanks around it, a plus sign and zeros before it are let through -/
inductive SaysOne : Value → Prop where
  | number : SaysOne (.number (.int 1))
  | text {text : String} {sign : List Char} {zeros : Nat} : sign ∈ [[], ['+']] →
      Text.trim text.toList = sign ++ (List.replicate zeros '0' ++ ['1']) → SaysOne (.string text)

/-- the entries that are parameters with a name -/
def namedNodes (entries : List Value) : List Node := (entries.filterMap Value.node?).filter hasName

/-- the lists belong together item by item, and hold the names, the defaults and the annotations of these nodes -/
structure Columns (c : Converter) (mode : Mode) (b : Binding) (nodes : List Node) (names : List Expr)
    (defaults annotations : List (Option Expr)) : Prop where
  defaults_length : defaults.length = names.length
  annotations_length : annotations.length = names.length
  rows : List.Forall₂ (GivesRow c mode b) nodes (names.zip (defaults.zip annotations))

/-- the entry makes a call fail -/
inductive Unreadable (c : Converter) (mode : Mode) : Value → Prop where
  | notANode {v : Value} : v.node? = none → Unreadable c mode v
  | unfit {n : Node} {name : String} : hasName n = true → name ∈ ["default", "annotation"] →
      (∀ o, ¬ FieldGives c mode n name o) → Unreadable c mode (.object n)
  | unnamed {n : Node} : hasName n = false → mode = .strict → Unreadable c mode (.object n)

/-- the notes on one parameter: those on what it holds, or that it has no name -/
def parameterNotes (c : Converter) (n : Node) : List Fault :=
  if hasName n then
    (field c n "default" .load .permissive).notes ++ (field c n "annotation" .load .permissive).notes
  else [.of n .unnamedParameter]

/-! ## Names -/

theorem declares_iff (declarator inner : Node) : Declares declarator inner ↔ stripped declarator = inner := by
  constructor
  · intro h
    induction h with
    | itself hbare => exact stripped_self hbare
    | pointer htag hbase _ ih => rw [stripped_pointer htag hbase, ih]
  · rintro rfl
    exact stripped_induction (P := Declares) (fun _ => .itself) (fun _ _ => .pointer) declarator

theorem parameterName?_eq_findSome? (n : Node) (b : Binding) :
    parameterName? n b = (nameSources n).findSome? (namedExpr? · b) := by
  have hsource (o : Option Node) : o.toList.findSome? (namedExpr? · b) = o.bind (namedExpr? · b) := by
    cases o <;> simp
  rw [nameSources, List.findSome?_append, List.findSome?_append, hsource, hsource, hsource, Option.or_assoc]
  unfold parameterName? baseTypeName? declarator?
  cases n.node? "base_type" <;> rfl

theorem parameterName?_eq_some_iff (n : Node) (b : Binding) (e : Expr) :
    parameterName? n b = some e ↔ NamedBy n b e := by
  rw [parameterName?_eq_findSome?, List.findSome?_eq_some_iff]
  unfold NamedBy namedExpr?
  simp only [Option.map_eq_some_iff, Option.map_eq_none_iff]
  constructor
  · rintro ⟨earlier, source, later, hsources, ⟨id, hid, rfl⟩, hearlier⟩
    exact ⟨earlier, source, later, id, hsources, hearlier, hid, rfl⟩
  · rintro ⟨earlier, source, later, id, hsources, hearlier, hid, rfl⟩
    exact ⟨earlier, source, later, hsources, ⟨id, hid, rfl⟩, hearlier⟩

theorem parameterName?_eq_none_iff (n : Node) (b : Binding) : parameterName? n b = none ↔ hasName n = false := by
  rw [parameterName?_eq_findSome?, List.findSome?_eq_none_iff, hasName, List.any_eq_false]
  unfold namedExpr?
  simp

theorem NamedBy.unique {e e' : Expr} (h : NamedBy n b e) (h' : NamedBy n b e') : e = e' := by
  rw [← parameterName?_eq_some_iff] at h h'
  exact Option.some.inj (h.symm.trans h')

theorem NamedBy.hasName {e : Expr} (h : NamedBy n b e) : hasName n = true := by
  obtain ⟨earlier, source, later, id, hsources, -, hid, -⟩ := h
  rw [Convert.hasName, hsources, List.any_eq_true]
  exact ⟨source, by simp, by rw [hid]; rfl⟩

theorem named_or_unnamed (n : Node) (b : Binding) : (∃ name, NamedBy n b name) ∨ hasName n = false := by
  cases hname : parameterName? n b with
  | none => exact .inr ((parameterName?_eq_none_iff n b).1 hname)
  | some name => exact .inl ⟨name, (parameterName?_eq_some_iff n b name).1 hname⟩

/-! ## Fields -/

theorem isExpr_iff (owner : Node) (p : Piece) (e : Expr) : p.toExpr owner = .ok e ↔ IsExpr p e := by
  constructor
  · intro h
    unfold Piece.toExpr at h
    split at h
    · cases h
      exact .expr _
    · cases h
      exact .stmt _ _
    · cases h
  · rintro (_ | _) <;> rfl

theorem atMostOne_iff (owner : Node) (f : Fragment) (o : Option Expr) : f.expr? owner = .ok o ↔ AtMostOne f o := by
  have hpiece (p : Piece) : (p.toExpr owner).map some = .ok o ↔ ∃ e, IsExpr p e ∧ o = some e := by
    simp only [← isExpr_iff owner]
    cases p.toExpr owner <;> simp [Except.map, eq_comm]
  constructor
  · intro h
    unfold Fragment.expr? at h
    split at h
    · cases h
      exact .absent
    · obtain ⟨e, he, rfl⟩ := (hpiece _).1 h
      exact .one he
    · cases h
      exact .none
    · obtain ⟨e, he, rfl⟩ := (hpiece _).1 h
      exact .single he
    · cases h
    · cases h
  · rintro (_ | _ | he | he)
    · rfl
    · rfl
    · exact (hpiece _).2 ⟨_, he, rfl⟩
    · exact (hpiece _).2 ⟨_, he, rfl⟩

theorem result_optionalExpr_iff (n : Node) (name : String) (o : Option Expr) :
    (optionalExpr c n name .load mode).result = .ok o ↔ FieldGives c mode n name o := by
  show ((field c n name .load >>= fun f => ofExcept (f.expr? n)) mode).result = .ok o ↔ _
  simp only [result_bind_iff, outcome_ofExcept, atMostOne_iff]
  rfl

theorem notes_optionalExpr (n : Node) (name : String) :
    (optionalExpr c n name .load mode).notes = (field c n name .load mode).notes := by
  show ((field c n name .load >>= fun f => ofExcept (f.expr? n)) mode).notes = _
  rw [outcome_bind]
  cases (field c n name .load mode).result with
  | error fault => rfl
  | ok f => simp [outcome_ofExcept]

/-! ## Marks -/

theorem toNat_of_digitIn {c : Char} {d : Nat} (h : Text.digitIn 10 c = some d) : c.toNat = 48 + d := by
  obtain ⟨hvalue, hsmall⟩ := Option.filter_eq_some_iff.1 h
  simp only [decide_eq_true_eq] at hsmall
  simp only [Text.digitValue] at hvalue
  split_ifs at hvalue <;> cases hvalue <;> omega

/-- Digits that are read after a number come to ten times that number at least. -/
theorem le_of_digitsValue? {cs : List Char} {acc n : Nat} (h : Text.digitsValue? 10 acc cs = some n) :
    cs = [] ∧ acc = n ∨ 10 * acc ≤ n := by
  induction cs generalizing acc with
  | nil => exact .inl ⟨rfl, Option.some.inj h⟩
  | cons c cs ih =>
    obtain ⟨d, -, h⟩ := Option.bind_eq_some_iff.1 h
    rcases ih h with ⟨-, hacc⟩ | hacc <;> exact .inr (by omega)

/-- The digits of one are zeros and a one. -/
theorem digitsValue?_eq_one_iff {cs : List Char} :
    Text.digitsValue? 10 0 cs = some 1 ↔ ∃ zeros, cs = List.replicate zeros '0' ++ ['1'] := by
  constructor
  · intro h
    induction cs with
    | nil => cases h
    | cons c cs ih =>
      obtain ⟨d, hd, h⟩ := Option.bind_eq_some_iff.1 h
      have hc := toNat_of_digitIn hd
      obtain rfl | rfl | hlarge : d = 0 ∨ d = 1 ∨ 2 ≤ d := by omega
      · obtain ⟨zeros, rfl⟩ := ih h
        have hzero : c = '0' := Char.toNat_inj.1 hc
        exact ⟨zeros + 1, by rw [hzero]; rfl⟩
      · obtain ⟨rfl, -⟩ | hmore := le_of_digitsValue? h
        · have hone : c = '1' := Char.toNat_inj.1 hc
          exact ⟨0, by rw [hone]; rfl⟩
        · omega
      · rcases le_of_digitsValue? h with ⟨-, h⟩ | h <;> omega
  · rintro ⟨zeros, rfl⟩
    induction zeros with
    | zero => rfl
    | succ zeros ih => exact ih

theorem value?_eq_one_iff {cs : List Char} :
    Text.value? 10 cs = some 1 ↔ ∃ zeros, cs = List.replicate zeros '0' ++ ['1'] := by
  rw [← digitsValue?_eq_one_iff]
  unfold Text.value?
  cases cs <;> simp [Text.digitsValue?]

theorem first_of_one {first : Char} {rest : List Char} {zeros : Nat}
    (h : first :: rest = List.replicate zeros '0' ++ ['1']) : first = '0' ∨ first = '1' := by
  have hfirst : first ∈ List.replicate zeros '0' ++ ['1'] := h ▸ List.mem_cons_self
  simp only [List.mem_append, List.mem_replicate, List.mem_singleton] at hfirst
  exact hfirst.imp_left And.right

/-- The bound on a number lets one through. -/
theorem bounded_eq_one_iff {cs : List Char} :
    ((Text.value? 10 cs).filter (· < Text.signedLimit)).map Int.ofNat = some 1 ↔
      ∃ zeros, cs = List.replicate zeros '0' ++ ['1'] := by
  rw [← value?_eq_one_iff, Option.map_eq_some_iff]
  constructor
  · rintro ⟨n, hn, hone⟩
    cases hone
    exact Option.eq_some_of_filter_eq_some hn
  · intro h
    exact ⟨1, by rw [h]; rfl, rfl⟩

theorem integer?_eq_one_iff {cs : List Char} :
    Text.integer? cs = some 1 ↔ ∃ sign ∈ [[], ['+']], ∃ zeros, cs = sign ++ (List.replicate zeros '0' ++ ['1']) := by
  simp only [List.exists_mem_cons_iff, List.not_mem_nil, false_and, exists_false, or_false, List.nil_append,
    List.cons_append]
  unfold Text.integer?
  split
  · rename_i rest
    refine iff_of_false ?_ ?_
    · rintro h
      obtain ⟨n, hn, hneg⟩ := Option.map_eq_some_iff.1 h
      obtain ⟨magnitude, -, hcast⟩ := Option.bind_eq_some_iff.1 hn
      have hsize : (magnitude : Int) = n := Option.some.inj hcast
      omega
    · rintro (⟨zeros, h⟩ | ⟨zeros, h⟩)
      · cases first_of_one h <;> contradiction
      · cases h
  · rename_i rest
    rw [bounded_eq_one_iff]
    constructor
    · rintro ⟨zeros, rfl⟩
      exact .inr ⟨zeros, rfl⟩
    · rintro (⟨zeros, h⟩ | ⟨zeros, h⟩)
      · cases first_of_one h <;> contradiction
      · exact ⟨zeros, List.cons.inj h |>.2⟩
  · rename_i hminus hplus
    rw [bounded_eq_one_iff]
    constructor
    · exact .inl
    · rintro (h | ⟨zeros, rfl⟩)
      · exact h
      · exact absurd rfl (hplus _)

theorem int?_eq_one_iff (v : Value) : v.int? = some 1 ↔ SaysOne v := by
  constructor
  · intro h
    unfold Value.int? at h
    split at h
    · split_ifs at h
      cases h
      exact .number
    · obtain ⟨sign, hsign, zeros, htext⟩ := integer?_eq_one_iff.1 h
      exact .text hsign htext
    · cases h
  · rintro (_ | ⟨hsign, htext⟩)
    · rfl
    · exact integer?_eq_one_iff.2 ⟨_, hsign, _, htext⟩

theorem isKeywordOnly_iff (n : Node) :
    isKeywordOnly n = true ↔ ∃ v, n.get? "kw_only" = some v ∧ SaysOne v := by
  rw [isKeywordOnly, beq_iff_eq, Node.int?, Option.bind_eq_some_iff]
  simp only [int?_eq_one_iff]

/-! ## Entries -/

/-- the way in which the name of a parameter is bound -/
def bindingOf (n : Node) : Binding := if isKeywordOnly n then .kwOnlyParam else .param

/-- what the lists of a function hold for a parameter -/
def Parameter.row (p : Parameter) : Expr × Option Expr × Option Expr := (p.name, p.default, p.annotation)

/-- this parameter comes of the node -/
def ComesOf (c : Converter) (mode : Mode) (n : Node) (p : Parameter) : Prop :=
  p.keywordOnly = isKeywordOnly n ∧ GivesRow c mode (bindingOf n) n p.row

theorem parameter_object (n : Node) : parameter c function (.object n) = parameterOf c n := by
  rw [parameter]
  simp only [Value.node?, orDefect, pure_bind]
  rfl

theorem parameterOf_named {name : Expr} (h : NamedBy n (bindingOf n) name) :
    parameterOf c n = do
      let default ← optionalExpr c n "default" .load
      let annotation ← optionalExpr c n "annotation" .load
      return [⟨isKeywordOnly n, name, default, annotation⟩] := by
  have hname : parameterName? n (if isKeywordOnly n then .kwOnlyParam else .param) = some name :=
    (parameterName?_eq_some_iff n _ name).2 h
  rw [parameterOf, hname]

theorem parameterOf_unnamed (h : hasName n = false) :
    parameterOf c n = do
      anomaly (.of n .unnamedParameter)
      return [] := by
  have hname : parameterName? n (if isKeywordOnly n then .kwOnlyParam else .param) = none :=
    (parameterName?_eq_none_iff n _).2 h
  rw [parameterOf, hname]

/-- A node gives its parameter, or nothing if it has no name and this may be passed over. -/
theorem result_parameterOf_iff {part : List Parameter} :
    (parameterOf c n mode).result = .ok part ↔
      (∃ p, ComesOf c mode n p ∧ part = [p]) ∨ hasName n = false ∧ mode = .permissive ∧ part = [] := by
  rcases named_or_unnamed n (bindingOf n) with ⟨name, hname⟩ | hunnamed
  · rw [parameterOf_named hname]
    simp only [result_bind_iff, result_optionalExpr_iff]
    constructor
    · rintro ⟨default, hdefault, annotation, hannotation, h⟩
      cases h
      exact .inl ⟨⟨_, name, default, annotation⟩, ⟨rfl, hname, hdefault, hannotation⟩, rfl⟩
    · rintro (⟨⟨_, other, default, annotation⟩, ⟨rfl, hother, hdefault, hannotation⟩, rfl⟩ | ⟨hunnamed, -⟩)
      · cases hname.unique hother
        exact ⟨default, hdefault, annotation, hannotation, rfl⟩
      · cases hname.hasName.symm.trans hunnamed
  · rw [parameterOf_unnamed hunnamed]
    constructor
    · intro h
      cases mode with
      | strict => cases h
      | permissive =>
        cases h
        exact .inr ⟨hunnamed, rfl, rfl⟩
    · rintro (⟨p, hp, -⟩ | ⟨-, rfl, rfl⟩)
      · cases hp.2.name.hasName.symm.trans hunnamed
      · rfl

/-- An entry fails exactly if it cannot be read. -/
theorem parameter_fails_iff :
    (∃ fault, (parameter c function entry mode).result = .error fault) ↔ Unreadable c mode entry := by
  cases entry with
  | object n =>
    rw [parameter_object, fails_iff]
    simp only [ne_eq, result_parameterOf_iff]
    constructor
    · intro hnone
      rcases named_or_unnamed n (bindingOf n) with ⟨name, hname⟩ | hunnamed
      · by_contra hreadable
        have hgives : ∀ field ∈ ["default", "annotation"], ∃ o, FieldGives c mode n field o := by
          intro field hfield
          by_contra hunfit
          exact hreadable (.unfit hname.hasName hfield (not_exists.1 hunfit))
        obtain ⟨default, hdefault⟩ := hgives "default" (by decide)
        obtain ⟨ annotation, hannotation⟩ := hgives "annotation" (by decide)
        exact hnone _ (.inl ⟨⟨_, name, default, annotation⟩, ⟨rfl, hname, hdefault, hannotation⟩, rfl⟩)
      · cases mode with
        | strict => exact .unnamed hunnamed rfl
        | permissive => exact absurd (.inr ⟨hunnamed, rfl, rfl⟩) (hnone [])
    · rintro (hnode | ⟨hnamed, hfield, hunfit⟩ | ⟨hunnamed, hstrict⟩) part (⟨p, hp, -⟩ | ⟨hnone, hpermissive, -⟩)
      · cases hnode
      · cases hnode
      · simp only [List.mem_cons, List.not_mem_nil, or_false] at hfield
        rcases hfield with rfl | rfl
        · exact hunfit _ hp.2.default
        · exact hunfit _ <| GivesRow.annotation hp.2
      · cases hnamed.symm.trans hnone
      · cases hp.2.name.hasName.symm.trans hunnamed
      · cases hstrict.symm.trans hpermissive
  | _ => exact iff_of_true ⟨_, rfl⟩ (.notANode rfl)

/-- What is noted on an entry that does not fail is what is noted on its parameter. -/
theorem notes_parameterOf {part : List Parameter} (h : (parameterOf c n .permissive).result = .ok part) :
    (parameterOf c n .permissive).notes = parameterNotes c n := by
  unfold parameterNotes
  rcases named_or_unnamed n (bindingOf n) with ⟨name, hname⟩ | hunnamed
  · rw [parameterOf_named hname] at h ⊢
    obtain ⟨default, hdefault, h⟩ := result_bind_iff.1 h
    obtain ⟨ annotation, hannotation, -⟩ := result_bind_iff.1 h
    rw [if_pos hname.hasName, outcome_bind, hdefault]
    simp only [outcome_bind, hannotation]
    simp [notes_optionalExpr]
  · rw [parameterOf_unnamed hunnamed, hunnamed]
    rfl

/-! ## All entries -/

/-- The parameters that a list gives are those of its named nodes, one by one. -/
theorem forall₂_namedNodes {parts : List (List Parameter)}
    (h : List.Forall₂ (fun entry part => (parameter c function entry mode).result = .ok part) entries parts) :
    List.Forall₂ (ComesOf c mode) (namedNodes entries) parts.flatten := by
  induction h with
  | nil => exact .nil
  | @cons entry part entries parts hpart hparts ih =>
    cases entry with
    | object n =>
      rw [parameter_object] at hpart
      rcases result_parameterOf_iff.1 hpart with ⟨p, hp, rfl⟩ | ⟨hunnamed, -, rfl⟩
      · have hnodes : namedNodes (.object n :: entries) = n :: namedNodes entries :=
          List.filter_cons_of_pos hp.2.name.hasName
        rw [hnodes]
        exact .cons hp ih
      · have hnodes : namedNodes (.object n :: entries) = namedNodes entries :=
          List.filter_cons_of_neg (Bool.eq_false_iff.1 hunnamed)
        rw [hnodes]
        exact ih
    | _ => cases hpart

/-- Where parameters come of nodes in order, the lists of a group belong to the nodes of that group. -/
theorem columns_filter {nodes : List Node} {all : List Parameter} (keep : Bool → Bool)
    (h : List.Forall₂ (ComesOf c mode) nodes all)
    (hkeep : ∀ n, keep (isKeywordOnly n) = true → bindingOf n = b) :
    Columns c mode b (nodes.filter fun n => keep (isKeywordOnly n))
      ((all.filter fun p => keep p.keywordOnly).map Parameter.name)
      ((all.filter fun p => keep p.keywordOnly).map Parameter.default)
      ((all.filter fun p => keep p.keywordOnly).map Parameter.annotation) := by
  have hgroup : List.Forall₂ (ComesOf c mode) (nodes.filter fun n => keep (isKeywordOnly n))
      (all.filter fun p => keep p.keywordOnly) :=
    List.rel_filter (fun n p hp => by simp only [hp.1]) h
  have hbinding : ∀ n ∈ nodes.filter fun n => keep (isKeywordOnly n), bindingOf n = b :=
    fun n hn => hkeep n (List.mem_filter.1 hn).2
  refine ⟨by simp, by simp, ?_⟩
  rw [List.zip_map', List.zip_map', List.forall₂_map_right_iff]
  exact ((List.forall₂_and_left _ _).2 ⟨hbinding, hgroup⟩).imp fun n p ⟨hn, hp⟩ => hn ▸ hp.2

/-- the parameters of all entries -/
theorem parameters_eq (hargs : function.get? "args" = some (.array entries)) :
    parameters c function = do
      let all ← gather (parameter c function) entries
      return {
        args := (all.filter (!·.keywordOnly)).map Parameter.name
        defaults := (all.filter (!·.keywordOnly)).map Parameter.default
        annotations := (all.filter (!·.keywordOnly)).map Parameter.annotation
        vararg := collector? function "star_arg" .varArg
        kwarg := collector? function "starstar_arg" .kwArg
        kwonlyargs := (all.filter (·.keywordOnly)).map Parameter.name
        kwDefaults := (all.filter (·.keywordOnly)).map Parameter.default
        kwonlyAnnotations := (all.filter (·.keywordOnly)).map Parameter.annotation } := by
  have hitems : itemsField function "args" = pure entries := by
    unfold itemsField Node.present?
    rw [hargs]
    rfl
  rw [parameters, hitems, pure_bind]

theorem notes_gather_parameter {all : List Parameter}
    (h : (gather (parameter c function) entries .permissive).result = .ok all) :
    (gather (parameter c function) entries .permissive).notes =
      (entries.filterMap Value.node?).flatMap (parameterNotes c) := by
  obtain ⟨parts, hparts, -⟩ := result_gather_iff.1 h
  rw [notes_gather h]
  clear h
  induction hparts with
  | nil => rfl
  | @cons entry part entries parts hpart hparts ih =>
    cases entry with
    | object n =>
      rw [parameter_object] at hpart
      simp only [List.flatMap_cons, List.filterMap_cons, Value.node?, parameter_object, notes_parameterOf hpart, ih]
    | _ => cases hpart

/-- **Parameters are split into two groups and keep their order.** The names, the defaults and the annotations of either
group belong together item by item, and come of its named entries in the order of the document. An entry without a name
is passed over in permissive mode, with one note. The call fails exactly for an entry that cannot be read. -/
theorem parameters_partition (c : Converter) {function : Node} {entries : List Value}
    (hargs : function.get? "args" = some (.array entries)) (mode : Mode) :
    (∀ ps, (parameters c function mode).result = .ok ps →
      Columns c mode .param ((namedNodes entries).filter (!isKeywordOnly ·)) ps.args ps.defaults ps.annotations ∧
      Columns c mode .kwOnlyParam ((namedNodes entries).filter isKeywordOnly) ps.kwonlyargs ps.kwDefaults
        ps.kwonlyAnnotations ∧
      (mode = .permissive → (parameters c function mode).notes =
        (entries.filterMap Value.node?).flatMap (parameterNotes c))) ∧
    ((∃ fault, (parameters c function mode).result = .error fault) ↔
      ∃ entry ∈ entries, Unreadable c mode entry) ∧
    (∀ n, isKeywordOnly n = true ↔ ∃ v, n.get? "kw_only" = some v ∧ SaysOne v) ∧
    ∀ declarator inner, Declares declarator inner ↔ stripped declarator = inner := by
  rw [parameters_eq hargs]
  refine ⟨fun ps hps => ?_, ?_, isKeywordOnly_iff, declares_iff⟩
  · obtain ⟨all, hall, h⟩ := result_bind_iff.1 hps
    cases h
    obtain ⟨parts, hparts, rfl⟩ := result_gather_iff.1 hall
    have hnodes := forall₂_namedNodes hparts
    refine ⟨columns_filter not hnodes fun n hn => ?_, columns_filter id hnodes fun n hn => ?_, fun hmode => ?_⟩
    · exact if_neg (by simpa using hn)
    · exact if_pos hn
    · subst hmode
      rw [outcome_bind, hall]
      simpa using notes_gather_parameter hall
  · have hfails : (∃ fault, (gather (parameter c function) entries mode).result = .error fault) ↔
        ∃ entry ∈ entries, Unreadable c mode entry := by
      simp only [gather_fails_iff, parameter_fails_iff]
    rw [← hfails, outcome_bind]
    cases (gather (parameter c function) entries mode).result <;> simp

/-- an entry of this name, with more fields -/
def argument (name : String) (fields : List (String × Value)) : Node :=
  ⟨some "CArgDecl", ("declarator", declaratorNode name) :: fields⟩

/-- a function with these entries -/
def functionOf (entries : List Value) : Node := ⟨some "Def", [("args", .array entries)]⟩

/-- a parameter with a default, an entry without a name, a parameter that is passed by name only, and one without a
declared name that is named after its type -/
def mixedArguments : List Node :=
  [argument "a" [("default", nameNode "x")], argument "" [],
    argument "b" [("kw_only", .string " +01"), ("default", nameNode "y")],
    argument "" [("base_type", .object ⟨some "CSimpleBaseType", [("name", .string "int")]⟩)]]

/-- Of a mixed list, either group has its lists, with a default beside the name that it is for, and the entry without a
name is noted. A text among the entries makes the call fail. -/
theorem parameters_partition_mixed :
    (∃ ps, parameters convert (functionOf (mixedArguments.map .object)) .permissive =
        ⟨[.malformed "CArgDecl" .unnamedParameter .unknown], .ok ps⟩ ∧
      Columns convert .permissive .param [mixedArguments[0], mixedArguments[3]] ps.args ps.defaults ps.annotations ∧
      Columns convert .permissive .kwOnlyParam [mixedArguments[2]] ps.kwonlyargs ps.kwDefaults ps.kwonlyAnnotations) ∧
    (functionOf [.string "x"]).get? "args" = some (.array [.string "x"]) ∧
    ∃ fault, (parameters convert (functionOf [.string "x"]) .permissive).result = .error fault := by
  have hmixed : (functionOf (mixedArguments.map .object)).get? "args" = some (.array (mixedArguments.map .object)) := rfl
  have hstray : (functionOf [.string "x"]).get? "args" = some (.array [.string "x"]) := rfl
  refine ⟨?_, hstray, ?_⟩
  · obtain ⟨ps, hps⟩ : ∃ ps, parameters convert (functionOf (mixedArguments.map .object)) .permissive =
        ⟨[.malformed "CArgDecl" .unnamedParameter .unknown], .ok ps⟩ := ⟨_, rfl⟩
    obtain ⟨hargs, hkwonly, -⟩ := (parameters_partition convert hmixed .permissive).1 ps (by rw [hps])
    exact ⟨ps, hps, hargs, hkwonly⟩
  · exact (parameters_partition convert hstray .permissive).2.1.2 ⟨_, List.mem_cons_self, .notANode rfl⟩

end Graft.Convert
