/-
The exchange format passes over what it does not know.

A reader that respects related documents (`Respects`) gives the same for both, and nothing for `null`, so that a part it
needs may as well be left out. There is one lemma for each sort of part, and `decodeExprKind_eq` and `decodeStmtKind_eq` have
one case for each alternative. `respects_within` ties them together by induction on how deep the readers may go. Related
documents need not be equally deep, which is why there are two bounds.

- `Module.exchange_faithful`: a module is read back from what it is written as, so is the module that any document gives,
  and documents that differ by what is passed over give the same module.
-/
import Graft.Proofs.Exchanged
import Graft.Proofs.Tolerated

namespace Graft.Exchange

open Graft.Document Graft.Convert

variable {d d' : Nat}

/-! ## Readers that take related documents alike -/

/-- the readers give the same for related documents, and nothing for `null` -/
structure Respects {α : Type} (d d' : Nat) (f f' : Value → Option α) : Prop where
  null : f .null = none
  null' : f' .null = none
  same {v v' : Value} : Near d d' v v' → f v = f' v'

section Readers

variable {α : Type} {f f' : Value → Option α} {p p' : Option Value}

/-- A part that has to be there may as well be written as missing. -/
theorem need_eq (hnull : f .null = none) (p : Option Value) : need f p = f (p.getD .null) := by
  cases p with
  | none => exact hnull.symm
  | some v => rfl

theorem Respects.need (hf : Respects d d' f f') (h : Near d d' (p.getD .null) (p'.getD .null)) :
    need f p = need f' p' := by
  rw [need_eq hf.null, need_eq hf.null', hf.same h]

/-- A part that may be missing may be written as missing. -/
theorem optional_eq (f : Value → Option α) (p : Option Value) : optional f p = optional f (some (p.getD .null)) := by
  cases p <;> rfl

theorem optional_of_ne {v : Value} (h : v ≠ .null) : optional f (some v) = (f v).map some := by
  cases v with
  | null => exact absurd rfl h
  | _ => rfl

theorem Respects.optional (hf : Respects d d' f f') (h : Near d d' (p.getD .null) (p'.getD .null)) :
    optional f p = optional f' p' := by
  rw [optional_eq f, optional_eq f']
  by_cases hnull : p.getD .null = .null
  · rw [hnull, h.null_iff.1 hnull]
    rfl
  · rw [optional_of_ne hnull, optional_of_ne (mt h.null_iff.2 hnull), hf.same h]

theorem mapM_eq {items items' : List Value} (h : List.Forall₂ (Near d d') items items')
    (hf : ∀ {v v' : Value}, Near d d' v v' → f v = f' v') : items.mapM f = items'.mapM f' := by
  induction h with
  | nil => rfl
  | cons hv _ ih => rw [List.mapM_cons, List.mapM_cons, hf hv, ih]

/-- A list is read item by item. -/
theorem list?_eq (hf : ∀ {v v' : Value}, Near d d' v v' → f v = f' v') : Respects d d' (list? f) (list? f') := by
  refine ⟨rfl, rfl, fun {v v'} h => ?_⟩
  rcases rel_cases h.mono.items with ⟨hnone, hnone'⟩ | ⟨items, items', hi, hi', hitems⟩
  · have hother : ∀ (g : Value → Option α) (w : Value), w.items? = none → list? g w = none := by
      intro g w hw
      cases w with
      | array => cases hw
      | _ => rfl
    rw [hother f v hnone, hother f' v' hnone']
  · cases v <;> cases hi
    cases v' <;> cases hi'
    exact mapM_eq hitems hf

theorem Respects.list (hf : Respects d d' f f') : Respects d d' (list? f) (list? f') := list?_eq hf.same

theorem Respects.nullables (hf : Respects d d' f f') : Respects d d' (list? (nullable f)) (list? (nullable f')) := by
  apply list?_eq
  intro v v' h
  exact @Respects.optional d d' α f f' (some v) (some v') hf h

section Parts

variable {names : List String} {v v' : Value} {F F' : List (Option Value) → Option α}

theorem SameParts.bind_eq {o o' : Option (List (Option Value))} (h : SameParts d d' names o o')
    (hF : ∀ g g' : String → Option Value, NearParts d d' names g g' → F (names.map g) = F' (names.map g')) :
    o.bind F = o'.bind F' := by
  cases h with
  | none => rfl
  | some g g' hg => exact hF g g' hg

/-- What is read alike from the members of objects is read alike from the objects. -/
theorem Near.bind_members (h : Near d d' v v') (hnames : ∀ name ∈ names, name ∈ partNames)
    (hF : ∀ g g' : String → Option Value, NearParts d d' names g g' → F (names.map g) = F' (names.map g')) :
    (members? names v).bind F = (members? names v').bind F' :=
  (h.mono.members hnames).bind_eq hF

/-- What is read alike from the parts of structures is read alike from the structures. -/
theorem Near.bind_parts (h : Near d d' v v') (hdistinct : names.Nodup) (hnames : ∀ name ∈ names, name ∈ partNames)
    (hF : ∀ g g' : String → Option Value, NearParts d d' names g g' → F (names.map g) = F' (names.map g')) :
    (parts? names v).bind F = (parts? names v').bind F' :=
  (h.mono.parts hdistinct hnames).bind_eq hF

end Parts

end Readers

/-! ### Leaves -/

theorem respects_text : Respects d d' Value.text? Value.text? := ⟨rfl, rfl, fun h => h.same.parts.asText⟩

theorem respects_bool : Respects d d' bool? bool? := by
  refine ⟨rfl, rfl, fun h => ?_⟩
  cases h.same.parts <;> rfl

theorem respects_word : Respects d d' word? word? := by
  refine ⟨rfl, rfl, fun h => ?_⟩
  cases h.same.parts <;> rfl

/-- An alternative without a payload is read from its name alone. -/
theorem respects_plain {β : Type} {ofName? : String → Option β} (h : ∀ name ∉ alternatives, ofName? name = none) :
    Respects d d' (fun v => (plainChoice? v).bind ofName?) (fun v => (plainChoice? v).bind ofName?) := by
  refine ⟨rfl, rfl, fun {v v'} hnear => ?_⟩
  have hunknown : ∀ w : Value, (∀ c ∈ choice? w, c.1 ∉ alternatives) → (plainChoice? w).bind ofName? = none := by
    intro w hw
    unfold plainChoice?
    split
    · rename_i name hc
      exact h name (hw _ hc)
    · rename_i name hc
      exact h name (hw _ hc)
    · rfl
  rcases hnear.mono.choice with ⟨name, p, p', hv, hv', hp⟩ | ⟨hv, hv'⟩
  · have hplain : plainChoice? v = plainChoice? v' := by
      unfold plainChoice?
      rw [hv, hv']
      cases hp with
      | none => rfl
      | @some w w' hw =>
        by_cases hnull : w = .null
        · rw [hnull, hw.null_iff.1 hnull]
        · have hnull' := mt hw.null_iff.2 hnull
          cases w <;> cases w' <;> first | rfl | exact absurd rfl hnull | exact absurd rfl hnull'
    simp only [hplain]
  · simp only [hunknown v hv, hunknown v' hv']

theorem find?_unknown {β : Type} {all : List β} {name : β → String} (hall : ∀ b ∈ all, name b ∈ alternatives)
    (text : String) (h : text ∉ alternatives) : (all.find? fun b => name b == text) = none := by
  rw [List.find?_eq_none]
  intro b hb heq
  exact h (beq_iff_eq.1 heq ▸ hall b hb)

theorem respects_binding : Respects d d' decodeBinding decodeBinding :=
  respects_plain (find?_unknown fun b hb => by simp [alternatives, List.mem_map_of_mem hb])

theorem respects_role : Respects d d' decodeRole decodeRole :=
  respects_plain (find?_unknown fun b hb => by simp [alternatives, List.mem_map_of_mem hb])

theorem respects_binaryOp : Respects d d' decodeBinaryOp decodeBinaryOp :=
  respects_plain (find?_unknown fun b hb => by simp [alternatives, List.mem_map_of_mem hb])

theorem respects_boolOp : Respects d d' decodeBoolOp decodeBoolOp :=
  respects_plain (find?_unknown fun b hb => by simp [alternatives, List.mem_map_of_mem hb])

theorem respects_compareOp : Respects d d' decodeCompareOp decodeCompareOp :=
  respects_plain (find?_unknown fun b hb => by simp [alternatives, List.mem_map_of_mem hb])

theorem respects_position : Respects d d' decodePosition decodePosition := by
  refine ⟨rfl, rfl, fun h => h.bind_parts (by decide) (by simp [partNames]) fun g g' hg => ?_⟩
  simp only [List.map_cons, List.map_nil]
  rw [respects_word.need (hg "line" (by simp)), respects_word.need (hg "column" (by simp))]

theorem respects_token : Respects d d' decodeToken decodeToken := by
  refine ⟨rfl, rfl, fun h => h.bind_parts (by decide) (by simp [partNames]) fun g g' hg => ?_⟩
  simp only [List.map_cons, List.map_nil]
  rw [respects_text.need (hg "id" (by simp)), respects_role.need (hg "ctx" (by simp)),
    respects_position.need (hg "pos" (by simp))]

/-! ### The parts of a tree -/

section Parts

variable {expr expr' : Value → Option Expr} {stmt stmt' : Value → Option Stmt} (he : Respects d d' expr expr')
  (hs : Respects d d' stmt stmt')

include he in
theorem respects_keyword : Respects d d' (decodeKeyword expr) (decodeKeyword expr') := by
  refine ⟨rfl, rfl, fun h => h.bind_parts (by decide) (by simp [partNames]) fun g g' hg => ?_⟩
  simp only [List.map_cons, List.map_nil]
  rw [respects_token.need (hg "arg" (by simp)), he.need (hg "value" (by simp))]

include hs in
theorem respects_suite : Respects d d' (decodeSuite stmt) (decodeSuite stmt') := by
  refine ⟨rfl, rfl, fun h => h.bind_parts (by decide) (by simp [partNames]) fun g g' hg => ?_⟩
  simp only [List.map_cons, List.map_nil]
  rw [hs.list.need (hg "body" (by simp)), respects_position.need (hg "pos" (by simp))]

include he in
theorem respects_decorator : Respects d d' (decodeDecorator expr) (decodeDecorator expr') := by
  refine ⟨rfl, rfl, fun h => h.bind_parts (by decide) (by simp [partNames]) fun g g' hg => ?_⟩
  simp only [List.map_cons, List.map_nil]
  rw [he.need (hg "func" (by simp)), he.list.need (hg "args" (by simp)),
    (respects_keyword he).list.need (hg "keywords" (by simp)), he.optional (hg "starargs" (by simp)),
    he.optional (hg "kwargs" (by simp)), respects_bool.need (hg "is_call" (by simp)),
    respects_position.need (hg "pos" (by simp))]

include he in
theorem respects_parameters : Respects d d' (decodeParameters expr) (decodeParameters expr') := by
  refine ⟨rfl, rfl, fun h => h.bind_parts (by decide) (by simp [partNames]) fun g g' hg => ?_⟩
  simp only [List.map_cons, List.map_nil]
  rw [he.list.need (hg "args" (by simp)), he.nullables.need (hg "defaults" (by simp)),
    he.nullables.need (hg "annotations" (by simp)), respects_token.optional (hg "vararg" (by simp)),
    respects_token.optional (hg "kwarg" (by simp)), he.list.need (hg "kwonlyargs" (by simp)),
    he.nullables.need (hg "kw_defaults" (by simp)), he.nullables.need (hg "kwonly_annotations" (by simp))]

include he hs

/-- An expression is read alike from one alternative, the payloads of which are related. -/
theorem decodeExprKind_eq (pos : Position) (name : String) {v v' : Value} (h : Near d d' v v') :
    decodeExprKind expr stmt pos name v = decodeExprKind expr' stmt' pos name v' := by
  fun_cases decodeExprKind expr stmt pos name v with
  | case1 =>
    rw [decodeExprKind]
    refine h.bind_members (by simp [partNames]) fun g g' hg => ?_
    simp only [List.map_cons, List.map_nil]
    rw [respects_text.need (hg "id" (by simp)), respects_binding.need (hg "ctx" (by simp)),
      respects_bool.need (hg "reserved" (by simp))]
  | case2 => rw [decodeExprKind, respects_text.same h]
  | case3 =>
    rw [decodeExprKind]
    refine h.bind_parts (by decide) (by simp [partNames]) fun g g' hg => ?_
    simp only [List.map_cons, List.map_nil]
    rw [respects_text.need (hg "s" (by simp)), respects_bool.need (hg "unicode" (by simp)),
      respects_bool.need (hg "raw" (by simp)), respects_bool.need (hg "binary" (by simp)),
      respects_bool.need (hg "fstring" (by simp)), hs.list.need (hg "fstring_nodes" (by simp))]
  | case4 =>
    rw [decodeExprKind]
    refine h.bind_members (by simp [partNames]) fun g g' hg => ?_
    simp only [List.map_cons, List.map_nil]
    rw [he.list.need (hg "elts" (by simp)), respects_binding.need (hg "ctx" (by simp)),
      respects_bool.need (hg "ends_with_comma" (by simp))]
  | case5 =>
    rw [decodeExprKind]
    refine h.bind_members (by simp [partNames]) fun g g' hg => ?_
    simp only [List.map_cons, List.map_nil]
    rw [he.list.need (hg "elts" (by simp)), respects_binding.need (hg "ctx" (by simp))]
  | case6 =>
    rw [decodeExprKind]
    refine h.bind_members (by simp [partNames]) fun g g' hg => ?_
    simp only [List.map_cons, List.map_nil]
    rw [he.list.need (hg "elts" (by simp))]
  | case7 =>
    rw [decodeExprKind]
    refine h.bind_members (by simp [partNames]) fun g g' hg => ?_
    simp only [List.map_cons, List.map_nil]
    rw [he.list.need (hg "keys" (by simp)), he.list.need (hg "values" (by simp))]
  | case8 =>
    rw [decodeExprKind]
    refine h.bind_parts (by decide) (by simp [partNames]) fun g g' hg => ?_
    simp only [List.map_cons, List.map_nil]
    rw [he.need (hg "func" (by simp)), he.list.need (hg "args" (by simp)),
      (respects_keyword he).list.need (hg "keywords" (by simp)), he.optional (hg "starargs" (by simp)),
      he.optional (hg "kwargs" (by simp))]
  | case9 =>
    rw [decodeExprKind]
    refine h.bind_members (by simp [partNames]) fun g g' hg => ?_
    simp only [List.map_cons, List.map_nil]
    rw [he.need (hg "left" (by simp)), respects_binaryOp.need (hg "op" (by simp)), he.need (hg "right" (by simp))]
  | case10 =>
    rw [decodeExprKind]
    refine h.bind_members (by simp [partNames]) fun g g' hg => ?_
    simp only [List.map_cons, List.map_nil]
    rw [respects_boolOp.need (hg "op" (by simp)), he.list.need (hg "values" (by simp))]
  | case11 =>
    rw [decodeExprKind]
    refine h.bind_members (by simp [partNames]) fun g g' hg => ?_
    simp only [List.map_cons, List.map_nil]
    rw [he.need (hg "left" (by simp)), respects_compareOp.list.need (hg "ops" (by simp)),
      he.list.need (hg "comparators" (by simp))]
  | case12 =>
    rw [decodeExprKind]
    refine h.bind_members (by simp [partNames]) fun g g' hg => ?_
    simp only [List.map_cons, List.map_nil]
    rw [he.need (hg "test" (by simp)), he.need (hg "body" (by simp)), he.need (hg "orelse" (by simp))]
  | case13 =>
    rw [decodeExprKind]
    refine h.bind_members (by simp [partNames]) fun g g' hg => ?_
    simp only [List.map_cons, List.map_nil]
    rw [he.need (hg "value" (by simp))]
  | case14 =>
    rw [decodeExprKind]
    refine h.bind_members (by simp [partNames]) fun g g' hg => ?_
    simp only [List.map_cons, List.map_nil]
    rw [he.optional (hg "value" (by simp))]
  | case15 =>
    rw [decodeExprKind] <;> assumption

/-- A statement is read alike from one alternative, the payloads of which are related. -/
theorem decodeStmtKind_eq (pos : Position) (name : String) {v v' : Value} (h : Near d d' v v') :
    decodeStmtKind expr stmt pos name v = decodeStmtKind expr' stmt' pos name v' := by
  fun_cases decodeStmtKind expr stmt pos name v with
  | case1 =>
    rw [decodeStmtKind]
    refine h.bind_members (by simp [partNames]) fun g g' hg => ?_
    simp only [List.map_cons, List.map_nil]
    rw [he.list.need (hg "targets" (by simp)), he.need (hg "value" (by simp))]
  | case2 =>
    rw [decodeStmtKind]
    refine h.bind_members (by simp [partNames]) fun g g' hg => ?_
    simp only [List.map_cons, List.map_nil]
    rw [he.need (hg "target" (by simp)), respects_binaryOp.need (hg "op" (by simp)), he.need (hg "value" (by simp))]
  | case3 => rw [decodeStmtKind, he.same h]
  | case4 =>
    rw [decodeStmtKind]
    refine h.bind_members (by simp [partNames]) fun g g' hg => ?_
    simp only [List.map_cons, List.map_nil]
    rw [he.need (hg "test" (by simp)), hs.list.need (hg "body" (by simp)),
      (respects_suite hs).optional (hg "orelse" (by simp))]
  | case5 =>
    rw [decodeStmtKind]
    refine h.bind_members (by simp [partNames]) fun g g' hg => ?_
    simp only [List.map_cons, List.map_nil]
    rw [he.need (hg "test" (by simp)), hs.list.need (hg "body" (by simp)),
      (respects_suite hs).optional (hg "orelse" (by simp))]
  | case6 =>
    rw [decodeStmtKind]
    refine h.bind_members (by simp [partNames]) fun g g' hg => ?_
    simp only [List.map_cons, List.map_nil]
    rw [he.need (hg "target" (by simp)), he.need (hg "iter" (by simp)), hs.list.need (hg "body" (by simp)),
      (respects_suite hs).optional (hg "orelse" (by simp)), respects_bool.need (hg "is_async" (by simp))]
  | case7 =>
    rw [decodeStmtKind]
    refine h.bind_members (by simp [partNames]) fun g g' hg => ?_
    simp only [List.map_cons, List.map_nil]
    rw [he.need (hg "test" (by simp)), he.optional (hg "msg" (by simp))]
  | case8 =>
    rw [decodeStmtKind]
    refine h.bind_members (by simp [partNames]) fun g g' hg => ?_
    simp only [List.map_cons, List.map_nil]
    rw [he.optional (hg "value" (by simp))]
  | case9 =>
    rw [decodeStmtKind]
    refine h.bind_parts (by decide) (by simp [partNames]) fun g g' hg => ?_
    simp only [List.map_cons, List.map_nil]
    rw [respects_token.need (hg "name" (by simp)), (respects_parameters he).need (hg "args" (by simp)),
      hs.list.need (hg "body" (by simp)), (respects_decorator he).list.need (hg "decorators" (by simp)),
      respects_bool.need (hg "is_async" (by simp))]
  | case10 =>
    rw [decodeStmtKind]
    refine h.bind_parts (by decide) (by simp [partNames]) fun g g' hg => ?_
    simp only [List.map_cons, List.map_nil]
    rw [respects_token.need (hg "name" (by simp)), he.list.need (hg "bases" (by simp)),
      hs.list.need (hg "body" (by simp)), (respects_decorator he).list.need (hg "decorators" (by simp))]
  | case11 =>
    rw [decodeStmtKind] <;> assumption

end Parts

/-! ### Alternatives that are not known -/

section Unknown

variable {expr : Value → Option Expr} {stmt : Value → Option Stmt}

theorem decodeExprKind_unknown {name : String} (hname : name ∉ alternatives) (pos : Position) (v : Value) :
    decodeExprKind expr stmt pos name v = none := by
  fun_cases decodeExprKind expr stmt pos name v with
  | case15 => rfl
  | _ => exact absurd (by simp [alternatives]) hname

theorem decodeStmtKind_unknown {name : String} (hname : name ∉ alternatives) (pos : Position) (v : Value) :
    decodeStmtKind expr stmt pos name v = none := by
  fun_cases decodeStmtKind expr stmt pos name v with
  | case11 => rfl
  | _ => exact absurd (by simp [alternatives]) hname

end Unknown

/-! ### Nodes -/

/-- A node is its alternative and its position. -/
theorem decodeNode_eq {v : Value} {g : String → Option Value}
    (h : parts? ["kind", "pos"] v = some (["kind", "pos"].map g)) :
    decodeNode v = (choice? ((g "kind").getD .null)).bind fun c =>
      (need decodePosition (g "pos")).map fun pos => (c.1, c.2, pos) := by
  unfold decodeNode
  rw [h, ← need_eq (f := choice?) rfl]
  simp only [List.map_cons, List.map_nil, Option.bind_eq_bind, Option.bind_some]
  congr 1
  funext c
  cases need decodePosition (g "pos") <;> rfl

theorem decodeNode_name {v : Value} {g : String → Option Value}
    (h : parts? ["kind", "pos"] v = some (["kind", "pos"].map g))
    (hname : ∀ c ∈ choice? ((g "kind").getD .null), c.1 ∉ alternatives) :
    ∀ c ∈ decodeNode v, c.1 ∉ alternatives := by
  intro c hc
  rw [decodeNode_eq h, Option.mem_def, Option.bind_eq_some_iff] at hc
  obtain ⟨b, hb, hpos⟩ := hc
  obtain ⟨pos, -, rfl⟩ := Option.map_eq_some_iff.1 hpos
  exact hname b hb

/-- Related nodes are of one alternative at one position with payloads that are related, or of none that is known. -/
theorem Near.node {v v' : Value} (h : Near (d + 1) (d' + 1) v v') :
    (∃ name p p' pos, decodeNode v = some (name, p, pos) ∧ decodeNode v' = some (name, p', pos) ∧
        Option.Rel (Near d d') p p') ∨
      (∀ c ∈ decodeNode v, c.1 ∉ alternatives) ∧ ∀ c ∈ decodeNode v', c.1 ∉ alternatives := by
  have hparts : SameParts d d' ["kind", "pos"] (parts? ["kind", "pos"] v) (parts? ["kind", "pos"] v') :=
    h.parts (by decide) (by simp [partNames])
  generalize ho : parts? ["kind", "pos"] v = o, ho' : parts? ["kind", "pos"] v' = o' at hparts
  cases hparts with
  | none => exact .inr ⟨by simp [decodeNode, ho], by simp [decodeNode, ho']⟩
  | some g g' hg =>
    have hpos := respects_position.need (hg "pos" (by simp))
    rcases (hg "kind" (by simp)).mono.choice with ⟨name, p, p', hc, hc', hp⟩ | ⟨hc, hc'⟩
    · rw [decodeNode_eq ho, decodeNode_eq ho', hc, hc', ← hpos]
      cases need decodePosition (g "pos") with
      | none => exact .inr ⟨by simp, by simp⟩
      | some pos => exact .inl ⟨name, p, p', pos, rfl, rfl, hp⟩
    · exact .inr ⟨decodeNode_name ho hc, decodeNode_name ho' hc'⟩

theorem decodeExprWithin_null (d : Nat) : decodeExprWithin d .null = none := by
  cases d <;> rfl

theorem decodeStmtWithin_null (d : Nat) : decodeStmtWithin d .null = none := by
  cases d <;> rfl

/-- An expression of no known alternative is not read. -/
theorem exprWithin_unknown {v : Value} (h : ∀ c ∈ decodeNode v, c.1 ∉ alternatives) :
    decodeExprWithin (d + 1) v = none := by
  simp only [decodeExprWithin, Option.bind_eq_bind]
  cases hnode : decodeNode v with
  | none => rfl
  | some c =>
    obtain ⟨name, payload, pos⟩ := c
    cases payload with
    | none => rfl
    | some w => exact decodeExprKind_unknown (h _ hnode) pos w

/-- A statement of no known alternative is not read. -/
theorem stmtWithin_unknown {v : Value} (h : ∀ c ∈ decodeNode v, c.1 ∉ alternatives) :
    decodeStmtWithin (d + 1) v = none := by
  simp only [decodeStmtWithin, Option.bind_eq_bind]
  cases hnode : decodeNode v with
  | none => rfl
  | some c =>
    obtain ⟨name, payload, pos⟩ := c
    have hname : name ∉ alternatives := h _ hnode
    have hpass : name ≠ "Pass" := by
      rintro rfl
      exact hname (by simp [alternatives])
    cases payload with
    | none => simp
    | some w => simpa [hpass] using decodeStmtKind_unknown hname pos w

theorem exprWithin_eq (he : Respects d d' (decodeExprWithin d) (decodeExprWithin d'))
    (hs : Respects d d' (decodeStmtWithin d) (decodeStmtWithin d')) {v v' : Value} (h : Near (d + 1) (d' + 1) v v') :
    decodeExprWithin (d + 1) v = decodeExprWithin (d' + 1) v' := by
  rcases h.node with ⟨name, p, p', pos, hv, hv', hp⟩ | ⟨hv, hv'⟩
  · simp only [decodeExprWithin, hv, hv']
    cases hp with
    | none => rfl
    | some hw => exact decodeExprKind_eq he hs pos name hw
  · rw [exprWithin_unknown hv, exprWithin_unknown hv']

theorem stmtWithin_eq (he : Respects d d' (decodeExprWithin d) (decodeExprWithin d'))
    (hs : Respects d d' (decodeStmtWithin d) (decodeStmtWithin d')) {v v' : Value} (h : Near (d + 1) (d' + 1) v v') :
    decodeStmtWithin (d + 1) v = decodeStmtWithin (d' + 1) v' := by
  rcases h.node with ⟨name, p, p', pos, hv, hv', hp⟩ | ⟨hv, hv'⟩
  · simp only [decodeStmtWithin, hv, hv', Option.bind_eq_bind, Option.bind_some]
    cases hp with
    | none =>
      by_cases hpass : name = "Pass"
      · simp [hpass]
      · simp
    | @some w w' hw =>
      have hkind := decodeStmtKind_eq he hs pos name hw
      by_cases hpass : name = "Pass"
      · subst hpass
        by_cases hnull : w = .null
        · simp [hnull, hw.null_iff.1 hnull]
        · simpa [hnull, mt hw.null_iff.2 hnull] using hkind
      · simpa [hpass] using hkind
  · rw [stmtWithin_unknown hv, stmtWithin_unknown hv']

theorem respects_of_unread {α : Type} {f f' : Value → Option α} (hf : f .null = none) (hf' : f' .null = none)
    (h : ∀ {v v' : Value}, Near d d' v v' → v = .null ∧ v' = .null) : Respects d d' f f' := by
  refine ⟨hf, hf', fun hnear => ?_⟩
  obtain ⟨rfl, rfl⟩ := h hnear
  rw [hf, hf']

/-- How deep the reader may go makes no difference, as long as the document is no deeper. -/
theorem respects_within (d : Nat) : ∀ d', Respects d d' (decodeExprWithin d) (decodeExprWithin d') ∧
    Respects d d' (decodeStmtWithin d) (decodeStmtWithin d') := by
  induction d with
  | zero =>
    intro d'
    exact ⟨respects_of_unread rfl (decodeExprWithin_null d') Near.unread,
      respects_of_unread rfl (decodeStmtWithin_null d') Near.unread⟩
  | succ d ih =>
    intro d'
    cases d' with
    | zero =>
      have hunread : ∀ {v v' : Value}, Near (d + 1) 0 v v' → v = .null ∧ v' = .null := fun h => h.symm.unread.symm
      exact ⟨respects_of_unread rfl rfl hunread, respects_of_unread rfl rfl hunread⟩
    | succ d' =>
      obtain ⟨he, hs⟩ := ih d'
      exact ⟨⟨rfl, rfl, exprWithin_eq he hs⟩, rfl, rfl, stmtWithin_eq he hs⟩

end Graft.Exchange

namespace Graft.Module

open Graft.Document Graft.Exchange Graft.Convert

theorem decode_tolerated {v v' : Value} (h : Tolerated v v') : decode v = decode v' := by
  have hnear : Near v.depth v'.depth v v' := ⟨h, .inr (Nat.le_refl _), .inr (Nat.le_refl _)⟩
  refine hnear.bind_parts (by decide) (by simp [partNames]) fun g g' hg => ?_
  simp only [List.map_cons, List.map_nil]
  rw [(respects_within v.depth v'.depth).2.list.need (hg "body" (by simp))]

/-! ## Main result -/

/-- **The serialised tree is a faithful exchange format.** Every module is read back from what it is written as, and so is
the module that is read from any document at all. Documents that differ by members under names that no structure has, by
parts that are left out or written as missing, and by tags, in any number of places at any depth, are read as the same
module, or none of them is read. -/
theorem exchange_faithful :
    (∀ m : Module, decode m.encode = some m) ∧
      (∀ (v : Value) (m : Module), decode v = some m → decode m.encode = some m) ∧
      ∀ v v' : Value, Tolerated v v' → decode v = decode v' := by
  refine ⟨decode_encode, ?_, ?_⟩
  · intro v m _
    exact decode_encode m
  · intro v v' h
    exact decode_tolerated h

/-- `return` on line 1 -/
def returning : Module := ⟨[.ret ⟨1, 0⟩ none]⟩

/-- the statement, with nothing said of what is returned, and with a comment -/
def looseReturn : Value :=
  record [("kind", choice "Return" (record [])), ("pos", encodePosition ⟨1, 0⟩), ("comment", .string "done")]

/-- the module, with a version -/
def loose : Value := record [("version", .number (.int 2)), ("body", .array [looseReturn])]

/-- The loose document is read as the module, which is written in another way and read back from that. -/
theorem exchange_faithful_returning :
    Tolerated loose returning.encode ∧ decode loose = some returning ∧ decode returning.encode = some returning := by
  have hvalue : Tolerated (record []) (record [("value", .null)]) :=
    .node (@Tolerance.missing none [] [] "value" (by decide) (by decide) (by decide))
  have hkind : Tolerated (choice "Return" (record [])) (choice "Return" (record [("value", .null)])) :=
    @Anywhere.field _ none [] [] "Return" _ _ hvalue
  have hcomment : Tolerated (node (choice "Return" (record [])) ⟨1, 0⟩) looseReturn :=
    .node (@Tolerance.unknown none [_, _] [] "comment" _ (by decide) (by decide) (by decide))
  have hstmt : Tolerated looseReturn (encodeStmt (.ret ⟨1, 0⟩ none)) := by
    apply hcomment.symm.trans
    exact @Anywhere.field _ none [] [_] "kind" _ _ hkind
  have hversion : Tolerated (record [("body", .array [looseReturn])]) loose :=
    .node (@Tolerance.unknown none [] [_] "version" _ (by decide) (by decide) (by decide))
  have hdocument : Tolerated loose returning.encode := by
    apply hversion.symm.trans
    exact @Anywhere.field _ none [] [] "body" _ _ (@Anywhere.item _ [] [] _ _ hstmt)
  have hread : decode loose = some returning := by
    rw [exchange_faithful.2.2 _ _ hdocument, exchange_faithful.1 returning]
  exact ⟨hdocument, hread, exchange_faithful.2.1 loose returning hread⟩

end Graft.Module
