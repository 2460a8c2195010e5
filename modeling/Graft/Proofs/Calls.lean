/-
The spellings of a call with positional arguments only.

Such a call is a simple one with a list of arguments, or a general one with that list, or with a tuple of it
(`PositionalCall`). The constructions reach the arguments in different ways, and blame different nodes for what is no
expression; apart from that they do the same (`Together`).

- `together_callExpr`: each spelling does what the called value and the list of arguments say (`callOf`).
- `convert_calls`: the spellings are one expression, with the same notes, and one decorator; or all of them fail after
  the same notes.
-/
import Graft.Proofs.Alike
import Graft.Proofs.Clauses

namespace Graft.Convert

open Graft.Document Attempt

/-- the node is a call of a value with these positional arguments, at a position -/
inductive PositionalCall (pos : Position) (f : Value) (xs : List Value) : Node → Prop where
  | simple {node : Node} : node.tag = some "SimpleCall" → node.get? "function" = some f →
      node.get? "args" = some (.array xs) → positionOf node = pos → PositionalCall pos f xs node
  | listed {node : Node} : node.tag = some "GeneralCall" → node.get? "function" = some f →
      node.get? "positional_args" = some (.array xs) → node.present? "keyword_args" = none → positionOf node = pos →
      PositionalCall pos f xs node
  | tupled {node tuple : Node} : node.tag = some "GeneralCall" → node.get? "function" = some f →
      node.get? "positional_args" = some (.object tuple) → tuple.tag = some "Tuple" →
      tuple.get? "args" = some (.array xs) → node.present? "keyword_args" = none → positionOf node = pos →
      PositionalCall pos f xs node

/-! ## Attempts that differ in whom they blame -/

/-- a fault of which nothing is known -/
def Fault.forgotten (_ : Fault) : Fault := .unknownTag "" .unknown ""

/-- the attempts note the same, and have the same result or both none -/
def Together {α : Type} (x y : Attempt α) : Prop :=
  ∀ mode, (x mode).notes = (y mode).notes ∧ EndsAlike Fault.forgotten Eq (x mode).result (y mode).result

namespace Together

variable {α β : Type}

theorem refl (x : Attempt α) : Together x x := by
  refine fun mode => ⟨rfl, ?_⟩
  cases (x mode).result with
  | error fault => exact .error rfl
  | ok a => exact .ok rfl

theorem ofExcept {r r' : Except Fault α} (h : EndsAlike Fault.forgotten Eq r r') :
    Together (Attempt.ofExcept r) (Attempt.ofExcept r') := by
  intro mode
  cases h with
  | ok h => exact ⟨rfl, .ok h⟩
  | error h => exact ⟨rfl, .error h⟩

theorem orDefect (n n' : Node) (d : Defect) (o : Option α) :
    Together (Attempt.orDefect n d o) (Attempt.orDefect n' d o) := by
  intro mode
  cases o with
  | none => exact ⟨rfl, .error rfl⟩
  | some a => exact ⟨rfl, .ok rfl⟩

theorem bind {x y : Attempt α} {f g : α → Attempt β} (h : Together x y) (hf : ∀ a, Together (f a) (g a)) :
    Together (x >>= f) (y >>= g) := by
  intro mode
  obtain ⟨hnotes, hend⟩ := h mode
  rw [outcome_bind, outcome_bind]
  generalize (x mode).result = r, (y mode).result = r' at hend
  cases hend with
  | error hfault => exact ⟨hnotes, .error hfault⟩
  | @ok a a' heq =>
    subst heq
    obtain ⟨hrest, hlast⟩ := hf a mode
    exact ⟨by simp only [Outcome.notes_after, hnotes, hrest], hlast⟩

theorem outcome_ok {x y : Attempt α} (h : Together x y) {mode : Mode} {a : α} (hy : (y mode).result = .ok a) :
    x mode = ⟨(y mode).notes, .ok a⟩ := by
  obtain ⟨hnotes, hend⟩ := h mode
  rw [hy] at hend
  generalize hx : x mode = o at hnotes hend
  obtain ⟨notes, result⟩ := o
  cases hend with
  | ok heq => rw [heq, ← hnotes]

theorem outcome_error {x y : Attempt α} (h : Together x y) {mode : Mode} {fault : Fault}
    (hy : (y mode).result = .error fault) : ∃ fault', x mode = ⟨(y mode).notes, .error fault'⟩ := by
  obtain ⟨hnotes, hend⟩ := h mode
  rw [hy] at hend
  generalize hx : x mode = o at hnotes hend
  obtain ⟨notes, result⟩ := o
  cases hend with
  | error => exact ⟨_, by rw [← hnotes]⟩

end Together

/-! ## What is asked of a fragment does not depend on its owner -/

theorem toExpr_together (owner owner' : Node) (p : Piece) :
    EndsAlike Fault.forgotten Eq (p.toExpr owner) (p.toExpr owner') := by
  cases p with
  | expr e => exact .ok rfl
  | stmt s => cases s <;> first | exact .ok rfl | exact .error rfl

theorem expr?_together (owner owner' : Node) (f : Fragment) :
    EndsAlike Fault.forgotten Eq (f.expr? owner) (f.expr? owner') := by
  have hpiece (p : Piece) : EndsAlike Fault.forgotten Eq ((p.toExpr owner).map some) ((p.toExpr owner').map some) :=
    (toExpr_together owner owner' p).map fun _ _ h => congrArg some h
  unfold Fragment.expr?
  split
  · exact .ok rfl
  · exact hpiece _
  · exact .ok rfl
  · exact hpiece _
  · exact .error rfl
  · exact .error rfl

theorem pieces_together (owner owner' : Node) (f : Fragment) :
    EndsAlike Fault.forgotten Eq (f.pieces owner) (f.pieces owner') := by
  cases f with
  | chain first rest => exact .error rfl
  | _ => exact .ok rfl

theorem exprs_together (owner owner' : Node) (f : Fragment) :
    EndsAlike Fault.forgotten Eq (f.exprs owner) (f.exprs owner') := by
  refine (pieces_together owner owner' f).bind fun ps ps' heq => ?_
  subst heq
  have hpiece (p p' : Piece) (heq : p = p') : EndsAlike Fault.forgotten Eq (p.toExpr owner) (p'.toExpr owner') :=
    heq ▸ toExpr_together owner owner' p
  have hlist := EndsAlike.mapM (List.forall₂_same.2 fun p (_ : p ∈ ps) => rfl) hpiece
  exact hlist.imp fun es es' h => List.forall₂_eq_eq_eq ▸ h

/-! ## What a call is made of -/

/-- the value as one expression; the node is blamed if it is none -/
def called (owner : Node) (f : Value) : Attempt Expr := do
  (← (do (← convert f .load).expr? owner)) |> Attempt.orDefect owner (.noExpression "function")

/-- the call of a value with a list of arguments; one node is blamed for the value and another one for the arguments -/
def callOf (pos : Position) (f : Value) (xs : List Value) (owner list : Node) : Attempt Expr := do
  let func ← called owner f
  let args ← expressions list (.array xs)
  return .call pos func (.positional args)

theorem callOf_together (pos : Position) (f : Value) (xs : List Value) (owner owner' list list' : Node) :
    Together (callOf pos f xs owner list) (callOf pos f xs owner' list') := by
  have hcalled : Together (called owner f) (called owner' f) := by
    refine Together.bind (Together.bind (.refl _) fun g => ?_) fun o => .orDefect _ _ _ _
    exact .ofExcept (expr?_together owner owner' g)
  refine hcalled.bind fun func => ?_
  refine Together.bind (Together.bind (.refl _) fun g => ?_) fun args => .refl _
  exact .ofExcept (exprs_together list list' g)

variable {pos : Position} {f : Value} {xs : List Value} {node : Node} {mode : Mode}

theorem requiredExpr_function (h : node.get? "function" = some f) :
    requiredExpr convert node "function" .load = called node f := by
  unfold requiredExpr optionalExpr field
  rw [h]
  rfl

theorem exprsField_array {name : String} (h : node.get? name = some (.array xs)) :
    exprsField convert node name .load = expressions node (.array xs) := by
  unfold exprsField field
  rw [h]
  rfl

theorem node?_array {name : String} (h : node.get? name = some (.array xs)) : node.node? name = none := by
  rw [Node.node?, h]
  rfl

/-- Where there are no arguments that are passed by name, there is nothing more to convert. -/
theorem keywordArgs_nothing (h : node.present? "keyword_args" = none) : keywordArgs convert node = pure ([], none) := by
  have hnode : node.node? "keyword_args" = none := by
    cases hnode : node.node? "keyword_args" with
    | none => rfl
    | some m =>
      rw [Node.present?, Node.node?_eq_some.1 hnode] at h
      cases h
  unfold keywordArgs optionalExpr
  rw [hnode, field_nothing h]
  rfl

theorem generalCallExpr_of {list : Node} (hf : node.get? "function" = some f)
    (hargs : positionalArgs convert node = (·, none) <$> expressions list (.array xs))
    (hkeywords : node.present? "keyword_args" = none) (hpos : positionOf node = pos) :
    generalCallExpr convert node = callOf pos f xs node list := by
  rw [generalCallExpr, requiredExpr_function hf, hargs, keywordArgs_nothing hkeywords, hpos]
  simp only [map_eq_pure_bind, bind_assoc, pure_bind]
  rfl

/-- Each spelling is the call that its parts make, for the two nodes that it blames. -/
theorem construct_call (h : PositionalCall pos f xs node) :
    ∃ kind list, node.tag.bind Kind.ofTag? = some kind ∧
      ∀ b, construct convert node b kind = .ofExpr <$> callOf pos f xs node list := by
  cases h with
  | simple htag hf hxs hpos =>
    refine ⟨.simpleCall, node, by rw [htag]; rfl, fun b => ?_⟩
    rw [construct, simpleCallExpr, requiredExpr_function hf, exprsField_array hxs, hpos]
    rfl
  | listed htag hf hxs hkeywords hpos =>
    have hargs : positionalArgs convert node = (·, none) <$> expressions node (.array xs) := by
      unfold positionalArgs
      rw [node?_array hxs, exprsField_array hxs]
      rfl
    refine ⟨.generalCall, node, by rw [htag]; rfl, fun b => ?_⟩
    rw [construct, generalCallExpr_of hf hargs hkeywords hpos]
  | tupled htag hf htuple htupleTag hxs hkeywords hpos =>
    rename_i tuple
    have hargs : positionalArgs convert node = (·, none) <$> expressions tuple (.array xs) := by
      unfold positionalArgs
      rw [Node.node?_eq_some.2 htuple]
      simp only [Node.isTagged, htupleTag, beq_self_eq_true, if_true, exprsField_array hxs]
      rfl
    refine ⟨.generalCall, tuple, by rw [htag]; rfl, fun b => ?_⟩
    rw [construct, generalCallExpr_of hf hargs hkeywords hpos]

/-- Whom a spelling blames makes no difference but to the fault. -/
theorem convert_call (h : PositionalCall pos f xs node) : ∃ x : Attempt Expr,
    (∀ b, convert (.object node) b = contain .absent (Fragment.ofExpr <$> x)) ∧
      Together x (callOf pos f xs default default) := by
  obtain ⟨kind, list, hkind, hconstruct⟩ := construct_call h
  refine ⟨callOf pos f xs node list, fun b => ?_, callOf_together pos f xs node default list default⟩
  rw [convert_object, convertNode_kind convert hkind, hconstruct b]

/-- A call that is converted is one of what its value and its arguments are converted to. -/
theorem result_callOf {owner list : Node} {e : Expr} (h : (callOf pos f xs owner list mode).result = .ok e) :
    ∃ func args, e = .call pos func (.positional args) := by
  obtain ⟨func, -, h⟩ := result_bind_iff.1 h
  obtain ⟨args, -, h⟩ := result_bind_iff.1 h
  cases h
  exact ⟨func, args, rfl⟩

/-! ## Main result -/

theorem field_decorator {entry : Node} (h : entry.get? "decorator" = some (.object node)) :
    field convert entry "decorator" .load = convert (.object node) .load := by
  unfold field
  rw [h]

/-- A call is a decorator with its arguments. -/
theorem decorator_of_call {entry : Node} (hentry : entry.get? "decorator" = some (.object node)) {notes : List Fault}
    {func : Expr} {args : CallArgs}
    (h : convert (.object node) .load mode = ⟨notes, .ok (.ofExpr (.call pos func args))⟩) :
    decorator convert entry mode = ⟨notes, .ok [⟨func, args, true, pos⟩]⟩ := by
  have hexpr : optionalExpr convert entry "decorator" .load mode = ⟨notes, .ok (some (.call pos func args))⟩ := by
    rw [optionalExpr, field_decorator hentry, outcome_bind, h]
    exact congrArg (Outcome.mk · _) (List.append_nil notes)
  rw [decorator, outcome_bind, hexpr]
  exact congrArg (Outcome.mk · _) (List.append_nil notes)

/-- what is left of a decorator after some notes and a fault: one more note in permissive mode, and the fault in strict
mode -/
def failedDecorator (notes : List Fault) (fault : Fault) : Mode → Outcome (List Decorator)
  | .permissive => ⟨notes ++ [fault], .ok []⟩
  | .strict => ⟨notes, .error fault⟩

/-- A call that fails is no decorator. -/
theorem decorator_of_failed {entry : Node} (hentry : entry.get? "decorator" = some (.object node)) {notes : List Fault}
    {fault : Fault} (h : convert (.object node) .load mode = failedNode notes fault mode) :
    decorator convert entry mode = failedDecorator notes fault mode := by
  cases mode with
  | permissive =>
    have hexpr : optionalExpr convert entry "decorator" .load .permissive = ⟨notes ++ [fault], .ok none⟩ := by
      rw [optionalExpr, field_decorator hentry, outcome_bind, h]
      exact congrArg (Outcome.mk · _) (List.append_nil _)
    rw [decorator, outcome_bind, hexpr]
    exact congrArg (Outcome.mk · _) (List.append_nil _)
  | strict =>
    have hexpr : optionalExpr convert entry "decorator" .load .strict = ⟨notes, .error fault⟩ := by
      rw [optionalExpr, field_decorator hentry, outcome_bind, h]
      rfl
    rw [decorator, outcome_bind, hexpr]
    rfl

/-- **The spellings of a positional call agree.** Take a value, a list of arguments and a position, in either mode. The
simple call, the general call of the list and the general call of a tuple of it are converted to one call with the same
notes, in any binding, and as decorators they are one decorator with these notes; or all of them fail after the same
notes, with a fault of their own, as values and as decorators. -/
theorem convert_calls (pos : Position) (f : Value) (xs : List Value) (mode : Mode) :
    (∃ func args notes, ∀ node, PositionalCall pos f xs node →
      (∀ b, convert (.object node) b mode = ⟨notes, .ok (.ofExpr (.call pos func (.positional args)))⟩) ∧
      ∀ entry, entry.get? "decorator" = some (.object node) →
        decorator convert entry mode = ⟨notes, .ok [⟨func, .positional args, true, pos⟩]⟩) ∨
    ∃ notes, ∀ node, PositionalCall pos f xs node → ∃ fault,
      (∀ b, convert (.object node) b mode = failedNode notes fault mode) ∧
      ∀ entry, entry.get? "decorator" = some (.object node) →
        decorator convert entry mode = failedDecorator notes fault mode := by
  cases hresult : (callOf pos f xs default default mode).result with
  | ok e =>
    left
    obtain ⟨func, args, rfl⟩ := result_callOf hresult
    refine ⟨func, args, (callOf pos f xs default default mode).notes, fun node h => ?_⟩
    obtain ⟨x, hconvert, htogether⟩ := convert_call h
    have hmap : (Fragment.ofExpr <$> x) mode =
        ⟨(callOf pos f xs default default mode).notes, .ok (.ofExpr (.call pos func (.positional args)))⟩ := by
      rw [outcome_map, htogether.outcome_ok hresult]
      rfl
    have hcall (b : Binding) : convert (.object node) b mode =
        ⟨(callOf pos f xs default default mode).notes, .ok (.ofExpr (.call pos func (.positional args)))⟩ := by
      calc convert (.object node) b mode
          = contain .absent (Fragment.ofExpr <$> x) mode := by rw [hconvert b]
        _ = (Fragment.ofExpr <$> x) mode := contain_of_result (congrArg Outcome.result hmap)
        _ = _ := hmap
    exact ⟨hcall, fun entry hentry => decorator_of_call hentry (hcall .load)⟩
  | error fault =>
    right
    refine ⟨(callOf pos f xs default default mode).notes, fun node h => ?_⟩
    obtain ⟨x, hconvert, htogether⟩ := convert_call h
    obtain ⟨fault', hx⟩ := htogether.outcome_error hresult
    have hmap : (Fragment.ofExpr <$> x) mode =
        ⟨(callOf pos f xs default default mode).notes, .error fault'⟩ := by
      rw [outcome_map, hx]
      rfl
    have hcall (b : Binding) : convert (.object node) b mode =
        failedNode (callOf pos f xs default default mode).notes fault' mode := by
      calc convert (.object node) b mode
          = contain .absent (Fragment.ofExpr <$> x) mode := by rw [hconvert b]
        _ = failedNode ((Fragment.ofExpr <$> x) mode).notes fault' mode :=
            contain_of_error (congrArg Outcome.result hmap)
        _ = failedNode (callOf pos f xs default default mode).notes fault' mode := by rw [hmap]
    exact ⟨fault', hcall, fun entry hentry => decorator_of_failed hentry (hcall .load)⟩

/-- the three spellings of a call of `f` with these arguments -/
def spellings (xs : List Value) : List Node := [
  ⟨some "SimpleCall", [("function", nameNode "f"), ("args", .array xs)]⟩,
  ⟨some "GeneralCall", [("function", nameNode "f"), ("positional_args", .array xs)]⟩,
  ⟨some "GeneralCall", [("function", nameNode "f"), ("keyword_args", .null),
    ("positional_args", .object ⟨some "Tuple", [("args", .array xs)]⟩)]⟩]

/-- two arguments in a list of their own, and a node that is dropped -/
def mixedValues : List Value := [.array [nameNode "a", nameNode "b"], .object ⟨some "Lambda", []⟩]

/-- a call with its two names -/
def mixedCall : CallArgs := .positional [.ident "a" .load .unknown, .ident "b" .load .unknown]

/-- the note of its node that is dropped -/
def mixedNote : Fault := .unknown "Lambda" ⟨some "Lambda", []⟩

theorem positionalCall_spellings (xs : List Value) :
    ∀ node ∈ spellings xs, PositionalCall .unknown (nameNode "f") xs node := by
  intro node hnode
  simp only [spellings, List.mem_cons, List.not_mem_nil, or_false] at hnode
  rcases hnode with rfl | rfl | rfl
  · exact .simple rfl rfl rfl rfl
  · exact .listed rfl rfl rfl rfl rfl
  · exact .tupled rfl rfl rfl rfl rfl rfl rfl

/-- A list inside the list is spliced and an unknown node is dropped in all three; a statement fails all of them. -/
theorem convert_calls_spellings :
    (∀ node ∈ spellings mixedValues,
      convert (.object node) .load .permissive =
        ⟨[mixedNote], .ok (.ofExpr (.call .unknown (.ident "f" .load .unknown) mixedCall))⟩ ∧
      ∀ entry, entry.get? "decorator" = some (.object node) → decorator convert entry .permissive =
        ⟨[mixedNote], .ok [⟨.ident "f" .load .unknown, mixedCall, true, .unknown⟩]⟩) ∧
    ∃ notes, ∀ node ∈ spellings [passNode], ∃ fault,
      convert (.object node) .load .permissive = ⟨notes ++ [fault], .ok .absent⟩ := by
  constructor
  · have hcalls := positionalCall_spellings mixedValues
    rcases convert_calls .unknown (nameNode "f") mixedValues .permissive with ⟨func, args, notes, h⟩ | ⟨notes, h⟩
    · have hsimple := ((h _ (hcalls _ List.mem_cons_self)).1 .load).symm
      cases hsimple
      intro node hnode
      obtain ⟨hconvert, hdecorator⟩ := h node (hcalls node hnode)
      exact ⟨hconvert .load, hdecorator⟩
    · obtain ⟨fault, hsimple, -⟩ := h _ (hcalls _ List.mem_cons_self)
      cases congrArg Outcome.result (hsimple .load)
  · have hcalls := positionalCall_spellings [passNode]
    rcases convert_calls .unknown (nameNode "f") [passNode] .permissive with
      ⟨func, args, notes, h⟩ | ⟨notes, h⟩
    · cases congrArg Outcome.result ((h _ (hcalls _ List.mem_cons_self)).1 .load)
    · refine ⟨notes, fun node hnode => ?_⟩
      obtain ⟨fault, hfailed, -⟩ := h node (hcalls node hnode)
      exact ⟨fault, hfailed .load⟩

end Graft.Convert
