/-
Groups of statements do not show in the tree.

The same values may stand in a document bracketed in many ways, into lists, statement lists and blocks of external
declarations at any depth (`Brackets`). What holds them asks for statements or for expressions, and takes the values one
after the other in either case.

- `statements_brackets`: the statements that a bracketing stands for are those of its values, one value after the other,
  with the notes in that order and the same fault in strict mode.
- `brackets_transparent`: so two bracketings of the same values cannot be told apart, neither by the statements nor by
  the expressions that they stand for.

The values are not to convert to links of a comparison, which have no place in a list and are blamed on what holds them.
Nothing else can go wrong at a group itself: all that can fail is contained at the values (`contain_at`).
-/
import Graft.Proofs.Depth
import Graft.Proofs.Modes
import Graft.Proofs.Trees

namespace Graft.Convert

open Graft.Document Attempt

/-! ## Bracketings -/

/-- the field whose contents a group spreads out, by the tag of the group -/
def groupField? : String → Option String
  | "StatList" => some "stats"
  | "CDefExtern" => some "body"
  | _ => none

/-- whether a value is a list or a group -/
def spreads : Value → Bool
  | .array _ => true
  | .object node => (node.tag.bind groupField?).isSome
  | _ => false

/-- a value that holds these values in this order, bracketed into lists and groups -/
inductive Brackets : List Value → Value → Prop where
  | one {v : Value} : spreads v = false → Brackets [v] v
  | nil : Brackets [] (.array [])
  | cons {xs ys : List Value} {v : Value} {vs : List Value} : Brackets xs v → Brackets ys (.array vs) →
      Brackets (xs ++ ys) (.array (v :: vs))
  /-- a group whose field is missing or says that there is nothing -/
  | bare {node : Node} {name : String} : node.tag.bind groupField? = some name → node.present? name = none →
      Brackets [] (.object node)
  /-- a group whose field holds a list or one value, which may be a group in turn -/
  | group {xs : List Value} {node : Node} {name : String} {v : Value} : node.tag.bind groupField? = some name →
      node.get? name = some v → Brackets xs v → Brackets xs (.object node)

/-- the statements that a value stands for, the owner being what holds it -/
def statements (owner : Node) (v : Value) : Attempt (List Stmt) := do (← convert v .load).stmts owner

/-- the expressions that a value stands for -/
def expressions (owner : Node) (v : Value) : Attempt (List Expr) := do (← convert v .load).exprs owner

/-! ## Attempts in one mode -/

variable {mode : Mode}

namespace Attempt

variable {α β : Type}

/-- What comes second is to be known for the results of the first alone. -/
theorem bind_at {x x' : Attempt α} {f f' : α → Attempt β} (hx : x mode = x' mode)
    (hf : ∀ a, (x mode).result = .ok a → f a mode = f' a mode) : (x >>= f) mode = (x' >>= f') mode := by
  rw [outcome_bind, outcome_bind, ← hx]
  cases hr : (x mode).result with
  | error fault => rfl
  | ok a => simp only [hf a hr]

theorem outcome_map (g : α → β) (x : Attempt α) (mode : Mode) :
    (g <$> x) mode = ⟨(x mode).notes, (x mode).result.map g⟩ := by
  rw [map_eq_pure_bind, outcome_bind]
  cases (x mode).result with
  | error fault => rfl
  | ok a => exact congrArg (Outcome.mk · _) (List.append_nil _)

/-- There is nothing to contain in strict mode, nor where there is a result. -/
theorem contain_at {fallback : α} {x : Attempt α} (h : mode = .permissive → Lenient x) :
    contain fallback x mode = x mode := by
  cases mode with
  | permissive =>
    obtain ⟨a, ha⟩ := h rfl
    rw [outcome_contain, ha]
  | strict =>
    rw [outcome_strict, outcome_strict x, outcome_contain]
    rcases hx : x .permissive with ⟨notes, fault | a⟩
    · cases notes <;> rfl
    · rfl

theorem contain_of_result {fallback a : α} {x : Attempt α} (h : (x mode).result = .ok a) :
    contain fallback x mode = x mode := by
  refine contain_at ?_
  rintro rfl
  exact ⟨a, h⟩

end Attempt

/-! ## What is no link of a comparison -/

namespace Fragment

/-- it is no chain of links -/
def Free (f : Fragment) : Prop := ∀ first rest, f ≠ .chain first rest

theorem free_absent : Free absent := fun _ _ => nofun

theorem free_group (ps : List Piece) : Free (group ps) := fun _ _ => nofun

theorem Free.stmts_owner {f : Fragment} (hf : f.Free) (owner owner' : Node) : f.stmts owner = f.stmts owner' := by
  cases f with
  | chain first rest => exact absurd rfl (hf first rest)
  | _ => rfl

theorem Free.pieces_ok {f : Fragment} (hf : f.Free) (owner : Node) : ∃ ps, f.pieces owner = .ok ps := by
  cases f with
  | chain first rest => exact absurd rfl (hf first rest)
  | _ => exact ⟨_, rfl⟩

/-- An expression that was made a statement is taken back as it was. -/
theorem exprs_eq (owner : Node) (f : Fragment) :
    f.exprs owner = f.stmts owner >>= List.mapM fun s => Piece.toExpr owner (.stmt s) := by
  have hback (p : Piece) : Piece.toExpr owner (.stmt p.toStmt) = p.toExpr owner := by
    cases p <;> rfl
  unfold exprs stmts
  cases f.pieces owner with
  | error fault => rfl
  | ok ps =>
    show ps.mapM (Piece.toExpr owner) = (ps.map Piece.toStmt).mapM fun s => Piece.toExpr owner (.stmt s)
    rw [List.mapM_map]
    exact congrArg ps.mapM (funext fun p => (hback p).symm)

end Fragment

/-- the value does not convert to links of a comparison -/
def Unlinked (mode : Mode) (v : Value) : Prop := ∀ f, (convert v .load mode).result = .ok f → f.Free

/-- A field that is missing gives what one that says "nothing" gives. -/
theorem field_nothing {node : Node} {name : String} (h : node.present? name = none) (b : Binding) :
    field convert node name b = pure .absent := by
  unfold field
  unfold Node.present? at h
  cases hget : node.get? name with
  | none => rfl
  | some v =>
    rw [hget] at h
    have hv : v.isAbsent = true := by simpa using Option.filter_eq_none_iff.1 h v rfl
    exact convert_absent hv b

theorem convert_items (items : List Value) (b : Binding) :
    convert (.array items) b = .group <$> gather (convertItem convert b) items := convert_array items b

/-- the pieces of a field as a group -/
def spread (g : List Piece → List Piece) (node : Node) (name : String) : Attempt Fragment :=
  field convert node name .load >>= fun f => (fun ps => .group (g ps)) <$> ofExcept (f.pieces node)

/-- A group converts to the pieces of its field. A block of external declarations makes them statements first, which
makes no difference to what they are as statements. -/
theorem convert_group {node : Node} {name : String} (h : node.tag.bind groupField? = some name) (b : Binding) :
    ∃ g : List Piece → List Piece, (∀ ps, (g ps).map Piece.toStmt = ps.map Piece.toStmt) ∧
      convert (.object node) b = contain .absent (spread g node name) := by
  obtain ⟨tag, htag, hname⟩ := Option.bind_eq_some_iff.1 h
  unfold groupField? at hname
  split at hname
  · cases hname
    have hkind : node.tag.bind Kind.ofTag? = some .statList := by
      rw [htag, Option.bind_some]
      exact Kind.ofTag?_of_mem_tags (by decide)
    refine ⟨id, fun _ => rfl, ?_⟩
    rw [convert_object, convertNode_kind convert hkind]
    rfl
  · cases hname
    have hkind : node.tag.bind Kind.ofTag? = some .cDefExtern := by
      rw [htag, Option.bind_some]
      exact Kind.ofTag?_of_mem_tags (by decide)
    refine ⟨fun ps => (ps.map Piece.toStmt).map .stmt, fun ps => ?_, ?_⟩
    · rw [List.map_map]
      exact List.map_id _
    · rw [convert_object, convertNode_kind convert hkind]
      refine congrArg (contain Fragment.absent) ?_
      rw [construct, externGroup, stmtsField, bind_assoc]
      refine bind_congr fun f => ?_
      unfold Fragment.stmts
      cases f.pieces node with
      | error fault => exact fail_bind fault _
      | ok ps => rfl
  · cases hname

/-- A list or a group converts to its pieces. -/
theorem unlinked_of_spreads {v : Value} (h : spreads v = true) : Unlinked mode v := by
  have hfree {x : Attempt Fragment} (hx : Yields x Fragment.Free) (heq : convert v .load = x) : Unlinked mode v :=
    fun f hf => hx mode f (heq ▸ hf)
  cases v with
  | array items => exact hfree (yields_map Fragment.free_group) (convert_items items .load)
  | object node =>
    obtain ⟨name, hname⟩ := Option.isSome_iff_exists.1 h
    obtain ⟨g, -, hconvert⟩ := convert_group hname .load
    refine hfree (yields_contain Fragment.free_absent ?_) hconvert
    exact yields_then fun f => yields_map fun ps => Fragment.free_group _
  | _ => cases h

theorem Brackets.unlinked {xs : List Value} {v : Value} (h : Brackets xs v) (hxs : ∀ x ∈ xs, Unlinked mode x) :
    Unlinked mode v := by
  cases h with
  | one => exact hxs v (.head _)
  | nil => exact unlinked_of_spreads rfl
  | cons => exact unlinked_of_spreads rfl
  | bare htag => exact unlinked_of_spreads (by simp [spreads, htag])
  | group htag => exact unlinked_of_spreads (by simp [spreads, htag])

/-! ## One step of a bracketing -/

/-- What holds a value is blamed for links of a comparison alone. -/
theorem Unlinked.statements_owner {v : Value} (hv : Unlinked mode v) (owner owner' : Node) :
    statements owner v mode = statements owner' v mode :=
  bind_at rfl fun f hf => by rw [(hv f hf).stmts_owner owner owner']

theorem statements_array (owner : Node) (items : List Value) :
    statements owner (.array items) = List.map Piece.toStmt <$> gather (convertItem convert .load) items := by
  rw [statements, convert_items, map_eq_pure_bind, map_eq_pure_bind, bind_assoc]
  rfl

theorem Unlinked.item {v : Value} (hv : Unlinked mode v) (owner : Node) :
    statements owner v mode = (List.map Piece.toStmt <$> convertItem convert .load v) mode := by
  rw [statements, convertItem, map_eq_pure_bind, bind_assoc]
  refine bind_at rfl fun f hf => ?_
  cases f with
  | chain first rest => exact absurd rfl (hv _ hf first rest)
  | _ => rfl

theorem statements_nil (owner : Node) : statements owner (.array []) = pure [] := statements_array owner []

theorem statements_cons {v : Value} (hv : Unlinked mode v) (owner : Node) (vs : List Value) :
    statements owner (.array (v :: vs)) mode = (do
      let first ← statements owner v
      let rest ← statements owner (.array vs)
      return first ++ rest : Attempt (List Stmt)) mode := by
  have hfirst : ((do
      let first ← statements owner v
      let rest ← statements owner (.array vs)
      return first ++ rest : Attempt (List Stmt)) mode) = (do
      let first ← List.map Piece.toStmt <$> convertItem convert .load v
      let rest ← statements owner (.array vs)
      return first ++ rest : Attempt (List Stmt)) mode := bind_at (hv.item owner) fun _ _ => rfl
  rw [hfirst, statements_array, statements_array, gather]
  simp only [map_eq_pure_bind, bind_assoc, pure_bind, List.map_append]

/-- A group stands for the statements of its field: nothing that can fail is left to be contained at the group. -/
theorem statements_group {node : Node} {name : String} (h : node.tag.bind groupField? = some name)
    (hfield : Lenient (field convert node name .load))
    (hfree : ∀ f, (field convert node name .load mode).result = .ok f → f.Free) (owner : Node) :
    statements owner (.object node) mode = (field convert node name .load >>= fun f => ofExcept (f.stmts node)) mode := by
  obtain ⟨g, hg, hconvert⟩ := convert_group h .load
  have hlenient : mode = .permissive → Lenient (spread g node name) := by
    rintro rfl
    obtain ⟨f, hf⟩ := hfield
    obtain ⟨ps, hps⟩ := (hfree f hf).pieces_ok node
    refine ⟨.group (g ps), ?_⟩
    rw [spread, outcome_bind, hf]
    simp only [hps]
    rfl
  rw [statements, hconvert]
  refine (bind_at (contain_at hlenient) fun _ _ => rfl).trans ?_
  rw [spread, bind_assoc]
  refine bind_at rfl fun f hf => ?_
  obtain ⟨ps, hps⟩ := (hfree f hf).pieces_ok node
  have hstmts : f.stmts node = .ok (ps.map Piece.toStmt) := by rw [Fragment.stmts, hps]; rfl
  rw [hps, hstmts, ← hg ps]
  rfl

/-! ## Main results -/

/-- The statements of a bracketing are those of the values in it, one value after the other. -/
theorem statements_brackets {xs : List Value} {v : Value} (h : Brackets xs v) (hxs : ∀ x ∈ xs, Unlinked mode x)
    (owner owner' : Node) : statements owner v mode = gather (statements owner') xs mode := by
  induction h generalizing owner with
  | @one v _ =>
    have hone : gather (statements owner') [v] = statements owner' v := by simp [gather]
    rw [hone]
    exact (hxs v (.head _)).statements_owner owner owner'
  | nil => rw [statements_nil, gather]
  | @cons xs ys v vs hv hvs ihv ihvs =>
    obtain ⟨hxs, hys⟩ := List.forall_mem_append.1 hxs
    rw [statements_cons (hv.unlinked hxs), gather_append]
    exact bind_at (ihv hxs owner) fun first _ => bind_at (ihvs hys owner) fun rest _ => rfl
  | @bare node name htag hname =>
    have hfield := field_nothing hname .load
    rw [statements_group htag (hfield ▸ lenient_pure _) (hfield ▸ yields_pure Fragment.free_absent mode), hfield]
    rfl
  | @group xs node name v htag hget hv ih =>
    have hfield : field convert node name .load = convert v .load := by rw [field, hget]
    rw [statements_group htag (hfield ▸ lenient_convert v .load) (hfield ▸ hv.unlinked hxs), hfield]
    exact ih hxs node

/-- The expressions of a value are those of its statements. -/
theorem expressions_eq (owner : Node) (v : Value) : expressions owner v =
    statements owner v >>= fun ss => ofExcept (ss.mapM fun s => Piece.toExpr owner (.stmt s)) := by
  rw [expressions, statements, bind_assoc]
  refine bind_congr fun f => ?_
  rw [f.exprs_eq owner]
  cases f.stmts owner with
  | error fault => exact (fail_bind fault _).symm
  | ok ss => rfl

/-- **Groups of statements do not show.** However the same values are bracketed into lists, statement lists and blocks of
external declarations, they stand for the same statements, with the same notes and, in strict mode, the same fault; and
what asks for expressions gets the same ones. -/
theorem brackets_transparent {xs : List Value} {v w : Value} (hv : Brackets xs v) (hw : Brackets xs w) (c : Context)
    (hxs : ∀ x ∈ xs, ∀ first rest, ((convert x .load).run c).1 ≠ .ok (.chain first rest)) :
    (∀ owner owner', (statements owner v).run c = (statements owner' w).run c) ∧
      ∀ owner, (expressions owner v).run c = (expressions owner w).run c := by
  have hunlinked : ∀ x ∈ xs, Unlinked c.mode x := by
    intro x hx f hf first rest hchain
    refine hxs x hx first rest ?_
    rw [run_eq, hf, hchain]
  have hsame (owner owner' : Node) : statements owner v c.mode = statements owner' w c.mode :=
    (statements_brackets hv hunlinked owner owner).trans (statements_brackets hw hunlinked owner' owner).symm
  refine ⟨fun owner owner' => ?_, fun owner => ?_⟩
  · rw [run_eq, run_eq, hsame owner owner']
  · have hexprs : expressions owner v c.mode = expressions owner w c.mode := by
      rw [expressions_eq, expressions_eq]
      exact bind_at (hsame owner owner) fun _ _ => rfl
    rw [run_eq, run_eq, hexprs]

/-- a group of a tag with something in its field -/
def groupOf (tag name : String) (v : Value) : Value := .object ⟨some tag, [(name, v)]⟩

/-- `a` and then `b`, in a list of lists that ends with a group of nothing -/
def listed : Value :=
  .array [.array [nameNode "a"], groupOf "CDefExtern" "body" (nameNode "b"), .object ⟨some "StatList", []⟩]

/-- `a` and then `b`, in a statement list of a list -/
def chained : Value := groupOf "StatList" "stats" (.array [nameNode "a", nameNode "b"])

/-- The names `a` and `b` are the same two statements in either bracketing. -/
theorem brackets_transparent_names :
    Brackets [nameNode "a", nameNode "b"] listed ∧ Brackets [nameNode "a", nameNode "b"] chained ∧
      (statements ⟨none, []⟩ listed).run (.fresh .permissive) =
        (.ok [.ofExpr (.ident "a" .load .unknown), .ofExpr (.ident "b" .load .unknown)], .fresh .permissive) := by
  have hname (id : String) : Brackets [nameNode id] (nameNode id) := .one rfl
  have hlisted : Brackets [nameNode "a", nameNode "b"] listed := by
    have hfirst : Brackets [nameNode "a"] (.array [nameNode "a"]) := .cons (hname "a") .nil
    have hsecond : Brackets [nameNode "b"] (groupOf "CDefExtern" "body" (nameNode "b")) := .group rfl rfl (hname "b")
    exact .cons hfirst (.cons hsecond (.cons (.bare rfl rfl) .nil))
  have hchained : Brackets [nameNode "a", nameNode "b"] chained :=
    .group rfl rfl (.cons (hname "a") (.cons (hname "b") .nil))
  have hnames : ∀ x ∈ [nameNode "a", nameNode "b"], ∀ first rest,
      ((convert x .load).run (.fresh .permissive)).1 ≠ .ok (.chain first rest) := by
    intro x hx first rest h
    rcases List.mem_pair.1 hx with rfl | rfl <;> cases h
  refine ⟨hlisted, hchained, ?_⟩
  rw [(brackets_transparent hlisted hchained _ hnames).1 ⟨none, []⟩ ⟨none, []⟩]
  rfl

end Graft.Convert
