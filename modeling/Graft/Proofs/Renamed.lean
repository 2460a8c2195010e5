/-
A walk that renames changes identifiers and nothing else.

The exchange format writes the identifier of a name, and of a name token, under `id`, and nothing else under that name. So
what becomes of a module under `Edit.rename` can be said of its document: `Value.mapIds` applies a function to the texts
under `id`, at any depth, and leaves the rest of the document alone.

- `Module.encode_rename`: the document of a renamed module is that of the module with the function applied to its
  identifiers.
- `Module.edit_edit`: two edits, one after the other, are one edit; so two renamings compose.
- `Module.traversal`: a walk is a traversal: this, together with what it meets (`Module.recorded_encode`).

Each of the first two is one induction over all sorts of nodes and lists at once, with one case for each constructor.
-/
import Graft.Proofs.Enumerated

namespace Graft.Document

mutual

/-- the value with a function applied to each text that is a member `id` -/
def Value.mapIds (f : String → String) : Value → Value
  | .array items => .array (mapIdsOfItems f items)
  | .object ⟨tag, fields⟩ => .object ⟨tag, mapIdsOfFields f fields⟩
  | v => v
termination_by structural v => v

def mapIdsOfItems (f : String → String) : List Value → List Value
  | [] => []
  | v :: vs => v.mapIds f :: mapIdsOfItems f vs
termination_by structural vs => vs

def mapIdsOfFields (f : String → String) : List (String × Value) → List (String × Value)
  | [] => []
  | ("id", .string text) :: fields => ("id", .string (f text)) :: mapIdsOfFields f fields
  | (name, v) :: fields => (name, v.mapIds f) :: mapIdsOfFields f fields
termination_by structural fields => fields

end

end Graft.Document

namespace Graft

open Document Exchange

variable (f : String → String)

@[simp] theorem rename_pos (part : Part) (pos : Position) : (Edit.rename f).pos part pos = pos := rfl

@[simp] theorem rename_name (id : String) : (Edit.rename f).name id = f id := rfl

@[simp] theorem mapIds_null : Value.null.mapIds f = .null := rfl

@[simp] theorem mapIds_bool (b : Bool) : (Value.bool b).mapIds f = .bool b := rfl

@[simp] theorem mapIds_string (text : String) : (Value.string text).mapIds f = .string text := rfl

@[simp] theorem mapIds_array (items : List Value) : (Value.array items).mapIds f = .array (mapIdsOfItems f items) := rfl

@[simp] theorem mapIds_record (members : List (String × Value)) :
    (record members).mapIds f = record (mapIdsOfFields f members) := rfl

@[simp] theorem mapIdsOfFields_nil : mapIdsOfFields f [] = [] := rfl

@[simp] theorem mapIdsOfFields_id (text : String) (fields : List (String × Value)) :
    mapIdsOfFields f (("id", .string text) :: fields) = ("id", .string (f text)) :: mapIdsOfFields f fields := rfl

@[simp] theorem mapIdsOfFields_cons {name : String} (h : name ≠ "id") (v : Value) (fields : List (String × Value)) :
    mapIdsOfFields f ((name, v) :: fields) = (name, v.mapIds f) :: mapIdsOfFields f fields := by
  rw [mapIdsOfFields]
  rintro _ hname
  exact absurd hname h

@[simp] theorem mapIds_choice {name : String} (h : name ≠ "id") (payload : Value) :
    (choice name payload).mapIds f = choice name (payload.mapIds f) := by
  simp [choice, h]

@[simp] theorem mapIds_position (p : Position) : (encodePosition p).mapIds f = encodePosition p := by
  simp [encodePosition, word, Value.mapIds]

theorem mapIds_operators {α : Type} (name : α → String) (ops : List α) :
    mapIdsOfItems f (ops.map fun op => .string (name op)) = ops.map fun op => .string (name op) := by
  induction ops with
  | nil => rfl
  | cons op ops ih => simp [mapIdsOfItems, ih]

@[simp] theorem mapIds_node (kind : Value) (pos : Position) :
    (Exchange.node kind pos).mapIds f = Exchange.node (kind.mapIds f) pos := by
  simp [Exchange.node]

theorem encodeToken_rename (t : NameToken) : encodeToken (t.edit (.rename f)) = (encodeToken t).mapIds f := by
  simp [encodeToken, NameToken.edit]

theorem encodeToken?_rename (t : Option NameToken) :
    encodeToken? (t.map (·.edit (.rename f))) = (encodeToken? t).mapIds f := by
  cases t with
  | none => rfl
  | some t => exact encodeToken_rename f t

/-! ## The document of a renamed tree -/

mutual

theorem encodeExpr_rename : ∀ e : Expr, encodeExpr (e.edit (.rename f)) = (encodeExpr e).mapIds f
  | .name .. => by simp [Expr.edit, encodeExpr]
  | .num .. => by simp [Expr.edit, encodeExpr]
  | .str _ _ _ segments => by simp [Expr.edit, encodeExpr, encodeStmts_rename segments]
  | .tuple _ elts _ _ => by simp [Expr.edit, encodeExpr, encodeExprs_rename elts]
  | .list _ elts _ => by simp [Expr.edit, encodeExpr, encodeExprs_rename elts]
  | .set _ elts => by simp [Expr.edit, encodeExpr, encodeExprs_rename elts]
  | .dict _ keys values => by simp [Expr.edit, encodeExpr, encodeExprs_rename keys, encodeExprs_rename values]
  | .call _ func args => by simp [Expr.edit, encodeExpr, encodeExpr_rename func, encodeCallArgs_rename args]
  | .binOp _ left _ right => by simp [Expr.edit, encodeExpr, encodeExpr_rename left, encodeExpr_rename right]
  | .boolOp _ _ values => by simp [Expr.edit, encodeExpr, encodeExprs_rename values]
  | .compare _ left _ comparators => by
    simp [Expr.edit, encodeExpr, mapIds_operators, encodeExpr_rename left, encodeExprs_rename comparators]
  | .ifExp _ test body orelse => by
    simp [Expr.edit, encodeExpr, encodeExpr_rename test, encodeExpr_rename body, encodeExpr_rename orelse]
  | .await _ value => by simp [Expr.edit, encodeExpr, encodeExpr_rename value]
  | .yield _ value => by simp [Expr.edit, encodeExpr, encodeExpr?_rename value]
termination_by structural e => e

theorem encodeCallArgs_rename :
    ∀ a : CallArgs, encodeCallArgs (a.edit (.rename f)) = mapIdsOfFields f (encodeCallArgs a)
  | ⟨args, keywords, starargs, kwargs⟩ => by
    simp [CallArgs.edit, encodeCallArgs, encodeExprs_rename args, encodeKeywords_rename keywords,
      encodeExpr?_rename starargs, encodeExpr?_rename kwargs]
termination_by structural a => a

theorem encodeKeyword_rename : ∀ k : Keyword, encodeKeyword (k.edit (.rename f)) = (encodeKeyword k).mapIds f
  | ⟨arg, value⟩ => by simp [Keyword.edit, encodeKeyword, encodeToken_rename, encodeExpr_rename value]
termination_by structural k => k

theorem encodeStmt_rename : ∀ s : Stmt, encodeStmt (s.edit (.rename f)) = (encodeStmt s).mapIds f
  | .assign _ targets value => by simp [Stmt.edit, encodeStmt, encodeExprs_rename targets, encodeExpr_rename value]
  | .augAssign _ target _ value => by
    simp [Stmt.edit, encodeStmt, encodeExpr_rename target, encodeExpr_rename value]
  | .expr _ value => by simp [Stmt.edit, encodeStmt, encodeExpr_rename value]
  | .pass _ => by simp [Stmt.edit, encodeStmt]
  | .ifElse _ test body orelse => by
    simp [Stmt.edit, encodeStmt, encodeExpr_rename test, encodeStmts_rename body, encodeSuite?_rename orelse]
  | .whileLoop _ test body orelse => by
    simp [Stmt.edit, encodeStmt, encodeExpr_rename test, encodeStmts_rename body, encodeSuite?_rename orelse]
  | .forLoop _ target iter body orelse _ => by
    simp [Stmt.edit, encodeStmt, encodeExpr_rename target, encodeExpr_rename iter, encodeStmts_rename body,
      encodeSuite?_rename orelse]
  | .assertion _ test msg => by simp [Stmt.edit, encodeStmt, encodeExpr_rename test, encodeExpr?_rename msg]
  | .ret _ value => by simp [Stmt.edit, encodeStmt, encodeExpr?_rename value]
  | .functionDef _ name params body decorators _ => by
    simp [Stmt.edit, encodeStmt, encodeToken_rename, encodeParameters_rename params, encodeStmts_rename body,
      encodeDecorators_rename decorators]
  | .classDef _ name bases body decorators => by
    simp [Stmt.edit, encodeStmt, encodeToken_rename, encodeExprs_rename bases, encodeStmts_rename body,
      encodeDecorators_rename decorators]
termination_by structural s => s

theorem encodeSuite_rename : ∀ s : Suite, encodeSuite (s.edit (.rename f)) = (encodeSuite s).mapIds f
  | ⟨body, _⟩ => by simp [Suite.edit, encodeSuite, encodeStmts_rename body]
termination_by structural s => s

theorem encodeDecorator_rename : ∀ d : Decorator, encodeDecorator (d.edit (.rename f)) = (encodeDecorator d).mapIds f
  | ⟨func, ⟨args, keywords, starargs, kwargs⟩, _, _⟩ => by
    simp [Decorator.edit, CallArgs.edit, encodeDecorator, encodeCallArgs, encodeExpr_rename func,
      encodeExprs_rename args, encodeKeywords_rename keywords, encodeExpr?_rename starargs, encodeExpr?_rename kwargs]
termination_by structural d => d

theorem encodeParameters_rename :
    ∀ p : Parameters, encodeParameters (p.edit (.rename f)) = (encodeParameters p).mapIds f
  | ⟨args, defaults, annotations, vararg, kwarg, kwonlyargs, kwDefaults, kwonlyAnnotations⟩ => by
    simp [Parameters.edit, encodeParameters, encodeToken?_rename, encodeExprs_rename args,
      encodeOptions_rename defaults, encodeOptions_rename annotations, encodeExprs_rename kwonlyargs,
      encodeOptions_rename kwDefaults, encodeOptions_rename kwonlyAnnotations]
termination_by structural p => p

theorem encodeExprs_rename :
    ∀ es : List Expr, encodeExprs (exprsEdit (.rename f) es) = mapIdsOfItems f (encodeExprs es)
  | [] => rfl
  | e :: es => by simp [exprsEdit, encodeExprs, mapIdsOfItems, encodeExpr_rename e, encodeExprs_rename es]
termination_by structural es => es

theorem encodeExpr?_rename : ∀ e : Option Expr, encodeExpr? (exprEdit? (.rename f) e) = (encodeExpr? e).mapIds f
  | none => rfl
  | some e => encodeExpr_rename e
termination_by structural e => e

theorem encodeOptions_rename :
    ∀ es : List (Option Expr), encodeOptions (optionsEdit (.rename f) es) = mapIdsOfItems f (encodeOptions es)
  | [] => rfl
  | e :: es => by simp [optionsEdit, encodeOptions, mapIdsOfItems, encodeExpr?_rename e, encodeOptions_rename es]
termination_by structural es => es

theorem encodeKeywords_rename :
    ∀ ks : List Keyword, encodeKeywords (keywordsEdit (.rename f) ks) = mapIdsOfItems f (encodeKeywords ks)
  | [] => rfl
  | k :: ks => by simp [keywordsEdit, encodeKeywords, mapIdsOfItems, encodeKeyword_rename k, encodeKeywords_rename ks]
termination_by structural ks => ks

theorem encodeStmts_rename :
    ∀ ss : List Stmt, encodeStmts (stmtsEdit (.rename f) ss) = mapIdsOfItems f (encodeStmts ss)
  | [] => rfl
  | s :: ss => by simp [stmtsEdit, encodeStmts, mapIdsOfItems, encodeStmt_rename s, encodeStmts_rename ss]
termination_by structural ss => ss

theorem encodeSuite?_rename : ∀ s : Option Suite, encodeSuite? (suiteEdit? (.rename f) s) = (encodeSuite? s).mapIds f
  | none => rfl
  | some s => encodeSuite_rename s
termination_by structural s => s

theorem encodeDecorators_rename :
    ∀ ds : List Decorator, encodeDecorators (decoratorsEdit (.rename f) ds) = mapIdsOfItems f (encodeDecorators ds)
  | [] => rfl
  | d :: ds => by
    simp [decoratorsEdit, encodeDecorators, mapIdsOfItems, encodeDecorator_rename d, encodeDecorators_rename ds]
termination_by structural ds => ds

end

/-- **Renaming changes the identifiers in the document and nothing else.** -/
theorem Module.encode_rename (m : Module) : (m.edit (.rename f)).encode = m.encode.mapIds f := by
  simp [Module.encode, Module.edit, encodeStmts_rename]

/-! ## One edit after the other -/

/-- the second edit after the first -/
def Edit.andThen (e e' : Edit) : Edit := ⟨fun part => e'.pos part ∘ e.pos part, e'.name ∘ e.name⟩

variable (e e' : Edit)

theorem NameToken.edit_edit (t : NameToken) : (t.edit e).edit e' = t.edit (e.andThen e') := rfl

mutual

theorem Expr.edit_edit : ∀ x : Expr, (x.edit e).edit e' = x.edit (e.andThen e')
  | .name .. => rfl
  | .num .. => rfl
  | .str _ _ _ segments => by simp [Expr.edit, Edit.andThen, stmtsEdit_edit segments]
  | .tuple _ elts _ _ => by simp [Expr.edit, Edit.andThen, exprsEdit_edit elts]
  | .list _ elts _ => by simp [Expr.edit, Edit.andThen, exprsEdit_edit elts]
  | .set _ elts => by simp [Expr.edit, Edit.andThen, exprsEdit_edit elts]
  | .dict _ keys values => by simp [Expr.edit, Edit.andThen, exprsEdit_edit keys, exprsEdit_edit values]
  | .call _ func args => by simp [Expr.edit, Edit.andThen, func.edit_edit, args.edit_edit]
  | .binOp _ left _ right => by simp [Expr.edit, Edit.andThen, left.edit_edit, right.edit_edit]
  | .boolOp _ _ values => by simp [Expr.edit, Edit.andThen, exprsEdit_edit values]
  | .compare _ left _ comparators => by simp [Expr.edit, Edit.andThen, left.edit_edit, exprsEdit_edit comparators]
  | .ifExp _ test body orelse => by simp [Expr.edit, Edit.andThen, test.edit_edit, body.edit_edit, orelse.edit_edit]
  | .await _ value => by simp [Expr.edit, Edit.andThen, value.edit_edit]
  | .yield _ value => by simp [Expr.edit, Edit.andThen, exprEdit?_edit value]
termination_by structural x => x

theorem CallArgs.edit_edit : ∀ a : CallArgs, (a.edit e).edit e' = a.edit (e.andThen e')
  | ⟨args, keywords, starargs, kwargs⟩ => by
    simp [CallArgs.edit, exprsEdit_edit args, keywordsEdit_edit keywords, exprEdit?_edit starargs,
      exprEdit?_edit kwargs]
termination_by structural a => a

theorem Keyword.edit_edit : ∀ k : Keyword, (k.edit e).edit e' = k.edit (e.andThen e')
  | ⟨_, value⟩ => by simp [Keyword.edit, NameToken.edit_edit, value.edit_edit]
termination_by structural k => k

theorem Stmt.edit_edit : ∀ s : Stmt, (s.edit e).edit e' = s.edit (e.andThen e')
  | .assign _ targets value => by simp [Stmt.edit, Edit.andThen, exprsEdit_edit targets, value.edit_edit]
  | .augAssign _ target _ value => by simp [Stmt.edit, Edit.andThen, target.edit_edit, value.edit_edit]
  | .expr _ value => by simp [Stmt.edit, Edit.andThen, value.edit_edit]
  | .pass _ => rfl
  | .ifElse _ test body orelse => by
    simp [Stmt.edit, Edit.andThen, test.edit_edit, stmtsEdit_edit body, suiteEdit?_edit orelse]
  | .whileLoop _ test body orelse => by
    simp [Stmt.edit, Edit.andThen, test.edit_edit, stmtsEdit_edit body, suiteEdit?_edit orelse]
  | .forLoop _ target iter body orelse _ => by
    simp [Stmt.edit, Edit.andThen, target.edit_edit, iter.edit_edit, stmtsEdit_edit body, suiteEdit?_edit orelse]
  | .assertion _ test msg => by simp [Stmt.edit, Edit.andThen, test.edit_edit, exprEdit?_edit msg]
  | .ret _ value => by simp [Stmt.edit, Edit.andThen, exprEdit?_edit value]
  | .functionDef _ name params body decorators _ => by
    simp [Stmt.edit, Edit.andThen, NameToken.edit_edit, params.edit_edit, stmtsEdit_edit body,
      decoratorsEdit_edit decorators]
  | .classDef _ name bases body decorators => by
    simp [Stmt.edit, Edit.andThen, NameToken.edit_edit, exprsEdit_edit bases, stmtsEdit_edit body,
      decoratorsEdit_edit decorators]
termination_by structural s => s

theorem Suite.edit_edit : ∀ s : Suite, (s.edit e).edit e' = s.edit (e.andThen e')
  | ⟨body, _⟩ => by simp [Suite.edit, Edit.andThen, stmtsEdit_edit body]
termination_by structural s => s

theorem Decorator.edit_edit : ∀ d : Decorator, (d.edit e).edit e' = d.edit (e.andThen e')
  | ⟨func, args, _, _⟩ => by simp [Decorator.edit, Edit.andThen, func.edit_edit, args.edit_edit]
termination_by structural d => d

theorem Parameters.edit_edit : ∀ p : Parameters, (p.edit e).edit e' = p.edit (e.andThen e')
  | ⟨args, defaults, annotations, vararg, kwarg, kwonlyargs, kwDefaults, kwonlyAnnotations⟩ => by
    cases vararg <;> cases kwarg <;>
      simp [Parameters.edit, NameToken.edit_edit, exprsEdit_edit args, optionsEdit_edit defaults,
        optionsEdit_edit annotations, exprsEdit_edit kwonlyargs, optionsEdit_edit kwDefaults,
        optionsEdit_edit kwonlyAnnotations]
termination_by structural p => p

theorem exprsEdit_edit : ∀ xs : List Expr, exprsEdit e' (exprsEdit e xs) = exprsEdit (e.andThen e') xs
  | [] => rfl
  | x :: xs => by simp [exprsEdit, x.edit_edit, exprsEdit_edit xs]
termination_by structural xs => xs

theorem exprEdit?_edit : ∀ x : Option Expr, exprEdit? e' (exprEdit? e x) = exprEdit? (e.andThen e') x
  | none => rfl
  | some x => by simp [exprEdit?, x.edit_edit]
termination_by structural x => x

theorem optionsEdit_edit : ∀ xs : List (Option Expr), optionsEdit e' (optionsEdit e xs) = optionsEdit (e.andThen e') xs
  | [] => rfl
  | x :: xs => by simp [optionsEdit, exprEdit?_edit x, optionsEdit_edit xs]
termination_by structural xs => xs

theorem keywordsEdit_edit : ∀ ks : List Keyword, keywordsEdit e' (keywordsEdit e ks) = keywordsEdit (e.andThen e') ks
  | [] => rfl
  | k :: ks => by simp [keywordsEdit, k.edit_edit, keywordsEdit_edit ks]
termination_by structural ks => ks

theorem stmtsEdit_edit : ∀ ss : List Stmt, stmtsEdit e' (stmtsEdit e ss) = stmtsEdit (e.andThen e') ss
  | [] => rfl
  | s :: ss => by simp [stmtsEdit, s.edit_edit, stmtsEdit_edit ss]
termination_by structural ss => ss

theorem suiteEdit?_edit : ∀ s : Option Suite, suiteEdit? e' (suiteEdit? e s) = suiteEdit? (e.andThen e') s
  | none => rfl
  | some s => by simp [suiteEdit?, s.edit_edit]
termination_by structural s => s

theorem decoratorsEdit_edit :
    ∀ ds : List Decorator, decoratorsEdit e' (decoratorsEdit e ds) = decoratorsEdit (e.andThen e') ds
  | [] => rfl
  | d :: ds => by simp [decoratorsEdit, d.edit_edit, decoratorsEdit_edit ds]
termination_by structural ds => ds

end

/-- **Two edits are one.** -/
theorem Module.edit_edit (m : Module) : (m.edit e).edit e' = m.edit (e.andThen e') :=
  congrArg Module.mk (stmtsEdit_edit e e' m.body)

/-! ## Main result -/

/-- **A walk is a traversal.** The positions that it meets are a list of the nodes of the module as the exchange format
writes them, each once and a node before its parts; they are the members `pos` of that document; and renaming on the way
changes the identifiers of names and name tokens and nothing else, so that one renaming after another is one renaming. -/
theorem Module.traversal (m : Module) :
    Lists m.encode.sites (m.marks.map fun mark => encodePosition mark.pos) ∧
      (m.marks.map fun mark => encodePosition mark.pos).Perm m.encode.positions ∧
      (∀ f, (m.edit (.rename f)).encode = m.encode.mapIds f) ∧
      ∀ f g, (m.edit (.rename f)).edit (.rename g) = m.edit (.rename (g ∘ f)) := by
  refine ⟨m.recorded_encode, m.recorded_encode.perm_positions, fun f => m.encode_rename f, ?_⟩
  intro f g
  exact m.edit_edit (.rename f) (.rename g)

end Graft
