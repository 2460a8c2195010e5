/-
What is written in the exchange format is read back.

An expression and a statement are written as a node: what kind it is, and where it is. The kind is a choice whose payload
has the parts (`readsExpr`, `readsStmt`), so that reading back comes down to the payload, which nests less deep. The
induction is on the tree, with one theorem for every sort of part and of list. What it carries is that a reader that may go
as deep as the document reads it; the depth of a part is bounded by that of the payload in every case.

- `Module.decode_encode`: a module is read back from what it is written as.
-/
import Graft.Tree.Exchange

namespace Graft.Exchange

open Document

/-! ## Leaves -/

section leaves

variable {α : Type} (decode : Value → Option α)

@[simp] theorem need_some (v : Value) : need decode (some v) = decode v := rfl

@[simp] theorem list?_array (items : List Value) : list? decode (.array items) = items.mapM decode := rfl

@[simp] theorem members?_record (names : List String) (members : List (String × Value)) :
    members? names (record members) = some (names.map fun name => members.lookup name) := by
  simp only [members?, record]
  rfl

@[simp] theorem parts?_record (names : List String) (members : List (String × Value)) :
    parts? names (record members) = some (names.map fun name => members.lookup name) := by
  rw [← members?_record]
  rfl

@[simp] theorem bool?_bool (b : Bool) : bool? (.bool b) = some b := rfl

@[simp] theorem text?_string (text : String) : (Value.string text).text? = some text := rfl

/-- What may be missing is read when it is there. -/
theorem optional_some {v : Value} {a : α} (hv : v ≠ .null) (h : decode v = some a) :
    optional decode (some v) = some (some a) := by
  cases v <;> simp_all [optional]

@[simp] theorem lookup_further {name other : String} (h : name ≠ other) (v : Value) (members : List (String × Value)) :
    List.lookup name ((other, v) :: members) = List.lookup name members := by
  have hne : (name == other) = false := by simpa using h
  simp [List.lookup_cons, hne]

end leaves

@[simp] theorem word?_word (n : UInt32) : word? (word n) = some n := by
  have h : (n.toNat : Int) < UInt32.size := by exact_mod_cast n.toNat_lt
  simp only [word, word?, Text.word?]
  rw [if_pos ⟨by omega, h⟩]
  simp

theorem decodePosition_record {line column : Value} {p : Position} (hl : word? line = some p.line)
    (hc : word? column = some p.column) : decodePosition (record [("line", line), ("column", column)]) = some p := by
  simp [decodePosition, hl, hc]

@[simp] theorem decodePosition_encode (p : Position) : decodePosition (encodePosition p) = some p :=
  decodePosition_record (word?_word p.line) (word?_word p.column)

@[simp] theorem decodeBinding_name (b : Binding) : decodeBinding (.string b.name) = some b := b.ofName?_name

@[simp] theorem decodeRole_name (r : Role) : decodeRole (.string r.name) = some r := r.ofName?_name

@[simp] theorem decodeBinaryOp_name (op : BinaryOp) : decodeBinaryOp (.string op.name) = some op := op.ofName?_name

@[simp] theorem decodeBoolOp_name (op : BoolOp) : decodeBoolOp (.string op.name) = some op := op.ofName?_name

@[simp] theorem decodeCompareOp_name (op : CompareOp) : decodeCompareOp (.string op.name) = some op := op.ofName?_name

@[simp] theorem decodeCompareOp_names (ops : List CompareOp) :
    List.mapM (decodeCompareOp ∘ fun op => Value.string op.name) ops = some ops := by
  induction ops with
  | nil => rfl
  | cons op ops ih => simp [ih]

theorem decodeToken_record {pos : Value} {t : NameToken} (hp : decodePosition pos = some t.pos) :
    decodeToken (record [("id", .string t.id), ("ctx", .string t.role.name), ("pos", pos)]) = some t := by
  simp [decodeToken, hp]

@[simp] theorem decodeToken_encode (t : NameToken) : decodeToken (encodeToken t) = some t :=
  decodeToken_record (decodePosition_encode t.pos)

@[simp] theorem decodeToken_encode? (t : Option NameToken) : optional decodeToken (some (encodeToken? t)) = some t := by
  cases t with
  | none => rfl
  | some t => exact optional_some decodeToken (by simp [encodeToken?, encodeToken, record]) (decodeToken_encode t)

theorem decodeNode_record {kind pos : Value} {name : String} {payload : Option Value} {p : Position}
    (hk : choice? kind = some (name, payload)) (hp : decodePosition pos = some p) :
    decodeNode (record [("kind", kind), ("pos", pos)]) = some (name, payload, p) := by
  simp [decodeNode, hk, hp]

@[simp] theorem decodeNode_choice (name : String) (payload : Value) (pos : Position) :
    decodeNode (node (choice name payload) pos) = some (name, some payload, pos) :=
  decodeNode_record rfl (decodePosition_encode pos)

@[simp] theorem decodeNode_string (name : String) (pos : Position) :
    decodeNode (node (.string name) pos) = some (name, none, pos) :=
  decodeNode_record rfl (decodePosition_encode pos)

/-! ## Nodes -/

theorem depth_payload {name : String} {payload : Value} {pos : Position} {d : Nat}
    (h : (node (choice name payload) pos).depth ≤ d) : ∃ k, d = k + 1 ∧ payload.depth ≤ k := by
  simp only [node, choice, record, Value.depth, depthOfFields] at h
  exact ⟨d - 1, by omega, by omega⟩

/-- To read back what an expression is written as, its payload has to be read back. -/
theorem readsExpr {e : Expr} {name : String} {payload : Value} {pos : Position}
    (he : encodeExpr e = node (choice name payload) pos)
    (h : ∀ d, payload.depth ≤ d →
      decodeExprKind (decodeExprWithin d) (decodeStmtWithin d) pos name payload = some e) (d : Nat)
    (hd : (encodeExpr e).depth ≤ d) : decodeExprWithin d (encodeExpr e) = some e := by
  rw [he] at hd ⊢
  obtain ⟨k, rfl, hk⟩ := depth_payload hd
  simpa [decodeExprWithin] using h k hk

theorem readsStmt {s : Stmt} {name : String} {payload : Value} {pos : Position} (hname : name ≠ "Pass")
    (hs : encodeStmt s = node (choice name payload) pos)
    (h : ∀ d, payload.depth ≤ d →
      decodeStmtKind (decodeExprWithin d) (decodeStmtWithin d) pos name payload = some s) (d : Nat)
    (hd : (encodeStmt s).depth ≤ d) : decodeStmtWithin d (encodeStmt s) = some s := by
  rw [hs] at hd ⊢
  obtain ⟨k, rfl, hk⟩ := depth_payload hd
  simpa [decodeStmtWithin, hname] using h k hk

theorem decodeKeyword_record {expr : Value → Option Expr} {arg value : Value} {t : NameToken} {e : Expr}
    (ha : decodeToken arg = some t) (hv : expr value = some e) :
    decodeKeyword expr (record [("arg", arg), ("value", value)]) = some ⟨t, e⟩ := by
  simp [decodeKeyword, ha, hv]

theorem decodeSuite_record {stmt : Value → Option Stmt} {body : List Value} {pos : Value} {ss : List Stmt} {p : Position}
    (hb : body.mapM stmt = some ss) (hp : decodePosition pos = some p) :
    decodeSuite stmt (record [("body", .array body), ("pos", pos)]) = some ⟨ss, p⟩ := by
  simp [decodeSuite, hb, hp]

theorem decodeDecorator_record {expr : Value → Option Expr} {func starargs kwargs pos : Value} {args keywords : List Value}
    {f : Expr} {a : CallArgs} {isCall : Bool} {p : Position} (hf : expr func = some f) (ha : args.mapM expr = some a.args)
    (hk : keywords.mapM (decodeKeyword expr) = some a.keywords)
    (hs : optional expr (some starargs) = some a.starargs) (hw : optional expr (some kwargs) = some a.kwargs)
    (hp : decodePosition pos = some p) :
    decodeDecorator expr (record
      [("func", func), ("args", .array args), ("keywords", .array keywords), ("starargs", starargs),
        ("kwargs", kwargs), ("is_call", .bool isCall), ("pos", pos)]) = some ⟨f, a, isCall, p⟩ := by
  cases a
  simp_all [decodeDecorator]

/-! ## What is written is read back

In every case the depth of the payload bounds that of each part, and the parts are read back one by one. -/

mutual

/-- An expression is read back by a reader that may go as deep as it is written. -/
theorem decode_encodeExpr : ∀ (e : Expr) (d : Nat), (encodeExpr e).depth ≤ d →
    decodeExprWithin d (encodeExpr e) = some e
  | .name .. => readsExpr rfl fun d h => by simp [decodeExprKind]
  | .num .. => readsExpr rfl fun d h => by simp [decodeExprKind]
  | .str _ _ _ segments => readsExpr rfl fun d h => by
    simp only [record, Value.depth, depthOfFields, Nat.add_one_le_iff, Nat.max_lt] at h
    simp [decodeExprKind, decode_encodeStmts segments d (by omega)]
  | .tuple _ elts _ _ => readsExpr rfl fun d h => by
    simp only [record, Value.depth, depthOfFields, Nat.add_one_le_iff, Nat.max_lt] at h
    simp [decodeExprKind, decode_encodeExprs elts d (by omega)]
  | .list _ elts _ => readsExpr rfl fun d h => by
    simp only [record, Value.depth, depthOfFields, Nat.add_one_le_iff, Nat.max_lt] at h
    simp [decodeExprKind, decode_encodeExprs elts d (by omega)]
  | .set _ elts => readsExpr rfl fun d h => by
    simp only [record, Value.depth, depthOfFields, Nat.add_one_le_iff, Nat.max_lt] at h
    simp [decodeExprKind, decode_encodeExprs elts d (by omega)]
  | .dict _ keys values => readsExpr rfl fun d h => by
    simp only [record, Value.depth, depthOfFields, Nat.add_one_le_iff, Nat.max_lt] at h
    simp [decodeExprKind, decode_encodeExprs keys d (by omega), decode_encodeExprs values d (by omega)]
  | .call _ func ⟨args, keywords, starargs, kwargs⟩ => readsExpr rfl fun d h => by
    simp only [record, encodeCallArgs, Value.depth, depthOfFields, Nat.add_one_le_iff, Nat.max_lt] at h
    simp [decodeExprKind, encodeCallArgs, decode_encodeExpr func d (by omega), decode_encodeExprs args d (by omega),
      decode_encodeKeywords keywords d (by omega), decode_encodeExpr? starargs d (by omega),
      decode_encodeExpr? kwargs d (by omega)]
  | .binOp _ left _ right => readsExpr rfl fun d h => by
    simp only [record, Value.depth, depthOfFields, Nat.add_one_le_iff, Nat.max_lt] at h
    simp [decodeExprKind, decode_encodeExpr left d (by omega), decode_encodeExpr right d (by omega)]
  | .boolOp _ _ values => readsExpr rfl fun d h => by
    simp only [record, Value.depth, depthOfFields, Nat.add_one_le_iff, Nat.max_lt] at h
    simp [decodeExprKind, decode_encodeExprs values d (by omega)]
  | .compare _ left ops comparators => readsExpr rfl fun d h => by
    simp only [record, Value.depth, depthOfFields, Nat.add_one_le_iff, Nat.max_lt] at h
    simp [decodeExprKind, decode_encodeExpr left d (by omega), decode_encodeExprs comparators d (by omega)]
  | .ifExp _ test body orelse => readsExpr rfl fun d h => by
    simp only [record, Value.depth, depthOfFields, Nat.add_one_le_iff, Nat.max_lt] at h
    simp [decodeExprKind, decode_encodeExpr test d (by omega), decode_encodeExpr body d (by omega),
      decode_encodeExpr orelse d (by omega)]
  | .await _ value => readsExpr rfl fun d h => by
    simp only [record, Value.depth, depthOfFields, Nat.add_one_le_iff, Nat.max_lt] at h
    simp [decodeExprKind, decode_encodeExpr value d (by omega)]
  | .yield _ value => readsExpr rfl fun d h => by
    simp only [record, Value.depth, depthOfFields, Nat.add_one_le_iff, Nat.max_lt] at h
    simp [decodeExprKind, decode_encodeExpr? value d (by omega)]
termination_by structural e => e

theorem decode_encodeKeyword : ∀ (k : Keyword) (d : Nat), (encodeKeyword k).depth ≤ d →
    decodeKeyword (decodeExprWithin d) (encodeKeyword k) = some k
  | ⟨arg, value⟩, d, h => by
    simp only [record, encodeKeyword, Value.depth, depthOfFields, Nat.add_one_le_iff, Nat.max_lt] at h
    exact decodeKeyword_record (decodeToken_encode arg) (decode_encodeExpr value d (by omega))
termination_by structural k => k

theorem decode_encodeStmt : ∀ (s : Stmt) (d : Nat), (encodeStmt s).depth ≤ d →
    decodeStmtWithin d (encodeStmt s) = some s
  | .assign _ targets value => readsStmt (by decide) rfl fun d h => by
    simp only [record, Value.depth, depthOfFields, Nat.add_one_le_iff, Nat.max_lt] at h
    simp [decodeStmtKind, decode_encodeExprs targets d (by omega), decode_encodeExpr value d (by omega)]
  | .augAssign _ target _ value => readsStmt (by decide) rfl fun d h => by
    simp only [record, Value.depth, depthOfFields, Nat.add_one_le_iff, Nat.max_lt] at h
    simp [decodeStmtKind, decode_encodeExpr target d (by omega), decode_encodeExpr value d (by omega)]
  | .expr _ value => readsStmt (by decide) rfl fun d h => by
    simp [decodeStmtKind, decode_encodeExpr value d h]
  | .pass pos => fun d h => by
    have hpos := depth_pos (encodeStmt (.pass pos))
    obtain ⟨k, rfl⟩ : ∃ k, d = k + 1 := ⟨d - 1, by omega⟩
    simp [encodeStmt, decodeStmtWithin]
  | .ifElse _ test body orelse => readsStmt (by decide) rfl fun d h => by
    simp only [record, Value.depth, depthOfFields, Nat.add_one_le_iff, Nat.max_lt] at h
    simp [decodeStmtKind, decode_encodeExpr test d (by omega), decode_encodeStmts body d (by omega),
      decode_encodeSuite? orelse d (by omega)]
  | .whileLoop _ test body orelse => readsStmt (by decide) rfl fun d h => by
    simp only [record, Value.depth, depthOfFields, Nat.add_one_le_iff, Nat.max_lt] at h
    simp [decodeStmtKind, decode_encodeExpr test d (by omega), decode_encodeStmts body d (by omega),
      decode_encodeSuite? orelse d (by omega)]
  | .forLoop _ target iter body orelse _ => readsStmt (by decide) rfl fun d h => by
    simp only [record, Value.depth, depthOfFields, Nat.add_one_le_iff, Nat.max_lt] at h
    simp [decodeStmtKind, decode_encodeExpr target d (by omega), decode_encodeExpr iter d (by omega),
      decode_encodeStmts body d (by omega), decode_encodeSuite? orelse d (by omega)]
  | .assertion _ test msg => readsStmt (by decide) rfl fun d h => by
    simp only [record, Value.depth, depthOfFields, Nat.add_one_le_iff, Nat.max_lt] at h
    simp [decodeStmtKind, decode_encodeExpr test d (by omega), decode_encodeExpr? msg d (by omega)]
  | .ret _ value => readsStmt (by decide) rfl fun d h => by
    simp only [record, Value.depth, depthOfFields, Nat.add_one_le_iff, Nat.max_lt] at h
    simp [decodeStmtKind, decode_encodeExpr? value d (by omega)]
  | .functionDef _ name params body decorators _ => readsStmt (by decide) rfl fun d h => by
    simp only [record, Value.depth, depthOfFields, Nat.add_one_le_iff, Nat.max_lt] at h
    simp [decodeStmtKind, decode_encodeParameters params d (by omega), decode_encodeStmts body d (by omega),
      decode_encodeDecorators decorators d (by omega)]
  | .classDef _ name bases body decorators => readsStmt (by decide) rfl fun d h => by
    simp only [record, Value.depth, depthOfFields, Nat.add_one_le_iff, Nat.max_lt] at h
    simp [decodeStmtKind, decode_encodeExprs bases d (by omega), decode_encodeStmts body d (by omega),
      decode_encodeDecorators decorators d (by omega)]
termination_by structural s => s

theorem decode_encodeSuite : ∀ (s : Suite) (d : Nat), (encodeSuite s).depth ≤ d →
    decodeSuite (decodeStmtWithin d) (encodeSuite s) = some s
  | ⟨body, _⟩, d, h => by
    simp only [record, encodeSuite, Value.depth, depthOfFields, Nat.add_one_le_iff, Nat.max_lt] at h
    exact decodeSuite_record (decode_encodeStmts body d (by omega)) (decodePosition_encode _)
termination_by structural s => s

theorem decode_encodeDecorator : ∀ (x : Decorator) (d : Nat), (encodeDecorator x).depth ≤ d →
    decodeDecorator (decodeExprWithin d) (encodeDecorator x) = some x
  | ⟨func, ⟨args, keywords, starargs, kwargs⟩, _, _⟩, d, h => by
    simp only [record, encodeDecorator, encodeCallArgs, Value.depth, depthOfFields, List.cons_append, List.nil_append,
      Nat.add_one_le_iff, Nat.max_lt] at h
    exact decodeDecorator_record (decode_encodeExpr func d (by omega)) (decode_encodeExprs args d (by omega))
      (decode_encodeKeywords keywords d (by omega)) (decode_encodeExpr? starargs d (by omega))
      (decode_encodeExpr? kwargs d (by omega)) (decodePosition_encode _)
termination_by structural x => x

theorem decode_encodeParameters : ∀ (p : Parameters) (d : Nat), (encodeParameters p).depth ≤ d →
    decodeParameters (decodeExprWithin d) (encodeParameters p) = some p
  | ⟨args, defaults, annotations, vararg, kwarg, kwonlyargs, kwDefaults, kwonlyAnnotations⟩, d, h => by
    simp only [record, encodeParameters, Value.depth, depthOfFields, Nat.add_one_le_iff, Nat.max_lt] at h
    simp [decodeParameters, encodeParameters, decode_encodeExprs args d (by omega),
      decode_encodeOptions defaults d (by omega), decode_encodeOptions annotations d (by omega),
      decode_encodeExprs kwonlyargs d (by omega), decode_encodeOptions kwDefaults d (by omega),
      decode_encodeOptions kwonlyAnnotations d (by omega)]
termination_by structural p => p

theorem decode_encodeExprs : ∀ (es : List Expr) (d : Nat), depthOfItems (encodeExprs es) ≤ d →
    (encodeExprs es).mapM (decodeExprWithin d) = some es
  | [], _, _ => rfl
  | e :: es, d, h => by
    simp only [encodeExprs, depthOfItems] at h
    simp [encodeExprs, decode_encodeExpr e d (by omega), decode_encodeExprs es d (by omega)]
termination_by structural es => es

theorem decode_encodeExpr? : ∀ (e : Option Expr) (d : Nat), (encodeExpr? e).depth ≤ d →
    optional (decodeExprWithin d) (some (encodeExpr? e)) = some e
  | none, _, _ => rfl
  | some e, d, h => optional_some _ (by cases e <;> simp [encodeExpr?, encodeExpr, node, record]) (decode_encodeExpr e d h)
termination_by structural e => e

theorem decode_encodeOptions : ∀ (es : List (Option Expr)) (d : Nat), depthOfItems (encodeOptions es) ≤ d →
    (encodeOptions es).mapM (nullable (decodeExprWithin d)) = some es
  | [], _, _ => rfl
  | e :: es, d, h => by
    simp only [encodeOptions, depthOfItems] at h
    simp [encodeOptions, nullable, decode_encodeExpr? e d (by omega), decode_encodeOptions es d (by omega)]
termination_by structural es => es

theorem decode_encodeKeywords : ∀ (ks : List Keyword) (d : Nat), depthOfItems (encodeKeywords ks) ≤ d →
    (encodeKeywords ks).mapM (decodeKeyword (decodeExprWithin d)) = some ks
  | [], _, _ => rfl
  | k :: ks, d, h => by
    simp only [encodeKeywords, depthOfItems] at h
    simp [encodeKeywords, decode_encodeKeyword k d (by omega), decode_encodeKeywords ks d (by omega)]
termination_by structural ks => ks

theorem decode_encodeStmts : ∀ (ss : List Stmt) (d : Nat), depthOfItems (encodeStmts ss) ≤ d →
    (encodeStmts ss).mapM (decodeStmtWithin d) = some ss
  | [], _, _ => rfl
  | s :: ss, d, h => by
    simp only [encodeStmts, depthOfItems] at h
    simp [encodeStmts, decode_encodeStmt s d (by omega), decode_encodeStmts ss d (by omega)]
termination_by structural ss => ss

theorem decode_encodeSuite? : ∀ (s : Option Suite) (d : Nat), (encodeSuite? s).depth ≤ d →
    optional (decodeSuite (decodeStmtWithin d)) (some (encodeSuite? s)) = some s
  | none, _, _ => rfl
  | some s, d, h => optional_some _ (by cases s; simp [encodeSuite?, encodeSuite, record]) (decode_encodeSuite s d h)
termination_by structural s => s

theorem decode_encodeDecorators : ∀ (ds : List Decorator) (d : Nat), depthOfItems (encodeDecorators ds) ≤ d →
    (encodeDecorators ds).mapM (decodeDecorator (decodeExprWithin d)) = some ds
  | [], _, _ => rfl
  | x :: ds, d, h => by
    simp only [encodeDecorators, depthOfItems] at h
    simp [encodeDecorators, decode_encodeDecorator x d (by omega), decode_encodeDecorators ds d (by omega)]
termination_by structural ds => ds

end

end Graft.Exchange

namespace Graft.Module

open Document Exchange

/-- A module is read back from what it is written as, however deep it nests. -/
theorem decode_encode (m : Module) : decode m.encode = some m := by
  have hbody : (encodeStmts m.body).mapM (decodeStmtWithin m.encode.depth) = some m.body := by
    apply decode_encodeStmts
    simp only [encode, record, Value.depth, depthOfFields]
    omega
  have hparts : parts? ["body"] m.encode = some [some (.array (encodeStmts m.body))] := by
    simp [encode]
  simp [decode, hparts, hbody]

end Graft.Module
