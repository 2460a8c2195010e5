/-
A walk meets every node that the exchange format writes.

The exchange format writes each structure with a member for each of its parts, and the position of a node under `pos`. So
it enumerates the nodes of a tree without regard to how a walk goes about it. `Value.sites` reads them off a document, as
trees: the parts of an object with a position stand below it. `Lists` says that a list takes from such trees one root
after another, the parts of a root becoming roots when it is taken: each node once, and only after what it is a part of.

- `recorded_encode`: the positions that a walk over a module meets are such a list for its document.
- `Lists.perm_positions`: such a list is made of the members `pos` of the document (`Value.positions`).

The walk goes through the parts in the order in which they are written but for the decorators of a definition, which it
meets first (`Recorded.before`).
-/
import Graft.Tree.Exchange
import Graft.Tree.Walk

namespace Graft.Document

/-! ## The nodes of a document -/

/-- a node with its position, and the nodes that are parts of it -/
inductive Site where
  | node (pos : Value) (parts : List Site)

mutual

/-- the nodes of a value that are part of no other -/
def Value.sites : Value → List Site
  | .array items => sitesOfItems items
  | .object ⟨_, fields⟩ =>
    match fields.lookup "pos" with
    | some pos => [.node pos (sitesOfFields fields)]
    | none => sitesOfFields fields
  | _ => []
termination_by structural v => v

def sitesOfItems : List Value → List Site
  | [] => []
  | v :: vs => v.sites ++ sitesOfItems vs
termination_by structural vs => vs

def sitesOfFields : List (String × Value) → List Site
  | [] => []
  | (_, v) :: fields => v.sites ++ sitesOfFields fields
termination_by structural fields => fields

end

mutual

/-- the members `pos` of the objects in a value -/
def Value.positions : Value → List Value
  | .array items => positionsOfItems items
  | .object ⟨_, fields⟩ => (fields.lookup "pos").toList ++ positionsOfFields fields
  | _ => []
termination_by structural v => v

def positionsOfItems : List Value → List Value
  | [] => []
  | v :: vs => v.positions ++ positionsOfItems vs
termination_by structural vs => vs

def positionsOfFields : List (String × Value) → List Value
  | [] => []
  | (_, v) :: fields => v.positions ++ positionsOfFields fields
termination_by structural fields => fields

end

/-! ## Taking one root after another -/

/-- a list takes the nodes from some trees, a root at each step -/
inductive Lists : List Site → List Value → Prop where
  | done : Lists [] []
  | next {before parts after : List Site} {pos : Value} {rest : List Value} :
      Lists (before ++ parts ++ after) rest → Lists (before ++ .node pos parts :: after) (pos :: rest)

namespace Lists

variable {s t : List Site} {ps qs : List Value}

theorem root {pos : Value} (h : Lists s ps) : Lists [.node pos s] (pos :: ps) := by
  apply @Lists.next [] s []
  simpa using h

/-- What stands before or after may be taken afterwards. -/
theorem append (h : Lists s ps) (h' : Lists t qs) : Lists (s ++ t) (ps ++ qs) := by
  induction h with
  | done => exact h'
  | @next before parts after pos rest _ ih =>
    rw [List.append_assoc, List.cons_append, List.cons_append]
    apply Lists.next
    simpa using ih

theorem before (h : Lists s ps) (h' : Lists t qs) : Lists (t ++ s) (ps ++ qs) := by
  induction h with
  | done => simpa using h'
  | @next before parts after pos rest _ ih =>
    rw [← List.append_assoc, List.cons_append]
    apply Lists.next
    simpa using ih

end Lists

/-! ## Each node once -/

mutual

/-- the positions of a node and of all its parts -/
def Site.positions : Site → List Value
  | .node pos parts => pos :: positionsOfSites parts

def positionsOfSites : List Site → List Value
  | [] => []
  | s :: ss => s.positions ++ positionsOfSites ss

end

theorem positionsOfSites_append (ss ts : List Site) :
    positionsOfSites (ss ++ ts) = positionsOfSites ss ++ positionsOfSites ts := by
  induction ss with
  | nil => rfl
  | cons s ss ih => rw [List.cons_append, positionsOfSites, positionsOfSites, ih, List.append_assoc]

mutual

theorem positions_sites : ∀ v : Value, positionsOfSites v.sites = v.positions
  | .array items => by rw [Value.sites, Value.positions, positions_sitesOfItems items]
  | .object ⟨_, fields⟩ => by
    rw [Value.sites, Value.positions]
    cases fields.lookup "pos" with
    | none => simpa using positions_sitesOfFields fields
    | some pos => simpa [positionsOfSites, Site.positions] using positions_sitesOfFields fields
  | .null | .bool _ | .number _ | .string _ => rfl
termination_by structural v => v

theorem positions_sitesOfItems : ∀ vs : List Value, positionsOfSites (sitesOfItems vs) = positionsOfItems vs
  | [] => rfl
  | v :: vs => by
    rw [sitesOfItems, positionsOfItems, positionsOfSites_append, positions_sites v, positions_sitesOfItems vs]
termination_by structural vs => vs

theorem positions_sitesOfFields :
    ∀ fields : List (String × Value), positionsOfSites (sitesOfFields fields) = positionsOfFields fields
  | [] => rfl
  | (_, v) :: fields => by
    rw [sitesOfFields, positionsOfFields, positionsOfSites_append, positions_sites v, positions_sitesOfFields fields]
termination_by structural fields => fields

end

theorem Lists.perm {ss : List Site} {ps : List Value} (h : Lists ss ps) : ps.Perm (positionsOfSites ss) := by
  induction h with
  | done => exact .refl _
  | @next before parts after pos rest _ ih =>
    simp only [positionsOfSites_append, positionsOfSites, Site.positions, List.cons_append, List.append_assoc] at ih ⊢
    exact (ih.cons pos).trans List.perm_middle.symm

/-- A list of the nodes of a value is made of its members `pos`. -/
theorem Lists.perm_positions {v : Value} {ps : List Value} (h : Lists v.sites ps) : ps.Perm v.positions :=
  positions_sites v ▸ h.perm

end Graft.Document

namespace Graft

open Document Exchange

/-! ## What is written, node by node -/

@[simp] theorem sites_null : Value.null.sites = [] := rfl

@[simp] theorem sites_bool (b : Bool) : (Value.bool b).sites = [] := rfl

@[simp] theorem sites_string (text : String) : (Value.string text).sites = [] := rfl

@[simp] theorem sites_array (items : List Value) : (Value.array items).sites = sitesOfItems items := rfl

@[simp] theorem sitesOfFields_cons (name : String) (v : Value) (fields : List (String × Value)) :
    sitesOfFields ((name, v) :: fields) = v.sites ++ sitesOfFields fields := rfl

@[simp] theorem sitesOfFields_nil : sitesOfFields [] = [] := rfl

@[simp] theorem sites_record {members : List (String × Value)} (h : members.lookup "pos" = none) :
    (record members).sites = sitesOfFields members := by
  rw [record, Value.sites, h]

theorem sites_record_pos {members : List (String × Value)} {pos : Value} (h : members.lookup "pos" = some pos) :
    (record members).sites = [.node pos (sitesOfFields members)] := by
  rw [record, Value.sites, h]

@[simp] theorem sites_choice {name : String} (h : name ≠ "pos") (payload : Value) :
    (choice name payload).sites = payload.sites := by
  have hne : ("pos" == name) = false := beq_eq_false_iff_ne.2 h.symm
  rw [choice, sites_record (by simp [List.lookup_cons, hne])]
  simp

@[simp] theorem sites_position (p : Position) : (encodePosition p).sites = [] := rfl

theorem sites_operators {α : Type} (name : α → String) (ops : List α) :
    sitesOfItems (ops.map fun op => .string (name op)) = [] := by
  induction ops with
  | nil => rfl
  | cons op ops ih => simpa [sitesOfItems] using ih

@[simp] theorem lookup_pos_arguments (args : CallArgs) : (encodeCallArgs args).lookup "pos" = none := by
  obtain ⟨args, keywords, starargs, kwargs⟩ := args
  rfl

/-- the positions of what a walk meets are a list of these nodes -/
def Recorded (sites : List Site) (marks : List Mark) : Prop :=
  Lists sites (marks.map fun mark => encodePosition mark.pos)

namespace Recorded

variable {ss ts : List Site} {ms ns : List Mark}

theorem nil : Recorded [] [] := .done

theorem root (mark : Mark) (h : Recorded ss ms) : Recorded [.node (encodePosition mark.pos) ss] (mark :: ms) :=
  Lists.root h

theorem append (h : Recorded ss ms) (h' : Recorded ts ns) : Recorded (ss ++ ts) (ms ++ ns) := by
  unfold Recorded
  rw [List.map_append]
  exact Lists.append h h'

theorem before (h : Recorded ss ms) (h' : Recorded ts ns) : Recorded (ts ++ ss) (ms ++ ns) := by
  unfold Recorded
  rw [List.map_append]
  exact Lists.before h h'

theorem token (t : NameToken) : Recorded (encodeToken t).sites [.token t] := root (.token t) nil

theorem token? (t : Option NameToken) : Recorded (encodeToken? t).sites (tokenMarks t) := by
  cases t with
  | none => exact nil
  | some t => exact token t

end Recorded

theorem recorded_node (mark : Mark) {kind : Value} {ms : List Mark} (h : Recorded kind.sites ms) :
    Recorded (Exchange.node kind mark.pos).sites (mark :: ms) := by
  have hnode := Recorded.root mark h
  rwa [Exchange.node, sites_record_pos rfl, sitesOfFields_cons, sitesOfFields_cons, sites_position,
    sitesOfFields_nil, List.append_nil, List.append_nil]

mutual

theorem Expr.recorded : ∀ e : Expr, Recorded (encodeExpr e).sites e.marks
  | .name pos id _ _ => recorded_node (.expr pos (some id)) (by simpa using .nil)
  | .num pos _ => recorded_node (.expr pos none) (by simpa using .nil)
  | .str pos _ _ segments => recorded_node (.expr pos none) (by simpa using stmts_recorded segments)
  | .tuple pos elts _ _ => recorded_node (.expr pos none) (by simpa using exprs_recorded elts)
  | .list pos elts _ => recorded_node (.expr pos none) (by simpa using exprs_recorded elts)
  | .set pos elts => recorded_node (.expr pos none) (by simpa using exprs_recorded elts)
  | .dict pos keys values =>
    recorded_node (.expr pos none) (by simpa using (exprs_recorded keys).append (exprs_recorded values))
  | .call pos func args => recorded_node (.expr pos none) (by
    simpa [List.lookup_cons] using func.recorded.append args.recorded)
  | .binOp pos left _ right => recorded_node (.expr pos none) (by simpa using left.recorded.append right.recorded)
  | .boolOp pos _ values => recorded_node (.expr pos none) (by simpa using exprs_recorded values)
  | .compare pos left _ comparators => recorded_node (.expr pos none) (by
    simpa [sites_operators] using left.recorded.append (exprs_recorded comparators))
  | .ifExp pos test body orelse => recorded_node (.expr pos none) (by
    simpa using test.recorded.append (body.recorded.append orelse.recorded))
  | .await pos value => recorded_node (.expr pos none) (by simpa using value.recorded)
  | .yield pos value => recorded_node (.expr pos none) (by simpa using expr?_recorded value)
termination_by structural e => e

theorem CallArgs.recorded : ∀ a : CallArgs, Recorded (sitesOfFields (encodeCallArgs a)) a.marks
  | ⟨args, keywords, starargs, kwargs⟩ => by
    have h := ((exprs_recorded args).append (keywords_recorded keywords)).append
      ((expr?_recorded starargs).append (expr?_recorded kwargs))
    simpa [encodeCallArgs, CallArgs.marks] using h
termination_by structural a => a

theorem Keyword.recorded : ∀ k : Keyword, Recorded (encodeKeyword k).sites k.marks
  | ⟨arg, value⟩ => by
    have h := (Recorded.token arg).append value.recorded
    simpa [encodeKeyword, Keyword.marks] using h
termination_by structural k => k

theorem Stmt.recorded : ∀ s : Stmt, Recorded (encodeStmt s).sites s.marks
  | .assign pos targets value =>
    recorded_node (.stmt pos) (by simpa using (exprs_recorded targets).append value.recorded)
  | .augAssign pos target _ value =>
    recorded_node (.stmt pos) (by simpa using target.recorded.append value.recorded)
  | .expr pos value => recorded_node (.stmt pos) (by simpa using value.recorded)
  | .pass pos => recorded_node (.stmt pos) .nil
  | .ifElse pos test body orelse => recorded_node (.stmt pos) (by
    simpa using test.recorded.append ((stmts_recorded body).append (suite?_recorded orelse)))
  | .whileLoop pos test body orelse => recorded_node (.stmt pos) (by
    simpa using test.recorded.append ((stmts_recorded body).append (suite?_recorded orelse)))
  | .forLoop pos target iter body orelse _ => recorded_node (.stmt pos) (by
    simpa using target.recorded.append (iter.recorded.append ((stmts_recorded body).append (suite?_recorded orelse))))
  | .assertion pos test msg => recorded_node (.stmt pos) (by simpa using test.recorded.append (expr?_recorded msg))
  | .ret pos value => recorded_node (.stmt pos) (by simpa using expr?_recorded value)
  | .functionDef pos name params body decorators _ => recorded_node (.stmt pos) (by
    have h := (decorators_recorded decorators).before
      ((Recorded.token name).append (params.recorded.append (stmts_recorded body)))
    simpa using h)
  | .classDef pos name bases body decorators => recorded_node (.stmt pos) (by
    have h := (decorators_recorded decorators).before
      ((Recorded.token name).append ((exprs_recorded bases).append (stmts_recorded body)))
    simpa using h)
termination_by structural s => s

theorem Suite.recorded : ∀ s : Suite, Recorded (encodeSuite s).sites s.marks
  | ⟨body, pos⟩ => by
    have h := Recorded.root (.suite pos) (stmts_recorded body)
    rw [encodeSuite, sites_record_pos rfl]
    simpa [Suite.marks, Mark.pos] using h
termination_by structural s => s

theorem Decorator.recorded : ∀ d : Decorator, Recorded (encodeDecorator d).sites d.marks
  | ⟨func, args, isCall, pos⟩ => by
    have h := Recorded.root (.decorator pos) (func.recorded.append args.recorded)
    obtain ⟨args, keywords, starargs, kwargs⟩ := args
    rw [encodeDecorator, sites_record_pos rfl]
    simpa [encodeCallArgs, Decorator.marks, Mark.pos] using h
termination_by structural d => d

theorem Parameters.recorded : ∀ p : Parameters, Recorded (encodeParameters p).sites p.marks
  | ⟨args, defaults, annotations, vararg, kwarg, kwonlyargs, kwDefaults, kwonlyAnnotations⟩ => by
    have hpositional := (exprs_recorded args).append ((options_recorded defaults).append (options_recorded annotations))
    have hcollectors := (Recorded.token? vararg).append (Recorded.token? kwarg)
    have hkwonly := (exprs_recorded kwonlyargs).append
      ((options_recorded kwDefaults).append (options_recorded kwonlyAnnotations))
    simpa [encodeParameters, Parameters.marks] using hpositional.append (hcollectors.append hkwonly)
termination_by structural p => p

theorem exprs_recorded : ∀ es : List Expr, Recorded (sitesOfItems (encodeExprs es)) (exprsMarks es)
  | [] => .nil
  | e :: es => e.recorded.append (exprs_recorded es)
termination_by structural es => es

theorem expr?_recorded : ∀ e : Option Expr, Recorded (encodeExpr? e).sites (exprMarks? e)
  | none => .nil
  | some e => e.recorded
termination_by structural e => e

theorem options_recorded : ∀ es : List (Option Expr), Recorded (sitesOfItems (encodeOptions es)) (optionsMarks es)
  | [] => .nil
  | e :: es => (expr?_recorded e).append (options_recorded es)
termination_by structural es => es

theorem keywords_recorded : ∀ ks : List Keyword, Recorded (sitesOfItems (encodeKeywords ks)) (keywordsMarks ks)
  | [] => .nil
  | k :: ks => k.recorded.append (keywords_recorded ks)
termination_by structural ks => ks

theorem stmts_recorded : ∀ ss : List Stmt, Recorded (sitesOfItems (encodeStmts ss)) (stmtsMarks ss)
  | [] => .nil
  | s :: ss => s.recorded.append (stmts_recorded ss)
termination_by structural ss => ss

theorem suite?_recorded : ∀ s : Option Suite, Recorded (encodeSuite? s).sites (suiteMarks? s)
  | none => .nil
  | some s => s.recorded
termination_by structural s => s

theorem decorators_recorded : ∀ ds : List Decorator, Recorded (sitesOfItems (encodeDecorators ds)) (decoratorsMarks ds)
  | [] => .nil
  | d :: ds => d.recorded.append (decorators_recorded ds)
termination_by structural ds => ds

end

/-- **A walk over a module meets each node of its document once, and a node before its parts.** -/
theorem Module.recorded_encode (m : Module) : Recorded m.encode.sites m.marks := by
  simpa [Module.encode, Module.marks] using stmts_recorded m.body

end Graft
