/-
The nodes that stand in a tree, and what their places call for.

A place calls for a binding: the target of an assignment for `store`, that of an augmented one for `augStore`, a parameter
for its own sort, and every other place for `load`. A tuple or list in a target hands this on to its elements. `parts`
gives the nodes that stand directly in a node, each with the binding of its place, and `Has` those at any depth.

`has_place` says which places these are: those on the spine of a target, which runs through tuples and lists only, and the
names of parameters.

`Throughout Q` says that every node has a property, which may depend on the binding of its place. `throughout_iff` takes
it apart into the node and its parts. An expression that was made for a place that is read can be put in any place
(`Throughout.place`), and to any position (`Throughout.moveTo`), where the property allows it.
-/
import Graft.Tree.Basic

namespace Graft

/-- the binding that the place of a tuple or list calls for in its elements; a parameter is a name, and has none -/
def Binding.inner : Binding → Binding
  | store => store
  | augStore => augStore
  | _ => load

/-- how a name, a tuple or a list is bound; there is nothing else that is -/
def Expr.binding? : Expr → Option Binding
  | name _ _ binding _ => some binding
  | tuple _ _ binding _ => some binding
  | list _ _ binding => some binding
  | _ => none

/-- the targets of a statement that it binds like this -/
def Stmt.targets : Binding → Stmt → List Expr
  | .store, assign _ targets _ => targets
  | .store, forLoop _ target _ _ _ _ => [target]
  | .augStore, augAssign _ target _ _ => [target]
  | _, _ => []

/-- the parameters of one sort -/
def Parameters.names : Binding → Parameters → List Expr
  | .param, p => p.args
  | .kwOnlyParam, p => p.kwonlyargs
  | _, _ => []

/-- the expression itself, or what is reached from it through the elements of tuples and lists only -/
inductive Expr.Spine : Expr → Expr → Prop where
  | self (e : Expr) : Spine e e
  | tuple {pos : Position} {elts : List Expr} {binding : Binding} {comma : Bool} {x e : Expr} : x ∈ elts → Spine x e →
      Spine (.tuple pos elts binding comma) e
  | list {pos : Position} {elts : List Expr} {binding : Binding} {x e : Expr} : x ∈ elts → Spine x e →
      Spine (.list pos elts binding) e

/-- a node of a tree; a block is no node of its own, but what it holds is -/
inductive Subtree where
  | expr (e : Expr)
  | stmt (s : Stmt)
  | keyword (k : Keyword)
  | decorator (d : Decorator)
  | parameters (p : Parameters)

namespace Subtree

/-- expressions in places of one sort -/
def exprs (b : Binding) (es : List Expr) : List (Binding × Subtree) := es.map fun e => (b, expr e)

def stmts (ss : List Stmt) : List (Binding × Subtree) := ss.map fun s => (.load, stmt s)

def block (suite : Option Suite) : List (Binding × Subtree) := stmts (suite.elim [] Suite.body)

def decorators (ds : List Decorator) : List (Binding × Subtree) := ds.map fun d => (.load, decorator d)

def arguments (a : CallArgs) : List (Binding × Subtree) :=
  exprs .load (a.args ++ a.starargs.toList ++ a.kwargs.toList) ++ a.keywords.map fun k => (.load, keyword k)

/-- what stands directly in a node, with the bindings that the places call for -/
def parts (b : Binding) : Subtree → List (Binding × Subtree)
  | expr (.name ..) => []
  | expr (.num ..) => []
  | expr (.str _ _ _ segments) => stmts segments
  | expr (.tuple _ elts _ _) => exprs b.inner elts
  | expr (.list _ elts _) => exprs b.inner elts
  | expr (.set _ elts) => exprs .load elts
  | expr (.dict _ keys values) => exprs .load (keys ++ values)
  | expr (.call _ func args) => exprs .load [func] ++ arguments args
  | expr (.binOp _ left _ right) => exprs .load [left, right]
  | expr (.boolOp _ _ values) => exprs .load values
  | expr (.compare _ left _ comparators) => exprs .load (left :: comparators)
  | expr (.ifExp _ test body orelse) => exprs .load [test, body, orelse]
  | expr (.await _ value) => exprs .load [value]
  | expr (.yield _ value) => exprs .load value.toList
  | stmt (.assign _ targets value) => exprs .store targets ++ exprs .load [value]
  | stmt (.augAssign _ target _ value) => exprs .augStore [target] ++ exprs .load [value]
  | stmt (.expr _ value) => exprs .load [value]
  | stmt (.pass _) => []
  | stmt (.ifElse _ test body orelse) => exprs .load [test] ++ stmts body ++ block orelse
  | stmt (.whileLoop _ test body orelse) => exprs .load [test] ++ stmts body ++ block orelse
  | stmt (.forLoop _ target iter body orelse _) =>
    exprs .store [target] ++ exprs .load [iter] ++ stmts body ++ block orelse
  | stmt (.assertion _ test msg) => exprs .load (test :: msg.toList)
  | stmt (.ret _ value) => exprs .load value.toList
  | stmt (.functionDef _ _ params body decs _) => (.load, parameters params) :: stmts body ++ decorators decs
  | stmt (.classDef _ _ bases body decs) => exprs .load bases ++ stmts body ++ decorators decs
  | keyword k => exprs .load [k.value]
  | decorator d => exprs .load [d.func] ++ arguments d.args
  | parameters p =>
    exprs .param p.args ++ exprs .kwOnlyParam p.kwonlyargs ++
      exprs .load ((p.defaults ++ p.annotations ++ p.kwDefaults ++ p.kwonlyAnnotations).filterMap id)

/-- `Has b t b' u`: in `t`, at a place that calls for `b`, stands `u`, at a place that calls for `b'` -/
inductive Has : Binding → Subtree → Binding → Subtree → Prop where
  | self (b : Binding) (t : Subtree) : Has b t b t
  | part {b b₁ b' : Binding} {t t₁ u : Subtree} : (b₁, t₁) ∈ parts b t → Has b₁ t₁ b' u → Has b t b' u

/-! ## The places that call for a binding -/

theorem mem_exprs {b b₁ : Binding} {t₁ : Subtree} {es : List Expr} :
    (b₁, t₁) ∈ exprs b es ↔ b₁ = b ∧ ∃ x ∈ es, t₁ = expr x := by
  constructor
  · intro h
    obtain ⟨x, hx, heq⟩ := List.mem_map.1 h
    cases heq
    exact ⟨rfl, x, hx, rfl⟩
  · rintro ⟨rfl, x, hx, rfl⟩
    exact List.mem_map.2 ⟨x, hx, rfl⟩

/-- an expression at a place of its own: an element of a tuple or list at such a place, a target, or a parameter -/
inductive Bears (b : Binding) : Subtree → Expr → Prop where
  | element {e x : Expr} : (∀ y, x.Spine y → e.Spine y) → Bears b (expr e) x
  | target {s : Stmt} {x : Expr} : x ∈ s.targets b → Bears b (stmt s) x
  | parameter {p : Parameters} {x : Expr} : x ∈ p.names b → Bears b (parameters p) x

/-- Only elements, targets and parameters are at places that call for something else than `load`, elements for what the
place of their tuple or list does. -/
theorem part_cases {b b₁ : Binding} {t t₁ : Subtree} (h : (b₁, t₁) ∈ parts b t) (hb : b₁ ≠ .load) :
    ∃ x, t₁ = expr x ∧ Bears b₁ t x ∧ ∀ e, t = expr e → b₁ = b ∧ b.inner = b := by
  have hinner : b.inner ≠ .load → b.inner = b := by cases b <;> simp [Binding.inner]
  have hexprs : ∀ es, (b₁, t₁) ∉ exprs .load es := fun es he => hb (mem_exprs.1 he).1
  have hstmts : ∀ ss, (b₁, t₁) ∉ stmts ss := by simp [stmts, hb.symm]
  have hblock : ∀ suite, (b₁, t₁) ∉ block suite := fun suite => hstmts _
  have hdecs : ∀ ds, (b₁, t₁) ∉ decorators ds := by simp [decorators, hb.symm]
  have hargs : ∀ a, (b₁, t₁) ∉ arguments a := by simp [arguments, hexprs, hb.symm]
  rcases t with e | s | k | d | p
  · cases e with
    | tuple pos elts binding comma =>
      obtain ⟨rfl, x, hx, rfl⟩ := mem_exprs.1 h
      exact ⟨x, rfl, .element fun y hy => .tuple hx hy, fun _ _ => ⟨hinner hb, hinner hb⟩⟩
    | list pos elts binding =>
      obtain ⟨rfl, x, hx, rfl⟩ := mem_exprs.1 h
      exact ⟨x, rfl, .element fun y hy => .list hx hy, fun _ _ => ⟨hinner hb, hinner hb⟩⟩
    | _ => simp [parts, hexprs, hstmts, hargs] at h
  · have htarget : ∀ {b es}, (b₁, t₁) ∈ exprs b es → s.targets b = es →
        ∃ x, t₁ = expr x ∧ Bears b₁ (stmt s) x ∧ ∀ e, stmt s = expr e → b₁ = b ∧ b.inner = b := by
      intro b es hes htargets
      obtain ⟨rfl, x, hx, rfl⟩ := mem_exprs.1 hes
      exact ⟨x, rfl, .target (htargets ▸ hx), nofun⟩
    cases s with
    | assign pos targets value =>
      simp only [parts, List.mem_append, hexprs, or_false] at h
      simpa using htarget h rfl
    | augAssign pos target op value =>
      simp only [parts, List.mem_append, hexprs, or_false] at h
      simpa using htarget h rfl
    | forLoop pos target iter body orelse isAsync =>
      simp only [parts, List.mem_append, hexprs, hstmts, hblock, or_false] at h
      simpa using htarget h rfl
    | _ => simp [parts, hexprs, hstmts, hblock, hdecs, hb] at h
  · exact absurd h (hexprs _)
  · simp [parts, hexprs, hargs] at h
  · simp only [parts, List.mem_append, hexprs, or_false] at h
    rcases h with h | h
    · obtain ⟨rfl, x, hx, rfl⟩ := mem_exprs.1 h
      exact ⟨x, rfl, .parameter hx, nofun⟩
    · obtain ⟨rfl, x, hx, rfl⟩ := mem_exprs.1 h
      exact ⟨x, rfl, .parameter hx, nofun⟩

/-- **What places call for.** An expression whose place does not call for `load` is on the spine of a target that is bound
like this, or is a parameter of this sort, unless it is on the spine of the whole tree. -/
theorem has_place {b b' : Binding} {t u : Subtree} (h : Has b t b' u) {e : Expr} (hu : u = expr e) (hb' : b' ≠ .load) :
    (b' = b ∧ ∃ top, t = expr top ∧ (top = e ∨ b.inner = b ∧ top.Spine e)) ∨
      (∃ b₁ s, Has b t b₁ (stmt s) ∧ ∃ x ∈ s.targets b', x.Spine e) ∨
        ∃ b₁ p, Has b t b₁ (parameters p) ∧ e ∈ p.names b' := by
  induction h with
  | self b t => exact .inl ⟨rfl, e, hu, .inl rfl⟩
  | @part b b₁ b' t t₁ u hp hin ih =>
    rcases ih hu hb' with ⟨rfl, top, rfl, hspine⟩ | ⟨b₂, s, hs, htarget⟩ | ⟨b₂, p, hparams, hname⟩
    · obtain ⟨x, hx, hbears, htop⟩ := part_cases hp hb'
      cases hx
      have hreach : top.Spine e := by
        rcases hspine with rfl | ⟨-, hspine⟩
        · exact .self _
        · exact hspine
      cases hbears with
      | @element e₀ _ hstep =>
        obtain ⟨rfl, hinner⟩ := htop e₀ rfl
        exact .inl ⟨rfl, e₀, rfl, .inr ⟨hinner, hstep e hreach⟩⟩
      | @target s _ hx => exact .inr (.inl ⟨b, s, .self b _, top, hx, hreach⟩)
      | @parameter p _ hx =>
        refine .inr (.inr ⟨b, p, .self b _, ?_⟩)
        rcases hspine with rfl | ⟨hinner, -⟩
        · exact hx
        · cases b' <;> simp_all [Binding.inner, Parameters.names]
    · exact .inr (.inl ⟨b₂, s, .part hp hs, htarget⟩)
    · exact .inr (.inr ⟨b₂, p, .part hp hparams, hname⟩)

/-! ## Properties of all nodes -/

/-- every node in `t`, at a place that calls for `b`, has the property, as its own place calls for -/
def Throughout (Q : Binding → Subtree → Prop) (b : Binding) (t : Subtree) : Prop := ∀ b' u, Has b t b' u → Q b' u

variable {Q : Binding → Subtree → Prop} {b : Binding} {t : Subtree}

/-- A property holds throughout a node if it holds of the node and throughout its parts. -/
theorem throughout_iff : Throughout Q b t ↔ Q b t ∧ ∀ p ∈ parts b t, Throughout Q p.1 p.2 := by
  constructor
  · intro h
    refine ⟨h b t (.self b t), fun p hp b' u hu => ?_⟩
    exact h b' u (.part hp hu)
  · intro h b' u hu
    cases hu with
    | self => exact h.1
    | part hp hu => exact h.2 _ hp b' u hu

theorem Throughout.here (h : Throughout Q b t) : Q b t := (throughout_iff.1 h).1

theorem forall_exprs {es : List Expr} :
    (∀ p ∈ exprs b es, Throughout Q p.1 p.2) ↔ ∀ e ∈ es, Throughout Q b (expr e) := by
  simp [exprs]

theorem forall_stmts {ss : List Stmt} :
    (∀ p ∈ stmts ss, Throughout Q p.1 p.2) ↔ ∀ s ∈ ss, Throughout Q .load (stmt s) := by
  simp [stmts]

theorem forall_decorators {ds : List Decorator} :
    (∀ p ∈ decorators ds, Throughout Q p.1 p.2) ↔ ∀ d ∈ ds, Throughout Q .load (decorator d) := by
  simp [decorators]

/-! ### Other places, other positions -/

/-- The binding that a place calls for shows in the elements of a tuple or list only, and there as such. -/
theorem parts_load {p : Binding × Subtree} (hp : p ∈ parts b t) :
    p ∈ parts .load t ∨ (.load, p.2) ∈ parts .load t := by
  have helement : ∀ elts : List Expr, p ∈ exprs b.inner elts → (.load, p.2) ∈ exprs .load elts := by
    intro elts h
    obtain ⟨e, he, rfl⟩ := List.mem_map.1 h
    exact List.mem_map.2 ⟨e, he, rfl⟩
  rcases t with e | s | _ | _ | _
  · cases e with
    | tuple pos elts binding comma => exact .inr (helement elts hp)
    | list pos elts binding => exact .inr (helement elts hp)
    | _ => exact .inl hp
  · cases s <;> exact .inl hp
  · exact .inl hp
  · exact .inl hp
  · exact .inl hp

/-- What stands in a node at any place stands in it at a place that is read, and then some of it is read itself. -/
theorem has_load {b' : Binding} {u : Subtree} (h : Has b t b' u) : Has .load t b' u ∨ Has .load t .load u := by
  induction h with
  | self b t => exact .inr (.self .load t)
  | @part b b₁ b' t t₁ u hp hu ih =>
    rcases parts_load hp with hp | hp
    · exact .inl (.part hp hu)
    · rcases ih with ih | ih
      · exact .inl (.part hp ih)
      · exact .inr (.part hp ih)

/-- What is sound where it is read is sound at any place, if a single node that is read is. -/
theorem Throughout.place (hQ : ∀ b u, Q .load u → Q b u) (h : Throughout Q .load t) (b : Binding) :
    Throughout Q b t := by
  intro b' u hu
  rcases has_load hu with hu | hu
  · exact h b' u hu
  · exact hQ b' u (h .load u hu)

theorem parts_moveTo (b : Binding) (e : Expr) (pos : Position) : parts b (expr (e.moveTo pos)) = parts b (expr e) := by
  cases e <;> rfl

theorem Throughout.moveTo {e : Expr} {pos : Position} (hQ : Q b (expr e) → Q b (expr (e.moveTo pos)))
    (h : Throughout Q b (expr e)) : Throughout Q b (expr (e.moveTo pos)) := by
  rw [throughout_iff] at h ⊢
  rw [parts_moveTo]
  exact ⟨hQ h.1, h.2⟩

end Subtree

/-- in the module stands `t`, at a place that calls for `b` -/
def Module.Has (m : Module) (b : Binding) (t : Subtree) : Prop := ∃ s ∈ m.body, Subtree.Has .load (.stmt s) b t

/-- In a module, an expression whose place does not call for `load` is on the spine of a target, or is a parameter. -/
theorem Module.has_place {m : Module} {b : Binding} {e : Expr} (h : m.Has b (.expr e)) (hb : b ≠ .load) :
    (∃ b₁ s, m.Has b₁ (.stmt s) ∧ ∃ x ∈ s.targets b, x.Spine e) ∨ ∃ b₁ p, m.Has b₁ (.parameters p) ∧ e ∈ p.names b := by
  obtain ⟨top, htop, h⟩ := h
  rcases Subtree.has_place h rfl hb with ⟨hload, -⟩ | ⟨b₁, s, hs, htarget⟩ | ⟨b₁, p, hp, hname⟩
  · exact absurd hload hb
  · exact .inl ⟨b₁, s, ⟨top, htop, hs⟩, htarget⟩
  · exact .inr ⟨b₁, p, ⟨top, htop, hp⟩, hname⟩

end Graft
