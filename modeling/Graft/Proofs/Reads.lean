/-
How constructions read their nodes.

`Reads slots others X` says of a construction that it hands on what the fields of `slots` hold, each in the way of its
shape, and otherwise depends on the tag, the position and the fields of `others` alone; `Takes shape X` says the same of
what is done with the value of one field. Each construction is shown to read its node piece by piece, in the order of its
steps (`reads_bind`, `reads_then`), and what follows for all of them is in the fields of the two structures:
- `agree`: it does the same with nodes that agree.
- `follows`: it does the same with two converters that do the same with what is handed on, and raises no faults but
  theirs and its own, which blame a node held in its own.
- `seam`: what stands at a place that is handed on makes a difference only where it does to the converter.
-/
import Graft.Proofs.Follow
import Graft.Proofs.Place

namespace Graft.Convert

open Graft.Document Attempt

variable {α β γ : Type}

/-- what a converter does at a place that is handed on: `Seamless`, or it drops the node that is a whole block -/
def Served (tag : String) (blank : Value) (convert : Converter) : Option Hole → Prop
  | some C => (∀ b, convert .null b = pure .absent) ∧ ∀ b, Seamless tag blank fun w => convert (C w) b
  | none => blank = .array [] ∧ (∀ b, convert (.array []) b = pure (.group [])) ∧
      ∀ o b, o.tag = some tag → convert (.object o) b .permissive = ⟨[.unknown tag o], .ok .absent⟩

/-- how a construction reads its node -/
structure Reads (slots : List (String × Shape)) (others : List String) (X : Converter → Node → Attempt α) : Prop where
  agree : ∀ (c : Converter) {n n' : Node}, Agree (slots.map Prod.fst ++ others) n n' → X c n = X c n'
  follows : ∀ {P : Fault → Prop} {c c' : Converter} {n : Node},
    (∀ x b, Opens (.node slots) (.object n) x → Follows P (c x b) (c' x b)) →
    (∀ m d, Holds (.object n) (.object m) → P (.of m d)) → Follows P (X c n) (X c' n)
  seam : ∀ {tag : String} {blank : Value} {c : Converter} {C : Option Hole} {name : String} {shape : Shape} {D : Hole},
    name ∉ positionFields → (name, shape) ∈ slots → Served tag blank c C → Leads tag blank C shape D →
    ∀ n : Node, Seamless tag blank fun w => X c (n.insert name (D w))

/-- how a construction takes the value of a field -/
structure Takes (shape : Shape) (X : Converter → Node → Value → Attempt α) : Prop where
  agree : ∀ (c : Converter) (v : Value) {n n' : Node}, Agree [] n n' → X c n v = X c n' v
  follows : ∀ {P : Fault → Prop} {c c' : Converter} {n : Node} {v : Value},
    (∀ x b, Opens shape v x → Follows P (c x b) (c' x b)) →
    (∀ m d, m = n ∨ Holds v (.object m) → P (.of m d)) → Follows P (X c n v) (X c' n v)
  seam : ∀ {tag : String} {blank : Value} {c : Converter} {C : Option Hole} {D : Hole},
    Served tag blank c C → Leads tag blank C shape D → ∀ n, Seamless tag blank fun w => X c n (D w)

theorem Reads.congr {slots : List (String × Shape)} {others : List String} {X Y : Converter → Node → Attempt α}
    (hx : Reads slots others X) (h : ∀ c n, Y c n = X c n) : Reads slots others Y := by
  have hYX : Y = X := funext fun c => funext fun n => h c n
  rwa [hYX]

theorem Takes.congr {shape : Shape} {X Y : Converter → Node → Value → Attempt α} (hx : Takes shape X)
    (h : ∀ c n v, Y c n v = X c n v) : Takes shape Y := by
  have hYX : Y = X := funext fun c => funext fun n => funext fun v => h c n v
  rwa [hYX]

/-! ## Pieces that hand nothing on -/

/-- a piece that hands nothing on, and blames nothing but its node -/
structure Settles (others : List String) (X : Node → Attempt α) : Prop where
  agree : ∀ n n', Agree others n n' → X n = X n'
  blames : ∀ n fault, Raises (X n) fault → ∃ d, fault = .of n d

namespace Settles

variable {others : List String}

theorem follows {X : Node → Attempt α} (h : Settles others X) {P : Fault → Prop} {n : Node} (hown : ∀ d, P (.of n d)) :
    Follows P (X n) (X n) := by
  refine ⟨rfl, fun fault hfault => ?_⟩
  obtain ⟨d, rfl⟩ := h.blames n fault hfault
  exact hown d

theorem reads {X : Node → Attempt α} (h : Settles others X) : Reads [] others fun _ n => X n :=
  ⟨fun _ n n' hn => h.agree n n' hn, fun _ hown => h.follows fun d => hown _ d (.self _), fun _ hslot => by cases hslot⟩

protected theorem pure {g : Node → α} (h : ∀ n n', Agree others n n' → g n = g n') :
    Settles others fun n => pure (g n) :=
  ⟨fun n n' hn => by rw [h n n' hn], fun n fault hfault => by rcases hfault with hfault | hfault <;> cases hfault⟩

theorem const (a : α) : Settles others fun _ => pure a := Settles.pure fun _ _ _ => rfl

protected theorem fail (d : Defect) : Settles others fun n => (fail (.of n d) : Attempt α) := by
  refine ⟨fun n n' hn => by rw [hn.blame], fun n fault h => ?_⟩
  rcases h with h | h <;> cases h
  exact ⟨d, rfl⟩

protected theorem anomaly (d : Defect) : Settles others fun n => anomaly (.of n d) := by
  refine ⟨fun n n' hn => by rw [hn.blame], fun n fault h => ?_⟩
  rcases h with h | h
  · exact ⟨d, List.mem_singleton.1 h⟩
  · cases h

protected theorem orDefect {get : Node → Option α} (d : Defect) (h : ∀ n n', Agree others n n' → get n = get n') :
    Settles others fun n => orDefect n d (get n) := by
  refine ⟨fun n n' hn => ?_, fun n fault hfault => ?_⟩
  · rw [h n n' hn]
    cases get n' with
    | none => exact congrArg fail (hn.blame d)
    | some a => rfl
  · cases hget : get n with
    | none =>
      rw [hget] at hfault
      rcases hfault with hfault | hfault <;> cases hfault
      exact ⟨d, rfl⟩
    | some a =>
      rw [hget] at hfault
      rcases hfault with hfault | hfault <;> cases hfault

protected theorem ofExcept {e : Node → Except Fault α} (h : ∀ n n', Agree others n n' → e n = e n')
    (blames : ∀ n fault, e n = .error fault → ∃ d, fault = .of n d) : Settles others fun n => ofExcept (e n) := by
  refine ⟨fun n n' hn => by rw [h n n' hn], fun n fault hfault => blames n fault ?_⟩
  cases he : e n with
  | error found =>
    rw [he] at hfault
    rcases hfault with hfault | hfault <;> cases hfault
    rfl
  | ok a =>
    rw [he] at hfault
    rcases hfault with hfault | hfault <;> cases hfault

protected theorem bind {X : Node → Attempt α} {Y : α → Node → Attempt β} (hx : Settles others X)
    (hy : ∀ a, Settles others (Y a)) : Settles others fun n => X n >>= fun a => Y a n := by
  refine ⟨fun n n' hn => ?_, fun n fault h => ?_⟩
  · simp only [hx.agree n n' hn, fun a => (hy a).agree n n' hn]
  · rcases raises_bind h with h | ⟨a, h⟩
    · exact hx.blames n fault h
    · exact (hy a).blames n fault h

end Settles

/-! ## One piece after the other -/

/-- no field is handed on twice, or read otherwise as well -/
abbrev Apart (slots : List (String × Shape)) (others : List String) : Prop :=
  (slots.map Prod.fst).Nodup ∧ ∀ name ∈ slots.map Prod.fst, name ∉ others

theorem Apart.tail {slot : String × Shape} {rest : List (String × Shape)} {others : List String}
    (h : Apart (slot :: rest) others) : Apart rest others :=
  ⟨(List.nodup_cons.1 h.1).2, fun name hname => h.2 name (List.mem_cons_of_mem _ hname)⟩

theorem Opens.mono {slots more : List (String × Shape)} {n : Node} {x : Value} (h : Opens (.node slots) (.object n) x)
    (hsub : ∀ slot ∈ slots, slot ∈ more) : Opens (.node more) (.object n) x := by
  cases h with
  | node hslot hget hx => exact .node (hsub _ hslot) hget hx

theorem Agree.left {names more others : List String} {n n' : Node} (h : Agree (names ++ more ++ others) n n') :
    Agree (names ++ others) n n' := by
  refine h.mono fun name hname => ?_
  rcases List.mem_append.1 hname with hname | hname
  · exact List.mem_append_left _ (List.mem_append_left _ hname)
  · exact List.mem_append_right _ hname

theorem Agree.right {names more others : List String} {n n' : Node} (h : Agree (names ++ more ++ others) n n') :
    Agree (more ++ others) n n' := by
  refine h.mono fun name hname => ?_
  rcases List.mem_append.1 hname with hname | hname
  · exact List.mem_append_left _ (List.mem_append_right _ hname)
  · exact List.mem_append_right _ hname

/-- Of two pieces one hands the field on, and the other does the same whatever it holds. -/
theorem reads_append {slots₁ slots₂ : List (String × Shape)} {others : List String} {X : Converter → Node → Attempt α}
    {Y : α → Converter → Node → Attempt β} (hx : Reads slots₁ others X) (hy : ∀ a, Reads slots₂ others (Y a))
    (hapart : Apart (slots₁ ++ slots₂) others) :
    Reads (slots₁ ++ slots₂) others fun c n => X c n >>= fun a => Y a c n := by
  obtain ⟨hnodup, hothers⟩ := hapart
  rw [List.map_append] at hnodup hothers
  have hne := (List.nodup_append.1 hnodup).2.2
  constructor
  · intro c n n' h
    rw [List.map_append] at h
    simp only [hx.agree c h.left, fun a => (hy a).agree c h.right]
  · intro P c c' n halike hown
    refine follows_bind (hx.follows (fun x b h => halike x b (h.mono ?_)) hown) fun a =>
      (hy a).follows (fun x b h => halike x b (h.mono ?_)) hown
    · exact fun slot h => List.mem_append_left _ h
    · exact fun slot h => List.mem_append_right _ h
  · intro tag blank c C name shape D hplace hslot hserved hleads n
    rcases List.mem_append.1 hslot with hslot | hslot
    · have hmem := List.mem_map_of_mem (f := Prod.fst) hslot
      have hname : name ∉ slots₂.map Prod.fst ++ others := by
        rw [List.mem_append, not_or]
        exact ⟨fun h => hne _ hmem _ h rfl, hothers _ (List.mem_append_left _ hmem)⟩
      have hY : ∀ a v, Y a c (n.insert name v) = Y a c (n.insert name .null) := fun a v =>
        (hy a).agree c (agree_insert_insert hplace hname n v .null)
      simp only [hY]
      exact seamless_bind_left _ (hx.seam hplace hslot hserved hleads n)
    · have hmem := List.mem_map_of_mem (f := Prod.fst) hslot
      have hname : name ∉ slots₁.map Prod.fst ++ others := by
        rw [List.mem_append, not_or]
        exact ⟨fun h => hne _ h _ hmem rfl, hothers _ (List.mem_append_right _ hmem)⟩
      have hX : ∀ v, X c (n.insert name v) = X c (n.insert name .null) := fun v =>
        hx.agree c (agree_insert_insert hplace hname n v .null)
      simp only [hX]
      exact seamless_bind_right _ fun a => (hy a).seam hplace hslot hserved hleads n

/-- a field, and then the rest -/
theorem reads_bind {slot : String × Shape} {rest : List (String × Shape)} {others : List String}
    {X : Converter → Node → Attempt α} {Y : α → Converter → Node → Attempt β} (hx : Reads [slot] others X)
    (hy : ∀ a, Reads rest others (Y a)) (hapart : Apart (slot :: rest) others) :
    Reads (slot :: rest) others fun c n => X c n >>= fun a => Y a c n :=
  reads_append hx hy hapart

/-- a piece that hands nothing on, and then the rest -/
theorem reads_then {slots : List (String × Shape)} {others : List String} {X : Converter → Node → Attempt α}
    {Y : α → Converter → Node → Attempt β} (hx : Reads [] others X) (hy : ∀ a, Reads slots others (Y a))
    (hapart : Apart slots others) : Reads slots others fun c n => X c n >>= fun a => Y a c n :=
  reads_append hx hy hapart

/-- the fields, and then a piece that hands nothing on -/
theorem reads_last {slots : List (String × Shape)} {others : List String} {X : Converter → Node → Attempt α}
    {Y : α → Converter → Node → Attempt β} (hx : Reads slots others X) (hy : ∀ a, Reads [] others (Y a))
    (hapart : Apart slots others) : Reads slots others fun c n => X c n >>= fun a => Y a c n := by
  have h := reads_append hx hy (by rwa [List.append_nil])
  rwa [List.append_nil] at h

/-- A piece that reads nothing of the node but what it blames it by may follow any other. -/
theorem reads_settle {slots : List (String × Shape)} {others : List String} {X : Converter → Node → Attempt α}
    {Y : α → Node → Attempt β} (hx : Reads slots others X) (hy : ∀ a, Settles [] (Y a)) :
    Reads slots others fun c n => X c n >>= fun a => Y a n := by
  constructor
  · intro c n n' h
    simp only [hx.agree c h, fun a => (hy a).agree n n' (h.mono (by simp))]
  · intro P c c' n halike hown
    exact follows_bind (hx.follows halike hown) fun a => (hy a).follows fun d => hown n d (.self _)
  · intro tag blank c C name shape D hplace hslot hserved hleads n
    have hY : ∀ a v, Y a (n.insert name v) = Y a n := fun a v =>
      (hy a).agree _ _ (agree_insert hplace (by simp) n v).symm
    simp only [hY]
    exact seamless_bind_left _ (hx.seam hplace hslot hserved hleads n)

theorem reads_map {slots : List (String × Shape)} {others : List String} {X : Converter → Node → Attempt α}
    (f : α → β) (hx : Reads slots others X) : Reads slots others fun c n => f <$> X c n := by
  simp only [map_eq_pure_bind]
  exact reads_settle hx fun a => .const (f a)

/-- the same steps for whatever a node has in some respect -/
theorem reads_on {κ : Type} {slots : List (String × Shape)} {others : List String} {g : Node → κ}
    {X : κ → Converter → Node → Attempt α} (hg : ∀ n n', Agree others n n' → g n = g n')
    (hx : ∀ k, Reads slots others (X k)) (hapart : Apart slots others) : Reads slots others fun c n => X (g n) c n := by
  have h := reads_then (Settles.pure hg).reads hx hapart
  simpa only [pure_bind] using h

/-- a piece that leaves out the fields that others hand on -/
theorem reads_less {slots : List (String × Shape)} {others : List String} {X : Node → Attempt α}
    (hx : Settles others X) (hapart : Apart slots others) : Reads slots others fun _ n => X n := by
  constructor
  · intro c n n' h
    exact hx.agree n n' (h.mono fun name hname => List.mem_append_right _ hname)
  · intro P c c' n halike hown
    exact hx.follows fun d => hown n d (.self _)
  · intro tag blank c C name shape D hplace hslot hserved hleads n
    have hname : name ∉ others := hapart.2 name (List.mem_map_of_mem (f := Prod.fst) hslot)
    have hX : ∀ v, X (n.insert name v) = X n := fun v => (hx.agree _ _ (agree_insert hplace hname n v)).symm
    simp only [hX]
    exact seamless_const _

/-- A field of which nothing is handed on is one that the construction reads itself. -/
theorem reads_closed {name : String} {shape : Shape} {others : List String} {X : Converter → Node → Attempt α}
    (hx : Reads [(name, shape)] others X) (hclosed : ∀ v x, ¬ Opens shape v x) : Reads [] (name :: others) X := by
  constructor
  · intro c n n' h
    exact hx.agree c h
  · intro P c c' n halike hown
    refine hx.follows (fun x b h => ?_) hown
    cases h with
    | node hslot _ h =>
      cases List.mem_singleton.1 hslot
      exact absurd h (hclosed _ _)
  · intro tag blank c C name shape D hplace hslot
    cases hslot

/-! ## The value of a field -/

/-- a field that is taken in the way of its shape, and something else where it is missing -/
theorem reads_field {shape : Shape} {others : List String} {X : Converter → Node → Value → Attempt α}
    {g : Node → Attempt α} (name : String) (hx : Takes shape X) (hg : Settles [] g) :
    Reads [(name, shape)] others fun c n =>
      match n.get? name with
      | some v => X c n v
      | none => g n := by
  constructor
  · intro c n n' h
    rw [h.get name (by simp)]
    cases n'.get? name with
    | none => exact hg.agree n n' (h.mono (by simp))
    | some v => exact hx.agree c v (h.mono (by simp))
  · intro P c c' n halike hown
    cases hget : n.get? name with
    | none => exact hg.follows fun d => hown n d (.self _)
    | some v =>
      refine hx.follows (fun x b h => halike x b (.node List.mem_cons_self hget h)) fun m d hm => ?_
      rcases hm with rfl | hm
      · exact hown m d (.self _)
      · exact hown m d (.field hget hm)
  · intro tag blank c C name' shape' D hplace hslot hserved hleads n
    cases List.mem_singleton.1 hslot
    have hX : ∀ v, X c (n.insert name v) v = X c n v := fun v => hx.agree c v (agree_insert hplace (by simp) n v).symm
    simp only [Node.get?_insert_self, hX]
    exact hx.seam hserved hleads n

theorem takes_whole (b : Binding) : Takes .whole fun c _ v => c v b := by
  constructor
  · intro c v n n' h
    rfl
  · intro P c c' n v halike hown
    exact halike v b (.whole v)
  · intro tag blank c C D hserved hleads n
    cases hleads with
    | whole => exact hserved.2 b

theorem takes_bind {shape : Shape} {X : Converter → Node → Value → Attempt α} {k : Node → α → Attempt β}
    (hx : Takes shape X) (hk : ∀ a, Settles [] fun n => k n a) : Takes shape fun c n v => X c n v >>= k n := by
  constructor
  · intro c v n n' h
    have hkn : k n = k n' := funext fun a => (hk a).agree n n' h
    rw [hx.agree c v h, hkn]
  · intro P c c' n v halike hown
    exact follows_bind (hx.follows halike hown) fun a => (hk a).follows fun d => hown n d (.inl rfl)
  · intro tag blank c C D hserved hleads n
    exact seamless_bind_left _ (hx.seam hserved hleads n)

/-- a value that is looked into if it is a node -/
theorem takes_node {slots : List (String × Shape)} {others : List String} {Z : Converter → Node → Attempt α}
    {g : Node → Attempt α} (hz : Reads slots others Z) (hplace : ∀ slot ∈ slots, slot.1 ∉ positionFields)
    (hg : Settles [] g) :
    Takes (.node slots) fun c n v =>
      match v.node? with
      | some m => Z c m
      | none => g n := by
  constructor
  · intro c v n n' h
    cases v.node? with
    | none => exact hg.agree n n' h
    | some m => rfl
  · intro P c c' n v halike hown
    cases v with
    | object m => exact hz.follows halike fun m' d hm => hown m' d (.inr hm)
    | _ => exact hg.follows fun d => hown n d (.inl rfl)
  · intro tag blank c C D hserved hleads n
    cases hleads with
    | node hslot hleads => exact hz.seam (hplace _ hslot) hslot hserved hleads _

/-- a field that the construction looks into itself if it is a node -/
theorem reads_inner {others others' : List String} {Z g : Node → Attempt α} (name : String) (hz : Settles others Z)
    (hg : Settles [] g) :
    Reads [] (name :: others') fun _ n =>
      match n.node? name with
      | some m => Z m
      | none => g n := by
  have hfield : Reads [(name, .node [])] others' fun _ n =>
      match n.get? name with
      | some v => (match v.node? with | some m => Z m | none => g n)
      | none => g n := reads_field name (takes_node hz.reads (by simp) hg) hg
  refine (reads_closed hfield fun v x h => ?_).congr fun _ n => ?_
  · cases h with
    | node hslot => cases hslot
  · unfold Node.node?
    cases n.get? name <;> rfl

/-- A node that is all that stands at a place gives nothing, and is noted or not. -/
theorem served_dropped {tag : String} {convert : Converter} (h : Served tag .null convert (some id)) (b : Binding) :
    (∀ o : Node, o.tag = some tag → convert (.object o) b .permissive = ⟨[], .ok .absent⟩) ∨
      ∀ o : Node, o.tag = some tag → convert (.object o) b .permissive = ⟨[.unknown tag o], .ok .absent⟩ := by
  obtain ⟨hnull, hseam⟩ := h
  have hblank : convert .null b .permissive = ⟨[], .ok .absent⟩ := by rw [hnull, outcome_pure]
  cases hseam b with
  | idle h => exact .inl fun o ho => (h o ho).trans hblank
  | once first last result hfirst hnode =>
    have heq : (⟨first ++ last, result⟩ : Outcome Fragment) = ⟨[], .ok .absent⟩ := hfirst.symm.trans hblank
    obtain ⟨hnotes, rfl⟩ := Outcome.mk.inj heq
    obtain ⟨rfl, rfl⟩ := List.append_eq_nil_iff.1 hnotes
    exact .inr hnode

/-- a value that is converted if it is a node; then a node that gives nothing does what no node does -/
theorem takes_object {Z : Node → Fragment → Attempt α} {a : α} (b : Binding) (hz : ∀ f, Settles [] fun m => Z m f)
    (habsent : ∀ m, Z m .absent = pure a) :
    Takes .object fun c _ v =>
      match v.node? with
      | some m => c (.object m) b >>= Z m
      | none => pure a := by
  constructor
  · intro c v n n' h
    rfl
  · intro P c c' n v halike hown
    cases v with
    | object m => exact follows_bind (halike _ b (.object m)) fun f => (hz f).follows fun d => hown m d (.inr (.self _))
    | _ => exact follows_pure a
  · intro tag blank c C D hserved hleads n
    cases hleads with
    | @object m name C hname =>
      have hZ : ∀ v, Z (m.insert name v) = Z m := fun v =>
        funext fun f => (hz f).agree _ _ (agree_insert hname (by simp) m v).symm
      simp only [inField, Value.node?, hZ]
      exact seamless_bind_left (Z m) (hserved.2 b)
    | dropped hblank =>
      subst hblank
      rcases served_dropped hserved b with h | h
      · refine .idle fun o ho => ?_
        simp [Value.node?, outcome_bind, h o ho, habsent, Outcome.after]
      · refine .once [] [] (.ok a) rfl fun o ho => ?_
        simp [Value.node?, outcome_bind, h o ho, habsent, Outcome.after]

/-- a value that is looked into if it is a node with the tag -/
theorem takes_opened {t : String} {slots : List (String × Shape)} {other : Shape}
    {X Y : Converter → Node → Value → Attempt α} (hx : Takes (.node slots) X) (hy : Takes other Y) :
    Takes (.opened t slots other) fun c n v => if bears t v then X c n v else Y c n v := by
  constructor
  · intro c v n n' h
    rw [hx.agree c v h, hy.agree c v h]
  · intro P c c' n v halike hown
    cases hbears : bears t v with
    | true => exact hx.follows (fun x b h => halike x b (.opened hbears h)) hown
    | false => exact hy.follows (fun x b h => halike x b (.other hbears h)) hown
  · intro tag blank c C D hserved hleads n
    cases hleads with
    | @opened _ _ _ _ m name D htag hleads =>
      have hbears : ∀ v, bears t (inField m name v) = true := fun _ => htag
      simp only [hbears, if_true]
      exact hx.seam hserved hleads n
    | other hbears hleads =>
      refine (hy.seam hserved hleads n).congr ?_ fun o ho => ?_
      · simp only [hbears blank (.inl rfl), Bool.false_eq_true, if_false]
      · simp only [hbears (.object o) (.inr ⟨o, ho, rfl⟩), Bool.false_eq_true, if_false]

/-- a block, which is there whenever the value says anything -/
theorem takes_block {k : Node → Fragment → Attempt α} {a : α} (hk : ∀ f, Settles [] fun n => k n f)
    (hempty : ∀ n, k n .absent = k n (.group [])) :
    Takes .block fun c n v => if v.isAbsent then pure a else c v .load >>= k n := by
  constructor
  · intro c v n n' h
    have hkn : k n = k n' := funext fun f => (hk f).agree n n' h
    rw [hkn]
  · intro P c c' n v halike hown
    cases habsent : v.isAbsent with
    | true => exact follows_pure a
    | false => exact follows_bind (halike v .load (.block habsent)) fun f => (hk f).follows fun d => hown n d (.inl rfl)
  · intro tag blank c C D hserved hleads n
    cases hleads with
    | block habsent =>
      simp only [habsent, Bool.false_eq_true, if_false]
      exact seamless_bind_left (k n) (hserved.2 .load)
    | empty =>
      obtain ⟨rfl, hlist, hdrop⟩ := hserved
      refine .once [] (k n (.group []) .permissive).notes (k n (.group []) .permissive).result ?_ fun o ho => ?_
      · simp [Value.isAbsent, hlist]
      · simp [Value.isAbsent, outcome_bind, hdrop o .load ho, hempty, Outcome.after]

/-- what is behind the pointers of a declarator: it is converted if it is a function and a variable is wanted, and
otherwise looked into -/
def behindPointers (ofVariable : Bool) (Z : Converter → Node → Attempt α) (k : Node → Fragment → Attempt α)
    (g : Node → Attempt α) (convert : Converter) (n : Node) (v : Value) : Attempt α :=
  match v.node? with
  | some m =>
    if ofVariable && (stripped m).isTagged "CFuncDeclarator" then convert (.object (stripped m)) .load >>= k n
    else Z convert (stripped m)
  | none => g n

theorem declared_place (ofVariable : Bool) : ∀ slot ∈ Shape.declared ofVariable, slot.1 ∉ positionFields := by
  cases ofVariable <;> simp [Shape.declared, positionFields]

/-- A place in a declarator is reached through the pointers around it, each of which is one step of `Leads`. -/
theorem seamless_behindPointers {tag : String} {blank : Value} {convert : Converter} {C : Option Hole} {D : Hole}
    {ofVariable : Bool} {others : List String} {Z : Converter → Node → Attempt α} {k : Node → Fragment → Attempt α}
    {g : Node → Attempt α} (hz : Reads (Shape.declared ofVariable) others Z) (hg : Settles [] g)
    (hserved : Served tag blank convert C) (hleads : Leads tag blank C (.declarator ofVariable) D) (n : Node) :
    Seamless tag blank fun w => behindPointers ofVariable Z k g convert n (D w) := by
  unfold behindPointers
  generalize hshape : Shape.declarator ofVariable = shape at hleads
  induction hleads with
  | @function m name C htag hname =>
    cases hshape
    have hptr : m.isTagged "CPtrDeclarator" = false := by simp_all [Node.isTagged]
    have hself : ∀ v, stripped (m.insert name v) = m.insert name v := fun v => stripped_self (.inl hptr)
    have htag' : ∀ v, (m.insert name v).isTagged "CFuncDeclarator" = true := fun _ => htag
    simp only [inField, Value.node?, hself, htag', Bool.and_self, if_true]
    exact seamless_bind_left (k n) (hserved.2 .load)
  | @declared C ofVariable m name D hbare hfunction hleads =>
    cases hshape
    have hself : ∀ v, stripped (m.insert name v) = m.insert name v := fun v => stripped_self (hbare v)
    have hfunction' : ∀ v, (ofVariable && (m.insert name v).isTagged "CFuncDeclarator") = false := fun _ => hfunction
    simp only [inField, Value.node?, hself, hfunction', Bool.false_eq_true, if_false]
    exact (takes_node hz (declared_place ofVariable) hg).seam hserved hleads n
  | @pointer C ofVariable m base name D htag hleads ih =>
    cases hshape
    have hpointer : ∀ v,
        stripped (m.insert "base" (.object (base.insert name v))) = stripped (base.insert name v) := by
      intro v
      exact stripped_pointer htag (Node.node?_eq_some.2 (m.get?_insert_self "base" _))
    have hseam := ih hserved rfl
    simp only [inField, Value.node?, hpointer] at hseam ⊢
    exact hseam
  | _ => cases hshape

theorem takes_declarator (ofVariable : Bool) {others : List String} {Z : Converter → Node → Attempt α}
    {k : Node → Fragment → Attempt α} {g : Node → Attempt α} (hz : Reads (Shape.declared ofVariable) others Z)
    (hk : ∀ f, Settles [] fun n => k n f) (hg : Settles [] g) :
    Takes (.declarator ofVariable) (behindPointers ofVariable Z k g) := by
  constructor
  · intro c v n n' h
    unfold behindPointers
    have hkn : k n = k n' := funext fun f => (hk f).agree n n' h
    cases v.node? with
    | none => exact hg.agree n n' h
    | some m => simp only [hkn]
  · intro P c c' n v halike hown
    cases v with
    | object m =>
      simp only [behindPointers, Value.node?]
      cases hfunction : ofVariable && (stripped m).isTagged "CFuncDeclarator" with
      | true =>
        obtain ⟨rfl, htag⟩ := Bool.and_eq_true_iff.1 hfunction
        exact follows_bind (halike _ .load (.function htag)) fun f => (hk f).follows fun d => hown n d (.inl rfl)
      | false =>
        exact hz.follows (fun x b h => halike x b (.declared hfunction h)) fun m' d hm =>
          hown m' d (.inr ((holds_stripped m).trans hm))
    | _ => exact hg.follows fun d => hown n d (.inl rfl)
  · intro tag blank c C D hserved hleads n
    exact seamless_behindPointers hz hg hserved hleads n

/-! ## Lists -/

theorem Settles.gather {f : Node → α → Attempt (List β)} (hf : ∀ a, Settles [] fun n => f n a) (items : List α) :
    Settles [] fun n => gather (f n) items := by
  induction items with
  | nil => exact .const []
  | cons a items ih => exact .bind (hf a) fun _ => .bind ih fun _ => .const _

/-- An entry of a list is one step among the others. -/
theorem gather_inItem (f : Value → Attempt (List β)) (before after : List Value) (v : Value) :
    gather f (before ++ v :: after) = do
      let first ← gather f before
      let own ← f v
      let last ← gather f after
      return first ++ (own ++ last) := by
  simp [gather_append, gather]

/-- A round that checks nothing is none. -/
theorem gather_nothing (items : List α) : gather (fun _ => (pure [] : Attempt (List β))) items = pure [] := by
  induction items with
  | nil => rfl
  | cons a items ih => simp [gather, ih]

/-- A first round over a list does not depend on an entry that it lets pass. -/
theorem gather_pass {check : Value → Attempt (List γ)} {v : Value} {r : List γ} (hv : check v = pure r)
    (before after : List Value) (x : Attempt β) :
    (gather check (before ++ v :: after) >>= fun _ => x) =
      gather check before >>= fun _ => gather check after >>= fun _ => x := by
  simp [gather_inItem, hv]

/-- a list whose entries are taken one by one, after a first round that checks them all -/
theorem takes_items {entry : Shape} {check : Node → Value → Attempt (List γ)}
    {Y : Converter → Node → Value → Attempt (List β)} {g : Node → Value → Attempt (List β)} (hy : Takes entry Y)
    (hcheck : ∀ v, Settles [] fun n => check n v) (hg : ∀ v, Settles [] fun n => g n v)
    (hpass : ∀ {tag blank C D}, Leads tag blank C entry D → ∀ n w, Fills tag blank w → ∃ r, check n (D w) = pure r) :
    Takes (.items entry) fun c n v =>
      match v.items? with
      | some items => gather (check n) items >>= fun _ => gather (Y c n) items
      | none => g n v := by
  constructor
  · intro c v n n' h
    have hYn : Y c n = Y c n' := funext fun v => hy.agree c v h
    have hchk : check n = check n' := funext fun v => (hcheck v).agree n n' h
    cases v.items? with
    | none => exact (hg v).agree n n' h
    | some items => simp only [hYn, hchk]
  · intro P c c' n v halike hown
    cases v with
    | array items =>
      refine follows_bind ((Settles.gather hcheck items).follows fun d => hown n d (.inl rfl)) fun _ =>
        follows_gather fun x hx => hy.follows (fun y b h => halike y b (.items hx h)) fun m d hm => hown m d ?_
      exact hm.imp id (.item hx)
    | _ => exact (hg _).follows fun d => hown n d (.inl rfl)
  · intro tag blank c C D hserved hleads n
    cases hleads with
    | @items _ _ before after D hleads =>
      have hseam : Seamless tag blank fun w =>
          gather (check n) before >>= fun _ => gather (check n) after >>= fun _ => gather (Y c n) before >>= fun first =>
            Y c n (D w) >>= fun own => gather (Y c n) after >>= fun last => pure (first ++ (own ++ last)) :=
        seamless_bind_right _ fun _ => seamless_bind_right _ fun _ => seamless_bind_right _ fun _ =>
          seamless_bind_left _ (hy.seam hserved hleads n)
      refine hseam.congr ?_ fun o ho => ?_
      · obtain ⟨r, hr⟩ := hpass hleads n blank (.inl rfl)
        simp only [inItem, Value.items?]
        rw [gather_pass hr, gather_inItem]
      · obtain ⟨r, hr⟩ := hpass hleads n (.object o) (.inr ⟨o, ho, rfl⟩)
        simp only [inItem, Value.items?]
        rw [gather_pass hr, gather_inItem]

/-- a list whose entries are taken one by one -/
theorem takes_each {entry : Shape} {Y : Converter → Node → Value → Attempt (List β)}
    {g : Node → Value → Attempt (List β)} (hy : Takes entry Y) (hg : ∀ v, Settles [] fun n => g n v) :
    Takes (.items entry) fun c n v =>
      match v.items? with
      | some items => gather (Y c n) items
      | none => g n v := by
  have hunchecked : ∀ _ : Value, Settles [] fun _ => (pure [] : Attempt (List Unit)) := fun _ => .const []
  refine (takes_items hy hunchecked hg fun _ _ _ _ => ⟨[], rfl⟩).congr fun c n v => ?_
  cases v.items? <;> simp [gather_nothing]

/-- a field that has no list -/
def noItems (name : String) (n : Node) (v : Value) : Attempt (List β) :=
  if v.isAbsent then pure [] else fail (.of n (.notAnArray name))

theorem settles_noItems (name : String) (v : Value) : Settles [] fun n => (noItems name n v : Attempt (List β)) := by
  unfold noItems
  split
  · exact .const []
  · exact .fail _

theorem itemsField_bind {k : List Value → Attempt (List β)} (hk : k [] = pure []) (n : Node) (name : String) :
    itemsField n name >>= k =
      match n.get? name with
      | some v =>
        match v.items? with
        | some items => k items
        | none => noItems name n v
      | none => pure [] := by
  unfold itemsField Node.present? noItems
  cases n.get? name with
  | none => simp [hk]
  | some v =>
    cases habsent : v.isAbsent with
    | true =>
      have hitems : v.items? = none := by cases v <;> first | rfl | cases habsent
      simp [Option.filter, habsent, hitems, hk]
    | false => cases hitems : v.items? <;> simp [Option.filter, habsent, hitems, orDefect]

theorem reads_list {entry : Shape} {others : List String} {check : Node → Value → Attempt (List γ)}
    {Y : Converter → Node → Value → Attempt (List β)} (name : String) (hy : Takes entry Y)
    (hcheck : ∀ v, Settles [] fun n => check n v)
    (hpass : ∀ {tag blank C D}, Leads tag blank C entry D → ∀ n w, Fills tag blank w → ∃ r, check n (D w) = pure r) :
    Reads [(name, .items entry)] others fun c n =>
      itemsField n name >>= fun items => gather (check n) items >>= fun _ => gather (Y c n) items := by
  have hbind := fun c n =>
    itemsField_bind (k := fun items => gather (check n) items >>= fun _ => gather (Y c n) items) rfl n name
  simp only [hbind]
  exact reads_field name (takes_items hy hcheck (settles_noItems name) hpass) (.const [])

theorem reads_each {entry : Shape} {others : List String} {Y : Converter → Node → Value → Attempt (List β)}
    (name : String) (hy : Takes entry Y) :
    Reads [(name, .items entry)] others fun c n => itemsField n name >>= gather (Y c n) := by
  simp only [fun c n => itemsField_bind (k := gather (Y c n)) rfl n name]
  exact reads_field name (takes_each hy (settles_noItems name)) (.const [])

/-- The nodes that a first round picks from a list are those in it. -/
theorem yields_picked {pick : Value → Attempt (List Node)} (hpick : ∀ v, Yields (pick v) (· = v.node?.toList))
    (items : List Value) : Yields (gather pick items) (· = items.filterMap Value.node?) := by
  induction items with
  | nil => exact yields_pure rfl
  | cons v items ih =>
    refine yields_bind (hpick v) fun first hfirst => yields_bind ih fun rest hrest => yields_pure ?_
    subst hfirst hrest
    cases hv : v.node? <;> simp [hv]

theorem gather_filterMap (f : Node → Attempt (List β)) (items : List Value) :
    gather f (items.filterMap Value.node?) =
      gather (fun v => match v.node? with | some m => f m | none => pure []) items := by
  induction items with
  | nil => rfl
  | cons v items ih => cases hv : v.node? <;> simp [hv, gather, ih]

/-- Going through the nodes of a list is going through the list. -/
theorem gather_picked {pick : Value → Attempt (List Node)} (hpick : ∀ v, Yields (pick v) (· = v.node?.toList))
    (f : Node → Attempt (List β)) (items : List Value) :
    gather pick items >>= gather f =
      gather pick items >>= fun _ => gather (fun v => match v.node? with | some m => f m | none => pure []) items :=
  (yields_picked hpick items).bind_congr fun nodes hnodes => by rw [hnodes, gather_filterMap]

/-- a node in a list of nodes; any other entry that says something is an anomaly -/
def entryNode (name : String) (n : Node) (v : Value) : Attempt (List Node) :=
  match v with
  | .object m => return [m]
  | other => do
    if !other.isAbsent then Attempt.anomaly (.of n (.entryNotANode name other.kindName))
    return []

theorem entryNode_other {v : Value} (h : v.node? = none) (name : String) (n : Node) :
    entryNode name n v =
      if v.isAbsent then pure []
      else Attempt.anomaly (.of n (.entryNotANode name v.kindName)) >>= fun _ => pure [] := by
  cases v with
  | object m => cases h
  | null => rfl
  | string text => cases htext : (Value.string text).isAbsent <;> simp [entryNode, htext]
  | _ => rfl

theorem settles_entryNode (name : String) (v : Value) : Settles [] fun n => entryNode name n v := by
  cases hv : v.node? with
  | some m =>
    cases v <;> cases hv
    exact .const [m]
  | none =>
    simp only [entryNode_other hv]
    split
    · exact .const []
    · exact .bind (.anomaly _) fun _ => .const []

theorem yields_entryNode (name : String) (n : Node) (v : Value) : Yields (entryNode name n v) (· = v.node?.toList) := by
  cases hv : v.node? with
  | some m =>
    cases v <;> cases hv
    exact yields_pure rfl
  | none =>
    rw [entryNode_other hv]
    split
    · exact yields_pure rfl
    · exact yields_then fun _ => yields_pure rfl

/-- a field that is a list of nodes -/
theorem reads_nodeEntries {entry : Shape} {others : List String} {Y : Converter → Node → Node → Attempt (List β)}
    (name : String) (hy : Takes entry fun c n v => match v.node? with | some m => Y c n m | none => pure [])
    (hnode : ∀ {tag blank C D}, Leads tag blank C entry D → ∀ w, Fills tag blank w → (D w).node? ≠ none ∨ D w = .null) :
    Reads [(name, .items entry)] others fun c n => nodeEntries n name >>= gather (Y c n) := by
  have hpick : ∀ c n, (nodeEntries n name >>= gather (Y c n)) = itemsField n name >>= fun items =>
      gather (entryNode name n) items >>= fun _ =>
        gather (fun v => match v.node? with | some m => Y c n m | none => pure []) items := fun c n => by
    rw [← funext (gather_picked (yields_entryNode name n) (Y c n)), ← bind_assoc]
    rfl
  simp only [hpick]
  refine reads_list name hy (settles_entryNode name) fun {tag blank C D} hleads n w hw => ?_
  rcases hnode hleads w hw with h | h
  · cases hD : D w with
    | object m => exact ⟨[m], rfl⟩
    | _ => rw [hD] at h; exact absurd rfl h
  · rw [h]
    exact ⟨[], rfl⟩

/-! ### Lists of nodes and of nothing else -/

theorem mapM_eq_gather (f : α → Attempt β) (items : List α) :
    items.mapM f = gather (fun a => (fun b => [b]) <$> f a) items := by
  induction items with
  | nil => rfl
  | cons a items ih => simp [List.mapM_cons, gather, ih]

theorem yields_orDefect (n : Node) (d : Defect) (v : Value) :
    Yields ((fun m => [m]) <$> orDefect n d v.node?) (· = v.node?.toList) := by
  cases v.node? with
  | none => intro mode a h; cases h
  | some m => exact yields_pure rfl

/-- a field that is a list of nodes, each of which is read in the same way -/
theorem reads_objectItems {slots : List (String × Shape)} {others others' : List String}
    {Z : Converter → Node → Attempt β} (name : String) (d : Defect) (hz : Reads slots others' Z)
    (hplace : ∀ slot ∈ slots, slot.1 ∉ positionFields) :
    Reads [(name, .items (.node slots))] others fun c n => objectItems n name d >>= fun nodes => nodes.mapM (Z c) := by
  have hpick : ∀ c n, (objectItems n name d >>= fun nodes => nodes.mapM (Z c)) = itemsField n name >>= fun items =>
      gather (fun v => (fun m => [m]) <$> orDefect n d v.node?) items >>= fun _ =>
        gather (fun v => match v.node? with | some m => (fun b => [b]) <$> Z c m | none => pure []) items := by
    intro c n
    rw [← funext (gather_picked (yields_orDefect n d) fun m => (fun b => [b]) <$> Z c m), ← bind_assoc]
    simp only [mapM_eq_gather, objectItems]
  simp only [hpick]
  have hentry := takes_node (reads_map (fun b => [b]) hz) hplace (.const [])
  refine reads_list name hentry (fun v => ?_) fun {tag blank C D} hleads n w _ => ?_
  · exact .bind (.orDefect d fun _ _ _ => rfl) fun _ => .const _
  · cases hleads with
    | @node _ _ m name _ D => exact ⟨[m.insert name (D w)], rfl⟩

end Graft.Convert
