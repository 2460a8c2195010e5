/-
Documents that a reader of trees takes alike.

`Tolerance` has the changes of one object that the exchange format passes over: a member under a name that no structure has,
a part that is written as missing or left out, and a tag. `Tolerated` is any number of them at any depth. An object that is
a choice is exempt, since another member makes it none.

What a reader sees of an object is the parts it goes to by name, and whether it is a choice (`SeenAlike`). `Near` adds how
deep the two documents nest, which bounds the readers; `Near.parts`, `Near.items` and `Near.choice` hand it on to the parts
of structures, the items of lists and the payloads of choices.
-/
import Graft.Proofs.Anywhere
import Graft.Tree.Exchange

namespace Graft.Exchange

open Graft.Document Graft.Convert

/-! ## The relation -/

/-- the names of the parts of structures -/
def partNames : List String :=
  ["annotations", "arg", "args", "bases", "binary", "body", "column", "comparators", "ctx", "decorators", "defaults", "elts",
    "ends_with_comma", "fstring", "fstring_nodes", "func", "id", "is_async", "is_call", "iter", "keys", "keywords", "kind",
    "kw_defaults", "kwarg", "kwargs", "kwonly_annotations", "kwonlyargs", "left", "line", "msg", "name", "op", "ops",
    "orelse", "pos", "raw", "reserved", "right", "s", "starargs", "target", "targets", "test", "unicode", "value", "values",
    "vararg"]

/-- the names of the alternatives that have a payload, or may be written as if they had one -/
def alternatives : List String :=
  ["Name", "Num", "Str", "Tuple", "List", "Set", "Dict", "Call", "BinOp", "BoolOp", "Compare", "IfExp", "Await", "Yield",
    "Assign", "AugAssign", "Expr", "Pass", "If", "While", "For", "Assert", "Return", "FunctionDef", "ClassDef"]
  ++ Binding.all.map Binding.name ++ Role.all.map Role.name ++ BinaryOp.all.map BinaryOp.name
  ++ BoolOp.all.map BoolOp.name ++ CompareOp.all.map CompareOp.name

/-- an object that is no choice of a known alternative -/
def Structural (n : Node) : Prop := ∀ c ∈ choice? (.object n), c.1 ∉ alternatives

instance (n : Node) : Decidable (Structural n) :=
  inferInstanceAs (Decidable (∀ c ∈ choice? (.object n), c.1 ∉ alternatives))

/-- the structures differ by a member that a reader passes over -/
inductive Tolerance : Node → Node → Prop where
  /-- a tag, which is a member to a reader of trees, and none that it knows -/
  | tagged {tag tag' : Option String} {fields : List (String × Value)} : Structural ⟨tag, fields⟩ →
      Structural ⟨tag', fields⟩ → Tolerance ⟨tag, fields⟩ ⟨tag', fields⟩
  /-- under a name that is not known -/
  | unknown {tag : Option String} {before after : List (String × Value)} {name : String} {v : Value} :
      name ∉ partNames → Structural ⟨tag, before ++ after⟩ → Structural ⟨tag, before ++ (name, v) :: after⟩ →
      Tolerance ⟨tag, before ++ after⟩ ⟨tag, before ++ (name, v) :: after⟩
  /-- left out, and written as missing -/
  | missing {tag : Option String} {before after : List (String × Value)} {name : String} :
      name ∉ (before ++ after).map Prod.fst → Structural ⟨tag, before ++ after⟩ →
      Structural ⟨tag, before ++ (name, .null) :: after⟩ →
      Tolerance ⟨tag, before ++ after⟩ ⟨tag, before ++ (name, .null) :: after⟩

/-- the documents differ by members that a reader passes over, at any depth -/
def Tolerated : Value → Value → Prop := Anywhere Tolerance

/-- the same alternative with payloads that are related, or none that is known -/
inductive SameChoice : Option (String × Option Value) → Option (String × Option Value) → Prop where
  | known {name : String} {p p' : Option Value} : Option.Rel Tolerated p p' → SameChoice (some (name, p)) (some (name, p'))
  | unknown {o o' : Option (String × Option Value)} : (∀ c ∈ o, c.1 ∉ alternatives) →
      (∀ c ∈ o', c.1 ∉ alternatives) → SameChoice o o'

/-- what a reader sees of two objects is related -/
structure SeenAlike (n n' : Node) : Prop where
  part : ∀ name ∈ partNames, Tolerated (held n name) (held n' name)
  choice : SameChoice (choice? (.object n)) (choice? (.object n'))

theorem sameChoice_refl (o : Option (String × Option Value)) : SameChoice o o := by
  rcases o with _ | ⟨name, _ | v⟩
  · exact .unknown (by simp) (by simp)
  · exact .known .none
  · exact .known (.some (.refl v))

theorem SameChoice.symm {o o' : Option (String × Option Value)} (h : SameChoice o o') : SameChoice o' o := by
  cases h with
  | known hp =>
    cases hp with
    | none => exact .known .none
    | some hv => exact .known (.some hv.symm)
  | unknown ho ho' => exact .unknown ho' ho

theorem SameChoice.trans {o o' o'' : Option (String × Option Value)} (h : SameChoice o o') (h' : SameChoice o' o'') :
    SameChoice o o'' := by
  cases h with
  | known hp =>
    cases h' with
    | known hp' =>
      cases hp with
      | none => exact .known hp'
      | some hv => cases hp' with | some hv' => exact .known (.some (hv.trans hv'))
    | unknown hname ho'' => exact .unknown (by simpa using hname) ho''
  | unknown ho ho' =>
    cases h' with
    | known hp' => exact .unknown ho (by simpa using ho')
    | unknown _ ho'' => exact .unknown ho ho''

/-- A part that is written as missing is held like one that is left out. -/
theorem held_missing {tag : Option String} {before after : List (String × Value)} {name : String}
    (h : name ∉ (before ++ after).map Prod.fst) (other : String) :
    held ⟨tag, before ++ after⟩ other = held ⟨tag, before ++ (name, .null) :: after⟩ other := by
  by_cases hother : other = name
  · subst hother
    have hnone : ∀ fields : List (String × Value), other ∉ fields.map Prod.fst → fields.lookup other = none := by
      intro fields hfields
      rw [List.lookup_eq_none_iff]
      intro f hf
      rw [bne_iff_ne]
      rintro rfl
      exact hfields (List.mem_map_of_mem hf)
    rw [List.map_append, List.mem_append, not_or] at h
    unfold held Node.get?
    rw [List.lookup_append, List.lookup_append, List.lookup_cons_self, hnone before h.1, hnone after h.2]
    rfl
  · exact held_extra hother .null

theorem seenAlike_of_tolerance {n n' : Node} (h : Tolerance n n') : SeenAlike n n' := by
  cases h with
  | tagged hbare htagged => exact ⟨fun _ _ => .refl _, .unknown hbare htagged⟩
  | unknown hname hbare hextra =>
    refine ⟨fun other hother => ?_, .unknown hbare hextra⟩
    rw [held_extra (ne_of_mem_of_not_mem hother hname)]
    exact .refl _
  | missing hname hbare hextra =>
    refine ⟨fun other _ => ?_, .unknown hbare hextra⟩
    rw [held_missing hname]
    exact .refl _

theorem kept_seenAlike : Kept Tolerance SeenAlike where
  equivalence := {
    refl := fun _ => ⟨fun _ _ => .refl _, sameChoice_refl _⟩
    symm := fun h => ⟨fun name hname => (h.part name hname).symm, h.choice.symm⟩
    trans := fun h h' => ⟨fun name hname => (h.part name hname).trans (h'.part name hname), h.choice.trans h'.choice⟩ }
  changed := seenAlike_of_tolerance
  field := by
    intro tag before after name v v' h
    refine ⟨fun other _ => held_field h other, ?_⟩
    match tag, before, after with
    | none, [], [] => exact .known (.some h)
    | none, [], _ :: _ => exact .unknown (by simp [choice?]) (by simp [choice?])
    | none, _ :: _, _ => exact .unknown (by simp [choice?]) (by simp [choice?])
    | some _, _, _ => exact .unknown (by simp [choice?]) (by simp [choice?])

theorem Tolerated.parts {v v' : Value} (h : Tolerated v v') : Parted Tolerated SeenAlike v v' :=
  Anywhere.parts kept_seenAlike h

/-! ## Parts of related documents -/

/-- related documents that nest no deeper than this, but for `null`, which is what a missing part counts as -/
structure Near (d d' : Nat) (v v' : Value) : Prop where
  same : Tolerated v v'
  fits : v = .null ∨ v.depth ≤ d
  fits' : v' = .null ∨ v'.depth ≤ d'

variable {d d' : Nat}

theorem Near.mono {v v' : Value} (h : Near d d' v v') : Near (d + 1) (d' + 1) v v' :=
  ⟨h.same, h.fits.imp_right fun h => by omega, h.fits'.imp_right fun h => by omega⟩

theorem Near.symm {v v' : Value} (h : Near d d' v v') : Near d' d v' v := ⟨h.same.symm, h.fits', h.fits⟩

theorem Near.null_iff {v v' : Value} (h : Near d d' v v') : v = .null ↔ v' = .null := by
  cases h.same.parts with
  | leaf => exact .rfl
  | array => simp
  | object => simp

/-- No document nests within depth 0. -/
theorem Near.unread {v v' : Value} (h : Near 0 d' v v') : v = .null ∧ v' = .null := by
  have hnull : v = .null := h.fits.resolve_right (by have := depth_pos v; omega)
  exact ⟨hnull, h.null_iff.1 hnull⟩

theorem held_fits {n : Node} (h : (Value.object n).depth ≤ d + 1) (name : String) :
    held n name = .null ∨ (held n name).depth ≤ d := by
  unfold held
  cases hget : n.get? name with
  | none => exact .inl rfl
  | some v =>
    have hlt := Node.depth_lt_of_get? hget
    exact .inr (by simpa using Nat.le_of_lt_succ (Nat.lt_of_lt_of_le hlt h))

/-- the parts under these names are related one by one, where a part that is left out counts as `null` -/
def NearParts (d d' : Nat) (names : List String) (g g' : String → Option Value) : Prop :=
  ∀ name ∈ names, Near d d' ((g name).getD .null) ((g' name).getD .null)

/-- both have parts under these names, that are related, or neither has -/
inductive SameParts (d d' : Nat) (names : List String) :
    Option (List (Option Value)) → Option (List (Option Value)) → Prop where
  | none : SameParts d d' names none none
  | some (g g' : String → Option Value) : NearParts d d' names g g' →
      SameParts d d' names (some (names.map g)) (some (names.map g'))

theorem Near.members {v v' : Value} (h : Near (d + 1) (d' + 1) v v') {names : List String}
    (hnames : ∀ name ∈ names, name ∈ partNames) : SameParts d d' names (members? names v) (members? names v') := by
  obtain ⟨hsame, hfits, hfits'⟩ := h
  cases hsame.parts with
  | leaf hnode => cases v <;> first | exact .none | cases hnode
  | array => exact .none
  | object hnodes =>
    replace hfits := hfits.resolve_left (by simp)
    replace hfits' := hfits'.resolve_left (by simp)
    refine .some _ _ fun name hname => ?_
    exact ⟨hnodes.part name (hnames name hname), held_fits hfits name, held_fits hfits' name⟩

theorem near_items {items items' : List Value} (h : List.Forall₂ Tolerated items items')
    (hfits : ∀ v ∈ items, v.depth ≤ d) (hfits' : ∀ v ∈ items', v.depth ≤ d') :
    List.Forall₂ (Near d d') items items' := by
  induction h with
  | nil => exact .nil
  | cons hv _ ih =>
    obtain ⟨hfirst, hrest⟩ := List.forall_mem_cons.1 hfits
    obtain ⟨hfirst', hrest'⟩ := List.forall_mem_cons.1 hfits'
    exact .cons ⟨hv, .inr hfirst, .inr hfirst'⟩ (ih hrest hrest')

theorem Near.items {v v' : Value} (h : Near (d + 1) (d' + 1) v v') :
    Option.Rel (List.Forall₂ (Near d d')) v.items? v'.items? := by
  obtain ⟨hsame, hfits, hfits'⟩ := h
  cases hsame.parts with
  | leaf _ hitems =>
    rw [hitems]
    exact .none
  | object => exact .none
  | array hitems =>
    simp only [reduceCtorEq, false_or, Value.depth] at hfits hfits'
    refine .some (near_items hitems ?_ ?_)
    · intro v hv
      exact Nat.le_trans (depth_le_depthOfItems hv) (by omega)
    · intro v hv
      exact Nat.le_trans (depth_le_depthOfItems hv) (by omega)

/-- The parts of a structure that is written as an array, by name. -/
theorem map_getElem?_idxOf {names : List String} (hnames : names.Nodup) {items : List Value}
    (hlength : items.length = names.length) : names.map (fun name => items[names.idxOf name]?) = items.map some := by
  apply List.ext_getElem
  · simp [hlength]
  · intro i hi hi'
    simp only [List.length_map] at hi hi'
    simp [hnames.idxOf_getElem i hi, hi']

theorem parts?_array (names : List String) (items : List Value) :
    parts? names (.array items) = if items.length = names.length then some (items.map some) else none := rfl

theorem Near.parts {v v' : Value} (h : Near (d + 1) (d' + 1) v v') {names : List String} (hdistinct : names.Nodup)
    (hnames : ∀ name ∈ names, name ∈ partNames) : SameParts d d' names (parts? names v) (parts? names v') := by
  rcases rel_cases h.items with ⟨hnone, hnone'⟩ | ⟨items, items', hi, hi', hnear⟩
  · have hmembers : ∀ w : Value, w.items? = none → parts? names w = members? names w := by
      intro w hw
      cases w with
      | array => cases hw
      | _ => rfl
    rw [hmembers v hnone, hmembers v' hnone']
    exact h.members hnames
  · cases v <;> cases hi
    cases v' <;> cases hi'
    have hlength := hnear.length_eq
    rw [parts?_array, parts?_array, ← hlength]
    split
    · rename_i hcount
      rw [← map_getElem?_idxOf hdistinct hcount, ← map_getElem?_idxOf hdistinct (hlength ▸ hcount)]
      refine .some _ _ fun name hname => ?_
      have hindex : names.idxOf name < items.length := by
        rw [hcount]
        exact List.idxOf_lt_length_of_mem hname
      rw [List.getElem?_eq_getElem hindex, List.getElem?_eq_getElem (hlength ▸ hindex)]
      exact (List.forall₂_iff_get.1 hnear).2 _ hindex (hlength ▸ hindex)
    · exact .none

/-- The payload of a choice is less deep. -/
theorem depth_payload_lt {v w : Value} {name : String} (h : choice? v = some (name, some w)) : w.depth < v.depth := by
  match v, h with
  | .object ⟨none, [(_, payload)]⟩, h =>
    obtain rfl : payload = w := by simpa [choice?] using congrArg (Option.bind · Prod.snd) h
    simp [Value.depth, depthOfFields]

/-- two choices of one alternative with payloads that are related, or of none that is known -/
theorem Near.choice {v v' : Value} (h : Near (d + 1) (d' + 1) v v') :
    (∃ name p p', choice? v = some (name, p) ∧ choice? v' = some (name, p') ∧ Option.Rel (Near d d') p p') ∨
      (∀ c ∈ choice? v, c.1 ∉ alternatives) ∧ ∀ c ∈ choice? v', c.1 ∉ alternatives := by
  obtain ⟨hsame, hfits, hfits'⟩ := h
  cases hsame.parts with
  | leaf hnode hitems =>
    cases v with
    | string name => exact .inl ⟨name, none, none, rfl, rfl, .none⟩
    | object => cases hnode
    | _ => exact .inr ⟨by simp [choice?], by simp [choice?]⟩
  | array => exact .inr ⟨by simp [choice?], by simp [choice?]⟩
  | @object n n' hnodes =>
    replace hfits := hfits.resolve_left (by simp)
    replace hfits' := hfits'.resolve_left (by simp)
    have hchoice := hnodes.choice
    generalize ho : choice? (.object n) = o, ho' : choice? (.object n') = o' at hchoice
    cases hchoice with
    | unknown hname hname' => exact .inr ⟨hname, hname'⟩
    | @known name p p' hp =>
      refine .inl ⟨name, p, p', rfl, rfl, ?_⟩
      cases hp with
      | none => exact .none
      | some hw =>
        have hlt := depth_payload_lt ho
        have hlt' := depth_payload_lt ho'
        exact .some ⟨hw, .inr (by omega), .inr (by omega)⟩

end Graft.Exchange
