/-
Two attempts that do the same, up to what two documents may tell apart.

Two documents that are to be converted alike can show in the faults all the same: the fault of an unknown tag writes the
whole node out, with every spelling in it, and a fault says where its node stands. A view leaves such things away.
`Fault.withoutSubtree` drops the written node and nothing else, `Fault.withoutPlace` the position too. `AlikeUpTo view R x y`
says of two attempts that in permissive mode they note the same faults and end alike, up to the view, with results related
by `R`; `AlikeUpTo.strict` carries it over to strict mode. `Alike` is this for attempts that differ in written nodes only.

Each way of building attempts keeps this (`alike_bind`, `alike_contain`, `alike_gather`). Where the results are equal and
not only related, `alike_then` goes on with one result instead of two.
-/
import Mathlib.Data.List.Forall2
import Graft.Convert.Attempt

namespace Graft.Convert

/-- the fault, without the node that is written out in it -/
def Fault.withoutSubtree : Fault → Fault
  | .unknownTag tag pos _ => .unknownTag tag pos ""
  | fault => fault

/-- the fault, without the node that is written out in it and without the position -/
def Fault.withoutPlace : Fault → Fault
  | .unknownTag tag _ _ => .unknownTag tag .unknown ""
  | .malformed tag defect _ => .malformed tag defect .unknown
  | fault => fault

/-- two endings: related results, or faults that are the same in the view -/
inductive EndsAlike {α β : Type} (view : Fault → Fault) (R : α → β → Prop) : Except Fault α → Except Fault β → Prop where
  | ok {a : α} {b : β} : R a b → EndsAlike view R (.ok a) (.ok b)
  | error {fault fault' : Fault} : view fault = view fault' → EndsAlike view R (.error fault) (.error fault')

namespace EndsAlike

variable {α β γ δ : Type} {view : Fault → Fault} {R : α → β → Prop} {S : γ → δ → Prop}

theorem bind {r : Except Fault α} {r' : Except Fault β} {f : α → Except Fault γ} {g : β → Except Fault δ}
    (h : EndsAlike view R r r') (hf : ∀ a b, R a b → EndsAlike view S (f a) (g b)) :
    EndsAlike view S (r >>= f) (r' >>= g) := by
  cases h with
  | ok hab => exact hf _ _ hab
  | error hfault => exact .error hfault

theorem map {r : Except Fault α} {r' : Except Fault β} {f : α → γ} {g : β → δ} (h : EndsAlike view R r r')
    (hf : ∀ a b, R a b → S (f a) (g b)) : EndsAlike view S (r.map f) (r'.map g) := by
  cases h with
  | ok hab => exact .ok (hf _ _ hab)
  | error hfault => exact .error hfault

theorem imp {S : α → β → Prop} {r : Except Fault α} {r' : Except Fault β} (h : EndsAlike view R r r')
    (hRS : ∀ a b, R a b → S a b) : EndsAlike view S r r' := by
  cases h with
  | ok hab => exact .ok (hRS _ _ hab)
  | error hfault => exact .error hfault

theorem mapM {f : α → Except Fault γ} {g : β → Except Fault δ} {as : List α} {bs : List β} (h : List.Forall₂ R as bs)
    (hf : ∀ a b, R a b → EndsAlike view S (f a) (g b)) : EndsAlike view (List.Forall₂ S) (as.mapM f) (bs.mapM g) := by
  induction h with
  | nil => exact .ok .nil
  | cons hab _ ih =>
    rw [List.mapM_cons, List.mapM_cons]
    refine (hf _ _ hab).bind fun first first' hfirst => ?_
    exact ih.bind fun rest rest' hrest => .ok (.cons hfirst hrest)

end EndsAlike

/-- two outcomes with the same notes and the same ending, in the view -/
structure Outcome.AlikeUpTo {α β : Type} (view : Fault → Fault) (R : α → β → Prop) (o : Outcome α) (o' : Outcome β) :
    Prop where
  notes : o.notes.map view = o'.notes.map view
  result : EndsAlike view R o.result o'.result

namespace Outcome

variable {α β : Type} {view : Fault → Fault} {R : α → β → Prop} {o : Outcome α} {o' : Outcome β}

theorem AlikeUpTo.after (h : Outcome.AlikeUpTo view R o o') {notes notes' : List Fault}
    (hnotes : notes.map view = notes'.map view) : Outcome.AlikeUpTo view R (o.after notes) (o'.after notes') := by
  refine ⟨?_, h.result⟩
  simp only [Outcome.after, List.map_append, hnotes, h.notes]

/-- The first notes of two outcomes that are alike are alike themselves. -/
theorem AlikeUpTo.upToFirst (h : Outcome.AlikeUpTo view R o o') :
    Outcome.AlikeUpTo view R o.upToFirst o'.upToFirst := by
  obtain ⟨notes, result⟩ := o
  obtain ⟨notes', result'⟩ := o'
  have hnotes : notes.map view = notes'.map view := h.notes
  cases notes with
  | nil =>
    obtain rfl : notes' = [] := List.map_eq_nil_iff.1 hnotes.symm
    exact h
  | cons fault rest =>
    cases notes' with
    | nil => cases hnotes
    | cons fault' rest' =>
      have hfirst : view fault = view fault' := (List.cons.inj hnotes).1
      exact ⟨rfl, .error hfirst⟩

/-- Outcomes with equal results are equal in the view. -/
theorem AlikeUpTo.eq {o o' : Outcome α} (h : Outcome.AlikeUpTo view Eq o o') :
    o.result.mapError view = o'.result.mapError view ∧ o.notes.map view = o'.notes.map view := by
  obtain ⟨notes, result⟩ := o
  obtain ⟨notes', result'⟩ := o'
  obtain ⟨hnotes, hend⟩ := h
  refine ⟨?_, hnotes⟩
  cases hend with
  | ok heq => rw [heq]
  | error hfault => exact congrArg Except.error hfault

end Outcome

namespace Attempt

variable {α β γ δ : Type} {view : Fault → Fault} {R : α → β → Prop} {S : γ → δ → Prop}

/-- the attempts do the same in permissive mode, in the view, with results that are related -/
def AlikeUpTo (view : Fault → Fault) (R : α → β → Prop) (x : Attempt α) (y : Attempt β) : Prop :=
  Outcome.AlikeUpTo view R (x .permissive) (y .permissive)

/-- the attempts do the same, but for written nodes -/
abbrev Alike (R : α → β → Prop) (x : Attempt α) (y : Attempt β) : Prop := AlikeUpTo Fault.withoutSubtree R x y

/-- Strict mode follows permissive mode up to the first note, so that attempts are alike in both. -/
theorem AlikeUpTo.strict {x : Attempt α} {y : Attempt β} (h : AlikeUpTo view R x y) :
    Outcome.AlikeUpTo view R (x .strict) (y .strict) := by
  rw [outcome_strict, outcome_strict]
  exact Outcome.AlikeUpTo.upToFirst h

theorem AlikeUpTo.outcome {x : Attempt α} {y : Attempt β} (h : AlikeUpTo view R x y) (mode : Mode) :
    Outcome.AlikeUpTo view R (x mode) (y mode) := by
  cases mode with
  | permissive => exact h
  | strict => exact h.strict

theorem alike_pure {a : α} {b : β} (h : R a b) : AlikeUpTo view R (pure a) (pure b) := ⟨rfl, .ok h⟩

theorem alike_fail {fault fault' : Fault} (h : view fault = view fault') :
    AlikeUpTo view R (fail fault) (fail fault') := ⟨rfl, .error h⟩

theorem alike_ofExcept {r : Except Fault α} {r' : Except Fault β} (h : EndsAlike view R r r') :
    AlikeUpTo view R (ofExcept r) (ofExcept r') := by
  cases h with
  | ok hab => exact alike_pure hab
  | error hfault => exact alike_fail hfault

theorem alike_anomaly {fault fault' : Fault} (h : view fault = view fault') :
    AlikeUpTo view Eq (anomaly fault) (anomaly fault') := by
  refine ⟨?_, ?_⟩
  · rw [outcome_anomaly, outcome_anomaly, List.map_singleton, List.map_singleton, h]
  · rw [outcome_anomaly, outcome_anomaly]
    exact .ok rfl

theorem alike_refl (x : Attempt α) : AlikeUpTo view Eq x x := by
  refine ⟨rfl, ?_⟩
  cases (x .permissive).result with
  | ok a => exact .ok rfl
  | error fault => exact .error rfl

theorem alike_of_eq {x y : Attempt α} (h : x = y) : AlikeUpTo view Eq x y := h ▸ alike_refl x

theorem alike_bind {x : Attempt α} {y : Attempt β} {f : α → Attempt γ} {g : β → Attempt δ} (hx : AlikeUpTo view R x y)
    (hf : ∀ a b, R a b → AlikeUpTo view S (f a) (g b)) : AlikeUpTo view S (x >>= f) (y >>= g) := by
  unfold AlikeUpTo
  rw [outcome_bind, outcome_bind]
  have hend := hx.result
  revert hend
  generalize (x .permissive).result = r, (y .permissive).result = r'
  intro hend
  cases hend with
  | error hfault => exact ⟨hx.notes, .error hfault⟩
  | ok hab => exact Outcome.AlikeUpTo.after (hf _ _ hab) hx.notes

/-- Equal results go on as one. -/
theorem alike_then {x y : Attempt α} {f : α → Attempt γ} {g : α → Attempt δ} (hx : AlikeUpTo view Eq x y)
    (hf : ∀ a, AlikeUpTo view S (f a) (g a)) : AlikeUpTo view S (x >>= f) (y >>= g) := by
  refine alike_bind hx fun a b hab => ?_
  rw [hab]
  exact hf b

/-- Related results stay related where both are changed alike. -/
theorem alike_map_of {x : Attempt α} {y : Attempt β} {f : α → γ} {g : β → δ} (hx : AlikeUpTo view R x y)
    (hf : ∀ a b, R a b → S (f a) (g b)) : AlikeUpTo view S (f <$> x) (g <$> y) := by
  rw [map_eq_pure_bind, map_eq_pure_bind]
  exact alike_bind hx fun a b hab => alike_pure (hf a b hab)

theorem alike_map {x y : Attempt α} (f : α → γ) (hx : AlikeUpTo view Eq x y) :
    AlikeUpTo view Eq (f <$> x) (f <$> y) :=
  alike_map_of hx fun _ _ hab => congrArg f hab

theorem alike_contain {fallback : α} {fallback' : β} (hfallback : R fallback fallback') {x : Attempt α} {y : Attempt β}
    (h : AlikeUpTo view R x y) : AlikeUpTo view R (contain fallback x) (contain fallback' y) := by
  unfold AlikeUpTo
  rw [outcome_contain, outcome_contain]
  have hend := h.result
  revert hend
  generalize hr : (x .permissive).result = r
  generalize hr' : (y .permissive).result = r'
  intro hend
  cases hend with
  | error hfault =>
    refine ⟨?_, .ok hfallback⟩
    rw [List.map_append, List.map_append, h.notes, List.map_singleton, List.map_singleton, hfault]
  | ok _ => exact h

/-- Lists of related items give related lists of results, item by item. -/
theorem alike_gather {f : α → Attempt (List γ)} {g : β → Attempt (List δ)} {as : List α} {bs : List β}
    (h : List.Forall₂ R as bs) (hf : ∀ a b, R a b → AlikeUpTo view (List.Forall₂ S) (f a) (g b)) :
    AlikeUpTo view (List.Forall₂ S) (gather f as) (gather g bs) := by
  induction h with
  | nil => exact alike_pure .nil
  | cons hab _ ih =>
    refine alike_bind (hf _ _ hab) fun first first' hfirst => ?_
    refine alike_bind ih fun rest rest' hrest => ?_
    exact alike_pure (List.rel_append hfirst hrest)

/-- Lists of related items give the same list of results where each item does. -/
theorem alike_gather_eq {f : α → Attempt (List γ)} {g : β → Attempt (List γ)} {as : List α} {bs : List β}
    (h : List.Forall₂ R as bs) (hf : ∀ a b, R a b → AlikeUpTo view Eq (f a) (g b)) :
    AlikeUpTo view Eq (gather f as) (gather g bs) := by
  have hitem : ∀ a b, R a b → AlikeUpTo view (List.Forall₂ Eq) (f a) (g b) := by
    intro a b hab
    rw [List.forall₂_eq_eq_eq]
    exact hf a b hab
  have hlist := alike_gather h hitem
  rwa [List.forall₂_eq_eq_eq] at hlist

theorem alike_mapM {f : α → Attempt γ} {g : β → Attempt δ} {as : List α} {bs : List β} (h : List.Forall₂ R as bs)
    (hf : ∀ a b, R a b → AlikeUpTo view S (f a) (g b)) :
    AlikeUpTo view (List.Forall₂ S) (as.mapM f) (bs.mapM g) := by
  induction h with
  | nil => exact alike_pure .nil
  | cons hab _ ih =>
    rw [List.mapM_cons, List.mapM_cons]
    refine alike_bind (hf _ _ hab) fun first first' hfirst => ?_
    refine alike_bind ih fun rest rest' hrest => ?_
    exact alike_pure (.cons hfirst hrest)

theorem alike_mapM_eq {f : α → Attempt γ} {g : β → Attempt γ} {as : List α} {bs : List β} (h : List.Forall₂ R as bs)
    (hf : ∀ a b, R a b → AlikeUpTo view Eq (f a) (g b)) : AlikeUpTo view Eq (as.mapM f) (bs.mapM g) := by
  have hlist := alike_mapM h hf
  rwa [List.forall₂_eq_eq_eq] at hlist

/-- What two nodes have, or lack and are blamed alike for in the view. -/
theorem alike_lack {n n' : Document.Node} {d : Defect} {o : Option α} {o' : Option β}
    (hblame : view (.of n d) = view (.of n' d)) (h : Option.Rel R o o') :
    AlikeUpTo view R (orDefect n d o) (orDefect n' d o') := by
  cases h with
  | none => exact alike_fail hblame
  | some hab => exact alike_pure hab

theorem alike_orDefect {n n' : Document.Node} {d : Defect} {o : Option α} {o' : Option β}
    (hblame : Fault.of n d = Fault.of n' d) (h : Option.Rel R o o') :
    AlikeUpTo view R (orDefect n d o) (orDefect n' d o') := alike_lack (congrArg view hblame) h

end Attempt

end Graft.Convert
