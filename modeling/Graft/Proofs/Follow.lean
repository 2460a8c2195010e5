/-
What attempts have in common with the attempts they are built from.

- `Yields x P`: every result of an attempt is one of `P`.
- `Follows P x y`: two attempts are the same, and every fault that they raise is one of `P`.
- `Seamless tag blank F`: an attempt that depends on what stands at a place. With any node of the tag at the place it
  does what it does with the blank, but for one note of that node; or what stands there makes no difference at all.

Each is kept by the ways of building attempts. For `Seamless` this holds where a step uses the place once: either the
first attempt depends on it or what comes after, but not both.
-/
import Mathlib.Data.List.Forall2
import Graft.Convert.Attempt
import Graft.Document.Printer

namespace Graft.Convert

open Graft.Document

namespace Attempt

variable {α β : Type}

/-! ## Results of an attempt -/

/-- every result of the attempt, in either mode, is one of these -/
def Yields (x : Attempt α) (P : α → Prop) : Prop := ∀ mode a, (x mode).result = .ok a → P a

theorem yields_pure {a : α} {P : α → Prop} (h : P a) : Yields (pure a) P := by
  intro mode b hb
  cases hb
  exact h

theorem yields_bind {x : Attempt α} {f : α → Attempt β} {Q : α → Prop} {P : β → Prop} (hx : Yields x Q)
    (hf : ∀ a, Q a → Yields (f a) P) : Yields (x >>= f) P := by
  intro mode b hb
  rw [outcome_bind] at hb
  cases hr : (x mode).result with
  | error fault => rw [hr] at hb; cases hb
  | ok a => rw [hr] at hb; exact hf a (hx mode a hr) mode b hb

/-- What comes last decides. -/
theorem yields_then {x : Attempt α} {f : α → Attempt β} {P : β → Prop} (hf : ∀ a, Yields (f a) P) :
    Yields (x >>= f) P := yields_bind (fun _ _ _ => trivial) fun a _ => hf a

theorem yields_map {x : Attempt α} {g : α → β} {P : β → Prop} (h : ∀ a, P (g a)) : Yields (g <$> x) P := by
  rw [map_eq_pure_bind]
  exact yields_then fun a => yields_pure (h a)

theorem Yields.map {x : Attempt α} {g : α → β} {Q : α → Prop} {P : β → Prop} (hx : Yields x Q)
    (h : ∀ a, Q a → P (g a)) : Yields (g <$> x) P := by
  rw [map_eq_pure_bind]
  exact yields_bind hx fun a ha => yields_pure (h a ha)

theorem Yields.mono {x : Attempt α} {P Q : α → Prop} (hx : Yields x P) (hPQ : ∀ a, P a → Q a) : Yields x Q :=
  fun mode a ha => hPQ a (hx mode a ha)

theorem yields_fail {fault : Fault} {P : α → Prop} : Yields (fail fault) P := by
  intro mode a ha
  cases ha

theorem yields_ofExcept {r : Except Fault α} {P : α → Prop} (h : ∀ a, r = .ok a → P a) : Yields (ofExcept r) P := by
  cases r with
  | error fault => exact yields_fail
  | ok a => exact yields_pure (h a rfl)

/-- What a node needs is what it has. -/
theorem yields_need {n : Node} {d : Defect} {o : Option α} {P : α → Prop} (h : ∀ a, o = some a → P a) :
    Yields (orDefect n d o) P := by
  cases o with
  | none => exact yields_fail
  | some a => exact yields_pure (h a rfl)

/-- Every result is one of permissive mode. -/
theorem yields_of_permissive {x : Attempt α} {P : α → Prop} (h : ∀ a, (x .permissive).result = .ok a → P a) :
    Yields x P := by
  intro mode a ha
  cases mode with
  | permissive => exact h a ha
  | strict =>
    rw [outcome_strict] at ha
    unfold Outcome.upToFirst at ha
    split at ha
    · exact h a ha
    · cases ha

theorem yields_contain {fallback : α} {x : Attempt α} {P : α → Prop} (hfallback : P fallback) (hx : Yields x P) :
    Yields (contain fallback x) P := by
  refine yields_of_permissive fun a ha => ?_
  rw [outcome_contain] at ha
  cases hr : (x .permissive).result with
  | error fault =>
    rw [hr] at ha
    cases ha
    exact hfallback
  | ok b =>
    rw [hr] at ha
    exact hx .permissive a ha

/-- A property of all results of the items is one of the results of the list. -/
theorem yields_gather {f : α → Attempt (List β)} {items : List α} {P : β → Prop}
    (hf : ∀ a ∈ items, Yields (f a) fun bs => ∀ b ∈ bs, P b) : Yields (gather f items) fun bs => ∀ b ∈ bs, P b := by
  induction items with
  | nil => exact yields_pure nofun
  | cons a items ih =>
    refine yields_bind (hf a List.mem_cons_self) fun first hfirst => ?_
    refine yields_bind (ih fun b hb => hf b (List.mem_cons_of_mem _ hb)) fun rest hrest => ?_
    exact yields_pure (List.forall_mem_append.2 ⟨hfirst, hrest⟩)

theorem yields_mapM {f : α → Attempt β} {items : List α} {P : β → Prop} (hf : ∀ a ∈ items, Yields (f a) P) :
    Yields (items.mapM f) fun bs => ∀ b ∈ bs, P b := by
  induction items with
  | nil => exact yields_pure nofun
  | cons a items ih =>
    rw [List.mapM_cons]
    refine yields_bind (hf a List.mem_cons_self) fun first hfirst => ?_
    refine yields_bind (ih fun b hb => hf b (List.mem_cons_of_mem _ hb)) fun rest hrest => ?_
    exact yields_pure (List.forall_mem_cons.2 ⟨hfirst, hrest⟩)

/-- What comes after an attempt is to be known for its results alone. -/
theorem Yields.bind_congr {x : Attempt α} {f g : α → Attempt β} {P : α → Prop} (hx : Yields x P)
    (h : ∀ a, P a → f a = g a) : x >>= f = x >>= g := by
  ext1 mode
  rw [outcome_bind, outcome_bind]
  cases hr : (x mode).result with
  | error fault => rfl
  | ok a => simp only [h a (hx mode a hr)]

/-- Two attempts in a row have a result exactly if the first has one and the second has it from there. -/
theorem result_bind_iff {x : Attempt α} {f : α → Attempt β} {mode : Mode} {b : β} :
    ((x >>= f) mode).result = .ok b ↔ ∃ a, (x mode).result = .ok a ∧ (f a mode).result = .ok b := by
  rw [outcome_bind]
  cases (x mode).result <;> simp

/-- An attempt fails exactly if nothing is its result. -/
theorem fails_iff {x : Attempt α} {mode : Mode} :
    (∃ fault, (x mode).result = .error fault) ↔ ∀ a, (x mode).result ≠ .ok a := by
  cases (x mode).result <;> simp

/-- The results of a list are those of its items, one by one. -/
theorem result_mapM_iff {f : α → Attempt β} {mode : Mode} {items : List α} {results : List β} :
    (items.mapM f mode).result = .ok results ↔ List.Forall₂ (fun a b => (f a mode).result = .ok b) items results := by
  induction items generalizing results with
  | nil => cases results <;> simp
  | cons a items ih =>
    simp only [List.mapM_cons, result_bind_iff, ih]
    constructor
    · rintro ⟨b, hb, results, hresults, h⟩
      cases h
      exact .cons hb hresults
    · rintro (_ | ⟨hb, hresults⟩)
      exact ⟨_, hb, _, hresults, rfl⟩

/-- Going through a list gives what its items give, one after the other. -/
theorem result_gather_iff {f : α → Attempt (List β)} {mode : Mode} {items : List α} {results : List β} :
    (gather f items mode).result = .ok results ↔
      ∃ parts, List.Forall₂ (fun a part => (f a mode).result = .ok part) items parts ∧ results = parts.flatten := by
  induction items generalizing results with
  | nil => simp [gather, eq_comm]
  | cons a items ih =>
    simp only [gather, result_bind_iff, ih]
    constructor
    · rintro ⟨part, hpart, rest, ⟨parts, hparts, rfl⟩, h⟩
      cases h
      exact ⟨part :: parts, .cons hpart hparts, rfl⟩
    · rintro ⟨_, _ | ⟨hpart, hparts⟩, rfl⟩
      exact ⟨_, hpart, _, ⟨_, hparts, rfl⟩, rfl⟩

/-- Going through a list fails exactly if it fails at an item. -/
theorem gather_fails_iff (f : α → Attempt (List β)) (items : List α) {mode : Mode} :
    (∃ fault, (gather f items mode).result = .error fault) ↔ ∃ a ∈ items, ∃ fault, (f a mode).result = .error fault := by
  induction items with
  | nil => simp [gather]
  | cons a items ih =>
    simp only [gather, outcome_bind, List.exists_mem_cons_iff, ← ih]
    cases hfirst : (f a mode).result with
    | error fault => simp
    | ok bs => cases hrest : (gather f items mode).result <;> simp

/-- Where every item gives something, the notes are those of the items. -/
theorem notes_gather {f : α → Attempt (List β)} {mode : Mode} {items : List α} {results : List β}
    (h : (gather f items mode).result = .ok results) :
    (gather f items mode).notes = items.flatMap fun a => (f a mode).notes := by
  induction items generalizing results with
  | nil => rfl
  | cons a items ih =>
    obtain ⟨part, hpart, h⟩ := result_bind_iff.1 h
    obtain ⟨rest, hrest, -⟩ := result_bind_iff.1 h
    rw [gather, outcome_bind, hpart]
    simp only [outcome_bind, hrest]
    simp [ih hrest]

/-! ## Faults of an attempt -/

/-- permissive mode notes the fault or ends with it -/
def Raises (x : Attempt α) (fault : Fault) : Prop :=
  fault ∈ (x .permissive).notes ∨ (x .permissive).result = .error fault

/-- What strict mode ends with, permissive mode ends with or notes first. -/
theorem raises_of_mode {x : Attempt α} {mode : Mode} {fault : Fault}
    (h : fault ∈ (x mode).notes ∨ (x mode).result = .error fault) : Raises x fault := by
  cases mode with
  | permissive => exact h
  | strict =>
    rw [outcome_strict] at h
    rcases h with h | h
    · rw [Outcome.notes_upToFirst] at h
      cases h
    · unfold Outcome.upToFirst at h
      split at h
      · exact .inr h
      · rename_i first rest hnotes
        have hfirst : first = fault := Except.error.inj h
        refine .inl ?_
        rw [hnotes, ← hfirst]
        exact List.mem_cons_self

/-- What comes second raises a fault after a result of the first only. -/
theorem raises_bind_ok {x : Attempt α} {f : α → Attempt β} {fault : Fault} (h : Raises (x >>= f) fault) :
    Raises x fault ∨ ∃ a, (x .permissive).result = .ok a ∧ Raises (f a) fault := by
  unfold Raises at h ⊢
  rw [outcome_bind] at h
  cases hx : (x .permissive).result with
  | error found =>
    rw [hx] at h
    rcases h with h | h
    · exact .inl (.inl h)
    · cases h
      exact .inl (.inr rfl)
  | ok a =>
    rw [hx] at h
    rcases h with h | h
    · rcases List.mem_append.1 h with h | h
      · exact .inl (.inl h)
      · exact .inr ⟨a, rfl, .inl h⟩
    · exact .inr ⟨a, rfl, .inr h⟩

theorem raises_bind {x : Attempt α} {f : α → Attempt β} {fault : Fault} (h : Raises (x >>= f) fault) :
    Raises x fault ∨ ∃ a, Raises (f a) fault :=
  (raises_bind_ok h).imp_right fun ⟨a, _, h⟩ => ⟨a, h⟩

/-- What a list raises is raised by an item of it. -/
theorem raises_gather {f : α → Attempt (List β)} {items : List α} {fault : Fault} (h : Raises (gather f items) fault) :
    ∃ a ∈ items, Raises (f a) fault := by
  induction items with
  | nil => rcases h with h | h <;> cases h
  | cons a items ih =>
    rcases raises_bind h with h | ⟨_, h⟩
    · exact ⟨a, List.mem_cons_self, h⟩
    · rcases raises_bind h with h | ⟨_, h⟩
      · obtain ⟨b, hb, h⟩ := ih h
        exact ⟨b, List.mem_cons_of_mem _ hb, h⟩
      · rcases h with h | h <;> cases h

theorem raises_contain {fallback : α} {x : Attempt α} {fault : Fault} (h : Raises (contain fallback x) fault) :
    Raises x fault := by
  unfold Raises at h ⊢
  rw [outcome_contain] at h
  cases hx : (x .permissive).result with
  | error found =>
    simp only [hx, List.mem_append, List.mem_singleton, reduceCtorEq, or_false] at h
    rcases h with h | rfl
    · exact .inl h
    · exact .inr rfl
  | ok a =>
    rw [hx] at h
    rw [← hx]
    exact h

/-! ## Attempts that are the same -/

/-- the attempts are the same, and raise such faults only -/
structure Follows (P : Fault → Prop) (x y : Attempt α) : Prop where
  same : x = y
  raises : ∀ fault, Raises x fault → P fault

variable {P : Fault → Prop}

theorem follows_pure (a : α) : Follows P (pure a) (pure a) :=
  ⟨rfl, fun fault h => by rcases h with h | h <;> cases h⟩

theorem follows_fail {fault : Fault} (h : P fault) : Follows P (fail fault : Attempt α) (fail fault) := by
  refine ⟨rfl, fun found hfound => ?_⟩
  rcases hfound with hfound | hfound <;> cases hfound
  exact h

theorem follows_anomaly {fault : Fault} (h : P fault) : Follows P (anomaly fault) (anomaly fault) := by
  refine ⟨rfl, fun found hfound => ?_⟩
  rcases hfound with hfound | hfound
  · simp only [outcome_anomaly, List.mem_singleton] at hfound
    exact hfound ▸ h
  · cases hfound

/-- What comes second is to be followed from the results of the first only. -/
theorem follows_bind_yields {Q : α → Prop} {x y : Attempt α} {f g : α → Attempt β} (hx : Follows P x y)
    (hQ : Yields x Q) (hf : ∀ a, Q a → Follows P (f a) (g a)) : Follows P (x >>= f) (y >>= g) := by
  constructor
  · rw [← hx.same]
    exact hQ.bind_congr fun a ha => (hf a ha).same
  · intro fault h
    rcases raises_bind_ok h with h | ⟨a, ha, h⟩
    · exact hx.raises fault h
    · exact (hf a (hQ .permissive a ha)).raises fault h

theorem follows_bind {x y : Attempt α} {f g : α → Attempt β} (hx : Follows P x y) (hf : ∀ a, Follows P (f a) (g a)) :
    Follows P (x >>= f) (y >>= g) :=
  follows_bind_yields hx (Q := fun _ => True) (fun _ _ _ => trivial) fun a _ => hf a

theorem follows_contain (fallback : α) {x y : Attempt α} (h : Follows P x y) :
    Follows P (contain fallback x) (contain fallback y) :=
  ⟨by rw [h.same], fun fault hfault => h.raises fault (raises_contain hfault)⟩

theorem follows_gather {f g : α → Attempt (List β)} {items : List α} (h : ∀ a ∈ items, Follows P (f a) (g a)) :
    Follows P (gather f items) (gather g items) := by
  induction items with
  | nil => exact follows_pure []
  | cons a items ih =>
    refine follows_bind (h a List.mem_cons_self) fun _ => follows_bind (ih fun b hb => h b ?_) fun _ => follows_pure _
    exact List.mem_cons_of_mem _ hb

theorem Follows.mono {Q : Fault → Prop} {x y : Attempt α} (h : Follows P x y) (hPQ : ∀ fault, P fault → Q fault) :
    Follows Q x y :=
  ⟨h.same, fun fault hfault => hPQ fault (h.raises fault hfault)⟩

/-! ## Attempts with a place -/

/-- a node of the tag at the place is noted once and makes no other difference, or makes no difference at all -/
inductive Seamless (tag : String) (blank : Value) (F : Value → Attempt α) : Prop where
  | idle : (∀ o : Node, o.tag = some tag → F (.object o) .permissive = F blank .permissive) → Seamless tag blank F
  | once (first last : List Fault) (result : Except Fault α) : F blank .permissive = ⟨first ++ last, result⟩ →
      (∀ o : Node, o.tag = some tag →
        F (.object o) .permissive = ⟨first ++ .unknown tag o :: last, result⟩) → Seamless tag blank F

variable {tag : String} {blank : Value}

theorem seamless_const (x : Attempt α) : Seamless tag blank fun _ => x := .idle fun _ _ => rfl

/-- Only what may stand at the place matters. -/
theorem Seamless.congr {F G : Value → Attempt α} (hG : Seamless tag blank G) (hblank : F blank = G blank)
    (hnode : ∀ o : Node, o.tag = some tag → F (.object o) = G (.object o)) : Seamless tag blank F := by
  cases hG with
  | idle h => exact .idle fun o ho => by rw [hblank, hnode o ho, h o ho]
  | once first last result h h' =>
    refine .once first last result ?_ fun o ho => ?_
    · rw [hblank, h]
    · rw [hnode o ho, h' o ho]

theorem seamless_bind_left {F : Value → Attempt α} (g : α → Attempt β) (h : Seamless tag blank F) :
    Seamless tag blank fun w => F w >>= g := by
  cases h with
  | idle h => exact .idle fun o ho => by rw [outcome_bind, outcome_bind, h o ho]
  | once first last result h h' =>
    cases result with
    | error fault =>
      refine .once first last (.error fault) ?_ fun o ho => ?_
      · rw [outcome_bind, h]
      · rw [outcome_bind, h' o ho]
    | ok a =>
      refine .once first (last ++ (g a .permissive).notes) (g a .permissive).result ?_ fun o ho => ?_
      · rw [outcome_bind, h]
        simp [Outcome.after]
      · rw [outcome_bind, h' o ho]
        simp [Outcome.after]

theorem seamless_bind_right (x : Attempt α) {G : α → Value → Attempt β} (h : ∀ a, Seamless tag blank (G a)) :
    Seamless tag blank fun w => x >>= fun a => G a w := by
  cases hx : (x .permissive).result with
  | error fault => exact .idle fun o ho => by rw [outcome_bind, outcome_bind, hx]
  | ok a =>
    cases h a with
    | idle h => exact .idle fun o ho => by rw [outcome_bind, outcome_bind, hx]; simp only [h o ho]
    | once first last result h h' =>
      refine .once ((x .permissive).notes ++ first) last result ?_ fun o ho => ?_
      · rw [outcome_bind, hx]
        simp [h, Outcome.after]
      · rw [outcome_bind, hx]
        simp [h' o ho, Outcome.after]

end Attempt

end Graft.Convert
