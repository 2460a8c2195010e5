/-
What the two modes make of one document.

Permissive mode goes on where strict mode stops, and that is all the difference between them. Permissive mode converts
every value: a part that cannot be converted is contained at the node around it and noted there, and so is everything
that gives nothing without saying that there is nothing. A whole document is refused only for its root.

- `convert_contains`: in permissive mode every value converts to a fragment, which does not depend on what was noted
  before and comes with notes of its own where the value is dropped; strict mode notes nothing at all; and a document is
  refused in permissive mode exactly when its root is no list of statements.
- `strict_iff_permissive`: strict mode gives the module of permissive mode where that notes nothing, and its first note
  as the fault otherwise.
-/
import Graft.Convert.Root
import Graft.Proofs.Follow

namespace Graft.Convert

open Graft.Document

namespace Attempt

variable {α β : Type}

/-! ## What strict mode leaves behind -/

/-- Strict mode notes nothing, however an attempt ends. -/
@[simp] theorem notes_strict (x : Attempt α) : (x .strict).notes = [] := by
  rw [outcome_strict]
  exact Outcome.notes_upToFirst _

theorem run_fresh (x : Attempt α) (mode : Mode) : x.run (.fresh mode) = ((x mode).result, ⟨mode, (x mode).notes⟩) :=
  x.run_eq (.fresh mode)

theorem run_strict (x : Attempt α) (notes : List Fault) :
    x.run ⟨.strict, notes⟩ = ((x .strict).result, ⟨.strict, notes⟩) := by
  rw [x.run_eq]
  simp

/-! ## Attempts that permissive mode never ends with a fault -/

/-- permissive mode has a result -/
def Lenient (x : Attempt α) : Prop := ∃ a, (x .permissive).result = .ok a

theorem Lenient.outcome {x : Attempt α} (h : Lenient x) : ∃ notes a, x .permissive = ⟨notes, .ok a⟩ := by
  obtain ⟨a, ha⟩ := h
  exact ⟨(x .permissive).notes, a, by rw [← ha]⟩

theorem lenient_pure (a : α) : Lenient (pure a) := ⟨a, rfl⟩

theorem lenient_anomaly (fault : Fault) : Lenient (anomaly fault) := ⟨(), rfl⟩

theorem lenient_contain (fallback : α) (x : Attempt α) : Lenient (contain fallback x) := by
  unfold Lenient
  rw [outcome_contain]
  cases hx : (x .permissive).result with
  | error fault => exact ⟨fallback, rfl⟩
  | ok a => exact ⟨a, hx⟩

theorem lenient_bind {x : Attempt α} {f : α → Attempt β} (hx : Lenient x) (hf : ∀ a, Lenient (f a)) :
    Lenient (x >>= f) := by
  obtain ⟨a, ha⟩ := hx
  obtain ⟨b, hb⟩ := hf a
  refine ⟨b, ?_⟩
  rw [outcome_bind, ha]
  exact hb

theorem lenient_map {x : Attempt α} (g : α → β) (hx : Lenient x) : Lenient (g <$> x) := by
  rw [map_eq_pure_bind]
  exact lenient_bind hx fun a => lenient_pure (g a)

theorem lenient_gather {f : α → Attempt (List β)} (hf : ∀ a, Lenient (f a)) (items : List α) :
    Lenient (gather f items) := by
  induction items with
  | nil => exact lenient_pure []
  | cons a items ih => exact lenient_bind (hf a) fun _ => lenient_bind ih fun _ => lenient_pure _

end Attempt

open Attempt

/-! ## A node gives something or fails -/

/-- No construction gives nothing: where a node has nothing to give, it fails. -/
theorem construct_ne_absent (convert : Converter) (node : Node) (binding : Binding) (kind : Kind) :
    Yields (construct convert node binding kind) (· ≠ .absent) := by
  cases kind with
  | noneLiteral | string | unicode | bytes | passStat | sizeof =>
    exact yields_pure (by simp [Fragment.ofExpr, Fragment.ofStmt])
  | statList | cVarDef => exact yields_then fun _ => yields_then fun _ => yields_pure (by simp)
  | cDefExtern => exact yields_then fun _ => yields_pure (by simp [Fragment.ofStmts])
  | cascadedCmp => exact yields_then fun _ => yields_pure (by simp)
  | cEnumDef =>
    refine yields_then fun _ => yields_then fun _ => ?_
    split
    · exact yields_pure (by simp [Fragment.ofStmts])
    · exact yields_then fun _ => yields_pure (by simp [Fragment.ofStmt])
  | _ => exact yields_map fun _ => by simp [Fragment.ofExpr, Fragment.ofStmt]

/-- a conversion that accounts for what it drops: it has a result, and notes something where that is nothing -/
def Accounts (x : Attempt Fragment) : Prop :=
  ∃ notes fragment, x .permissive = ⟨notes, .ok fragment⟩ ∧ (fragment = .absent → notes ≠ [])

theorem Accounts.lenient {x : Attempt Fragment} (h : Accounts x) : Lenient x := by
  obtain ⟨notes, fragment, hx, -⟩ := h
  exact ⟨fragment, by rw [hx]⟩

/-- What is contained at a node is accounted for: a failure is noted, and a result is something. -/
theorem accounts_contain {x : Attempt Fragment} (hx : Yields x (· ≠ .absent)) : Accounts (contain .absent x) := by
  unfold Accounts
  rw [outcome_contain]
  cases hr : (x .permissive).result with
  | error fault => exact ⟨_, _, rfl, fun _ => by simp⟩
  | ok fragment =>
    have hsomething : fragment ≠ .absent := hx .permissive fragment hr
    exact ⟨(x .permissive).notes, fragment, by simp [← hr], fun h => absurd h hsomething⟩

theorem accounts_convertNode (convert : Converter) (node : Node) (binding : Binding) :
    Accounts (convertNode convert node binding) := by
  refine accounts_contain fun mode fragment h => ?_
  split at h
  · cases h
  · split at h
    · cases h
    · exact construct_ne_absent convert node binding _ mode fragment h

theorem lenient_convertItem {convert : Converter} (hc : ∀ v b, Lenient (convert v b)) (binding : Binding)
    (item : Value) : Lenient (convertItem convert binding item) := by
  refine lenient_bind (hc item binding) fun fragment => ?_
  cases fragment with
  | chain first rest => exact lenient_bind (lenient_anomaly _) fun _ => lenient_pure _
  | _ => exact lenient_pure _

theorem accounts_stray (value : Value) :
    Accounts (contain .absent (fail (.malformed value.kindName (.notANode value.kindName) .unknown))) :=
  accounts_contain fun _ _ h => by cases h

/-- At no depth does permissive mode end with a fault; the items of a list need it of the depth below. -/
theorem lenient_convertWithin (depth : Nat) (v : Value) (b : Binding) : Lenient (convertWithin depth v b) := by
  induction depth generalizing v b with
  | zero => exact lenient_pure _
  | succ depth ih =>
    cases hv : v.isAbsent with
    | true => rw [convertWithin_absent depth hv]; exact lenient_pure _
    | false =>
      cases v with
      | null => cases hv
      | object node => exact (accounts_convertNode _ node b).lenient
      | array items => exact lenient_map _ (lenient_gather (lenient_convertItem ih b) items)
      | _ => rw [convertWithin_stray depth hv rfl rfl]; exact lenient_contain _ _

theorem accounts_convertWithin (depth : Nat) (v : Value) (b : Binding) (hv : v.isAbsent = false) :
    Accounts (convertWithin (depth + 1) v b) := by
  cases v with
  | null => cases hv
  | object node => exact accounts_convertNode _ node b
  | array items =>
    obtain ⟨notes, pieces, h⟩ := (lenient_gather (lenient_convertItem (lenient_convertWithin depth) b) items).outcome
    refine ⟨notes, .group pieces, ?_, fun h => by cases h⟩
    rw [convertWithin_array, convertItems, map_eq_pure_bind, outcome_bind, h]
    simp [Outcome.after]
  | _ => rw [convertWithin_stray depth hv rfl rfl]; exact accounts_stray _

theorem lenient_convert (v : Value) (b : Binding) : Lenient (convert v b) := lenient_convertWithin _ v b

theorem accounts_convert {v : Value} (hv : v.isAbsent = false) (b : Binding) : Accounts (convert v b) := by
  obtain ⟨depth, hdepth⟩ := Nat.exists_eq_add_one.2 (depth_pos v)
  rw [convert, hdepth]
  exact accounts_convertWithin depth v b hv

/-! ## Documents -/

theorem lenient_topLevel (root : Node) (stat : Value) : Lenient (topLevel root stat) :=
  lenient_bind (lenient_convert stat .load) fun _ => lenient_contain _ _

/-- The statements of a document, once its root is accepted, are always converted. -/
theorem lenient_statements (root : Node) (stats : List Value) :
    Lenient (Module.mk <$> gather (topLevel root) stats) :=
  lenient_map _ (lenient_gather (lenient_topLevel root) stats)

/-- what makes the root of a document unfit: it is no list of statements, or its statements are no array -/
def Unfit (root : Node) : Prop :=
  root.isTagged statListTag = false ∨ ∃ stats, root.present? "stats" = some stats ∧ stats.items? = none

/-- A document is refused for its root, or converted statement by statement. -/
theorem convertModule_cases (root : Node) :
    (Unfit root ∧ ∃ fault, convertModule root = fail fault) ∨
      (¬ Unfit root ∧ ∃ stats, convertModule root = Module.mk <$> gather (topLevel root) stats) := by
  unfold convertModule itemsField Unfit
  cases htag : root.isTagged statListTag with
  | false => exact .inl ⟨.inl rfl, _, rfl⟩
  | true =>
    cases hstats : root.present? "stats" with
    | none => exact .inr ⟨by simp, [], by simp⟩
    | some stats =>
      cases hitems : stats.items? with
      | none =>
        refine .inl ⟨.inr ⟨stats, rfl, hitems⟩, .of root (.notAnArray "stats"), ?_⟩
        simp [hitems, orDefect]
      | some items => exact .inr ⟨by simp [hitems], items, by simp [hitems, orDefect]⟩

/-- Permissive mode refuses a document for its root only, and then notes nothing. -/
theorem convertModule_permissive (root : Node) :
    (Unfit root ∧ ∃ fault, convertModule root .permissive = ⟨[], .error fault⟩) ∨
      (¬ Unfit root ∧ ∃ notes m, convertModule root .permissive = ⟨notes, .ok m⟩) := by
  obtain ⟨h, fault, hroot⟩ | ⟨h, stats, hroot⟩ := convertModule_cases root
  · exact .inl ⟨h, fault, by rw [hroot]; rfl⟩
  · exact .inr ⟨h, by rw [hroot]; exact (lenient_statements root stats).outcome⟩

/-! ## Main results -/

/-- **Faults are contained, and none is lost.** Permissive mode converts every value, whatever was noted before: to the
same fragment and with the same new notes, of which there is one at least where the value says something and nothing
comes of it. It refuses a document exactly when the root is unfit. Strict mode leaves the notes as they are. -/
theorem convert_contains :
    (∀ v b, ∃ fragment noted,
      (∀ notes, (convert v b).run ⟨.permissive, notes⟩ = (.ok fragment, ⟨.permissive, notes ++ noted⟩)) ∧
        (fragment = .absent → v ≠ .null → v ≠ .string "None" → noted ≠ [])) ∧
    (∀ root notes, (∃ fault, ((convertModule root).run ⟨.permissive, notes⟩).1 = .error fault) ↔
      root.isTagged "StatList" = false ∨ ∃ stats, root.present? "stats" = some stats ∧ stats.items? = none) ∧
    (∀ v b notes, ((convert v b).run ⟨.strict, notes⟩).2 = ⟨.strict, notes⟩) ∧
    ∀ root notes, ((convertModule root).run ⟨.strict, notes⟩).2 = ⟨.strict, notes⟩ := by
  refine ⟨fun v b => ?_, fun root notes => ?_, fun v b notes => ?_, fun root notes => ?_⟩
  · obtain ⟨noted, fragment, h⟩ := (lenient_convert v b).outcome
    refine ⟨fragment, noted, fun notes => by rw [run_eq, h], fun habsent hnull hnone => ?_⟩
    have hv : v.isAbsent = false := by
      rw [← Bool.not_eq_true, Value.isAbsent_iff]
      exact not_or.2 ⟨hnull, hnone⟩
    obtain ⟨noted', fragment', h', hnoted⟩ := accounts_convert hv b
    rw [h] at h'
    cases h'
    exact hnoted habsent
  · show _ ↔ Unfit root
    rw [run_eq]
    obtain ⟨h, fault, hroot⟩ | ⟨h, noted, m, hroot⟩ := convertModule_permissive root
    · rw [hroot]; exact iff_of_true ⟨fault, rfl⟩ h
    · rw [hroot]; exact iff_of_false nofun h
  · rw [run_strict]
  · rw [run_strict]

/-- **Strict mode is determined by permissive mode.** On every document: where permissive mode gives a module and notes
nothing, strict mode gives that module; where it notes anything, the first note is the fault of strict mode; and where it
refuses the document, strict mode refuses it for the same fault. So strict mode succeeds exactly when permissive mode
does without a note. -/
theorem strict_iff_permissive (root : Node) :
    (match (convertModule root).run (.fresh .permissive) with
      | (.ok m, ⟨_, []⟩) => (convertModule root).run (.fresh .strict) = (.ok m, .fresh .strict)
      | (.ok _, ⟨_, fault :: _⟩) => (convertModule root).run (.fresh .strict) = (.error fault, .fresh .strict)
      | (.error fault, _) => (convertModule root).run (.fresh .strict) = (.error fault, .fresh .strict)) ∧
    ((∃ m, ((convertModule root).run (.fresh .strict)).1 = .ok m) ↔
      ∃ m, (convertModule root).run (.fresh .permissive) = (.ok m, .fresh .permissive)) := by
  have hstrict : (convertModule root).run (.fresh .strict) =
      ((convertModule root .permissive).upToFirst.result, .fresh .strict) := by
    rw [run_fresh, notes_strict, outcome_strict]
    rfl
  rw [hstrict, run_fresh]
  obtain ⟨-, fault, hroot⟩ | ⟨-, notes, m, hroot⟩ := convertModule_permissive root
  · rw [hroot]
    exact ⟨rfl, iff_of_false nofun nofun⟩
  · rw [hroot]
    cases notes with
    | nil => exact ⟨rfl, iff_of_true ⟨m, rfl⟩ ⟨m, rfl⟩⟩
    | cons fault rest => exact ⟨rfl, iff_of_false nofun nofun⟩

end Graft.Convert
