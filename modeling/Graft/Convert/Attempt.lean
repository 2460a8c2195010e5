/-
Conversions that may meet faults.

An `Attempt` runs in a `Context`, which holds the mode and the faults noted so far. It ends with a result or with a
fault, and leaves the context that the next attempt runs in. Every attempt keeps to two rules, which are part of its
type and which each way of building attempts has to keep:
- it notes faults after those that were noted before, takes none back, and looks at nothing of the context but the mode
  (`Attempt.run_eq`), so that it is known from its `Outcome` in a fresh context;
- in strict mode it does what it does in permissive mode, up to the first fault (`Attempt.outcome_strict`).

There are two ways to raise a fault. `fail` ends the attempt in both modes. `anomaly` leaves it to the mode: it notes the
fault and goes on, or ends the attempt. `contain` turns a failure into an anomaly, so that in permissive mode a node
that cannot be converted contributes nothing and its neighbours are converted all the same.
-/
import Graft.Convert.Fault

namespace Graft.Convert

/-- what a conversion runs in: how faults are taken, and those that were noted so far -/
structure Context where
  mode : Mode
  notes : List Fault

/-- the context that a conversion starts in -/
def Context.fresh (mode : Mode) : Context := ⟨mode, []⟩

/-- what comes of a fresh context: the faults noted on the way, and the result or the fault that ended it -/
structure Outcome (α : Type) where
  notes : List Fault
  result : Except Fault α

namespace Outcome

variable {α : Type}

/-- an outcome that comes after some notes -/
def after (o : Outcome α) (notes : List Fault) : Outcome α := ⟨notes ++ o.notes, o.result⟩

/-- an outcome in which the first fault that was noted ended it -/
def upToFirst (o : Outcome α) : Outcome α :=
  match o.notes with
  | [] => o
  | fault :: _ => ⟨[], .error fault⟩

@[simp] theorem after_nil (o : Outcome α) : o.after [] = o := rfl

@[simp] theorem after_after (o : Outcome α) (first second : List Fault) :
    (o.after first).after second = o.after (second ++ first) := by
  simp [after]

@[simp] theorem result_after (o : Outcome α) (notes : List Fault) : (o.after notes).result = o.result := rfl

@[simp] theorem notes_after (o : Outcome α) (notes : List Fault) : (o.after notes).notes = notes ++ o.notes := rfl

theorem upToFirst_nil (result : Except Fault α) : upToFirst ⟨[], result⟩ = ⟨[], result⟩ := rfl

theorem upToFirst_cons (fault : Fault) (rest : List Fault) (result : Except Fault α) :
    upToFirst ⟨fault :: rest, result⟩ = ⟨[], .error fault⟩ := rfl

@[simp] theorem notes_upToFirst (o : Outcome α) : o.upToFirst.notes = [] := by
  unfold upToFirst
  split
  · assumption
  · rfl

end Outcome

/-! ## Runs and the rules they keep to -/

/-- how something ends in a context, and the context that it leaves -/
abbrev Run (α : Type) : Type := Context → Except Fault α × Context

namespace Run

variable {α β : Type}

/-- what comes of a fresh context -/
def outcome (x : Run α) (mode : Mode) : Outcome α :=
  let ended := x (.fresh mode)
  ⟨ended.2.notes, ended.1⟩

/-- the rules that every attempt keeps to -/
structure Disciplined (x : Run α) : Prop where
  /-- notes are only added, and they depend on the mode alone -/
  appends : ∀ c, x c = ((x.outcome c.mode).result, ⟨c.mode, c.notes ++ (x.outcome c.mode).notes⟩)
  /-- strict mode stops where permissive mode notes its first fault -/
  strict : x.outcome .strict = (x.outcome .permissive).upToFirst

/-- ends like this, and leaves the context as it is -/
def ended (result : Except Fault α) : Run α := fun c => (result, c)

/-- takes a fault as the mode says: it is noted, or it ends the run -/
def anomaly (fault : Fault) : Run Unit := fun c =>
  match c.mode with
  | .permissive => (.ok (), { c with notes := c.notes ++ [fault] })
  | .strict => (.error fault, c)

/-- goes on in the context that the first run left, however it ended -/
def next (x : Run α) (f : Except Fault α → Run β) : Run β := fun c =>
  let first := x c
  f first.1 first.2

/-- what comes after a run: nothing more when it ended with a fault -/
def onResult (f : α → Run β) : Except Fault α → Run β
  | .error fault => ended (.error fault)
  | .ok a => f a

/-- what comes after a run whose failure is an anomaly only -/
def onFault (fallback : α) : Except Fault α → Run α
  | .error fault => (anomaly fault).next (onResult fun _ => ended (.ok fallback))
  | .ok a => ended (.ok a)

theorem disciplined_ended (result : Except Fault α) : (ended result).Disciplined :=
  ⟨fun c => by simp [ended, outcome, Context.fresh], rfl⟩

theorem disciplined_anomaly (fault : Fault) : (anomaly fault).Disciplined := by
  refine ⟨fun c => ?_, rfl⟩
  obtain ⟨mode, notes⟩ := c
  cases mode <;> simp [anomaly, outcome, Context.fresh]

/-- What comes second runs after the notes of the first. -/
theorem outcome_next {x : Run α} {f : Except Fault α → Run β} (hx : x.Disciplined) (hf : ∀ r, (f r).Disciplined)
    (mode : Mode) :
    (x.next f).outcome mode = ((f (x.outcome mode).result).outcome mode).after (x.outcome mode).notes := by
  have hfirst : x (.fresh mode) = ((x.outcome mode).result, ⟨mode, (x.outcome mode).notes⟩) :=
    hx.appends (.fresh mode)
  have hsecond := (hf (x.outcome mode).result).appends ⟨mode, (x.outcome mode).notes⟩
  show (⟨(x.next f (.fresh mode)).2.notes, (x.next f (.fresh mode)).1⟩ : Outcome β) = _
  rw [next, hfirst]
  simp only [hsecond]
  rfl

/-- Going on keeps to the rules where a fault that ended the first run in strict mode ends the second with it. -/
theorem disciplined_next {x : Run α} {f : Except Fault α → Run β} (hx : x.Disciplined)
    (hf : ∀ r, (f r).Disciplined) (hfault : ∀ fault, (f (.error fault)).outcome .strict = ⟨[], .error fault⟩) :
    (x.next f).Disciplined := by
  refine ⟨fun c => ?_, ?_⟩
  · rw [outcome_next hx hf, next, hx.appends c, (hf _).appends]
    simp [Outcome.after]
  · rw [outcome_next hx hf, outcome_next hx hf, hx.strict]
    cases hp : x.outcome .permissive with
    | mk notes result =>
      cases notes with
      | nil => simpa [Outcome.upToFirst_nil] using (hf result).strict
      | cons fault rest => simp [Outcome.upToFirst_cons, hfault, Outcome.after]

theorem disciplined_onResult {f : α → Run β} (hf : ∀ a, (f a).Disciplined) (r : Except Fault α) :
    (onResult f r).Disciplined := by
  cases r with
  | error fault => exact disciplined_ended _
  | ok a => exact hf a

theorem disciplined_onFault (fallback : α) (r : Except Fault α) : (onFault fallback r).Disciplined := by
  cases r with
  | error fault =>
    exact disciplined_next (disciplined_anomaly fault) (disciplined_onResult fun _ => disciplined_ended _) fun _ => rfl
  | ok a => exact disciplined_ended _

end Run

/-! ## Attempts -/

/-- a conversion, which answers in either mode -/
structure Attempt (α : Type) where
  run : Run α
  disciplined : run.Disciplined

namespace Attempt

variable {α β : Type}

/-- what comes of a fresh context -/
def outcome (x : Attempt α) (mode : Mode) : Outcome α := x.run.outcome mode

instance : CoeFun (Attempt α) fun _ => Mode → Outcome α := ⟨outcome⟩

/-- An attempt is known from its outcome: it ends in the same way in any context, and its notes follow those there. -/
theorem run_eq (x : Attempt α) (c : Context) : x.run c = ((x c.mode).result, ⟨c.mode, c.notes ++ (x c.mode).notes⟩) :=
  x.disciplined.appends c

/-- Strict mode does what permissive mode does, up to the first fault. -/
theorem outcome_strict (x : Attempt α) : x .strict = (x .permissive).upToFirst := x.disciplined.strict

@[ext] theorem ext {x y : Attempt α} (h : ∀ mode, x mode = y mode) : x = y := by
  obtain ⟨f, hf⟩ := x
  obtain ⟨g, hg⟩ := y
  have hfg : f = g := by
    funext c
    have hc : f.outcome c.mode = g.outcome c.mode := h c.mode
    rw [hf.appends c, hg.appends c, hc]
  subst hfg
  rfl

/-- runs the first attempt, and with its result the second -/
def bind (x : Attempt α) (f : α → Attempt β) : Attempt β where
  run := x.run.next (.onResult fun a => (f a).run)
  disciplined := Run.disciplined_next x.disciplined (Run.disciplined_onResult fun a => (f a).disciplined) fun _ => rfl

instance : Monad Attempt where
  pure a := ⟨.ended (.ok a), Run.disciplined_ended _⟩
  bind := bind

/-- ends with a fault in either mode -/
def fail (fault : Fault) : Attempt α := ⟨.ended (.error fault), Run.disciplined_ended _⟩

/-- takes a fault as the mode says: it is noted, or it ends the attempt -/
def anomaly (fault : Fault) : Attempt Unit := ⟨.anomaly fault, Run.disciplined_anomaly fault⟩

/-- makes a failure an anomaly, with something to go on with -/
def contain (fallback : α) (x : Attempt α) : Attempt α where
  run := x.run.next (.onFault fallback)
  disciplined := Run.disciplined_next x.disciplined (Run.disciplined_onFault fallback) fun _ => rfl

@[simp] theorem outcome_pure (a : α) (mode : Mode) : (Pure.pure a : Attempt α) mode = ⟨[], .ok a⟩ := rfl

@[simp] theorem outcome_fail (fault : Fault) (mode : Mode) : (fail fault : Attempt α) mode = ⟨[], .error fault⟩ := rfl

@[simp] theorem outcome_anomaly (fault : Fault) : anomaly fault .permissive = ⟨[fault], .ok ()⟩ := rfl

theorem outcome_bind (x : Attempt α) (f : α → Attempt β) (mode : Mode) :
    (x >>= f) mode = match (x mode).result with
      | .error fault => ⟨(x mode).notes, .error fault⟩
      | .ok a => (f a mode).after (x mode).notes := by
  have hnext : (x >>= f) mode =
      (Run.outcome (.onResult (fun a => (f a).run) (x mode).result) mode).after (x mode).notes :=
    Run.outcome_next x.disciplined (Run.disciplined_onResult fun a => (f a).disciplined) mode
  rw [hnext]
  cases (x mode).result with
  | error fault => simp [Run.onResult, Run.outcome, Run.ended, Context.fresh, Outcome.after]
  | ok _ => rfl

/-- In permissive mode a failure is the last of the notes. -/
theorem outcome_contain (fallback : α) (x : Attempt α) :
    contain fallback x .permissive = match (x .permissive).result with
      | .error fault => ⟨(x .permissive).notes ++ [fault], .ok fallback⟩
      | .ok _ => x .permissive := by
  have hnext : contain fallback x .permissive =
      (Run.outcome (.onFault fallback (x .permissive).result) .permissive).after (x .permissive).notes :=
    Run.outcome_next x.disciplined (Run.disciplined_onFault fallback) .permissive
  rw [hnext]
  cases hr : (x .permissive).result with
  | error fault => rfl
  | ok _ => simp [Run.onFault, Run.outcome, Run.ended, Context.fresh, Outcome.after, ← hr]

instance : LawfulMonad Attempt := LawfulMonad.mk' Attempt
  (by
    intro α x
    ext1 mode
    show (x >>= fun a => Pure.pure a) mode = x mode
    rw [outcome_bind]
    cases h : (x mode).result with
    | error fault => simp [← h]
    | ok a => simp [Outcome.after, ← h])
  (by
    intro α β a f
    ext1 mode
    simp [outcome_bind])
  (by
    intro α β γ x f g
    ext1 mode
    simp only [outcome_bind]
    cases (x mode).result with
    | error fault => rfl
    | ok a =>
      simp only [Outcome.result_after]
      cases (f a mode).result with
      | error fault => rfl
      | ok b => simp)

/-- Nothing comes after a failure. -/
@[simp] theorem fail_bind (fault : Fault) (f : α → Attempt β) : fail fault >>= f = fail fault := by
  ext1 mode
  simp [outcome_bind]

/-- a result that was found without noting anything -/
def ofExcept : Except Fault α → Attempt α
  | .ok a => Pure.pure a
  | .error fault => fail fault

instance : MonadLift (Except Fault) Attempt := ⟨ofExcept⟩

/-- what there is, or the fault of a node that lacks it -/
def orDefect (node : Document.Node) (defect : Defect) : Option α → Attempt α
  | some a => Pure.pure a
  | none => fail (.of node defect)

/-- the results of a list, one after the other -/
def gather (f : α → Attempt (List β)) : List α → Attempt (List β)
  | [] => Pure.pure []
  | a :: as => do
    let bs ← f a
    let rest ← gather f as
    return bs ++ rest

/-- The results of two lists follow each other, and so do the notes. -/
theorem gather_append (f : α → Attempt (List β)) (xs ys : List α) :
    gather f (xs ++ ys) = do
      let first ← gather f xs
      let second ← gather f ys
      return first ++ second := by
  induction xs with
  | nil => simp [gather]
  | cons x xs ih => simp only [List.cons_append, gather, ih, bind_assoc, pure_bind, List.append_assoc]

end Attempt

end Graft.Convert
