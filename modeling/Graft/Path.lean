/-
Paths of files, told apart by the steps that they take and not by their spelling.

The segments of a path stand between slashes (`segments`). An empty segment takes no step, nor does a dot; only a slash
at the very start, which leads to the root, and a dot at the very start count (`steps`). Two dots are a step like any
other, since where they lead hangs on what is on the disk.

`steps_append_slash`: a slash at the end of a path makes no difference.
-/

namespace Graft

/-- the path of a file, as it was written -/
structure Path where
  text : String
  deriving DecidableEq

namespace Path

/-- one step of a path -/
inductive Step where
  /-- to the root, at the start only -/
  | root
  /-- to where one is, at the start only -/
  | here
  | into (name : List Char)
  deriving DecidableEq

/-- the first segment of a path, and the segments after it -/
def segments : List Char → List Char × List (List Char)
  | [] => ([], [])
  | c :: cs =>
    let (first, rest) := segments cs
    if c = '/' then ([], first :: rest) else (c :: first, rest)

/-- the step of a first segment, which leads to the root when it is empty and others follow -/
def firstStep (others : List (List Char)) : List Char → Option Step
  | [] => if others.isEmpty then none else some .root
  | c :: cs => some (if c :: cs = ['.'] then .here else .into (c :: cs))

/-- the step of a segment that is not the first -/
def laterStep (segment : List Char) : Option Step :=
  if segment = [] ∨ segment = ['.'] then none else some (.into segment)

/-- the steps of a path given by its characters -/
def stepsOf (cs : List Char) : List Step :=
  let (first, rest) := segments cs
  (firstStep rest first).toList ++ rest.filterMap laterStep

/-- the steps that a path takes -/
def steps (p : Path) : List Step := stepsOf p.text.toList

/-- whether two paths take the same steps -/
def agrees (p q : Path) : Bool := p.steps == q.steps

theorem segments_append_slash (cs : List Char) :
    segments (cs ++ ['/']) = ((segments cs).1, (segments cs).2 ++ [[]]) := by
  induction cs with
  | nil => rfl
  | cons c cs ih =>
    by_cases h : c = '/'
    · simp [segments, ih, h]
    · simp [segments, ih, h]

theorem eq_nil_of_segments {cs : List Char} (h : segments cs = ([], [])) : cs = [] := by
  cases cs with
  | nil => rfl
  | cons c cs =>
    simp only [segments] at h
    split at h <;> simp at h

/-- A slash at the end of a path makes no difference. -/
theorem steps_append_slash {cs : List Char} (h : cs ≠ []) : stepsOf (cs ++ ['/']) = stepsOf cs := by
  have start : firstStep ((segments cs).2 ++ [[]]) (segments cs).1 = firstStep (segments cs).2 (segments cs).1 := by
    rcases hs : segments cs with ⟨_ | ⟨c, first⟩, rest⟩
    · cases rest with
      | nil => exact absurd (eq_nil_of_segments hs) h
      | cons s rest => rfl
    · rfl
  simp [stepsOf, segments_append_slash, start, laterStep]

end Path

end Graft
