/-
What the faults of a document are about.

A fault is meant to lead its reader to the part of the document that it is about. `About` says what that part is, for each
sort of fault: an unknown tag is that of a node of the document, which stands where the fault does and is written out; a
malformed node is a node of the document, under its tag and at its position. Two sorts are at no known position: that of a
value out of place, under the name of its type, and that of a link of a comparison in a list.

- `convertModule_blames`: every fault that the conversion of a document notes or ends with, in either mode, is about the
  document in this sense.
- `convertModule_blames_faulty`: a document with faults of all these sorts.

What a single value raises is accounted for by `Stems`; what remains is the root, which is blamed for what it lacks and for
fragments that do not fit (`raises_topLevel`).
-/
import Graft.Proofs.Depth
import Graft.Proofs.Fits
import Graft.Proofs.Statements

namespace Graft.Convert

open Graft.Document Attempt

/-- what a fault of a document is about -/
def About (root : Node) : Fault → Prop
  | .unknownTag tag pos subtree =>
    Kind.ofTag? tag = none ∧ ∃ o : Node, Holds (.object root) (.object o) ∧ o.tag = some tag ∧ pos = positionOf o ∧
      subtree = (Value.object o).pretty
  | .malformed tag defect pos =>
    (∃ o : Node, Holds (.object root) (.object o) ∧ tag = o.tag.getD "untagged object" ∧ pos = positionOf o) ∨
      pos = .unknown ∧
        ((∃ v, Holds (.object root) v ∧ Stray v ∧ tag = v.kindName ∧ defect = .notANode tag) ∨
          tag = "CascadedCmp" ∧ defect = .linkInList ∧ ∃ (items : List Value) (o : Node),
            Holds (.object root) (.array items) ∧ .object o ∈ items ∧ o.tag = some "CascadedCmp")
  | .unexpectedRoot found => root.tag ≠ some "StatList" ∧ found = root.tag.getD "untagged object"

/-! ## What stands at a place is in the value -/

theorem holds_inField (m : Node) (name : String) (v : Value) : Holds (inField m name v) v :=
  .field (m.get?_insert_self name v) (.self v)

theorem holds_inItem (before after : List Value) (v : Value) : Holds (inItem before after v) v :=
  .item (List.mem_append_right _ List.mem_cons_self) (.self v)

/-- What leads to a place leads into the value. -/
theorem Leads.holds {tag : String} {blank : Value} {C : Option Hole} {shape : Shape} {D : Hole}
    (h : Leads tag blank C shape D) (w : Value) : Holds (D w) (C.getD id w) := by
  induction h with
  | whole | object | dropped | block | empty | function => exact .self _
  | node _ _ ih => exact (holds_inField _ _ _).trans ih
  | items _ ih => exact (holds_inItem _ _ _).trans ih
  | opened _ _ ih | other _ _ ih | declared _ _ _ ih => exact ih
  | pointer _ _ ih => exact (holds_inField _ "base" _).trans ih

theorem Place.holds {tag : String} {blank : Value} {C : Hole} (h : Place tag blank C) (w : Value) : Holds (C w) w := by
  induction h with
  | here => exact .self w
  | empty _ _ hleads => exact (holds_inField _ _ _).trans (hleads.holds w)
  | item _ ih => exact (holds_inItem _ _ _).trans ih
  | inside _ _ _ hleads ih => exact (holds_inField _ _ _).trans ((hleads.holds w).trans ih)

/-! ## The faults of a document -/

variable {root : Node}

theorem about_of {o : Node} (h : Holds (.object root) (.object o)) (d : Defect) : About root (.of o d) :=
  .inl ⟨o, h, rfl, rfl⟩

/-- What a fault of a value is about is about the document that holds the value. -/
theorem Stems.about {v : Value} {fault : Fault} (hv : Holds (.object root) v) (h : Stems v fault) : About root fault := by
  cases h with
  | @unknown tag o blank C htag ho hC hplace =>
    have hin : Holds v (.object o) := hplace ▸ hC.holds (.object o)
    exact ⟨htag, o, hv.trans hin, ho, rfl, rfl⟩
  | malformed hm => exact about_of (hv.trans hm) _
  | link hitems hm htag => exact .inr ⟨rfl, .inr ⟨rfl, rfl, _, _, hv.trans hitems, hm, htag⟩⟩
  | stray hx hstray => exact .inr ⟨rfl, .inl ⟨_, hv.trans hx, hstray, rfl, rfl⟩⟩

/-- A statement raises what its value does, or does not fit and is blamed on the root. -/
theorem raises_topLevel {stat : Value} {fault : Fault} (h : Raises (topLevel root stat) fault) :
    Stems stat fault ∨ ∃ d, fault = .of root d := by
  rcases raises_bind h with h | ⟨fragment, h⟩
  · exact .inl (raises_convert h)
  · exact .inr ((@settles_stmts [] fragment).blames root fault (raises_contain h))

/-- A field that is to be a list is blamed on its node. -/
theorem raises_itemsField {n : Node} {name : String} {fault : Fault} (h : Raises (itemsField n name) fault) :
    ∃ d, fault = .of n d := by
  unfold itemsField at h
  split at h
  · rename_i v _
    have hsettles : Settles [] fun n => orDefect n (.notAnArray name) v.items? := .orDefect _ fun _ _ _ => rfl
    exact hsettles.blames n fault h
  · rcases h with h | h <;> cases h

theorem raises_convertModule {fault : Fault} (h : Raises (convertModule root) fault) : About root fault := by
  have hroot : ∀ d, About root (.of root d) := about_of (.self _)
  unfold convertModule at h
  split at h
  · rename_i htag
    rcases h with h | h <;> cases h
    exact ⟨by simpa [Node.isTagged, statListTag] using htag, rfl⟩
  · rcases raises_bind_ok h with h | ⟨stats, hstats, h⟩
    · obtain ⟨d, rfl⟩ := raises_itemsField h
      exact hroot d
    · rcases raises_bind h with h | ⟨_, h⟩
      · obtain ⟨stat, hstat, hraises⟩ := raises_gather h
        have hin : Holds (.object root) stat := yields_itemsField root "stats" .permissive stats hstats stat hstat
        rcases raises_topLevel hraises with hstems | ⟨d, rfl⟩
        · exact hstems.about hin
        · exact hroot d
      · rcases h with h | h <;> cases h

/-! ## Main result -/

/-- **Faults point into the document.** Whatever the document, the mode and what was noted before, each fault that the
conversion notes or ends with is about the document. -/
theorem convertModule_blames (root : Node) (context : Context) :
    ∃ noted, ((convertModule root).run context).2.notes = context.notes ++ noted ∧
      ∀ fault, fault ∈ noted ∨ ((convertModule root).run context).1 = .error fault → About root fault := by
  rw [run_eq]
  refine ⟨(convertModule root context.mode).notes, rfl, fun fault h => ?_⟩
  exact raises_convertModule (raises_of_mode h)

/-- a document with a node of no known tag, a link of a comparison in a list, a value out of place, an object without a
tag, and a list as the name of a function -/
def faulty : Node := documentOf [] [.object ⟨some "Lambda", [("line", .string "3")]⟩,
  .array [.object ⟨some "CascadedCmp", [("operator", .string "<"), ("operand2", .object ⟨some "None", []⟩)]⟩],
  .bool true, .object ⟨none, []⟩, .object ⟨some "Def", [("name", .array []), ("line", .number (.int 7))]⟩]

/-- All of its faults are about it, and strict mode ends with the first. -/
theorem convertModule_blames_faulty : ∃ lambda link stray untagged unnamed,
    ((convertModule faulty).run (.fresh .permissive)).2.notes = [lambda, link, stray, untagged, unnamed] ∧
      ((convertModule faulty).run (.fresh .strict)).1 = .error lambda ∧
      link = .malformed "CascadedCmp" .linkInList .unknown ∧
      stray = .malformed "boolean" (.notANode "boolean") .unknown ∧
      untagged = .malformed "untagged object" .noTag .unknown ∧
      unnamed = .malformed "Def" .noFunctionName ⟨7, 0⟩ ∧
      About faulty lambda ∧ About faulty link ∧ About faulty stray ∧ About faulty untagged ∧ About faulty unnamed := by
  have hnotes : ((convertModule faulty).run (.fresh .permissive)).2.notes = [_, _, _, _, _] := rfl
  obtain ⟨noted, hnoted, hall⟩ := convertModule_blames faulty (.fresh .permissive)
  have hmem : ∀ fault ∈ ((convertModule faulty).run (.fresh .permissive)).2.notes, About faulty fault := by
    intro fault hfault
    rw [hnoted] at hfault
    exact hall fault (.inl hfault)
  rw [hnotes] at hmem
  simp only [List.forall_mem_cons] at hmem
  obtain ⟨hlambda, hlink, hstray, huntagged, hunnamed, -⟩ := hmem
  exact ⟨_, _, _, _, _, hnotes, rfl, rfl, rfl, rfl, rfl, hlambda, hlink, hstray, huntagged, hunnamed⟩

end Graft.Convert
