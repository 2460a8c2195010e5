/-
Documents: JSON values whose objects are nodes of a parse tree.

A node is an object whose member `__node__` names its kind; that member is lifted out into `Node.tag`, and the others
are its fields, in document order, each name once. A repeated name keeps the slot of its first occurrence and takes the
value of its last (`Node.insert`). Only a text can name a kind: a member `__node__` holding anything else is an
ordinary field (`Node.addMember`).

A field may spell "nothing here" in two ways, `null` and the text `None` (`Value.isAbsent`), and a whole number in two
ways, as a number and as a text of digits (`Value.int?`).
-/
import Graft.Decimal.Double
import Graft.Text.Blank
import Graft.Text.Numeral

namespace Graft.Document

open Graft.Decimal

/-- a number of a document: a whole one of 64 bits, or a double -/
inductive Number where
  | int (value : Int)
  | real (value : Double)
  deriving DecidableEq

mutual

/-- a value of a document -/
inductive Value where
  | null
  | bool (value : Bool)
  | number (value : Number)
  | string (text : String)
  | array (items : List Value)
  | object (node : Node)

/-- an object, with the name of its kind lifted out of its members -/
structure Node where
  tag : Option String
  fields : List (String × Value)

end

instance : Inhabited Value := ⟨.null⟩

instance : Inhabited Node := ⟨⟨none, []⟩⟩

/-- the member that names the kind of a node -/
def discriminator : String := "__node__"

/-! ## Depth -/

mutual

/-- how many values nest, the value itself included -/
def Value.depth : Value → Nat
  | .array items => depthOfItems items + 1
  | .object ⟨_, fields⟩ => depthOfFields fields + 1
  | _ => 1
termination_by structural v => v

def depthOfItems : List Value → Nat
  | [] => 0
  | v :: vs => max v.depth (depthOfItems vs)
termination_by structural vs => vs

def depthOfFields : List (String × Value) → Nat
  | [] => 0
  | (_, v) :: fs => max v.depth (depthOfFields fs)
termination_by structural fs => fs

end

/-- A value nests at least itself. -/
theorem depth_pos (v : Value) : 0 < v.depth := by
  cases v with
  | object node => obtain ⟨tag, fields⟩ := node; simp [Value.depth]
  | _ => simp [Value.depth]

theorem depth_le_depthOfItems {v : Value} {vs : List Value} (h : v ∈ vs) : v.depth ≤ depthOfItems vs := by
  induction vs with
  | nil => simp at h
  | cons w ws ih =>
    rw [depthOfItems]
    rcases List.mem_cons.1 h with rfl | h
    · exact Nat.le_max_left _ _
    · exact Nat.le_trans (ih h) (Nat.le_max_right _ _)

theorem depth_le_depthOfFields {n : String} {v : Value} {fs : List (String × Value)} (h : (n, v) ∈ fs) :
    v.depth ≤ depthOfFields fs := by
  induction fs with
  | nil => simp at h
  | cons f fs ih =>
    obtain ⟨m, w⟩ := f
    rw [depthOfFields]
    rcases List.mem_cons.1 h with h | h
    · cases h
      exact Nat.le_max_left _ _
    · exact Nat.le_trans (ih h) (Nat.le_max_right _ _)

/-! ## Reading a value -/

namespace Value

/-- whether the value says that there is nothing here -/
def isAbsent : Value → Bool
  | null => true
  | string text => text == "None"
  | _ => false

theorem isAbsent_iff {v : Value} : v.isAbsent = true ↔ v = null ∨ v = string "None" := by
  cases v <;> simp [isAbsent]

def node? : Value → Option Node
  | object node => some node
  | _ => none

def items? : Value → Option (List Value)
  | array items => some items
  | _ => none

def text? : Value → Option String
  | string text => some text
  | _ => none

/-- the whole number that a value denotes, as a number or as digits, if it is one of 64 signed bits -/
def int? : Value → Option Int
  | number (.int n) => if n < Text.signedLimit then some n else none
  | string text => Text.integer? (Text.trim text.toList)
  | _ => none

/-- the name of the type of the value -/
def kindName : Value → String
  | null => "null"
  | bool _ => "boolean"
  | number _ => "number"
  | string _ => "string"
  | array _ => "array"
  | object _ => "object"

end Value

/-! ## Fields of a node -/

namespace Node

/-- puts a value under a name, in the slot that the name has already if it has one -/
def putField (name : String) (value : Value) : List (String × Value) → List (String × Value)
  | [] => [(name, value)]
  | (n, v) :: rest => if n = name then (n, value) :: rest else (n, v) :: putField name value rest

/-- adds or replaces a field -/
def insert (node : Node) (name : String) (value : Value) : Node :=
  { node with fields := putField name value node.fields }

/-- takes in one member of an object, which either names the kind or is a field -/
def addMember (node : Node) : String × Value → Node
  | (name, .string text) => if name = discriminator then { node with tag := some text } else node.insert name (.string text)
  | (name, value) => node.insert name value

/-- the node with these members, in document order -/
def ofMembers (members : List (String × Value)) : Node :=
  members.foldl addMember ⟨none, []⟩

/-- whether the node is of the kind -/
def isTagged (node : Node) (kind : String) : Bool := node.tag == some kind

/-- what a field holds -/
def get? (node : Node) (name : String) : Option Value := node.fields.lookup name

/-- what a field holds, unless that says that there is nothing -/
def present? (node : Node) (name : String) : Option Value :=
  (node.get? name).filter (!·.isAbsent)

def node? (node : Node) (name : String) : Option Node := (node.get? name).bind Value.node?

def text? (node : Node) (name : String) : Option String := (node.get? name).bind Value.text?

def int? (node : Node) (name : String) : Option Int := (node.get? name).bind Value.int?

/-- whether a field holds the text `True` -/
def flag (node : Node) (name : String) : Bool := node.text? name == some "True"

/-- a text field, unless it is empty -/
def filledText? (node : Node) (name : String) : Option String := (node.text? name).filter (!·.isEmpty)

/-! ### Insertion -/

theorem lookup_putField_self (name : String) (value : Value) (fields : List (String × Value)) :
    (putField name value fields).lookup name = some value := by
  induction fields with
  | nil => simp [putField]
  | cons f rest ih =>
    obtain ⟨n, v⟩ := f
    by_cases h : n = name
    · simp [putField, h]
    · have h' : (name == n) = false := by simpa using fun e => h e.symm
      simp [putField, h, List.lookup_cons, h', ih]

theorem lookup_putField_of_ne {name other : String} (h : other ≠ name) (value : Value)
    (fields : List (String × Value)) : (putField name value fields).lookup other = fields.lookup other := by
  have hf : (other == name) = false := by simpa using h
  induction fields with
  | nil => simp [putField, List.lookup_cons, hf]
  | cons f rest ih =>
    obtain ⟨n, v⟩ := f
    by_cases hn : n = name
    · subst hn
      simp [putField, List.lookup_cons, hf]
    · simp [putField, hn, List.lookup_cons, ih]

/-- A field that was just inserted is found. -/
theorem get?_insert_self (node : Node) (name : String) (value : Value) :
    (node.insert name value).get? name = some value :=
  lookup_putField_self name value node.fields

/-- Inserting a field leaves the others alone. -/
theorem get?_insert_of_ne (node : Node) {name other : String} (h : other ≠ name) (value : Value) :
    (node.insert name value).get? other = node.get? other :=
  lookup_putField_of_ne h value node.fields

/-- The names of the fields stay in the order of their first insertion. -/
theorem names_insert (node : Node) (name : String) (value : Value) :
    (node.insert name value).fields.map Prod.fst =
      if name ∈ node.fields.map Prod.fst then node.fields.map Prod.fst
      else node.fields.map Prod.fst ++ [name] := by
  show (putField name value node.fields).map Prod.fst = _
  induction node.fields with
  | nil => simp [putField]
  | cons f rest ih =>
    obtain ⟨n, v⟩ := f
    by_cases h : n = name
    · simp [putField, h]
    · have h' : ¬ name = n := fun e => h e.symm
      simp only [putField, h, if_false, List.map_cons, ih, List.mem_cons, h', false_or]
      split <;> simp_all

/-- A field keeps what it holds. -/
theorem putField_lookup {name : String} {v : Value} {fields : List (String × Value)}
    (h : fields.lookup name = some v) : putField name v fields = fields := by
  induction fields with
  | nil => simp at h
  | cons f rest ih =>
    obtain ⟨n, w⟩ := f
    rw [List.lookup_cons] at h
    by_cases hn : n = name
    · subst hn
      simp only [beq_self_eq_true, Option.some.injEq] at h
      simp [putField, h]
    · have hf : (name == n) = false := by simpa using fun e => hn e.symm
      rw [hf] at h
      simp [putField, hn, ih h]

theorem insert_get? {node : Node} {name : String} {v : Value} (h : node.get? name = some v) :
    node.insert name v = node := by
  obtain ⟨tag, fields⟩ := node
  exact congrArg (fun fields => (⟨tag, fields⟩ : Node)) (putField_lookup h)

/-! ### What a field holds is less deep -/

theorem mem_of_lookup {name : String} {v : Value} {fields : List (String × Value)} (h : fields.lookup name = some v) :
    (name, v) ∈ fields := by
  induction fields with
  | nil => simp at h
  | cons f rest ih =>
    obtain ⟨n, w⟩ := f
    rw [List.lookup_cons] at h
    split at h
    · rename_i heq
      cases h
      simp only [beq_iff_eq] at heq
      exact heq ▸ List.mem_cons_self
    · exact List.mem_cons_of_mem _ (ih h)

theorem depth_lt_of_get? {node : Node} {name : String} {v : Value} (h : node.get? name = some v) :
    v.depth < (Value.object node).depth := by
  obtain ⟨tag, fields⟩ := node
  rw [Value.depth]
  exact Nat.lt_succ_of_le (depth_le_depthOfFields (mem_of_lookup h))

theorem node?_eq_some {node m : Node} {name : String} :
    node.node? name = some m ↔ node.get? name = some (.object m) := by
  unfold Node.node?
  cases hv : node.get? name with
  | none => simp
  | some v => cases v <;> simp [Value.node?]

end Node

end Graft.Document
