/-
Tables of a TOML text, and the three ways to put something into one.

A table remembers how it came about (`Origin`), for that decides what may be added to it later: a table is defined once
only, by its header or by dotted keys, while one that is merely implied by a longer header may still get its own. Of
numbers and dates only the sort is kept, since no setting is one.

`putDotted` adds a value under dotted keys, `openTable` starts the table of a header, `openElement` the next table of an
array of tables; `under` applies any of them to the table at the end of a header's path.
-/

namespace Graft.Toml

/-- how a table came about -/
inductive Origin where
  /-- by its own header -/
  | header
  /-- by the header of a table inside it -/
  | implied
  /-- by dotted keys -/
  | dotted
  /-- in braces -/
  | inline
  deriving DecidableEq

/-- a value -/
inductive Item where
  | string (text : String)
  | integer
  | float
  | boolean
  | dateTime
  | array (items : List Item)
  | table (origin : Origin) (entries : List (String × Item))
  /-- an array of tables, the last of which is the one that is added to -/
  | tables (earlier : List (List (String × Item))) (last : List (String × Item))

/-- the entries of a table -/
abbrev Entries := List (String × Item)

/-- puts a value in place of the one under a key that is there -/
def replace (key : String) (value : Item) : Entries → Entries
  | [] => []
  | (k, v) :: rest => if k = key then (k, value) :: rest else (k, v) :: replace key value rest

/-- adds a value under dotted keys, the last of which must be new; tables on the way that dotted keys cannot extend
refuse it, and so does an implied table as the one that would get the value -/
def putDotted : List String → String → Item → Entries → Option Entries
  | [], key, value, entries => if (entries.lookup key).isSome then none else some (entries ++ [(key, value)])
  | k :: ks, key, value, entries =>
    match entries.lookup k with
    | none => (putDotted ks key value []).map fun sub => entries ++ [(k, .table .dotted sub)]
    | some (.table .dotted sub) =>
      (putDotted ks key value sub).map fun sub => replace k (.table .dotted sub) entries
    | some (.table .implied sub) =>
      if ks.isEmpty then none
      else (putDotted ks key value sub).map fun sub => replace k (.table .implied sub) entries
    | some (.tables earlier last) =>
      if ks.isEmpty then none
      else (putDotted ks key value last).map fun last => replace k (.tables earlier last) entries
    | some _ => none

/-- applies a change to the table at the end of a path; tables that are missing on the way are implied -/
def under (change : Entries → Option Entries) : List String → Entries → Option Entries
  | [], entries => change entries
  | k :: ks, entries =>
    match entries.lookup k with
    | none => (under change ks []).map fun sub => entries ++ [(k, .table .implied sub)]
    | some (.table .inline _) => none
    | some (.table origin sub) => (under change ks sub).map fun sub => replace k (.table origin sub) entries
    | some (.tables earlier last) => (under change ks last).map fun last => replace k (.tables earlier last) entries
    | some _ => none

/-- starts a table under a key: a new one, or one that was implied so far -/
def openTable (key : String) (entries : Entries) : Option Entries :=
  match entries.lookup key with
  | none => some (entries ++ [(key, .table .header [])])
  | some (.table .implied sub) => some (replace key (.table .header sub) entries)
  | some _ => none

/-- starts the next table of the array of tables under a key -/
def openElement (key : String) (entries : Entries) : Option Entries :=
  match entries.lookup key with
  | none => some (entries ++ [(key, .tables [] [])])
  | some (.tables earlier last) => some (replace key (.tables (earlier ++ [last]) []) entries)
  | some _ => none

end Graft.Toml
