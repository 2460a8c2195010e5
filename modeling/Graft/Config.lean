/-
The settings of a converter, as a TOML text gives them.

Two keys count, `mode` and `front_end`; what is not given keeps its standard value, and other keys are passed over. The
front end is a table with the keys `python` and `script`, or an array of the two in this order; a date counts as a table
that has neither key. The mode is a text, or a table whose only key is the name of the mode and whose value is empty.

Settings agree when their modes are equal and their paths take the same steps (`Config.agrees`).
-/
import Graft.Convert.Fault
import Graft.Path
import Graft.Toml.Reader

namespace Graft

open Graft.Convert

/-- how the parse tree of a source is made: by a script of an interpreter that has the compiler -/
structure FrontEnd where
  python : Path
  script : Path
  deriving DecidableEq

namespace FrontEnd

def standard : FrontEnd := ⟨⟨"python3"⟩, ⟨"cython_json.py"⟩⟩

/-- whether two front ends run the same script of the same interpreter, however their paths are spelled -/
def agrees (f g : FrontEnd) : Bool := f.python.agrees g.python && f.script.agrees g.script

/-- the language of the sources -/
def language : String := "cython"

/-- the extensions of the files that hold sources -/
def extensions : List String := ["pyx", "pxd", "pxi"]

end FrontEnd

/-- the settings of a converter -/
structure Config where
  mode : Mode
  frontEnd : FrontEnd
  deriving DecidableEq

namespace Config

open Graft.Toml

def standard : Config := ⟨.permissive, .standard⟩

/-- whether two settings make the same converter -/
def agrees (c d : Config) : Bool := c.mode == d.mode && c.frontEnd.agrees d.frontEnd

def modeOfName? : String → Option Mode
  | "permissive" => some .permissive
  | "strict" => some .strict
  | _ => none

/-- whether a value has nothing in it -/
def isHollow : Item → Bool
  | .table _ [] => true
  | .array [] => true
  | _ => false

def mode? : Item → Option Mode
  | .string name => modeOfName? name
  | .table _ [(name, payload)] => if isHollow payload then modeOfName? name else none
  | _ => none

def path? : Item → Option Path
  | .string text => some ⟨text⟩
  | _ => none

/-- what is given, or the standard value when nothing is -/
def given {α : Type} (read : Item → Option α) (standard : α) : Option Item → Option α
  | some item => read item
  | none => some standard

def frontEnd? : Item → Option FrontEnd
  | .table _ entries => do
    let python ← given path? FrontEnd.standard.python (entries.lookup "python")
    let script ← given path? FrontEnd.standard.script (entries.lookup "script")
    return ⟨python, script⟩
  | .array items => do
    let python ← given path? FrontEnd.standard.python items[0]?
    let script ← given path? FrontEnd.standard.script items[1]?
    return ⟨python, script⟩
  | .dateTime => some FrontEnd.standard
  | _ => none

/-- the settings of a text; none when it is no TOML or a setting is not of its sort -/
def ofText (text : String) : Option Config := do
  let entries ← Toml.read text
  let mode ← given mode? standard.mode (entries.lookup "mode")
  let frontEnd ← given frontEnd? standard.frontEnd (entries.lookup "front_end")
  return ⟨mode, frontEnd⟩

end Config

end Graft
