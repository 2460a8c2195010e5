/-
The conversion of a document's text, and the envelope of its result.

A document is converted when it is a list of statements. One that reports a syntax error of the source gives a
`CompileDiagnostic`. Any other document is unexpected: an error in strict mode, and in permissive mode a result that has
neither a module nor an error. `Result` keeps the version of the source that the caller gave, and the faults that were
noted on the way to a module.
-/
import Graft.Convert.Root
import Graft.Document.Reader
import Graft.Source.Newlines
import Graft.Source.Offset

namespace Graft

open Graft.Document Graft.Convert

/-- a syntax error that the compiler found in the source -/
structure CompileDiagnostic where
  message : String
  pos : Position
  deriving DecidableEq

namespace CompileDiagnostic

/-- the message and the position -/
def text (d : CompileDiagnostic) : String := d.message ++ " at " ++ d.pos.text

/-- the tag of a document that reports a syntax error -/
def tag : String := "CompileError"

/-- the syntax error that a document reports -/
def ofNode (root : Node) : CompileDiagnostic where
  message := ((root.text? "message_only").or (root.text? "message")).getD "syntax error"
  pos := positionOf root

end CompileDiagnostic

/-- why a conversion gave no module -/
inductive ConversionError where
  /-- the document cannot be read -/
  | document (cause : Malformed)
  /-- no document was made of the source -/
  | frontEnd (reason : String)
  /-- the source has a syntax error -/
  | compile (diagnostic : CompileDiagnostic)
  /-- the document cannot be converted in strict mode -/
  | conversion (fault : Fault)

namespace ConversionError

def message : ConversionError → String
  | document cause => cause.message
  | frontEnd reason => "front end failed: " ++ reason
  | compile diagnostic => diagnostic.text
  | conversion fault => fault.message

/-- the code under which an error is documented -/
def code : ConversionError → String
  | document _ => "json::malformed"
  | frontEnd _ => "convert::front_end"
  | compile _ => "convert::compile_error"
  | conversion (.unknownTag ..) => "lower::unknown_tag"
  | conversion (.malformed ..) => "lower::malformed_node"
  | conversion (.unexpectedRoot ..) => "lower::unexpected_root"

/-- what may be done about an error -/
def help? : ConversionError → Option String
  | frontEnd _ => some "check that the configured interpreter can import Cython"
  | conversion (.unknownTag ..) => some "the converter has no constructor for this node kind"
  | _ => none

end ConversionError

/-- the outcome of one conversion -/
structure Conversion where
  module? : Option Module
  error? : Option ConversionError
  /-- the version of the source, as the caller gave it -/
  version : UInt64
  /-- the faults that were noted while the module was made -/
  notes : List Fault

namespace Conversion

def success (version : UInt64) (m : Module) (notes : List Fault) : Conversion := ⟨some m, none, version, notes⟩

def failure (version : UInt64) (error : ConversionError) : Conversion := ⟨none, some error, version, []⟩

def nothing (version : UInt64) : Conversion := ⟨none, none, version, []⟩

/-- whether there is neither a module nor an error -/
def isEmpty (c : Conversion) : Bool := c.module?.isNone && c.error?.isNone

/-- the outcome for a document that cannot be converted as a whole -/
def refused (mode : Mode) (version : UInt64) (fault : Fault) : Conversion :=
  match mode with
  | .strict => failure version (.conversion fault)
  | .permissive => nothing version

/-- converts a document that was read -/
def ofValue (mode : Mode) (version : UInt64) (document : Value) : Conversion :=
  match document with
  | .object root =>
    if root.isTagged CompileDiagnostic.tag then failure version (.compile (.ofNode root))
    else
      let outcome := convertModule root mode
      match outcome.result with
      | .ok m => success version m outcome.notes
      | .error fault => refused mode version fault
  | other => refused mode version (.unexpectedRoot other.kindName)

/-- converts the text of a document -/
def ofText (mode : Mode) (version : UInt64) (text : String) : Conversion :=
  match read text with
  | .error cause => failure version (.document cause)
  | .ok document => ofValue mode version document

/-- the causes of a failure in one line, the outermost first -/
def joinCauses (causes : List String) : String := ": ".intercalate causes

/-- what comes of the answer of a front end: the text of a document, or the causes of its failure -/
def ofAnswer (mode : Mode) (version : UInt64) : Except (List String) String → Conversion
  | .ok text => ofText mode version text
  | .error causes => failure version (.frontEnd (joinCauses causes))

/-- converts a source through a front end with effects, which is given the source with its line endings normalized -/
def ofSourceIn {m : Type → Type} [Monad m] (frontEnd : String → m (Except (List String) String)) (mode : Mode)
    (version : UInt64) (source : String) : m Conversion := do
  return ofAnswer mode version (← frontEnd (Source.normalizeNewlines source))

/-- converts a source through a front end that does nothing but answer -/
def ofSource (frontEnd : String → Except (List String) String) (mode : Mode) (version : UInt64) (source : String) :
    Conversion :=
  Id.run (ofSourceIn (fun text => pure (frontEnd text)) mode version source)

end Conversion

end Graft
