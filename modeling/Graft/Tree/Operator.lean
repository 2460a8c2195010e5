/-
The operators of the tree and the tokens that stand for them.

Each family has a member `unspecified` for a token outside its vocabulary, which is different from every real operator,
so that an unknown token never reads as one.
-/

namespace Graft

/-- binary and compound-assignment operators -/
inductive BinaryOp where
  | unspecified
  | add
  | sub
  | mult
  | div
  | matMult
  | bitAnd
  | bitOr
  | bitXor
  deriving DecidableEq

/-- short-circuit operators -/
inductive BoolOp where
  | unspecified
  | or
  | and
  deriving DecidableEq

/-- comparison operators -/
inductive CompareOp where
  | unspecified
  | eq
  | notEq
  | lt
  | ltE
  | gt
  | gtE
  | is
  | isNot
  | isIn
  | notIn
  deriving DecidableEq

namespace BinaryOp

def all : List BinaryOp := [unspecified, add, sub, mult, div, matMult, bitAnd, bitOr, bitXor]

def name : BinaryOp → String
  | unspecified => "Unspecified"
  | add => "Add"
  | sub => "Sub"
  | mult => "Mult"
  | div => "Div"
  | matMult => "MatMult"
  | bitAnd => "BitAnd"
  | bitOr => "BitOr"
  | bitXor => "BitXor"

/-- the operator that a token stands for -/
def ofToken : String → BinaryOp
  | "+" => add
  | "-" => sub
  | "*" => mult
  | "/" => div
  | "@" => matMult
  | "&" => bitAnd
  | "|" => bitOr
  | "^" => bitXor
  | _ => unspecified

def ofName? (text : String) : Option BinaryOp := all.find? (·.name == text)

theorem ofName?_name (op : BinaryOp) : ofName? op.name = some op := by
  cases op <;> decide

end BinaryOp

namespace BoolOp

def all : List BoolOp := [unspecified, or, and]

def name : BoolOp → String
  | unspecified => "Unspecified"
  | or => "Or"
  | and => "And"

/-- the operator that a token stands for -/
def ofToken : String → BoolOp
  | "or" => or
  | "and" => and
  | _ => unspecified

def ofName? (text : String) : Option BoolOp := all.find? (·.name == text)

theorem ofName?_name (op : BoolOp) : ofName? op.name = some op := by
  cases op <;> decide

end BoolOp

namespace CompareOp

def all : List CompareOp := [unspecified, eq, notEq, lt, ltE, gt, gtE, is, isNot, isIn, notIn]

def name : CompareOp → String
  | unspecified => "Unspecified"
  | eq => "Eq"
  | notEq => "NotEq"
  | lt => "Lt"
  | ltE => "LtE"
  | gt => "Gt"
  | gtE => "GtE"
  | is => "Is"
  | isNot => "IsNot"
  | isIn => "In"
  | notIn => "NotIn"

/-- the operator that a token stands for -/
def ofToken : String → CompareOp
  | "==" => eq
  | "!=" => notEq
  | "<" => lt
  | "<=" => ltE
  | ">" => gt
  | ">=" => gtE
  | "in" => isIn
  | "not_in" => notIn
  | "is" => is
  | "is_not" => isNot
  | _ => unspecified

def ofName? (text : String) : Option CompareOp := all.find? (·.name == text)

theorem ofName?_name (op : CompareOp) : ofName? op.name = some op := by
  cases op <;> decide

end CompareOp

end Graft
