/-
  Operators of the program language.

  * `BinaryOp`, `UnaryOp`: the operators and their symbols;
  * `BinaryOp.precedence`: how tightly a binary operator binds. All binary
    operators are left-associative.
-/

namespace TreeDoc.Program

/-- The binary operators. -/
inductive BinaryOp where
  | divide
  | add
  | subtract
  | multiply
  | and
  | or
  | equal
  | notEqual
  | greaterEqual
  | greaterThan
  | lessEqual
  | lessThan
deriving Repr, DecidableEq

/-- The symbol of a binary operator. -/
def BinaryOp.symbol : BinaryOp → String
  | divide => "/"
  | add => "+"
  | subtract => "-"
  | multiply => "*"
  | and => "&&"
  | or => "||"
  | equal => "=="
  | notEqual => "!="
  | greaterEqual => ">="
  | greaterThan => ">"
  | lessEqual => "<="
  | lessThan => "<"

/-- How tightly a binary operator binds; more is tighter. -/
def BinaryOp.precedence : BinaryOp → Nat
  | or => 1
  | and => 2
  | equal | notEqual => 3
  | greaterEqual | greaterThan | lessEqual | lessThan => 4
  | add | subtract => 5
  | multiply | divide => 6

/-- The unary operators. -/
inductive UnaryOp where
  | not
  | negate
  | plus
deriving Repr, DecidableEq

/-- The symbol of a unary operator. -/
def UnaryOp.symbol : UnaryOp → String
  | not => "!"
  | negate => "-"
  | plus => "+"

end TreeDoc.Program
