/-!
# Operators

Arithmetic, logical and comparison operators, with their names and the symbols that stand for them.
-/

namespace StyleTally.Stylesheet

inductive Operator where
  | add
  | subtract
  | multiply
  | divide
  | both
  | either
  | equal
  | notEqual
  | greater
  | greaterOrEqual
  | less
  | lessOrEqual
  deriving DecidableEq, Repr

namespace Operator

def name : Operator → String
  | add => "add"
  | subtract => "subtract"
  | multiply => "multiply"
  | divide => "divide"
  | both => "and"
  | either => "or"
  | equal => "eq"
  | notEqual => "ne"
  | greater => "gt"
  | greaterOrEqual => "gte"
  | less => "lt"
  | lessOrEqual => "lte"

/-- Every symbol with its operator; the two orders of a compound comparison mean the same. -/
def symbols : List (String × Operator) :=
  [("+", add), ("-", subtract), ("*", multiply), ("/", divide), ("and", both), ("or", either),
   ("=", equal), ("!=", notEqual), (">", greater), (">=", greaterOrEqual), ("=>", greaterOrEqual),
   ("<", less), ("<=", lessOrEqual), ("=<", lessOrEqual)]

def ofSymbol? (symbol : String) : Option Operator := symbols.lookup symbol

end Operator

end StyleTally.Stylesheet
