import StyleTally.Proofs.Formula.Basic

/-!
# Clauses of guards

The tests of a guard with their text and the tree that the text stands for. A clause is in order
when its text needs no parentheses but those that it has: `and` and `or` associate to the left, and
`and` binds more tightly.
-/

namespace StyleTally.Stylesheet

namespace Formula

def isParen : Formula → Bool
  | .paren _ => true
  | _ => false

/-- Whether a formula opens with the call of a function that the word for negation names. -/
def opensWithNot : Formula → Bool
  | .call name _ => name.chars.map Char.toLower == "not".toList
  | .operation _ l _ => l.opensWithNot
  | _ => false

end Formula

/-- The spellings of the comparisons; two of them have two. -/
inductive Comparator where
  | equal
  | notEqual
  | greater
  | greaterOrEqual
  | equalOrGreater
  | less
  | lessOrEqual
  | equalOrLess
  deriving DecidableEq, Repr

namespace Comparator

/-- The first sign of a comparison. -/
def sign : Comparator → Char
  | equal | equalOrGreater | equalOrLess => '='
  | notEqual => '!'
  | greater | greaterOrEqual => '>'
  | less | lessOrEqual => '<'

/-- The second sign, if there is one. -/
def sign? : Comparator → Option Char
  | equal | greater | less => none
  | notEqual | greaterOrEqual | lessOrEqual => some '='
  | equalOrGreater => some '>'
  | equalOrLess => some '<'

def operator : Comparator → Operator
  | equal => .equal
  | notEqual => .notEqual
  | greater => .greater
  | greaterOrEqual | equalOrGreater => .greaterOrEqual
  | less => .less
  | lessOrEqual | equalOrLess => .lessOrEqual

end Comparator

inductive Clause where
  | holds (negated : Bool) (f : Formula)
  | compares (negated : Bool) (op : Comparator) (left right : Formula)
  | nested (negated : Bool) (c : Clause)
  | both (left right : Clause)
  | either (left right : Clause)

namespace Clause

/-- What stands in front of the parenthesis of a test. -/
def negation (negated : Bool) : List Char := if negated then "not ".toList else []

/-- A clause as it is written: each test in parentheses, a blank on each side of an operator. -/
def text : Clause → List Char
  | holds negated f => negation negated ++ '(' :: (f.text ++ [')'])
  | compares negated op l r =>
    negation negated ++ '(' ::
      (l.text ++ ' ' :: op.sign :: (op.sign?.toList ++ ' ' :: (r.text ++ [')'])))
  | nested negated c => negation negated ++ '(' :: (c.text ++ [')'])
  | both l r => l.text ++ " and ".toList ++ r.text
  | either l r => l.text ++ " or ".toList ++ r.text

/-- Clauses with a comma and a blank in front of each. -/
def textOfMore (cs : List Clause) : List Char := cs.flatMap fun c => ',' :: ' ' :: c.text

/-- Clauses with commas between them. -/
def textOfAll : List Clause → List Char
  | [] => []
  | c :: cs => c.text ++ textOfMore cs

def value : Clause → Value
  | holds negated f => .condition f.value negated
  | compares negated op l r => .condition (.operation op.operator l.value r.value) negated
  | nested negated c => .condition c.value negated
  | both l r => .operation .both l.value r.value
  | either l r => .operation .either l.value r.value

/-- The greatest number of parentheses and calls around one part of a clause. -/
def nesting : Clause → Nat
  | holds _ f => f.nesting + 1
  | compares _ _ l r => max l.nesting r.nesting + 1
  | nested _ c => c.nesting + 1
  | both l r | either l r => max l.nesting r.nesting

/-- A clause opens at least the parenthesis of a test. -/
theorem nesting_pos (c : Clause) : 0 < c.nesting := by
  induction c with
  | holds _ _ | compares _ _ _ _ | nested _ _ _ => exact Nat.succ_pos _
  | both l r ihl _ | either l r ihl _ => exact Nat.lt_of_lt_of_le ihl (Nat.le_max_left _ _)

def isTest : Clause → Bool
  | holds _ _ | compares _ _ _ _ | nested _ _ => true
  | both _ _ | either _ _ => false

def isEither : Clause → Bool
  | either _ _ => true
  | _ => false

/-- Whether a clause is in order. A test that holds parentheses alone would be a nested clause, and
one that opens with a call of `not` a negated clause. -/
def inOrder : Clause → Bool
  | holds _ f => f.inOrder true && !f.isParen && !f.opensWithNot
  | compares _ _ l r => l.inOrder true && r.inOrder true && !l.opensWithNot
  | nested _ c => c.inOrder
  | both l r => l.inOrder && r.inOrder && !l.isEither && r.isTest
  | either l r => l.inOrder && r.inOrder && !r.isEither

end Clause

end StyleTally.Stylesheet
