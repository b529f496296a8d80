import StyleTally.Stylesheet.Lexer
import StyleTally.Stylesheet.Tree

/-!
# Formulas

Arithmetic values with their text and the tree that the text stands for. A formula is in order when
its text needs no parentheses but those that it has: sums and products associate to the left,
products bind more tightly than sums, and a slash divides only in parentheses or in a call.
-/

namespace StyleTally.Stylesheet

/-- One or more characters of one kind. -/
structure Spelling (p : Char → Bool) where
  chars : List Char
  nonempty : chars ≠ []
  all : ∀ c ∈ chars, p c = true

namespace Spelling

def text {p : Char → Bool} (s : Spelling p) : String := String.ofList s.chars

end Spelling

/-- A word of letters. -/
abbrev Word := Spelling Char.isAlpha

abbrev Numeral := Spelling Char.isDigit

inductive Arithmetic where
  | add
  | subtract
  | multiply
  | divide
  deriving DecidableEq, Repr

namespace Arithmetic

def symbol : Arithmetic → Char
  | add => '+'
  | subtract => '-'
  | multiply => '*'
  | divide => '/'

def operator : Arithmetic → Operator
  | add => .add
  | subtract => .subtract
  | multiply => .multiply
  | divide => .divide

/-- Whether an operator is a sign. -/
def isSum : Arithmetic → Bool
  | add | subtract => true
  | multiply | divide => false

end Arithmetic

inductive Formula where
  | var (name : Word)
  | number (digits : Numeral) (unit : Option Word)
  | negative (f : Formula)
  | call (name : Word) (args : List Formula)
  | paren (f : Formula)
  | operation (op : Arithmetic) (left right : Formula)

namespace Formula

def unitChars : Option Word → List Char
  | none => []
  | some unit => unit.chars

mutual

/-- A formula as it is written: a blank on each side of an operator, none behind a sign. -/
def text : Formula → List Char
  | .var name => '@' :: name.chars
  | .number digits unit => digits.chars ++ unitChars unit
  | .negative f => '-' :: f.text
  | .call name args => name.chars ++ '(' :: (textOfArgs args ++ [')'])
  | .paren f => '(' :: (f.text ++ [')'])
  | .operation op l r => l.text ++ ' ' :: op.symbol :: ' ' :: r.text

def textOfArgs : List Formula → List Char
  | [] => []
  | f :: fs => f.text ++ textOfMore fs

/-- Arguments with a comma and a blank in front of each. -/
def textOfMore : List Formula → List Char
  | [] => []
  | f :: fs => ',' :: ' ' :: (f.text ++ textOfMore fs)

end

mutual

def value : Formula → Value
  | .var name => .var name.text .direct
  | .number digits unit =>
    .dimension (.ofDecimal false (Decimal.digitsValue digits.chars) 0) (String.ofList (unitChars unit))
  | .negative f => .negative f.value
  | .call name args => .call name.text (valuesOf args)
  | .paren f => .paren f.value
  | .operation op l r => .operation op.operator l.value r.value

def valuesOf : List Formula → List Value
  | [] => []
  | f :: fs => f.value :: valuesOf fs

end

mutual

/-- The greatest number of parentheses, calls and signs around one part of a formula. -/
def nesting : Formula → Nat
  | .var _ | .number _ _ => 0
  | .negative f | .paren f => f.nesting + 1
  | .call _ args => nestingOf args + 1
  | .operation _ l r => max l.nesting r.nesting

def nestingOf : List Formula → Nat
  | [] => 0
  | f :: fs => max f.nesting (nestingOf fs)

end

def isOperation : Formula → Bool
  | .operation _ _ _ => true
  | _ => false

def isSum : Formula → Bool
  | .operation op _ _ => op.isSum
  | _ => false

/-- Whether a sign may stand in front of a formula. -/
def takesSign : Formula → Bool
  | .var _ | .paren _ | .negative _ => true
  | _ => false

mutual

/-- Whether a formula is in order; `sheltered` tells that it stands in parentheses or in a call. -/
def inOrder (sheltered : Bool) : Formula → Bool
  | .var _ | .number _ _ => true
  | .negative f => f.takesSign && f.inOrder sheltered
  | .call name args => name.chars.map Char.toLower != "url".toList && allInOrder args
  | .paren f => f.inOrder true
  | .operation op l r =>
    l.inOrder sheltered && r.inOrder sheltered && (op != .divide || sheltered) &&
      if op.isSum then !r.isSum else !l.isSum && !r.isOperation

def allInOrder : List Formula → Bool
  | [] => true
  | f :: fs => f.inOrder true && allInOrder fs

end

end Formula

end StyleTally.Stylesheet
