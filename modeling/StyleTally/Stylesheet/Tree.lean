import StyleTally.Stylesheet.Color
import StyleTally.Stylesheet.Operator

/-!
# Syntax trees

A stylesheet is a block of statements. Statements hold selectors, values and further blocks; values
nest among themselves. Names and values stay as they are written.
-/

namespace StyleTally.Stylesheet

/-- How a variable is referred to: `@name`, `@@name` or `@{name}`. -/
inductive Reference where
  | direct
  | indirect
  | curly
  deriving DecidableEq, Repr

inductive Value where
  | var (name : String) (form : Reference)
  | dimension (value : Binary64) (unit : String)
  | colorName (word : String)
  | color (c : Color)
  | keyword (word : String)
  /-- `true` or `false`, as it is spelled. -/
  | truth (holds : Bool) (word : String)
  | quoted (text : String) (quote : Char) (escaped : Bool)
  | ratio (text : String)
  | url (text : String)
  | unicodeRange (text : String)
  | call (name : String) (args : List Value)
  | assignment (name : String) (value : Value)
  /-- Values with blank space between them. -/
  | expression (items : List Value)
  /-- Values with commas between them. -/
  | expressionList (items : List Value)
  | operation (op : Operator) (left right : Value)
  /-- Values with a slash between them in a declaration. -/
  | shorthand (left right : Value)
  | paren (value : Value)
  | negative (value : Value)
  /-- One test of a guard. -/
  | condition (test : Value) (negated : Bool)
  /-- One media feature. -/
  | feature (name : String) (value : Option Value)
  deriving Repr

inductive Part where
  | text (name : String)
  /-- The name, the operator and the value of an attribute test. -/
  | attribute (parts : List Value)
  | value (v : Value)
  deriving Repr

/-- A simple selector and the combinator in front of it. -/
structure Element where
  part : Part
  combinator : Option Char
  deriving Repr

abbrev Selector := List Element

structure Parameter where
  name : Option String
  value : Option Value
  variadic : Bool
  deriving Repr

structure Argument where
  value : Value
  name : Option String
  deriving Repr

structure Arguments where
  items : List Argument
  delimiter : Char
  deriving Repr

inductive Statement where
  /-- A stray semicolon. -/
  | empty
  | declaration (property : String) (value : Option Value) (important : Bool)
  | definition (name : String) (value : Value) (important : Bool)
  | ruleset (selectors : List Selector) (guard : Option (List Value)) (body : List Statement)
  | mixin (name : String) (params : List Parameter) (guard : Option (List Value))
      (body : List Statement)
  | mixinCall (path : Selector) (args : Option Arguments) (important : Bool)
  | media (features : Option (List Value)) (body : List Statement)
  /-- An at-rule with a body. -/
  | blockDirective (name : String) (params : String) (body : List Statement)
  /-- An at-rule without a body. -/
  | directive (name : String) (value : Option Value)
  | block (name : Option String) (body : List Statement)
  | imported (path : Value) (features : Option (List Value)) (options : List String)
  | extend (selectors : List Selector) (all : Bool)
  deriving Repr

/-- A stylesheet is the list of its statements. -/
abbrev Sheet := List Statement

/-- The weight of a list, given the weight of a member. -/
def sumOf {α : Type} (weight : α → Nat) : List α → Nat
  | [] => 0
  | a :: as => weight a + sumOf weight as

@[simp] theorem sumOf_nil {α : Type} (weight : α → Nat) : sumOf weight [] = 0 := rfl

@[simp] theorem sumOf_cons {α : Type} (weight : α → Nat) (a : α) (as : List α) :
    sumOf weight (a :: as) = weight a + sumOf weight as := rfl

@[simp] theorem sumOf_append {α : Type} (weight : α → Nat) (as bs : List α) :
    sumOf weight (as ++ bs) = sumOf weight as + sumOf weight bs := by
  induction as with
  | nil => simp
  | cons a as ih => simp [ih, Nat.add_assoc]

namespace Value

mutual

/-- The number of nodes of a value. -/
def weight : Value → Nat
  | call _ args => weights args + 1
  | expression items | expressionList items => weights items + 1
  | assignment _ v | paren v | negative v | condition v _ => weight v + 1
  | operation _ l r | shorthand l r => weight l + weight r + 1
  | feature _ v? => weight? v? + 2
  | _ => 1

def weights : List Value → Nat
  | [] => 0
  | v :: vs => weight v + weights vs

def weight? : Option Value → Nat
  | none => 0
  | some v => weight v

end

end Value

/-- The number of nodes of a simple selector. -/
def Element.weight (e : Element) : Nat :=
  match e.part with
  | .text _ => 1
  | .attribute parts => Value.weights parts + 1
  | .value v => v.weight + 1

def Selector.weight (s : Selector) : Nat := sumOf Element.weight s + 1

def selectorsWeight (ss : List Selector) : Nat := sumOf Selector.weight ss + 1

def Parameter.weight (p : Parameter) : Nat := Value.weight? p.value + 1

def parametersWeight (ps : List Parameter) : Nat := sumOf Parameter.weight ps + 1

def Argument.weight (a : Argument) : Nat := a.value.weight + 1

def Arguments.weight (a : Arguments) : Nat := sumOf Argument.weight a.items + 1

def guardWeight? : Option (List Value) → Nat
  | none => 0
  | some vs => Value.weights vs + 1

namespace Statement

mutual

/-- The number of nodes of a statement, the block of its body included; a stray semicolon counts
as one. -/
def weight : Statement → Nat
  | empty => 1
  | declaration _ v? _ => Value.weight? v? + 2
  | definition _ v _ => v.weight + 1
  | ruleset ss guard body => selectorsWeight ss + guardWeight? guard + weights body + 2
  | mixin _ ps guard body => parametersWeight ps + guardWeight? guard + weights body + 2
  | mixinCall path args _ => Selector.weight path + (args.map Arguments.weight).getD 0 + 1
  | media features body => guardWeight? features + weights body + 2
  | blockDirective _ _ body | block _ body => weights body + 2
  | directive _ v? => Value.weight? v? + 1
  | imported path features _ => path.weight + guardWeight? features + 1
  | extend ss _ => selectorsWeight ss + 1

def weights : List Statement → Nat
  | [] => 0
  | s :: ss => weight s + weights ss

end

end Statement

end StyleTally.Stylesheet
