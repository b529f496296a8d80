import StyleTally.Stylesheet.Tree

/-!
# The grammar of values

Values as the grammar builds them, one rule for each way to build one. A place says what may stand
there; it is open when a slash divides in it and values may be compared, that is, within
parentheses and function calls and within the tests of a guard.
-/

namespace StyleTally.Stylesheet

inductive Place where
  | operand
  | product (divides : Bool)
  | sum (divides : Bool)
  | comparison
  | shorthand
  | expression (divides : Bool)
  | list (divides : Bool)
  | argument
  /-- One test of a guard. -/
  | condition
  | conjunction
  | disjunction
  | featureValue
  /-- One part of a media query. -/
  | mediaItem
  | mediaQuery
  deriving DecidableEq

namespace Place

/-- What stands side by side in an expression. -/
def item (divides : Bool) : Place := if divides then comparison else shorthand

/-- Whether a division or a comparison may stand here outside further brackets. -/
def isOpen : Place → Bool
  | product divides | sum divides | expression divides | list divides => divides
  | comparison | argument => true
  | _ => false

end Place

def Operator.compares : Operator → Bool
  | .equal | .notEqual | .greater | .greaterOrEqual | .less | .lessOrEqual => true
  | _ => false

namespace Value

/-- Values without parts. A ratio is one only as the value of a media feature. -/
def isAtom : Value → Bool
  | var _ _ | dimension _ _ | colorName _ | color _ | keyword _ | truth _ _ | quoted _ _ _ | url _
  | unicodeRange _ => true
  | _ => false

inductive Derives : Place → Value → Prop
  | atom {v : Value} (h : v.isAtom) : Derives .operand v
  | call {name : String} {args : List Value} (h : ∀ v ∈ args, Derives .argument v) :
      Derives .operand (.call name args)
  | paren {v : Value} (h : Derives (.list true) v) : Derives .operand (.paren v)
  | negative {v : Value} (h : Derives .operand v) : Derives .operand (.negative v)
  | product {divides : Bool} {v : Value} (h : Derives .operand v) : Derives (.product divides) v
  | multiply {divides : Bool} {l r : Value} (hl : Derives (.product divides) l)
      (hr : Derives .operand r) : Derives (.product divides) (.operation .multiply l r)
  | divide {l r : Value} (hl : Derives (.product true) l) (hr : Derives .operand r) :
      Derives (.product true) (.operation .divide l r)
  | sum {divides : Bool} {v : Value} (h : Derives (.product divides) v) : Derives (.sum divides) v
  | add {divides : Bool} {l r : Value} (hl : Derives (.sum divides) l)
      (hr : Derives (.product divides) r) : Derives (.sum divides) (.operation .add l r)
  | subtract {divides : Bool} {l r : Value} (hl : Derives (.sum divides) l)
      (hr : Derives (.product divides) r) : Derives (.sum divides) (.operation .subtract l r)
  | comparison {v : Value} (h : Derives (.sum true) v) : Derives .comparison v
  | compare {op : Operator} {l r : Value} (hop : op.compares) (hl : Derives (.sum true) l)
      (hr : Derives (.sum true) r) : Derives .comparison (.operation op l r)
  | alone {v : Value} (h : Derives (.sum false) v) : Derives .shorthand v
  | shorthand {l r : Value} (hl : Derives .shorthand l) (hr : Derives (.sum false) r) :
      Derives .shorthand (.shorthand l r)
  | expression {divides : Bool} {v : Value} (h : Derives (.item divides) v) :
      Derives (.expression divides) v
  | row {divides : Bool} {vs : List Value} (hlength : 2 ≤ vs.length)
      (h : ∀ v ∈ vs, Derives (.item divides) v) : Derives (.expression divides) (.expression vs)
  | list {divides : Bool} {v : Value} (h : Derives (.expression divides) v) :
      Derives (.list divides) v
  | rows {divides : Bool} {vs : List Value} (hlength : 2 ≤ vs.length)
      (h : ∀ v ∈ vs, Derives (.expression divides) v) :
      Derives (.list divides) (.expressionList vs)
  | argument {v : Value} (h : Derives (.expression true) v) : Derives .argument v
  | assignment {name : String} {v : Value} (h : Derives (.expression true) v) :
      Derives .argument (.assignment name v)
  | condition {v : Value} {negated : Bool} (h : Derives .comparison v) :
      Derives .condition (.condition v negated)
  | nested {v : Value} {negated : Bool} (h : Derives .disjunction v) :
      Derives .condition (.condition v negated)
  | conjunction {v : Value} (h : Derives .condition v) : Derives .conjunction v
  | both {l r : Value} (hl : Derives .conjunction l) (hr : Derives .condition r) :
      Derives .conjunction (.operation .both l r)
  | disjunction {v : Value} (h : Derives .conjunction v) : Derives .disjunction v
  | either {l r : Value} (hl : Derives .disjunction l) (hr : Derives .conjunction r) :
      Derives .disjunction (.operation .either l r)
  | mediaOperand {v : Value} (h : Derives .operand v) : Derives .mediaItem v
  | mediaParen {v : Value} (h : Derives (.list false) v) : Derives .mediaItem (.paren v)
  | ratio {text : String} : Derives .featureValue (.ratio text)
  | featureValue {v : Value} (h : Derives (.list false) v) : Derives .featureValue v
  | feature {name : String} {v? : Option Value} (h : ∀ v ∈ v?, Derives .featureValue v) :
      Derives .mediaItem (.feature name v?)
  | mediaQuery {v : Value} (h : Derives .mediaItem v) : Derives .mediaQuery v
  | mediaRow {vs : List Value} (hlength : 2 ≤ vs.length) (h : ∀ v ∈ vs, Derives .mediaItem v) :
      Derives .mediaQuery (.expression vs)

/-- `P d p` is about the values at the place `p` that are read with so many levels of nesting left.
The rules of the grammar keep it, and read what is enclosed with one level less. -/
structure Grammatical (P : Nat → Place → Value → Prop) : Prop where
  atom : ∀ {d v}, v.isAtom → P d .operand v
  call : ∀ {d name args}, (∀ v ∈ args, P d .argument v) → P (d + 1) .operand (.call name args)
  paren : ∀ {d v}, P d (.list true) v → P (d + 1) .operand (.paren v)
  negative : ∀ {d v}, P d .operand v → P (d + 1) .operand (.negative v)
  /-- Behind a plus sign. -/
  positive : ∀ {d v}, P d .operand v → P (d + 1) .operand v
  product : ∀ {d divides v}, P d .operand v → P d (.product divides) v
  multiply : ∀ {d divides l r}, P d (.product divides) l → P d .operand r →
    P d (.product divides) (.operation .multiply l r)
  divide : ∀ {d l r}, P d (.product true) l → P d .operand r →
    P d (.product true) (.operation .divide l r)
  sum : ∀ {d divides v}, P d (.product divides) v → P d (.sum divides) v
  add : ∀ {d divides l r}, P d (.sum divides) l → P d (.product divides) r →
    P d (.sum divides) (.operation .add l r)
  subtract : ∀ {d divides l r}, P d (.sum divides) l → P d (.product divides) r →
    P d (.sum divides) (.operation .subtract l r)
  comparison : ∀ {d v}, P d (.sum true) v → P d .comparison v
  compare : ∀ {d op l r}, op.compares → P d (.sum true) l → P d (.sum true) r →
    P d .comparison (.operation op l r)
  alone : ∀ {d v}, P d (.sum false) v → P d .shorthand v
  shorthand : ∀ {d l r}, P d .shorthand l → P d (.sum false) r → P d .shorthand (.shorthand l r)
  expression : ∀ {d divides v}, P d (.item divides) v → P d (.expression divides) v
  row : ∀ {d divides vs}, 2 ≤ vs.length → (∀ v ∈ vs, P d (.item divides) v) →
    P d (.expression divides) (.expression vs)
  list : ∀ {d divides v}, P d (.expression divides) v → P d (.list divides) v
  rows : ∀ {d divides vs}, 2 ≤ vs.length → (∀ v ∈ vs, P d (.expression divides) v) →
    P d (.list divides) (.expressionList vs)
  argument : ∀ {d v}, P d (.expression true) v → P d .argument v
  assignment : ∀ {d name v}, P d (.expression true) v → P d .argument (.assignment name v)
  condition : ∀ {d v negated}, P d .comparison v → P d .condition (.condition v negated)
  /-- A test with parentheses around it. -/
  enclosed : ∀ {d v negated}, P d .comparison v → P (d + 1) .condition (.condition v negated)
  nested : ∀ {d v negated}, P d .disjunction v → P (d + 1) .condition (.condition v negated)
  conjunction : ∀ {d v}, P d .condition v → P d .conjunction v
  both : ∀ {d l r}, P d .conjunction l → P d .condition r →
    P d .conjunction (.operation .both l r)
  disjunction : ∀ {d v}, P d .conjunction v → P d .disjunction v
  either : ∀ {d l r}, P d .disjunction l → P d .conjunction r →
    P d .disjunction (.operation .either l r)
  mediaOperand : ∀ {d v}, P d .operand v → P d .mediaItem v
  mediaParen : ∀ {d v}, P d (.list false) v → P (d + 1) .mediaItem (.paren v)
  ratio : ∀ {d text}, P d .featureValue (.ratio text)
  featureValue : ∀ {d v}, P d (.list false) v → P d .featureValue v
  feature : ∀ {d name v?}, (∀ v ∈ v?, P d .featureValue v) →
    P (d + 1) .mediaItem (.feature name v?)
  mediaQuery : ∀ {d v}, P d .mediaItem v → P d .mediaQuery v
  mediaRow : ∀ {d vs}, 2 ≤ vs.length → (∀ v ∈ vs, P d .mediaItem v) →
    P d .mediaQuery (.expression vs)

theorem derives_grammatical : Grammatical fun _ => Derives where
  atom := .atom
  call := .call
  paren := .paren
  negative := .negative
  positive h := h
  product := .product
  multiply := .multiply
  divide := .divide
  sum := .sum
  add := .add
  subtract := .subtract
  comparison := .comparison
  compare := .compare
  alone := .alone
  shorthand := .shorthand
  expression := .expression
  row := .row
  list := .list
  rows := .rows
  argument := .argument
  assignment := .assignment
  condition := .condition
  enclosed := .condition
  nested := .nested
  conjunction := .conjunction
  both := .both
  disjunction := .disjunction
  either := .either
  mediaOperand := .mediaOperand
  mediaParen := .mediaParen
  ratio := .ratio
  featureValue := .featureValue
  feature := .feature
  mediaQuery := .mediaQuery
  mediaRow := .mediaRow

end Value

/-- A row of at least one value, each of which satisfies `P`. -/
def Row (P : Value → Prop) (vs : List Value) : Prop := vs ≠ [] ∧ ∀ v ∈ vs, P v

def GuardShaped (vs : List Value) : Prop := vs ≠ [] ∧ ∀ v ∈ vs, Value.Derives .disjunction v

def FeaturesShaped (vs : List Value) : Prop := vs ≠ [] ∧ ∀ v ∈ vs, Value.Derives .mediaQuery v

end StyleTally.Stylesheet
