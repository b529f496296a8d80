import StyleTally.Stylesheet.Tree

/-!
# Nodes

Every part of a syntax tree as a node with a kind and named fields. The children of a node, taken
together, weigh less than the node; walks over nodes end for that reason.
-/

namespace StyleTally.Stylesheet

inductive Node where
  | sheet (rules : List Statement)
  | block (rules : List Statement)
  | statement (s : Statement)
  | property (name : String)
  | selectors (ss : List Selector)
  | selector (s : Selector)
  | element (e : Element)
  | parameters (ps : List Parameter)
  | parameter (p : Parameter)
  | arguments (a : Arguments)
  | argument (a : Argument)
  | guard (conditions : List Value)
  | features (queries : List Value)
  | value (v : Value)
  deriving Repr

inductive Scalar where
  | absent
  | text (s : String)
  | flag (b : Bool)
  | integer (n : Int)
  | real (x : Binary64)

inductive Field where
  | scalar (a : Scalar)
  | words (ws : List String)
  | child (n? : Option Node)
  | children (ns : List (Option Node))

namespace Field

def text (s : String) : Field := scalar (.text s)

def text? (s? : Option String) : Field := scalar ((s?.map Scalar.text).getD .absent)

def sign? (c? : Option Char) : Field := text? (c?.map String.singleton)

def flag (b : Bool) : Field := scalar (.flag b)

def node (n : Node) : Field := child (some n)

def value (v : Value) : Field := child (some (.value v))

def value? (v? : Option Value) : Field := child (v?.map Node.value)

def values (vs : List Value) : Field := children (vs.map fun v => some (.value v))

/-- The nodes in a field; a hole in a list counts, a child that is missing does not. -/
def nodes : Field → List (Option Node)
  | child (some n) => [some n]
  | children ns => ns
  | _ => []

@[simp] theorem nodes_scalar (a : Scalar) : (scalar a).nodes = [] := rfl

@[simp] theorem nodes_words (ws : List String) : (words ws).nodes = [] := rfl

@[simp] theorem nodes_node (n : Node) : (node n).nodes = [some n] := rfl

@[simp] theorem nodes_value (v : Value) : (value v).nodes = [some (.value v)] := rfl

@[simp] theorem nodes_children (ns : List (Option Node)) : (children ns).nodes = ns := rfl

@[simp] theorem nodes_values (vs : List Value) :
    (values vs).nodes = vs.map fun v => some (.value v) := rfl

@[simp] theorem nodes_text (s : String) : (text s).nodes = [] := rfl

@[simp] theorem nodes_text? (s? : Option String) : (text? s?).nodes = [] := rfl

@[simp] theorem nodes_sign? (c? : Option Char) : (sign? c?).nodes = [] := rfl

@[simp] theorem nodes_flag (b : Bool) : (flag b).nodes = [] := rfl

end Field

/-- A stray semicolon leaves a hole in its block. -/
def Statement.node? : Statement → Option Node
  | .empty => none
  | s => some (.statement s)

namespace Node

def ofBody (body : List Statement) : Field := .node (.block body)

def ofGuard? (conditions : Option (List Value)) : Field := .child (conditions.map Node.guard)

def ofFeatures? (queries : Option (List Value)) : Field := .child (queries.map Node.features)

def kindOfValue : Value → String
  | .var _ _ => "variable"
  | .dimension _ _ => "dimension"
  | .colorName _ => "keyword_color"
  | .color _ => "rgb_color"
  | .keyword _ => "keyword"
  | .truth true _ => "true"
  | .truth false _ => "false"
  | .quoted _ _ _ => "quoted"
  | .ratio _ => "ratio"
  | .url _ => "url"
  | .unicodeRange _ => "unicode_range"
  | .call _ _ => "function_call"
  | .assignment _ _ => "assignment"
  | .expression _ => "expression"
  | .expressionList _ => "expression_list"
  | .operation _ _ _ => "operation"
  | .shorthand _ _ => "shorthand"
  | .paren _ => "paren"
  | .negative _ => "negative"
  | .condition _ _ => "condition"
  | .feature _ _ => "feature"

def kindOfStatement : Statement → String
  | .empty => "hole"
  | .declaration _ _ _ => "rule"
  | .definition _ _ _ => "definition"
  | .ruleset _ _ _ => "ruleset"
  | .mixin _ _ _ _ => "mixin"
  | .mixinCall _ _ _ => "mixin_call"
  | .media _ _ => "media"
  | .blockDirective _ _ _ => "block_directive"
  | .directive _ _ => "directive"
  | .block _ _ => "generic_block"
  | .imported _ _ _ => "import"
  | .extend _ _ => "extend"

def kind : Node → String
  | sheet _ => "stylesheet"
  | block _ => "block"
  | statement s => kindOfStatement s
  | property _ => "property"
  | selectors _ => "selectors"
  | selector _ => "selector"
  | element ⟨.text _, _⟩ => "text_element"
  | element ⟨.attribute _, _⟩ => "attribute_element"
  | element ⟨.value _, _⟩ => "value_element"
  | parameters _ => "mixin_params"
  | parameter _ => "parameter"
  | arguments _ => "mixin_args"
  | argument _ => "argument"
  | guard _ => "guard"
  | features _ => "features"
  | value v => kindOfValue v

def fieldsOfValue : Value → List (String × Field)
  | .var name form =>
    [("name", .text name), ("indirect", .flag (form == .indirect)), ("curly", .flag (form == .curly))]
  | .dimension x unit => [("value", .scalar (.real x)), ("unit", .text unit)]
  | .colorName word => [("keyword", .text word)]
  | .color c =>
    [("red", .scalar (.integer c.red)), ("green", .scalar (.integer c.green)),
     ("blue", .scalar (.integer c.blue)), ("alpha", .scalar (.real c.alpha)),
     ("source", .text c.source)]
  | .keyword s | .truth _ s | .ratio s | .url s | .unicodeRange s => [("value", .text s)]
  | .quoted s quote escaped =>
    [("value", .text s), ("quote", .text (String.singleton quote)), ("escaped", .flag escaped)]
  | .call name args => [("name", .text name), ("args", .values args)]
  | .assignment name v => [("name", .text name), ("value", .value v)]
  | .expression vs | .expressionList vs => [("values", .values vs)]
  | .operation op l r => [("operator", .text op.name), ("left", .value l), ("right", .value r)]
  | .shorthand l r => [("left", .value l), ("right", .value r)]
  | .paren v | .negative v => [("value", .value v)]
  | .condition test negated =>
    [("left", .value test), ("right", .child none), ("negate", .flag negated)]
  | .feature name v? => [("property", .node (.property name)), ("value", .value? v?)]

def fieldsOfStatement : Statement → List (String × Field)
  | .empty => []
  | .declaration name v? important =>
    [("property", .node (.property name)), ("value", .value? v?), ("important", .flag important)]
  | .definition name v important =>
    [("name", .text name), ("value", .value v), ("important", .flag important)]
  | .ruleset ss conditions body =>
    [("selectors", .node (.selectors ss)), ("block", ofBody body), ("guard", ofGuard? conditions)]
  | .mixin name ps conditions body =>
    [("name", .text name), ("params", .node (.parameters ps)), ("block", ofBody body),
     ("guard", ofGuard? conditions)]
  | .mixinCall path args important =>
    [("selector", .node (.selector path)), ("args", .child (args.map Node.arguments)),
     ("important", .flag important)]
  | .media queries body => [("features", ofFeatures? queries), ("block", ofBody body)]
  | .blockDirective name params body =>
    [("name", .text name), ("block", ofBody body), ("params", .text params)]
  | .directive name v? => [("name", .text name), ("value", .value? v?)]
  | .block name body => [("block", ofBody body), ("name", .text? name)]
  | .imported path queries options =>
    [("path", .value path), ("features", ofFeatures? queries), ("options", .words options)]
  | .extend ss all => [("selectors", .node (.selectors ss)), ("all", .flag all)]

def fieldsOfPart : Part → String × Field
  | .text name => ("name", .text name)
  | .attribute parts => ("parts", .values parts)
  | .value v => ("value", .value v)

/-- The fields of a node, in the order in which they are shown. -/
def fields : Node → List (String × Field)
  | sheet rules => [("block", ofBody rules)]
  | block rules => [("rules", .children (rules.map Statement.node?))]
  | statement s => fieldsOfStatement s
  | property name => [("name", .text name)]
  | selectors ss => [("selectors", .children (ss.map fun s => some (selector s)))]
  | selector s => [("elements", .children (s.map fun e => some (element e)))]
  | element e => [fieldsOfPart e.part, ("combinator", .sign? e.combinator)]
  | parameters ps => [("params", .children (ps.map fun p => some (parameter p)))]
  | parameter p =>
    [("name", .text? p.name), ("value", .value? p.value), ("variadic", .flag p.variadic)]
  | arguments a =>
    [("args", .children (a.items.map fun i => some (argument i))),
     ("delimiter", .text (String.singleton a.delimiter))]
  | argument a => [("value", .value a.value), ("name", .text? a.name)]
  | guard vs => [("conditions", .values vs)]
  | features vs => [("features", .values vs)]
  | value v => fieldsOfValue v

def children (n : Node) : List (Option Node) := n.fields.flatMap fun (_, f) => f.nodes

def weight : Node → Nat
  | sheet rules => Statement.weights rules + 2
  | block rules => Statement.weights rules + 1
  | statement s => s.weight
  | property _ => 1
  | selectors ss => selectorsWeight ss
  | selector s => Selector.weight s
  | element e => e.weight
  | parameters ps => parametersWeight ps
  | parameter p => p.weight
  | arguments a => a.weight
  | argument a => a.weight
  | guard vs | features vs => Value.weights vs + 1
  | value v => v.weight

def weight? : Option Node → Nat
  | none => 0
  | some n => n.weight

def weights (ns : List (Option Node)) : Nat := sumOf weight? ns

@[simp] theorem weights_nil : weights [] = 0 := rfl

@[simp] theorem weights_cons (n? : Option Node) (ns : List (Option Node)) :
    weights (n? :: ns) = weight? n? + weights ns := by simp [weights]

@[simp] theorem weights_append (ns ms : List (Option Node)) :
    weights (ns ++ ms) = weights ns + weights ms := by simp [weights]

@[simp] theorem weight?_none : weight? none = 0 := rfl

@[simp] theorem weight?_some (n : Node) : weight? (some n) = n.weight := rfl

theorem weights_values (vs : List Value) :
    weights (vs.map fun v => some (value v)) = Value.weights vs := by
  induction vs with
  | nil => rfl
  | cons v vs ih => simp [Value.weights, ih, weight]

theorem weights_rules_le (ss : List Statement) :
    weights (ss.map Statement.node?) ≤ Statement.weights ss := by
  induction ss with
  | nil => exact Nat.le_refl _
  | cons s ss ih =>
    cases s <;> simp [Statement.weights, weight, Statement.node?, Statement.weight] <;> omega

theorem weights_map {α : Type} (f : α → Node) (as : List α) :
    weights (as.map fun a => some (f a)) = sumOf (fun a => (f a).weight) as := by
  induction as with
  | nil => rfl
  | cons a as ih => simp [ih]

@[simp] theorem weights_child (n? : Option Node) :
    weights (Field.child n?).nodes = weight? n? := by
  cases n? <;> simp [Field.nodes]

@[simp] theorem weights_value? (v? : Option Value) :
    weights (Field.value? v?).nodes = Value.weight? v? := by
  cases v? <;> simp [Field.value?, Value.weight?, weight]

@[simp] theorem weights_guard? (vs? : Option (List Value)) :
    weights (ofGuard? vs?).nodes = guardWeight? vs? := by
  cases vs? <;> simp [ofGuard?, guardWeight?, weight]

@[simp] theorem weights_features? (vs? : Option (List Value)) :
    weights (ofFeatures? vs?).nodes = guardWeight? vs? := by
  cases vs? <;> simp [ofFeatures?, guardWeight?, weight]

@[simp] theorem weights_body (ss : List Statement) :
    weights (ofBody ss).nodes = Statement.weights ss + 1 := by
  simp [ofBody, weight]

@[simp] theorem weight?_arguments (a? : Option Arguments) :
    weight? (a?.map arguments) = (a?.map Arguments.weight).getD 0 := by
  cases a? <;> simp [weight]

theorem weights_children_lt (n : Node) : weights n.children < n.weight := by
  cases n with
  | value v =>
    cases v <;> simp [children, fields, fieldsOfValue, weight, Value.weight, weights_values]
    omega
  | statement s =>
    cases s <;>
      simp [children, fields, fieldsOfStatement, weight, Statement.weight] <;> omega
  | element e =>
    obtain ⟨part, combinator⟩ := e
    cases part <;>
      simp [children, fields, fieldsOfPart, weight, Element.weight, weights_values]
  | sheet rules => simp [children, fields, weight]
  | block rules =>
    have := weights_rules_le rules
    simp [children, fields, weight]
    omega
  | property name => simp [children, fields, weight]
  | selectors ss => simp [children, fields, weights_map, weight, selectorsWeight]
  | selector s => simp [children, fields, weights_map, weight, Selector.weight]
  | parameters ps => simp [children, fields, weights_map, weight, parametersWeight]
  | parameter p => simp [children, fields, weight, Parameter.weight]
  | arguments a => simp [children, fields, weights_map, weight, Arguments.weight]
  | argument a => simp [children, fields, weight, Argument.weight]
  | guard vs => simp [children, fields, weights_values, weight]
  | features vs => simp [children, fields, weights_values, weight]

end Node

end StyleTally.Stylesheet
