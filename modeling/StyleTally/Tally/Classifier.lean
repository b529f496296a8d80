import StyleTally.Stylesheet.Node
import StyleTally.Tally.Store

/-!
# Classifying nodes

A node leaves marks, each of which counts one key of one section, and hands on the nodes below it
that are to be visited. `Store.scanNodes` visits nodes from a stack; `Store.scanStatements` goes
through the statements of a block and the blocks within it.
-/

namespace StyleTally

open Stylesheet

/-- One more of a key of a section. -/
structure Mark where
  part : Section
  key : String
  deriving DecidableEq, Repr

namespace Mark

/-- A mark on the kind of a node. -/
def tag (kind : String) : Mark := ⟨.nodes, kind⟩

end Mark

/-- The marks of a node, and the nodes to visit after it. -/
structure Findings where
  marks : List Mark
  next : List (Option Node)

namespace Findings

def tagged (kind : String) (next : List (Option Node)) : Findings := ⟨[.tag kind], next⟩

/-- A node with a key and nothing below it. -/
def keyed (kind : String) (part : Section) (key : String) : Findings := ⟨[.tag kind, ⟨part, key⟩], []⟩

def valueNodes (vs : List Value) : List (Option Node) := vs.map fun v => some (.value v)

def ofValue : Value → Findings
  | .var name _ => keyed "variable" .variableUses name
  | .dimension x unit =>
    keyed (if unit.isEmpty then "number" else "dimension") .dimensions (Decimal.plain x ++ unit)
  | .colorName word =>
    ⟨[.tag "keyword_color", ⟨.keywords, word⟩, ⟨.colorKeywords, word⟩], []⟩
  | .color c => keyed "rgb_color" .colors c.render
  | .keyword word | .truth _ word => keyed "keyword" .keywords word
  | .quoted _ _ _ => tagged "quoted" []
  | .ratio s => keyed "ratio" .ratios s
  | .url _ => tagged "url" []
  | .unicodeRange _ => tagged "unicode_range" []
  | .call name args => ⟨[.tag "function_call", ⟨.functions, name⟩], valueNodes args⟩
  | .assignment _ v => tagged "assignment" [some (.value v)]
  | .expression vs => tagged "expression" (valueNodes vs)
  | .expressionList vs => tagged "expression_list" (valueNodes vs)
  | .operation op l r =>
    tagged ("operation_" ++ op.name) [some (.value l), some (.value r)]
  | .shorthand l r => tagged "shorthand" [some (.value l), some (.value r)]
  | .paren v => tagged "paren" [some (.value v)]
  | .negative v => tagged "negative" [some (.value v)]
  | .condition test _ => tagged "condition" [some (.value test), none]
  | .feature name v? => ⟨[.tag "feature", ⟨.properties, name⟩], [v?.map Node.value]⟩

def ofElement (e : Element) : Findings :=
  match e.part with
  | .text name => keyed "text_element" .elements name
  | .attribute parts => tagged "attribute_element" (valueNodes parts)
  | .value v => tagged "value_element" [some (.value v)]

/-- Statements with a body, and extensions, are not visited as nodes. -/
def ofStatement? : Statement → Option Findings
  | .declaration name v? _ => some (tagged "rule" [some (.property name), v?.map Node.value])
  | .definition _ v _ => some (tagged "definition" [some (.value v)])
  | .mixinCall path args _ =>
    some (tagged "mixin_call" [args.map Node.arguments, some (.selector path)])
  | .directive _ v? => some (tagged "directive" [v?.map Node.value])
  | .imported path queries _ =>
    some (tagged "import" [queries.map Node.features, some (.value path)])
  | _ => none

def of? : Node → Option Findings
  | .sheet _ | .block _ => none
  | .statement s => ofStatement? s
  | .property name => some (keyed "property" .properties name)
  | .selectors ss => some (tagged "selectors" (ss.map fun s => some (.selector s)))
  | .selector s => some (tagged "selector" (s.map fun e => some (.element e)))
  | .element e => some (ofElement e)
  | .parameters ps => some (tagged "mixin_params" (ps.map fun p => some (.parameter p)))
  | .parameter p => some (tagged "parameter" [p.value.map Node.value])
  | .arguments a => some (tagged "mixin_args" (a.items.map fun i => some (.argument i)))
  | .argument a => some (tagged "argument" [some (.value a.value)])
  | .guard vs => some (tagged "guard" (valueNodes vs))
  | .features vs => some (tagged "features" (valueNodes vs))
  | .value v => some (ofValue v)

theorem weights_valueNodes (vs : List Value) : Node.weights (valueNodes vs) = Value.weights vs :=
  Node.weights_values vs

@[simp] theorem weight?_value (v? : Option Value) :
    Node.weight? (v?.map Node.value) = Value.weight? v? := by
  cases v? <;> rfl

@[simp] theorem weight?_features (vs? : Option (List Value)) :
    Node.weight? (vs?.map Node.features) = guardWeight? vs? := by
  cases vs? <;> rfl

theorem weights_next_lt {n : Node} {f : Findings} (h : of? n = some f) :
    Node.weights f.next < n.weight := by
  cases n with
  | value v =>
    simp only [of?, Option.some.injEq] at h
    subst h
    cases v <;>
      simp [ofValue, keyed, tagged, weights_valueNodes, Node.weight, Value.weight]
  | statement s =>
    simp only [of?] at h
    cases s <;> simp only [ofStatement?, Option.some.injEq, reduceCtorEq] at h <;> subst h <;>
      simp [tagged, Node.weight, Statement.weight] <;> omega
  | element e =>
    obtain ⟨part, combinator⟩ := e
    simp only [of?, Option.some.injEq] at h
    subst h
    cases part <;>
      simp [ofElement, keyed, tagged, weights_valueNodes, Node.weight, Element.weight]
  | sheet rules => simp [of?] at h
  | block rules => simp [of?] at h
  | property name =>
    simp only [of?, Option.some.injEq] at h
    subst h
    simp [keyed, Node.weight]
  | selectors ss =>
    simp only [of?, Option.some.injEq] at h
    subst h
    simp [tagged, Node.weights_map, Node.weight, selectorsWeight]
  | selector s =>
    simp only [of?, Option.some.injEq] at h
    subst h
    simp [tagged, Node.weights_map, Node.weight, Selector.weight]
  | parameters ps =>
    simp only [of?, Option.some.injEq] at h
    subst h
    simp [tagged, Node.weights_map, Node.weight, parametersWeight]
  | parameter p =>
    simp only [of?, Option.some.injEq] at h
    subst h
    simp [tagged, Node.weight, Parameter.weight]
  | arguments a =>
    simp only [of?, Option.some.injEq] at h
    subst h
    simp [tagged, Node.weights_map, Node.weight, Arguments.weight]
  | argument a =>
    simp only [of?, Option.some.injEq] at h
    subst h
    simp [tagged, Node.weight, Argument.weight]
  | guard vs =>
    simp only [of?, Option.some.injEq] at h
    subst h
    simp [tagged, weights_valueNodes, Node.weight]
  | features vs =>
    simp only [of?, Option.some.injEq] at h
    subst h
    simp [tagged, weights_valueNodes, Node.weight]

end Findings

namespace Store

def mark (s : Store) (m : Mark) : Except StoreFault Store := s.add m.part m.key

def markAll (s : Store) (ms : List Mark) : Except StoreFault Store := ms.foldlM mark s

/-- Visits the nodes of a stack from its top; what a node hands on comes before the rest. -/
def scanNodes (s : Store) (stack : List (Option Node)) : Except StoreFault Store :=
  match stack with
  | [] => .ok s
  | none :: rest => scanNodes s rest
  | some n :: rest =>
    match _h : Findings.of? n with
    | none => scanNodes s rest
    | some found =>
      match s.markAll found.marks with
      | .error e => .error e
      | .ok s => scanNodes s (found.next ++ rest)
termination_by (Node.weights stack, stack.length)
decreasing_by
  · simp only [Node.weights_cons, Node.weight?_none, Nat.zero_add]
    exact Prod.Lex.right _ (by simp)
  · simp only [Node.weights_cons, Node.weight?_some, Prod.lex_def, List.length_cons]
    omega
  · have := Findings.weights_next_lt _h
    simp only [Node.weights_cons, Node.weight?_some, Node.weights_append]
    exact Prod.Lex.left _ _ (by omega)

def scanNode (s : Store) (n? : Option Node) : Except StoreFault Store := s.scanNodes [n?]

mutual

/-- Classifies a statement and all blocks within it. Definitions, imports and at-rules without a
body count only when `statements` holds. -/
def scanStatement (statements : Bool) (s : Store) (stmt : Statement) : Except StoreFault Store :=
  match stmt with
  | .empty | .extend _ _ => .ok s
  | .declaration _ _ _ => do
    let s ← s.scanNode stmt.node?
    s.mark (.tag "rule")
  | .mixinCall _ _ _ => do
    let s ← s.scanNode stmt.node?
    s.mark (.tag "mixin_call")
  | .definition _ _ _ | .imported _ _ _ | .directive _ _ =>
    if statements then s.scanNode stmt.node? else .ok s
  | .blockDirective name _ body => do
    let s ← s.mark (.tag "block_directive")
    let s ← s.mark ⟨.directives, name⟩
    scanStatements statements s body
  | .block _ body => do
    let s ← s.mark (.tag "generic_block")
    scanStatements statements s body
  | .media queries body => do
    let s ← s.mark (.tag "media")
    let s ← s.scanNode (queries.map Node.features)
    scanStatements statements s body
  | .mixin _ params conditions body => do
    let s ← s.mark (.tag "mixin")
    let s ← s.scanNode (conditions.map Node.guard)
    let s ← s.scanNode (some (.parameters params))
    scanStatements statements s body
  | .ruleset selectors _ body => do
    let s ← s.mark (.tag "ruleset")
    let s ← s.scanNode (some (.selectors selectors))
    scanStatements statements s body

def scanStatements (statements : Bool) (s : Store) (ss : List Statement) :
    Except StoreFault Store :=
  match ss with
  | [] => .ok s
  | stmt :: rest => do
    let s ← scanStatement statements s stmt
    scanStatements statements s rest

end

end Store

/-- Counts stylesheets one after the other into its own store. -/
structure Classifier where
  store : Store
  statements : Bool
  filesScanned : Nat

namespace Classifier

def fresh (statements : Bool) : Classifier := ⟨.empty, statements, 0⟩

def scan (c : Classifier) (sheet : Sheet) : Except StoreFault Classifier := do
  let store ← c.store.scanStatements c.statements sheet
  return { c with store, filesScanned := c.filesScanned + 1 }

/-- A frozen copy of all that is counted so far. -/
def snapshot (c : Classifier) : Store := c.store.copy.freeze

end Classifier

end StyleTally
