import StyleTally.Proofs.Shape.Statement
import StyleTally.Stylesheet.Node
import StyleTally.Stylesheet.Parse

/-!
# The grammar of trees

What every node of a parsed stylesheet satisfies, given the nodes above it. The rules of the grammar
nest by how loosely a value binds: a value at some place never binds more loosely than the place
admits, and from this one bound follow the limits on operands, items and arguments. A division or a
comparison stands at an open place, and only parentheses, calls and conditions open one.
-/

namespace StyleTally.Stylesheet

open Value (Derives)

/-- How loosely an operator binds. -/
def Operator.level : Operator → Nat
  | .multiply | .divide => 1
  | .add | .subtract => 2
  | .both => 7
  | .either => 8
  | _ => 3

def Operator.isAdditive (op : Operator) : Bool := op == .add || op == .subtract

namespace Value

/-- How loosely a value binds. -/
def level : Value → Nat
  | operation op _ _ => op.level
  | shorthand _ _ => 3
  | expression _ => 4
  | expressionList _ => 5
  | condition _ _ => 6
  | _ => 0

/-- The values in a value, one level down. -/
def parts : Value → List Value
  | call _ vs | expression vs | expressionList vs => vs
  | assignment _ v | paren v | negative v | condition v _ => [v]
  | operation _ l r | shorthand l r => [l, r]
  | feature _ v? => v?.toList
  | _ => []

theorem parts_of_isAtom {v : Value} (h : v.isAtom) : v.parts = [] := by
  cases v <;> first | rfl | cases h

def isExpression : Value → Bool
  | expression _ => true
  | _ => false

def isExpressionList : Value → Bool
  | expressionList _ => true
  | _ => false

def isShorthand : Value → Bool
  | shorthand _ _ => true
  | _ => false

def isCondition : Value → Bool
  | condition _ _ => true
  | _ => false

def isOperation (p : Operator → Bool) : Value → Bool
  | operation op _ _ => p op
  | _ => false

/-- What arithmetic and comparisons apply to. -/
def isPlain (v : Value) : Bool :=
  !(v.isExpression || v.isExpressionList || v.isShorthand ||
    v.isOperation fun op => op.compares || op == .both || op == .either)

/-- What the two operands of an operator are. -/
def OperandsFit (op : Operator) (l r : Value) : Prop :=
  match op with
  | .add | .subtract => l.isPlain ∧ r.isPlain ∧ r.isOperation Operator.isAdditive = false
  | .multiply | .divide =>
    l.isPlain ∧ r.isPlain ∧ l.isOperation Operator.isAdditive = false ∧
      r.isOperation (fun _ => true) = false
  | .both => (l.isCondition ∨ l.isOperation (· == .both)) ∧ r.isCondition
  | .either =>
    (l.isCondition ∨ l.isOperation fun op => op == .both || op == .either) ∧
      (r.isCondition ∨ r.isOperation (· == .both))
  | _ => l.isPlain ∧ r.isPlain

/-- What the parts of a value are. -/
def Fits : Value → Prop
  | expression vs =>
    2 ≤ vs.length ∧ ∀ v ∈ vs, v.isExpression = false ∧ v.isExpressionList = false
  | expressionList vs => 2 ≤ vs.length ∧ ∀ v ∈ vs, v.isExpressionList = false
  | call _ args => ∀ v ∈ args, v.isExpressionList = false
  | operation op l r => OperandsFit op l r
  | negative v => v.isOperation (fun _ => true) = false
  | shorthand _ r => r.isShorthand = false
  | _ => True

/-- Divisions and comparisons, which stand in parentheses, calls and conditions only. -/
def needsShelter (v : Value) : Bool := v.isOperation fun op => op == .divide || op.compares

end Value

def Place.level : Place → Nat
  | .operand | .mediaItem => 0
  | .product _ => 1
  | .sum _ => 2
  | .comparison | .shorthand => 3
  | .expression _ | .argument | .mediaQuery => 4
  | .list _ | .featureValue => 5
  | .condition => 6
  | .conjunction => 7
  | .disjunction => 8

namespace Operator

variable {op : Operator}

theorem level_of_compares (h : op.compares) : op.level = 3 := by
  cases op <;> first | rfl | cases h

theorem isAdditive_of_level_le (h : op.level ≤ 1) : op.isAdditive = false := by
  cases op <;> first | rfl | exact absurd h (by decide)

/-- Operators that bind no more loosely than a sum does make plain operations. -/
theorem isPlain_of_level_le (h : op.level ≤ 2) :
    (op.compares || op == .both || op == .either) = false := by
  cases op <;> first | rfl | exact absurd h (by decide)

end Operator

theorem Place.level_item (divides : Bool) : (Place.item divides).level = 3 := by
  cases divides <;> rfl

namespace Value

/-- A value binds no more loosely than its place admits. -/
theorem Derives.level_le {p : Place} {v : Value} (h : Derives p v) : v.level ≤ p.level := by
  induction h with
  | @atom v h => cases v <;> first | exact Nat.le_refl 0 | cases h
  | compare hop _ _ _ _ => simp [level, Place.level, Operator.level_of_compares hop]
  | expression h ih =>
    rw [Place.level_item] at ih
    exact Nat.le_succ_of_le ih
  | _ => simp_all [level, Place.level, Operator.level] <;> omega

section Level

variable {v : Value}

theorem isOperation_of_level_eq (h : v.level = 0) : v.isOperation (fun _ => true) = false := by
  cases v with
  | operation op l r => cases op <;> cases h
  | _ => rfl

theorem isAdditive_of_level_le (h : v.level ≤ 1) : v.isOperation Operator.isAdditive = false := by
  cases v with
  | operation op l r => exact Operator.isAdditive_of_level_le h
  | _ => rfl

theorem isPlain_of_level_le (h : v.level ≤ 2) : v.isPlain := by
  cases v with
  | operation op l r => exact congrArg not (Operator.isPlain_of_level_le h)
  | shorthand l r => exact absurd (show 3 ≤ 2 from h) (by decide)
  | expression vs => exact absurd (show 4 ≤ 2 from h) (by decide)
  | expressionList vs => exact absurd (show 5 ≤ 2 from h) (by decide)
  | _ => rfl

theorem isShorthand_of_level_le (h : v.level ≤ 2) : v.isShorthand = false := by
  cases v with
  | shorthand l r => exact absurd (show 3 ≤ 2 from h) (by decide)
  | _ => rfl

theorem isExpression_of_level_le (h : v.level ≤ 3) : v.isExpression = false := by
  cases v with
  | expression vs => exact absurd (show 4 ≤ 3 from h) (by decide)
  | _ => rfl

theorem isExpressionList_of_level_le (h : v.level ≤ 4) : v.isExpressionList = false := by
  cases v with
  | expressionList vs => exact absurd (show 5 ≤ 4 from h) (by decide)
  | _ => rfl

end Level

theorem Derives.isCondition {v : Value} (h : Derives .condition v) : v.isCondition := by
  cases h <;> rfl

theorem Derives.of_conjunction {v : Value} (h : Derives .conjunction v) :
    v.isCondition ∨ v.isOperation (· == .both) := by
  cases h with
  | conjunction h => exact .inl h.isCondition
  | both hl hr => exact .inr rfl

theorem Derives.of_disjunction {v : Value} (h : Derives .disjunction v) :
    v.isCondition ∨ v.isOperation fun op => op == .both || op == .either := by
  cases h with
  | disjunction h =>
    rcases h.of_conjunction with h | h
    · exact .inl h
    · cases v with
      | operation op l r =>
        refine .inr ?_
        simp only [isOperation, beq_iff_eq] at h
        simp [isOperation, h]
      | _ => cases h
  | either hl hr => exact .inr rfl

theorem compare_fits {op : Operator} {l r : Value} (hop : op.compares) (hl : Derives (.sum true) l)
    (hr : Derives (.sum true) r) : OperandsFit op l r := by
  have hplain : l.isPlain ∧ r.isPlain :=
    ⟨isPlain_of_level_le hl.level_le, isPlain_of_level_le hr.level_le⟩
  cases op with
  | equal | notEqual | greater | greaterOrEqual | less | lessOrEqual => exact hplain
  | _ => cases hop

theorem product_fits {divides : Bool} {l r : Value} (hl : Derives (.product divides) l)
    (hr : Derives .operand r) : OperandsFit .multiply l r := by
  have hl : l.level ≤ 1 := hl.level_le
  have hr : r.level ≤ 0 := hr.level_le
  exact ⟨isPlain_of_level_le (by omega), isPlain_of_level_le (by omega),
    isAdditive_of_level_le hl, isOperation_of_level_eq (by omega)⟩

theorem sum_fits {divides : Bool} {l r : Value} (hl : Derives (.sum divides) l)
    (hr : Derives (.product divides) r) : OperandsFit .add l r := by
  have hl : l.level ≤ 2 := hl.level_le
  have hr : r.level ≤ 1 := hr.level_le
  exact ⟨isPlain_of_level_le hl, isPlain_of_level_le (by omega), isAdditive_of_level_le hr⟩

/-- The parts of a value are what the grammar says they are. -/
theorem Derives.fits {p : Place} {v : Value} (h : Derives p v) : v.Fits := by
  induction h with
  | @atom v h => cases v <;> trivial
  | call h _ => exact fun v hv => isExpressionList_of_level_le (h v hv).level_le
  | negative h _ => exact isOperation_of_level_eq (Nat.le_zero.mp h.level_le)
  | multiply hl hr _ _ => exact product_fits hl hr
  | divide hl hr _ _ => exact product_fits hl hr
  | add hl hr _ _ => exact sum_fits hl hr
  | subtract hl hr _ _ => exact sum_fits hl hr
  | compare hop hl hr _ _ => exact compare_fits hop hl hr
  | shorthand hl hr _ _ => exact isShorthand_of_level_le hr.level_le
  | row hlength h _ =>
    refine ⟨hlength, fun v hv => ?_⟩
    have hlevel : v.level ≤ 3 := Place.level_item _ ▸ (h v hv).level_le
    exact ⟨isExpression_of_level_le hlevel, isExpressionList_of_level_le (by omega)⟩
  | rows hlength h _ =>
    exact ⟨hlength, fun v hv => isExpressionList_of_level_le (h v hv).level_le⟩
  | both hl hr _ _ => exact ⟨hl.of_conjunction, hr.isCondition⟩
  | either hl hr _ _ => exact ⟨hl.of_disjunction, hr.of_conjunction⟩
  | mediaRow hlength h _ =>
    refine ⟨hlength, fun v hv => ?_⟩
    have hlevel : v.level ≤ 0 := (h v hv).level_le
    exact ⟨isExpression_of_level_le (by omega), isExpressionList_of_level_le (by omega)⟩
  | paren | assignment | condition | nested | mediaParen | ratio | feature => trivial
  | product _ ih | sum _ ih | comparison _ ih | alone _ ih | expression _ ih | list _ ih
  | argument _ ih | conjunction _ ih | disjunction _ ih | mediaOperand _ ih
  | featureValue _ ih | mediaQuery _ ih => exact ih

/-- Divisions and comparisons stand at open places only. -/
theorem Derives.isOpen {p : Place} {v : Value} (h : Derives p v) (hv : v.needsShelter) :
    p.isOpen := by
  induction h with
  | @atom v h => cases v <;> first | cases hv | cases h
  | @product divides v h ih => cases ih hv
  | @sum divides v h ih => exact ih hv
  | comparison | compare | argument => rfl
  | divide => rfl
  | @alone v h ih => cases ih hv
  | @expression divides v h ih =>
    cases divides with
    | true => rfl
    | false => cases ih hv
  | @list divides v h ih => exact ih hv
  | conjunction h ih => cases ih hv
  | disjunction h ih => cases ih hv
  | mediaOperand h ih => cases ih hv
  | mediaQuery h ih => cases ih hv
  | featureValue h ih => cases ih hv
  | _ => cases hv

end Value

namespace Node

/-- The node stands in the tree below the nodes `above`, the nearest of them first. -/
inductive Below (root : Node) : List Node → Node → Prop
  | root : Below root [] root
  | child {above : List Node} {n m : Node} (h : Below root above n) (hm : some m ∈ n.children) :
      Below root (n :: above) m

/-- Whether values below the node may be divided and compared. -/
def shelters : Node → Bool
  | value (.paren _) | value (.call _ _) | value (.condition _ _) => true
  | _ => false

/-- The grammar of trees: what holds of a node below the nodes `above`. -/
def Conforms (above : List Node) : Node → Prop
  | value v =>
    v.Fits ∧ (v.needsShelter → ∃ n ∈ above, n.shelters) ∧
      (v.isCondition → (value v).fields.lookup "right" = some (.child none))
  | guard conditions => conditions ≠ []
  | selectors ss => ss ≠ []
  | selector s => s ≠ []
  | features queries => queries ≠ []
  | element ⟨.attribute parts, _⟩ => parts.length = 1 ∨ parts.length = 3
  | _ => True

/-- A node as the grammar builds it, its values at places that are open only if a node above
shelters them. -/
def Shaped (above : List Node) : Node → Prop
  | sheet rules | block rules => ∀ s ∈ rules, Statement.Shaped s
  | statement s => s.Shaped
  | selectors ss => SelectorsShaped ss
  | selector s => Selector.Shaped s
  | element e => e.Shaped
  | parameters ps => ∀ p ∈ ps, Parameter.Shaped p
  | parameter p => p.Shaped
  | arguments a => a.Shaped
  | argument a => a.Shaped
  | guard vs => GuardShaped vs
  | features vs => FeaturesShaped vs
  | value v => ∃ p, Derives p v ∧ (p.isOpen → ∃ n ∈ above, n.shelters)
  | property _ => True

theorem Shaped.conforms {above : List Node} {n : Node} (h : n.Shaped above) :
    n.Conforms above := by
  cases n with
  | value v =>
    obtain ⟨p, hp, hopen⟩ := h
    refine ⟨hp.fits, fun hv => hopen (hp.isOpen hv), fun hv => ?_⟩
    cases v with
    | condition test negated => rfl
    | _ => cases hv
  | element e =>
    match e, h with
    | ⟨.attribute parts, _⟩, h => exact h.1
    | ⟨.text _, _⟩, _ | ⟨.value _, _⟩, _ => trivial
  | guard vs => exact h.1
  | features vs => exact h.1
  | selectors ss => exact h.1
  | selector s => exact h.1
  | _ => trivial

section Children

variable {above : List Node} {m : Node}

/-- A value at a place that is not open, wherever it stands. -/
theorem shaped_of_closed {p : Place} {v : Value} (hp : Derives p v) (h : p.isOpen = false) :
    (value v).Shaped above :=
  ⟨p, hp, by simp [h]⟩

theorem shaped_of_sheltered {p : Place} {v : Value} {n : Node} (hp : Derives p v)
    (hn : n.shelters) : (value v).Shaped (n :: above) :=
  ⟨p, hp, fun _ => ⟨n, by simp, hn⟩⟩

theorem shaped_of_open {p : Place} {v : Value} {n : Node} (hp : Derives p v)
    (h : p.isOpen → ∃ m ∈ above, m.shelters) : (value v).Shaped (n :: above) := by
  refine ⟨p, hp, fun hopen => ?_⟩
  obtain ⟨m, hm, hshelters⟩ := h hopen
  exact ⟨m, List.mem_cons_of_mem n hm, hshelters⟩

theorem nodes_child (n? : Option Node) : (Field.child n?).nodes = n?.toList.map some := by
  cases n? <;> rfl

theorem mem_parts_of_mem_children {v : Value} (hm : some m ∈ (value v).children) :
    (∃ name, m = property name) ∨ ∃ w ∈ v.parts, m = value w := by
  cases v with
  | feature name v? =>
    have hm : m = property name ∨ ∃ w ∈ v?, m = value w := by
      cases v? <;> simpa [children, fields, fieldsOfValue, Field.value?, nodes_child] using hm
    rcases hm with rfl | ⟨w, hw, rfl⟩
    · exact .inl ⟨name, rfl⟩
    · exact .inr ⟨w, by simpa [Value.parts] using hw, rfl⟩
  | call _ vs | expression vs | expressionList vs =>
    simp only [children, fields, fieldsOfValue, List.flatMap_cons, List.flatMap_nil,
      Field.nodes_text, Field.nodes_values, List.nil_append, List.append_nil, List.mem_map,
      Option.some.injEq] at hm
    obtain ⟨w, hw, rfl⟩ := hm
    exact .inr ⟨w, hw, rfl⟩
  | _ =>
    simp [children, fields, fieldsOfValue, nodes_child] at hm
    all_goals simp [Value.parts, hm]

/-- The parts of a value stand at places of their own; what shelters the value, or the value itself,
shelters them. -/
theorem shaped_of_mem_parts {p : Place} {v w : Value} (hp : Derives p v)
    (hopen : p.isOpen → ∃ n ∈ above, n.shelters) (hw : w ∈ v.parts) :
    (value w).Shaped (value v :: above) := by
  have hboth {l r : Value} (hw : w ∈ [l, r]) : w = l ∨ w = r := by simpa using hw
  induction hp with
  | atom h =>
    rw [Value.parts_of_isAtom h] at hw
    cases hw
  | call h _ => exact shaped_of_sheltered (h w hw) rfl
  | paren h _ =>
    obtain rfl := List.mem_singleton.mp hw
    exact shaped_of_sheltered h rfl
  | negative h _ =>
    obtain rfl := List.mem_singleton.mp hw
    exact shaped_of_closed h rfl
  | multiply hl hr _ _ =>
    rcases hboth hw with rfl | rfl
    · exact shaped_of_open hl hopen
    · exact shaped_of_closed hr rfl
  | divide hl hr _ _ =>
    rcases hboth hw with rfl | rfl
    · exact shaped_of_open hl hopen
    · exact shaped_of_closed hr rfl
  | add hl hr _ _ =>
    rcases hboth hw with rfl | rfl
    · exact shaped_of_open hl hopen
    · exact shaped_of_open hr hopen
  | subtract hl hr _ _ =>
    rcases hboth hw with rfl | rfl
    · exact shaped_of_open hl hopen
    · exact shaped_of_open hr hopen
  | compare hop hl hr _ _ =>
    rcases hboth hw with rfl | rfl
    · exact shaped_of_open hl hopen
    · exact shaped_of_open hr hopen
  | shorthand hl hr _ _ =>
    rcases hboth hw with rfl | rfl
    · exact shaped_of_closed hl rfl
    · exact shaped_of_closed hr rfl
  | @row divides vs hlength h _ =>
    refine shaped_of_open (h w hw) fun hitem => hopen ?_
    cases divides with
    | true => rfl
    | false => cases hitem
  | rows hlength h _ => exact shaped_of_open (h w hw) hopen
  | assignment h _ =>
    obtain rfl := List.mem_singleton.mp hw
    exact shaped_of_open h hopen
  | condition h _ =>
    obtain rfl := List.mem_singleton.mp hw
    exact shaped_of_sheltered h rfl
  | nested h _ =>
    obtain rfl := List.mem_singleton.mp hw
    exact shaped_of_sheltered h rfl
  | both hl hr _ _ =>
    rcases hboth hw with rfl | rfl
    · exact shaped_of_closed hl rfl
    · exact shaped_of_closed hr rfl
  | either hl hr _ _ =>
    rcases hboth hw with rfl | rfl
    · exact shaped_of_closed hl rfl
    · exact shaped_of_closed hr rfl
  | mediaParen h _ =>
    obtain rfl := List.mem_singleton.mp hw
    exact shaped_of_closed h rfl
  | ratio => cases hw
  | feature h _ => exact shaped_of_closed (h w (by simpa [Value.parts] using hw)) rfl
  | mediaRow hlength h _ => exact shaped_of_closed (h w hw) rfl
  | product h ih => exact ih (by simp [Place.isOpen]) hw
  | sum h ih => exact ih hopen hw
  | comparison h ih => exact ih (fun _ => hopen rfl) hw
  | alone h ih => exact ih (by simp [Place.isOpen]) hw
  | @expression divides v h ih =>
    refine ih (fun hitem => hopen ?_) hw
    cases divides with
    | true => rfl
    | false => cases hitem
  | list h ih => exact ih hopen hw
  | argument h ih => exact ih (fun _ => hopen rfl) hw
  | conjunction h ih => exact ih (by simp [Place.isOpen]) hw
  | disjunction h ih => exact ih (by simp [Place.isOpen]) hw
  | mediaOperand h ih => exact ih (by simp [Place.isOpen]) hw
  | featureValue h ih => exact ih (by simp [Place.isOpen]) hw
  | mediaQuery h ih => exact ih (by simp [Place.isOpen]) hw

theorem mem_children_block {rules : List Statement} (hm : some m ∈ (block rules).children) :
    ∃ s ∈ rules, m = statement s := by
  simp only [children, fields, List.flatMap_cons, List.flatMap_nil, List.append_nil,
    Field.nodes_children, List.mem_map] at hm
  obtain ⟨s, hs, hsm⟩ := hm
  cases s with
  | empty => cases hsm
  | _ =>
    cases hsm
    exact ⟨_, hs, rfl⟩

theorem shaped_value? {v? : Option Value} {p : Place} {ns : List Node} (hp : p.isOpen = false)
    (h : ∀ v ∈ v?, Derives p v) (hm : some m ∈ (Field.value? v?).nodes) : m.Shaped ns := by
  cases v? with
  | none => simp [Field.value?, nodes_child] at hm
  | some v =>
    obtain rfl : m = value v := by simpa [Field.value?, nodes_child] using hm
    exact shaped_of_closed (h v rfl) hp

theorem shaped_guard? {vs? : Option (List Value)} {ns : List Node} (h : ∀ vs ∈ vs?, GuardShaped vs)
    (hm : some m ∈ (ofGuard? vs?).nodes) : m.Shaped ns := by
  cases vs? with
  | none => simp [ofGuard?, nodes_child] at hm
  | some vs =>
    obtain rfl : m = guard vs := by simpa [ofGuard?, nodes_child] using hm
    exact h vs rfl

theorem shaped_features? {vs? : Option (List Value)} {ns : List Node}
    (h : ∀ vs ∈ vs?, FeaturesShaped vs) (hm : some m ∈ (ofFeatures? vs?).nodes) : m.Shaped ns := by
  cases vs? with
  | none => simp [ofFeatures?, nodes_child] at hm
  | some vs =>
    obtain rfl : m = features vs := by simpa [ofFeatures?, nodes_child] using hm
    exact h vs rfl

theorem shaped_of_statement {s : Statement} {ns : List Node} (h : s.Shaped)
    (hm : some m ∈ (statement s).children) : m.Shaped ns := by
  simp only [children, fields] at hm
  cases h with
  | empty => simp [fieldsOfStatement] at hm
  | declaration hv =>
    simp [fieldsOfStatement] at hm
    rcases hm with rfl | hm
    · trivial
    · exact shaped_value? rfl hv hm
  | definition hv =>
    simp [fieldsOfStatement] at hm
    subst hm
    exact shaped_of_closed hv rfl
  | ruleset hs hg hb =>
    simp [fieldsOfStatement, ofBody] at hm
    rcases hm with rfl | rfl | hm
    · exact hs
    · exact hb
    · exact shaped_guard? hg hm
  | mixin hp hg hb =>
    simp [fieldsOfStatement, ofBody] at hm
    rcases hm with rfl | rfl | hm
    · exact hp
    · exact hb
    · exact shaped_guard? hg hm
  | @mixinCall path args important hs ha =>
    simp [fieldsOfStatement, nodes_child] at hm
    rcases hm with rfl | hm
    · exact hs
    · obtain ⟨a, hargs, rfl⟩ := hm
      exact ha a hargs
  | media hf hb =>
    simp [fieldsOfStatement, ofBody] at hm
    rcases hm with hm | rfl
    · exact shaped_features? hf hm
    · exact hb
  | blockDirective hb =>
    simp [fieldsOfStatement, ofBody] at hm
    subst hm
    exact hb
  | directive hv =>
    simp [fieldsOfStatement] at hm
    exact shaped_value? rfl hv hm
  | block hb =>
    simp [fieldsOfStatement, ofBody] at hm
    subst hm
    exact hb
  | imported hp hf =>
    simp [fieldsOfStatement] at hm
    rcases hm with rfl | hm
    · exact shaped_of_closed hp rfl
    · exact shaped_features? hf hm
  | extend hs =>
    simp [fieldsOfStatement] at hm
    subst hm
    exact hs

theorem shaped_of_element {e : Element} {ns : List Node} (h : e.Shaped)
    (hm : some m ∈ (element e).children) : m.Shaped ns := by
  match e, h with
  | ⟨.text name, _⟩, _ => simp [children, fields, fieldsOfPart] at hm
  | ⟨.value v, _⟩, h =>
    simp [children, fields, fieldsOfPart] at hm
    subst hm
    exact shaped_of_closed (.atom h) rfl
  | ⟨.attribute parts, _⟩, h =>
    simp [children, fields, fieldsOfPart] at hm
    obtain ⟨v, hv, rfl⟩ := hm
    exact shaped_of_closed (.atom (h.2 v hv)) rfl

/-- What the grammar says of a node it says of its children. -/
theorem Shaped.child {n : Node} (h : n.Shaped above) (hm : some m ∈ n.children) :
    m.Shaped (n :: above) := by
  cases n with
  | value v =>
    obtain ⟨p, hp, hopen⟩ := h
    rcases mem_parts_of_mem_children hm with ⟨name, rfl⟩ | ⟨w, hw, rfl⟩
    · trivial
    · exact shaped_of_mem_parts hp hopen hw
  | statement s => exact shaped_of_statement h hm
  | element e => exact shaped_of_element h hm
  | sheet rules =>
    simp [children, fields, ofBody] at hm
    subst hm
    exact h
  | block rules =>
    obtain ⟨s, hs, rfl⟩ := mem_children_block hm
    exact h s hs
  | property name => simp [children, fields] at hm
  | selectors ss =>
    simp [children, fields] at hm
    obtain ⟨s, hs, rfl⟩ := hm
    exact h.2 s hs
  | selector s =>
    simp [children, fields] at hm
    obtain ⟨e, he, rfl⟩ := hm
    exact h.2 e he
  | parameters ps =>
    simp [children, fields] at hm
    obtain ⟨p, hp, rfl⟩ := hm
    exact h p hp
  | parameter p =>
    simp [children, fields] at hm
    exact shaped_value? rfl h hm
  | arguments a =>
    simp [children, fields] at hm
    obtain ⟨i, hi, rfl⟩ := hm
    exact h i hi
  | argument a =>
    simp [children, fields] at hm
    subst hm
    exact shaped_of_closed h rfl
  | guard vs =>
    simp [children, fields] at hm
    obtain ⟨v, hv, rfl⟩ := hm
    exact shaped_of_closed (h.2 v hv) rfl
  | features vs =>
    simp [children, fields] at hm
    obtain ⟨v, hv, rfl⟩ := hm
    exact shaped_of_closed (h.2 v hv) rfl

end Children

/-- The nodes of a tree that the grammar builds are as the grammar builds them. -/
theorem Below.shaped {root n : Node} {above : List Node} (h : Below root above n)
    (hroot : root.Shaped []) : n.Shaped above := by
  induction h with
  | root => exact hroot
  | child _ hm ih => exact ih.child hm

end Node

theorem parseAt_yields {P : Nat → Place → Value → Prop} {S : Nat → Statement → Prop}
    (hS : Statement.Grammatical P S) (room : Room) (source : String) :
    Yields (fun sheet => ∀ s ∈ sheet, S room.levels s) (parseAt room source) := by
  refine (Yields.any _).bind fun {ts} _ => ?_
  exact Grammar.sheet_yields hS room _ _

theorem shaped_of_parse {limit : Int} {source : String} {sheet : Sheet}
    (h : parse limit source = .ok sheet) : ∀ s ∈ sheet, Statement.Shaped s :=
  (parseAt_yields Statement.shaped_grammatical _ source).of_ok (parse_eq_ok.mp h)

/-- Whether a stylesheet is one ruleset with one declaration, of a quotient in parentheses. -/
def holdsQuotient : Except Refusal Sheet → Bool
  | .ok [.ruleset _ _ [.declaration _ (some (.paren (.operation .divide _ _))) _]] => true
  | _ => false

/-- Every node of a parsed stylesheet conforms to the grammar of trees. -/
theorem parse_conforms {limit : Int} {source : String} {sheet : Sheet} {above : List Node}
    {n : Node} (h : parse limit source = .ok sheet) (hn : Node.Below (.sheet sheet) above n) :
    n.Conforms above :=
  (hn.shaped (shaped_of_parse h)).conforms

/-- A quotient in parentheses is a node of a parsed stylesheet, below what shelters it. -/
theorem parse_conforms_quotient : ∃ sheet above l r,
    parse 64 "a { x: (6 / 2); }" = .ok sheet ∧
      Node.Below (.sheet sheet) above (.value (.operation .divide l r)) ∧
      Node.Conforms above (.value (.operation .divide l r)) := by
  have hshape : holdsQuotient (parse 64 "a { x: (6 / 2); }") = true := by decide +kernel
  unfold holdsQuotient at hshape
  split at hshape
  · rename_i ss guard name l r important h
    have hrules : Node.Below (.sheet [.ruleset ss guard
        [.declaration name (some (.paren (.operation .divide l r))) important]]) [.sheet _]
        (.block _) := Node.Below.root.child (.head _)
    have hruleset := hrules.child (m := .statement _) (.head _)
    have hbody := hruleset.child (m := .block _) (.tail _ (.head _))
    have hrule := hbody.child (m := .statement _) (.head _)
    have hparen := hrule.child (m := .value _) (.tail _ (.head _))
    have hquotient := hparen.child (m := .value _) (.head _)
    exact ⟨_, _, l, r, h, hquotient, parse_conforms h hquotient⟩
  · cases hshape

end StyleTally.Stylesheet
