import StyleTally.Proofs.Shape.Tree

/-!
# Levels of nesting

Blocks, parentheses, calls, negations, media features, parameters and arguments each open a level of
nesting. A stylesheet that is read with so many levels left opens no more on any path down its tree:
every rule of the grammar keeps that bound.
-/

namespace StyleTally.Stylesheet

namespace Node

def opensLevel : Node → Bool
  | block _ | parameters _ | arguments _ => true
  | value (.paren _) | value (.call _ _) | value (.negative _) | value (.feature _ _) => true
  | _ => false

/-- How many levels are opened on a path. -/
def levels (path : List Node) : Nat := path.countP opensLevel

/-- No path down from the node opens more levels than these. -/
def Within (depth : Nat) (root : Node) : Prop :=
  ∀ above n, Below root above n → levels (n :: above) ≤ depth

theorem Within.mono {d e : Nat} {n : Node} (h : n.Within d) (hde : d ≤ e) : n.Within e :=
  fun above m hm => Nat.le_trans (h above m hm) hde

end Node

/-- No path down from a node in the field opens more levels than these. -/
def Field.Within (depth : Nat) (f : Field) : Prop := ∀ n, some n ∈ f.nodes → n.Within depth

namespace Node

variable {depth : Nat} {n : Node}

/-- A path down from a node ends there, or goes on from one of its children. -/
theorem Below.eq_or_child {root : Node} {above : List Node} (h : Below root above n) :
    n = root ∧ above = [] ∨
      ∃ m front, some m ∈ root.children ∧ Below m front n ∧ above = front ++ [root] := by
  induction h with
  | root => exact .inl ⟨rfl, rfl⟩
  | @child above n m h hm ih =>
    rcases ih with ⟨rfl, rfl⟩ | ⟨c, front, hc, hbelow, rfl⟩
    · exact .inr ⟨m, [], hm, .root, rfl⟩
    · exact .inr ⟨c, n :: front, hc, hbelow.child hm, rfl⟩

theorem levels_snoc (path : List Node) (root : Node) :
    levels (path ++ [root]) = levels path + if root.opensLevel then 1 else 0 := by
  simp [levels, List.countP_append, List.countP_cons]

theorem within_of_children (h : ∀ m, some m ∈ n.children → m.Within depth) :
    n.Within (depth + if n.opensLevel then 1 else 0) := by
  intro above m hm
  rcases hm.eq_or_child with ⟨rfl, rfl⟩ | ⟨c, front, hc, hbelow, rfl⟩
  · have hroot : levels [m] = levels [] + if m.opensLevel then 1 else 0 := levels_snoc [] m
    have hnil : levels [] = 0 := rfl
    omega
  · have hfront : levels (m :: front) ≤ depth := h c hc front m hbelow
    have hall := levels_snoc (m :: front) n
    simp only [List.cons_append] at hall
    omega

theorem within_children_of_fields (h : ∀ p ∈ n.fields, p.2.Within depth) :
    ∀ m, some m ∈ n.children → m.Within depth := by
  intro m hm
  obtain ⟨p, hp, hmp⟩ := List.mem_flatMap.mp hm
  exact h p hp m hmp

/-- A node that opens no level is within a depth if what its fields hold is. -/
theorem within_of_fields (hn : n.opensLevel = false) (h : ∀ p ∈ n.fields, p.2.Within depth) :
    n.Within depth := by
  simpa [hn] using within_of_children (within_children_of_fields h)

theorem Within.succ (h : n.Within depth) : n.Within (depth + 1) := h.mono (Nat.le_succ depth)

end Node

namespace Field

variable {depth : Nat}

theorem within_of_nodes_eq_nil {f : Field} (h : f.nodes = []) : f.Within depth := by
  intro n hn
  rw [h] at hn
  cases hn

@[simp] theorem within_scalar (a : Scalar) : (scalar a).Within depth :=
  within_of_nodes_eq_nil rfl

@[simp] theorem within_words (ws : List String) : (words ws).Within depth :=
  within_of_nodes_eq_nil rfl

@[simp] theorem within_text (s : String) : (text s).Within depth := within_scalar _

@[simp] theorem within_text? (s? : Option String) : (text? s?).Within depth := within_scalar _

@[simp] theorem within_sign? (c? : Option Char) : (sign? c?).Within depth := within_scalar _

@[simp] theorem within_flag (b : Bool) : (flag b).Within depth := within_scalar _

@[simp] theorem within_child (n? : Option Node) :
    (child n?).Within depth ↔ ∀ n ∈ n?, n.Within depth := by
  cases n? <;> simp [Field.Within, nodes]

@[simp] theorem within_value (v : Value) :
    (value v).Within depth ↔ (Node.value v).Within depth := by
  simp [value]

@[simp] theorem within_value? (v? : Option Value) :
    (value? v?).Within depth ↔ ∀ v ∈ v?, (Node.value v).Within depth := by
  cases v? <;> simp [value?]

end Field

namespace Node

variable {depth : Nat}

section Values

variable {v : Value}

@[simp] theorem within_property (name : String) : (property name).Within depth :=
  within_of_fields rfl (by simp [fields])

end Values

section Selectors

end Selectors

section Statements

end Statements

end Node

end StyleTally.Stylesheet
