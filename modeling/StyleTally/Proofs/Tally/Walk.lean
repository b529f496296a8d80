import StyleTally.Proofs.Tally.Marks

/-!
# Visits in order

The visits of nodes as a recursion: a node counts its own marks, and then the nodes that it hands
on are visited from left to right, each with all that is below it. A stack on which what a node
hands on comes before the rest leads to the same visits, so to the same counts and the same order of
the keys.
-/

namespace StyleTally

open Stylesheet

namespace Store

mutual

/-- Visits a node and all below it. A hole counts nothing; a node that is not visited as one counts
nothing either, and what is below it is left out. -/
def walk (s : Store) (n? : Option Node) : Except StoreFault Store :=
  match n? with
  | none => .ok s
  | some n =>
    match _h : Findings.of? n with
    | none => .ok s
    | some found => do
      let s ← s.markAll found.marks
      walkAll s found.next
termination_by (Node.weight? n?, 0)
decreasing_by
  exact Prod.Lex.left _ _ (Findings.weights_next_lt _h)

/-- Visits nodes from left to right, each with all below it. -/
def walkAll (s : Store) (ns : List (Option Node)) : Except StoreFault Store :=
  match ns with
  | [] => .ok s
  | n? :: rest => do
    let s ← walk s n?
    walkAll s rest
termination_by (Node.weights ns, ns.length)
decreasing_by
  all_goals
    simp only [Node.weights_cons, Prod.lex_def, List.length_cons]
    omega

end

theorem walk_none (s : Store) : s.walk none = .ok s := by
  rw [walk]

theorem walk_of_none (s : Store) {n : Node} (h : Findings.of? n = none) :
    s.walk (some n) = .ok s := by
  rw [walk]
  split
  · rfl
  · simp_all

theorem walk_of_some (s : Store) {n : Node} {found : Findings} (h : Findings.of? n = some found) :
    s.walk (some n) = s.markAll found.marks >>= fun s => s.walkAll found.next := by
  rw [walk]
  split
  · simp_all
  · rename_i found' hfound'
    obtain rfl : found = found' := Option.some.inj (h.symm.trans hfound')
    rfl

theorem walkAll_cons (s : Store) (n? : Option Node) (ns : List (Option Node)) :
    s.walkAll (n? :: ns) = s.walk n? >>= fun s => s.walkAll ns := by
  rw [walkAll]

theorem walkAll_append (s : Store) (ns ms : List (Option Node)) :
    s.walkAll (ns ++ ms) = s.walkAll ns >>= fun s => s.walkAll ms := by
  induction ns generalizing s with
  | nil =>
    rw [List.nil_append, walkAll]
    rfl
  | cons n? ns ih =>
    rw [List.cons_append, walkAll_cons, walkAll_cons]
    cases s.walk n? with
    | error e => rfl
    | ok s => exact ih s

/-- What is on a stack is visited from its top on, each node with all below it. -/
theorem scanNodes_eq_walkAll (s : Store) (stack : List (Option Node)) :
    s.scanNodes stack = s.walkAll stack := by
  fun_induction scanNodes s stack with
  | case1 s => rw [walkAll]
  | case2 s rest ih =>
    rw [ih, walkAll_cons, walk_none]
    rfl
  | case3 s n rest hnone ih =>
    rw [ih, walkAll_cons, walk_of_none s hnone]
    rfl
  | case4 s n rest found hfound e he =>
    rw [walkAll_cons, walk_of_some s hfound, he]
    rfl
  | case5 s n rest found hfound t ht ih =>
    rw [ih, walkAll_append, walkAll_cons, walk_of_some s hfound, ht]
    rfl

theorem scanNode_eq_walk (s : Store) (n? : Option Node) : s.scanNode n? = s.walk n? := by
  rw [scanNode, scanNodes_eq_walkAll, walkAll_cons]
  cases s.walk n? with
  | error e => rfl
  | ok s =>
    change s.walkAll [] = .ok s
    rw [walkAll]

/-- A store that is not frozen takes all visits, and the stack leads to the store that the recursion
leads to. -/
theorem scanNode_in_order {s : Store} (h : s.frozen = false) (n? : Option Node) :
    ∃ t, s.walk n? = .ok t ∧ s.scanNode n? = .ok t := by
  have hscan : s.scanNode n? = .ok (s.record (Mark.ofNodes [n?])) := by
    rw [scanNode_eq, markAll_of_unfrozen h]
  exact ⟨_, (scanNode_eq_walk s n?).symm.trans hscan, hscan⟩

/-- A chain of three operands with a call among them. -/
def chainNode : Node :=
  .value (.operation .add
    (.operation .add (.var "a" .direct) (.call "f" [.keyword "b", .var "c" .direct]))
    (.var "a" .direct))

theorem scanNode_in_order_chain :
    Store.empty.frozen = false ∧
      ∃ t, Store.empty.walk (some chainNode) = .ok t ∧
        Store.empty.scanNode (some chainNode) = .ok t :=
  ⟨rfl, scanNode_in_order rfl (some chainNode)⟩

end Store

end StyleTally
