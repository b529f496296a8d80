import StyleTally.Tally.Classifier

/-!
# The marks of a stylesheet

A stylesheet leaves a list of marks that depends on nothing else, and to classify it is to record
the list. A store that is not frozen refuses no mark.
-/

namespace StyleTally

open Stylesheet

namespace Mark

/-- The marks of the nodes of a stack and of all that they hand on, in the order of the visits. -/
def ofNodes (stack : List (Option Node)) : List Mark :=
  match stack with
  | [] => []
  | none :: rest => ofNodes rest
  | some n :: rest =>
    match _h : Findings.of? n with
    | none => ofNodes rest
    | some found => found.marks ++ ofNodes (found.next ++ rest)
termination_by (Node.weights stack, stack.length)
decreasing_by
  · simp only [Node.weights_cons, Node.weight?_none, Nat.zero_add]
    exact Prod.Lex.right _ (by simp)
  · simp only [Node.weights_cons, Node.weight?_some, Prod.lex_def, List.length_cons]
    omega
  · have := Findings.weights_next_lt _h
    simp only [Node.weights_cons, Node.weight?_some, Node.weights_append]
    exact Prod.Lex.left _ _ (by omega)

mutual

/-- The marks of a statement and of all blocks within it. -/
def ofStatement (statements : Bool) (stmt : Statement) : List Mark :=
  match stmt with
  | .empty | .extend _ _ => []
  | .declaration _ _ _ => ofNodes [stmt.node?] ++ [.tag "rule"]
  | .mixinCall _ _ _ => ofNodes [stmt.node?] ++ [.tag "mixin_call"]
  | .definition _ _ _ | .imported _ _ _ | .directive _ _ =>
    if statements then ofNodes [stmt.node?] else []
  | .blockDirective name _ body =>
    .tag "block_directive" :: ⟨.directives, name⟩ :: ofStatements statements body
  | .block _ body => .tag "generic_block" :: ofStatements statements body
  | .media queries body =>
    .tag "media" :: ofNodes [queries.map Node.features] ++ ofStatements statements body
  | .mixin _ params conditions body =>
    .tag "mixin" :: ofNodes [conditions.map Node.guard] ++ ofNodes [some (.parameters params)] ++
      ofStatements statements body
  | .ruleset selectors _ body =>
    .tag "ruleset" :: ofNodes [some (.selectors selectors)] ++ ofStatements statements body

def ofStatements (statements : Bool) (ss : List Statement) : List Mark :=
  match ss with
  | [] => []
  | stmt :: rest => ofStatement statements stmt ++ ofStatements statements rest

end

theorem ofStatements_append (statements : Bool) (ss ts : List Statement) :
    ofStatements statements (ss ++ ts) = ofStatements statements ss ++ ofStatements statements ts := by
  induction ss with
  | nil => simp [ofStatements]
  | cons s ss ih => simp [ofStatements, ih]

end Mark

namespace Store

theorem markAll_cons (s : Store) (m : Mark) (ms : List Mark) :
    s.markAll (m :: ms) = s.mark m >>= fun s => s.markAll ms := List.foldlM_cons

theorem markAll_append (s : Store) (ms ns : List Mark) :
    s.markAll (ms ++ ns) = s.markAll ms >>= fun s => s.markAll ns := List.foldlM_append

theorem markAll_singleton (s : Store) (m : Mark) : s.markAll [m] = s.mark m := by
  rw [markAll_cons]
  cases s.mark m <;> rfl

theorem scanNodes_eq (s : Store) (stack : List (Option Node)) :
    s.scanNodes stack = s.markAll (Mark.ofNodes stack) := by
  fun_induction Mark.ofNodes stack generalizing s with
  | case1 =>
    rw [scanNodes]
    rfl
  | case2 rest ih => rw [scanNodes, ih]
  | case3 n rest hnone ih =>
    rw [scanNodes]
    split
    · exact ih s
    · simp_all
  | case4 n rest found hfound ih =>
    rw [scanNodes]
    split
    · simp_all
    · rename_i found' hfound'
      obtain rfl : found = found' := Option.some.inj (hfound.symm.trans hfound')
      rw [markAll_append]
      cases s.markAll found.marks with
      | error e => rfl
      | ok s => exact ih s

theorem scanNode_eq (s : Store) (n? : Option Node) : s.scanNode n? = s.markAll (Mark.ofNodes [n?]) :=
  scanNodes_eq s [n?]

mutual

theorem scanStatement_eq (statements : Bool) (s : Store) (stmt : Statement) :
    s.scanStatement statements stmt = s.markAll (Mark.ofStatement statements stmt) := by
  cases stmt with
  | empty | extend => rfl
  | declaration | mixinCall =>
    simp only [scanStatement, Mark.ofStatement, scanNode_eq, markAll_append, markAll_singleton]
  | definition | imported | directive =>
    simp only [scanStatement, Mark.ofStatement, scanNode_eq]
    split <;> rfl
  | blockDirective name params body =>
    simp only [scanStatement, Mark.ofStatement, markAll_cons, scanStatements_eq statements _ body]
  | block name body =>
    simp only [scanStatement, Mark.ofStatement, markAll_cons, scanStatements_eq statements _ body]
  | media queries body =>
    simp only [scanStatement, Mark.ofStatement, scanNode_eq, List.cons_append, markAll_cons,
      markAll_append, scanStatements_eq statements _ body]
  | mixin name params conditions body =>
    simp only [scanStatement, Mark.ofStatement, scanNode_eq, List.cons_append, List.append_assoc,
      markAll_cons, markAll_append, scanStatements_eq statements _ body]
  | ruleset selectors guard body =>
    simp only [scanStatement, Mark.ofStatement, scanNode_eq, List.cons_append, markAll_cons,
      markAll_append, scanStatements_eq statements _ body]

/-- To classify statements is to record their marks. -/
theorem scanStatements_eq (statements : Bool) (s : Store) (ss : List Statement) :
    s.scanStatements statements ss = s.markAll (Mark.ofStatements statements ss) := by
  cases ss with
  | nil => rfl
  | cons stmt rest =>
    simp only [scanStatements, Mark.ofStatements, markAll_append, scanStatement_eq statements _ stmt,
      scanStatements_eq statements _ rest]

end

/-- A store with marks recorded in it. -/
def record (s : Store) (ms : List Mark) : Store :=
  ms.foldl (fun s m => s.alter m.part fun c => c.add m.key 1) s

theorem record_nil (s : Store) : s.record [] = s := rfl

theorem record_cons (s : Store) (m : Mark) (ms : List Mark) :
    s.record (m :: ms) = (s.alter m.part fun c => c.add m.key 1).record ms := rfl

theorem record_append (s : Store) (ms ns : List Mark) :
    s.record (ms ++ ns) = (s.record ms).record ns := List.foldl_append

@[simp] theorem frozen_record (s : Store) (ms : List Mark) : (s.record ms).frozen = s.frozen := by
  induction ms generalizing s with
  | nil => rfl
  | cons m ms ih => exact (ih _).trans (frozen_alter s m.part _)

theorem markAll_of_unfrozen {s : Store} (h : s.frozen = false) (ms : List Mark) :
    s.markAll ms = .ok (s.record ms) := by
  induction ms generalizing s with
  | nil => rfl
  | cons m ms ih =>
    have hmark : s.mark m = .ok (s.alter m.part fun c => c.add m.key 1) := by
      simp [mark, add, h]
    rw [markAll_cons, hmark]
    exact ih h

/-- Marks that a store takes are recorded in it. -/
theorem eq_record_of_markAll {s t : Store} {ms : List Mark} (h : s.markAll ms = .ok t) :
    t = s.record ms := by
  cases ms with
  | nil =>
    cases h
    rfl
  | cons m ms =>
    by_cases hfrozen : s.frozen
    · have hmark : s.mark m = .error (.frozen m.part.name) := by
        simp [mark, add, hfrozen]
      rw [markAll_cons, hmark] at h
      cases h
    · rw [markAll_of_unfrozen (by simpa using hfrozen)] at h
      exact (Except.ok.inj h).symm

end Store

namespace Classifier

/-- The classifier with the marks of one more stylesheet. -/
def scanned (c : Classifier) (sheet : Sheet) : Classifier :=
  { c with
    store := c.store.record (Mark.ofStatements c.statements sheet)
    filesScanned := c.filesScanned + 1 }

theorem scan_eq {c : Classifier} (h : c.store.frozen = false) (sheet : Sheet) :
    c.scan sheet = .ok (c.scanned sheet) := by
  rw [scan, Store.scanStatements_eq, Store.markAll_of_unfrozen h]
  rfl

theorem foldlM_scan_eq {c : Classifier} (h : c.store.frozen = false) (sheets : List Sheet) :
    sheets.foldlM scan c = .ok (sheets.foldl scanned c) := by
  induction sheets generalizing c with
  | nil => rfl
  | cons sheet sheets ih =>
    rw [List.foldlM_cons, scan_eq h]
    exact ih ((Store.frozen_record c.store _).trans h)

/-- Several stylesheets leave their marks one after the other. -/
theorem store_foldl_scanned (c : Classifier) (sheets : List Sheet) :
    (sheets.foldl scanned c).store =
      c.store.record (sheets.flatMap (Mark.ofStatements c.statements)) := by
  induction sheets generalizing c with
  | nil => rfl
  | cons sheet sheets ih =>
    rw [List.foldl_cons, ih, List.flatMap_cons, Store.record_append]
    rfl

theorem store_of_scan {c d : Classifier} {sheet : Sheet} (h : c.scan sheet = .ok d) :
    d.store = c.store.record (Mark.ofStatements c.statements sheet) := by
  rw [scan, Store.scanStatements_eq] at h
  cases hmarks : c.store.markAll (Mark.ofStatements c.statements sheet) with
  | error e =>
    rw [hmarks] at h
    cases h
  | ok store =>
    rw [hmarks] at h
    cases h
    exact Store.eq_record_of_markAll hmarks

end Classifier

end StyleTally
