import StyleTally.Proofs.Semicolon.Spot
import StyleTally.Proofs.Tally.Marks

/-!
# Holes

A stray semicolon leaves a hole among the statements of a body. One more hole changes nothing that
is counted, and a semicolon in front of an end leaves nothing at all.
-/

namespace StyleTally.Stylesheet

namespace Statement

mutual

/-- What is left of a statement without its holes, which is nothing of a hole. -/
def solid : Statement → List Statement
  | .empty => []
  | .ruleset selectors guard body => [.ruleset selectors guard (solids body)]
  | .mixin name params guard body => [.mixin name params guard (solids body)]
  | .media features body => [.media features (solids body)]
  | .blockDirective name params body => [.blockDirective name params (solids body)]
  | .block name body => [.block name (solids body)]
  | s => [s]

def solids : List Statement → List Statement
  | [] => []
  | s :: ss => solid s ++ solids ss

end

@[simp] theorem solids_nil : solids [] = [] := rfl

@[simp] theorem solids_cons (s : Statement) (ss : List Statement) :
    solids (s :: ss) = solid s ++ solids ss := rfl

@[simp] theorem solid_empty : solid .empty = [] := rfl

theorem solid_around (frame : Grammar.Frame) (ss : List Statement) :
    solid (frame.around ss) = [frame.around (solids ss)] := by
  cases frame <;> rfl

mutual

theorem marks_solid (statements : Bool) (s : Statement) :
    Mark.ofStatements statements (solid s) = Mark.ofStatement statements s := by
  cases s with
  | empty => rfl
  | ruleset selectors guard body =>
    simp [solid, Mark.ofStatements, Mark.ofStatement, marks_solids statements body]
  | mixin name params guard body =>
    simp [solid, Mark.ofStatements, Mark.ofStatement, marks_solids statements body]
  | media features body =>
    simp [solid, Mark.ofStatements, Mark.ofStatement, marks_solids statements body]
  | blockDirective name params body =>
    simp [solid, Mark.ofStatements, Mark.ofStatement, marks_solids statements body]
  | block name body =>
    simp [solid, Mark.ofStatements, Mark.ofStatement, marks_solids statements body]
  | _ => simp [solid, Mark.ofStatements]

/-- Holes leave no marks. -/
theorem marks_solids (statements : Bool) (ss : List Statement) :
    Mark.ofStatements statements (solids ss) = Mark.ofStatements statements ss := by
  cases ss with
  | nil => rfl
  | cons s ss =>
    rw [solids_cons, Mark.ofStatements_append, marks_solid statements s, marks_solids statements ss]
    rfl

end

end Statement

/-- Stylesheets that are the same without their holes are counted the same. -/
theorem scan_of_solids {sheet sheet' : Sheet}
    (h : Statement.solids sheet = Statement.solids sheet') (c : Classifier) :
    c.scan sheet = c.scan sheet' := by
  have hmarks : Mark.ofStatements c.statements sheet = Mark.ofStatements c.statements sheet' := by
    rw [← Statement.marks_solids, h, Statement.marks_solids]
  rw [Classifier.scan, Classifier.scan, Store.scanStatements_eq, Store.scanStatements_eq, hmarks]

namespace Grammar

/-- The same statements without their holes. -/
def SameSolids (ss ss' : List Statement) : Prop := Statement.solids ss = Statement.solids ss'

theorem congruent_sameSolids : Congruent SameSolids where
  cons s _ _ h := by
    rw [SameSolids, Statement.solids_cons, Statement.solids_cons, h]
  around frame _ _ more h := by
    rw [SameSolids, Statement.solids_cons, Statement.solids_cons, Statement.solid_around,
      Statement.solid_around, h]

theorem congruent_eq : Congruent (Eq : List Statement → List Statement → Prop) where
  cons _ _ _ h := by rw [h]
  around _ _ _ _ h := by rw [h]

section Edits

variable {d e : Room} {stop stop' semicolon : Token} {front us : List Token} {sheet : Sheet}

/-- One more semicolon at a spot leaves one more hole. -/
theorem Comes.sheet_semicolon (h : Comes stop d front e us)
    (hsemicolon : semicolon.isDelim ';' = true)
    (hread : Grammar.sheet d stop (front ++ us) = .ok sheet) :
    ∃ sheet', Grammar.sheet d stop (front ++ semicolon :: us) = .ok sheet' ∧
      Statement.solids sheet = Statement.solids sheet' := by
  refine h.sheet congruent_sameSolids (fun {more last} hmore => ?_) hread
  obtain ⟨-, -, hcloses, -⟩ := statements_stable (body_stable e) hmore
  refine ⟨.empty :: more, last, ?_, rfl, hcloses.alike⟩
  rw [statements_semicolon stop hsemicolon, hmore]
  rfl

/-- One semicolon less, behind the last statement before an end, changes nothing. -/
theorem Comes.sheet_unended {t : Token} {used after after' : List Token} {s : Statement}
    (h : Comes stop d front e (t :: (used ++ semicolon :: after))) (ht : t.isSeal = false)
    (hsemicolon : semicolon.isDelim ';' = true) (hafter : ClosesAlike after after')
    (hstatement : statement e (body e) stop t (used ++ semicolon :: after) = .ok (s, after))
    (hread : Grammar.sheet d stop (front ++ t :: (used ++ semicolon :: after)) = .ok sheet) :
    Grammar.sheet d stop' (front ++ t :: (used ++ after')) = .ok sheet := by
  obtain ⟨hcloses, hcloses'⟩ := hafter.closes
  have hfirst (more : List Token) : ∀ u ∈ (t :: more).head?, u.isSeal = false := by simpa using ht
  have hstatement' : statement e (body e) stop' t (used ++ after') = .ok (s, after') :=
    statement_unended ht hsemicolon hcloses' hstatement
  have hspot {more : List Statement} {last : List Token}
      (hmore : Grammar.statements e (body e) stop (t :: (used ++ semicolon :: after)) = .ok (more, last)) :
      ∃ more' last', Grammar.statements e (body e) stop' (t :: (used ++ after')) = .ok (more', last') ∧
        more = more' ∧ ClosesAlike last last' := by
    rw [statements_from stop (hfirst _) hstatement, statements_closes stop hcloses] at hmore
    cases hmore
    refine ⟨[s], after', ?_, rfl, hafter⟩
    rw [statements_from stop' (hfirst _) hstatement', statements_closes stop' hcloses']
    rfl
  obtain ⟨sheet', hread', rfl⟩ := h.sheet congruent_eq hspot hread
  exact hread'

end Edits

end Grammar

end StyleTally.Stylesheet
