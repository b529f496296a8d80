import StyleTally.Proofs.Concatenation.Range

/-!
# Statements in front of other statements

A statement that the grammar reads from a sealed range, it reads from every range that starts so.
-/

namespace StyleTally.Stylesheet.Grammar

open Value (derives_grammatical)
open Statement (shaped_grammatical)

variable {ts : List Token} (stop stop' : Token) (more : List Token)

section Calls

theorem argumentsFrom_followed (room : Room) (bracket : Token) (ts : List Token) :
    Carries (followed more) (argumentsFrom room bracket ts)
      (argumentsFrom room bracket (ts ++ more)) := by
  refine (enclosed_followed more bracket '(' ts).bind ?_
  rintro ⟨inner, close, after⟩ -
  refine .bind_same fun operand _ => ?_
  refine .bind_same fun args _ => ?_
  exact .ok rfl

theorem blockCall_followed (room : Room) (name : String) (bracket : Token) (hts : Sealed ts) :
    Carries (followed more) (blockCall room name bracket ts)
      (blockCall room name bracket (ts ++ more)) := by
  refine (argumentsFrom_followed more room bracket ts).bind ?_
  rintro ⟨args, after⟩ hafter
  have hyields := argumentsFrom_yields derives_grammatical room bracket ts
  have hread : Consumed ts after := (hyields.of_ok hafter).2
  refine (endStatement_followed more (hts.of_consumed hread).ne_nil).bind fun rest _ => ?_
  exact .ok rfl

theorem importOptions_followed (hts : Sealed ts) :
    Carries (followed more) (importOptions ts) (importOptions (ts ++ more)) := by
  cases ts with
  | nil => exact absurd rfl hts.ne_nil
  | cons t ts =>
    simp only [importOptions, List.cons_append]
    split
    · refine (enclosed_followed more t '(' ts).bind ?_
      rintro ⟨inner, close, after⟩ -
      exact .ok rfl
    · exact .ok rfl

theorem imported_followed (room : Room) (hts : Sealed ts) :
    Carries (followed more) (imported room stop ts) (imported room stop' (ts ++ more)) := by
  refine (importOptions_followed more hts).bind ?_
  rintro ⟨options, us⟩ hoptions
  have hus : Sealed us := hts.of_passed ((importOptions_yields ts).of_ok hoptions)
  simp only [followed]
  rcases head_cases more hus with hhead | ⟨front, t, tail, hhead, hmore, htail⟩
  · rw [hhead]
    refine .of_yields ?_
    simp only
    split
    · trivial
    · refine (primary_reads derives_grammatical (below_reads derives_grammatical room) _ _).bind ?_
      rintro ⟨path, rest⟩ ⟨-, hpath⟩
      refine (mediaQueriesIfAny_yields derives_grammatical room _ rest).bind fun {features} hf => ?_
      exact absurd (hpath.passed hf.2) hus.not_consumed
  · simp only [hhead, hmore, List.headD_cons]
    split
    · exact .error _
    · refine .bind_same ?_
      rintro ⟨path, rest⟩ -
      refine .bind_same fun features _ => ?_
      refine (endStatement_followed more htail.ne_nil).bind fun rest _ => ?_
      exact .ok rfl

theorem signature?_followed (room : Room) (brace : Token) (front : List Token) (hts : Sealed ts)
    (bracket : Token) {rest : List Token} (hrest : Sealed rest) :
    Carries id (signature? room brace front ts bracket rest)
      (signature? room brace front (ts ++ more) bracket (rest ++ more)) := by
  refine (enclosed_followed more bracket '(' rest).bind ?_
  rintro ⟨inner, close, after⟩ hinner
  have hafter : Sealed after := enclosed_sealed hrest hinner
  have hused : (ts ++ more).length - (after ++ more).length = ts.length - after.length := by
    simp only [List.length_append]
    omega
  have hline : lineAt brace (ts ++ more) = lineAt brace ts := by
    cases ts with
    | nil => exact absurd rfl hts.ne_nil
    | cons t ts => rfl
  simp only [hused, startsWithWord_followed more hafter, hline]
  exact fun _ h => h

/-- A mixin's head lies in front of the brace of its body. -/
theorem mixinHead?_followed (room : Room) (brace : Token) (front : List Token) (hts : Sealed ts) :
    Carries id (mixinHead? room brace front ts) (mixinHead? room brace front (ts ++ more)) := by
  have hname := mixinName?_followed more hts
  unfold mixinHead?
  rw [hname]
  cases hfound : mixinName? ts with
  | none => exact .ok rfl
  | some p =>
    obtain ⟨name, rest⟩ := p
    have hrest : Sealed rest := hts.of_consumed (mixinName?_consumed hfound)
    cases rest with
    | nil => exact absurd rfl hrest.ne_nil
    | cons bracket rest =>
      simp only [Option.map_some, followed, List.cons_append]
      split
      · rename_i hbracket
        have hrest : Sealed rest := hrest.of_cons (isSeal_of_isDelim hbracket (by decide))
        exact (signature?_followed more room brace front hts bracket hrest).map fun _ => rfl
      · exact .ok rfl

end Calls

theorem unendedStatement_sealed (room : Room) {t : Token} (hts : Sealed (t :: ts)) :
    Yields (fun (_, tail) => Sealed tail) (unendedStatement room stop t ts) := by
  unfold unendedStatement
  split
  · rename_i bracket rest hextend
    obtain ⟨amp, colon, name, heq, -, -, -, hbracket⟩ := extendBody?_eq_some hextend
    have hread : Consumed (t :: ts) rest := by
      rw [heq]
      exact ⟨[amp, colon, name], bracket, rfl, isSeal_of_isDelim hbracket (by decide)⟩
    refine (enclosed_consumed bracket '(' rest).bind ?_
    rintro ⟨inner, close, after⟩ hafter
    simp only
    refine (Yields.any _).bind fun _ => ?_
    exact hts.of_consumed (hread.trans hafter)
  · rcases head_cases [] hts with hhead | ⟨front, u, tail, hhead, -, htail⟩
    · rw [hhead]
      refine (callOrDeclaration_yields shaped_grammatical room _ t _).map fun {s} hs => ?_
      exact absurd hs.2 hts.not_consumed
    · rw [hhead]
      exact (Yields.any _).map fun _ => htail

theorem extend_followed (bracket : Token) (ts : List Token) :
    Carries (followed more) (extend bracket ts) (extend bracket (ts ++ more)) := by
  refine (enclosed_followed more bracket '(' ts).bind ?_
  rintro ⟨inner, close, after⟩ -
  simp only
  refine .bind_same fun selectors _ => ?_
  exact .ok rfl

theorem unendedStatement_followed (room : Room) {t : Token} (hts : Sealed (t :: ts)) :
    Carries (followed more) (unendedStatement room stop t ts)
      (unendedStatement room stop' t (ts ++ more)) := by
  have hextend : extendBody? (t :: (ts ++ more)) = _ := extendBody?_followed more hts
  unfold unendedStatement
  rw [hextend]
  cases extendBody? (t :: ts) with
  | some p => exact extend_followed more p.1 p.2
  | none =>
    rcases head_cases more hts with hhead | ⟨front, u, tail, hhead, hmore, htail⟩
    · rw [hhead]
      refine .of_yields ?_
      refine (callOrDeclaration_yields shaped_grammatical room _ t _).map fun {s} hs => ?_
      exact absurd hs.2 hts.not_consumed
    · rw [List.cons_append] at hmore
      simp only [hhead, hmore, Option.map_none, List.headD_cons]
      exact Carries.map (fun _ h => h) fun _ => rfl

theorem simpleStatement_followed (room : Room) {t : Token} (hts : Sealed (t :: ts)) :
    Carries (followed more) (simpleStatement room stop t ts)
      (simpleStatement room stop' t (ts ++ more)) := by
  refine (unendedStatement_followed stop stop' more room hts).bind ?_
  rintro ⟨s, tail⟩ hunended
  have htail : Sealed tail := (unendedStatement_sealed stop room hts).of_ok hunended
  refine (endStatement_followed more htail.ne_nil).bind fun rest _ => ?_
  exact .ok rfl

/-- A statement without a body reads up to what bounds it. -/
theorem simpleStatement_unbounded (room : Room) {t : Token} (hts : Sealed (t :: ts))
    (hhead : head (t :: ts) = (t :: ts, [])) :
    Yields (fun _ => False) (simpleStatement room stop t ts) := by
  have hunended : Yields (fun (_, tail) => Sealed tail ∧ (head tail).2 = [])
      (unendedStatement room stop t ts) := by
    unfold unendedStatement
    split
    · rename_i bracket rest hextend
      exact extend_unbounded hts hextend (by rw [hhead])
    · rw [hhead]
      refine (callOrDeclaration_yields shaped_grammatical room _ t _).map fun {s} hs => ?_
      exact absurd hs.2 hts.not_consumed
  refine hunended.bind ?_
  rintro ⟨s, tail⟩ ⟨htail, hbound⟩
  exact (endStatement_unbounded htail hbound).bind False.elim

/-- A definition reads up to what bounds it. -/
theorem definition_unbounded (room : Room) (body : Body) (name : String)
    (hts : Sealed ts) (hhead : head ts = (ts, [])) :
    Yields (fun _ => False) (definition room body name stop ts) := by
  rw [definition]
  split
  · rename_i hbrace
    cases ts with
    | nil => exact absurd rfl hts.ne_nil
    | cons t ts =>
      rw [head_of_bound hbrace (by simp)] at hhead
      cases hhead
  · rw [hhead]
    refine (declarationValue_yields derives_grammatical room _ _).bind ?_
    rintro ⟨v?, important⟩ ⟨-, hread⟩
    exact absurd hread hts.not_passed

section Bodies

/-- From a sealed range the rule reads the same if other tokens follow. -/
def Local {α : Type} (rule : Rule α) : Prop :=
  ∀ {ts : List Token} (stop stop' : Token) (more : List Token), Sealed ts →
    Carries (followed more) (rule stop ts) (rule stop' (ts ++ more))

variable {room : Room} {body : Body} (hb : ∀ o, Local (body o))
include hb

theorem media_followed (hts : Sealed ts) :
    Carries (followed more) (media room body stop ts) (media room body stop' (ts ++ more)) := by
  unfold media
  rcases head_cases more hts with hhead | ⟨front, t, tail, hhead, hmore, htail⟩
  · rw [hhead]
    exact .error _
  · simp only [hhead, hmore, startsWithDelim, List.headD_cons]
    split
    · exact .error _
    · refine .bind_same fun features _ => ?_
      apply (hb _ stop stop' more htail).bind
      rintro ⟨statements, rest⟩ -
      exact .ok rfl

theorem definition_followed (name : String) (hts : Sealed ts) :
    Carries (followed more) (definition room body name stop ts)
      (definition room body name stop' (ts ++ more)) := by
  rcases head_cases more hts with hhead | ⟨front, t, tail, hhead, hmore, htail⟩
  · exact .of_yields (definition_unbounded stop room body name hts hhead)
  · rw [definition, definition, startsWithDelim_followed more hts]
    split
    · apply (hb _ stop stop' more hts).bind
      rintro ⟨statements, rest⟩ -
      exact .ok rfl
    · rw [hhead, hmore]
      simp only [List.headD_cons]
      refine .bind_same ?_
      rintro ⟨v?, important⟩ -
      cases v? with
      | none => exact .error _
      | some v =>
        refine (endStatement_followed more htail.ne_nil).bind fun rest _ => ?_
        exact .ok rfl

theorem directive_followed (name : String) (hts : Sealed ts) :
    Carries (followed more) (directive room body name stop ts)
      (directive room body name stop' (ts ++ more)) := by
  unfold directive
  rcases head_cases more hts with hhead | ⟨front, t, tail, hhead, hmore, htail⟩
  · rw [hhead]
    refine .of_yields ?_
    simp only [startsWithDelim, Bool.false_eq_true, if_false]
    refine (valueIfAny_yields derives_grammatical room _ _).bind fun {v?} hv => ?_
    exact absurd hv.2 hts.not_passed
  · simp only [hhead, hmore, startsWithDelim, List.headD_cons]
    split
    · apply (hb _ stop stop' more htail).bind
      rintro ⟨statements, rest⟩ -
      exact .ok rfl
    · refine .bind_same fun v? _ => ?_
      refine (endStatement_followed more htail.ne_nil).bind fun rest _ => ?_
      exact .ok rfl

theorem atRule_followed (name : String) (hts : Sealed ts) :
    Carries (followed more) (atRule room body name stop ts)
      (atRule room body name stop' (ts ++ more)) := by
  unfold atRule
  simp only
  split
  · exact media_followed stop stop' more hb hts
  · split
    · exact imported_followed stop stop' more room hts
    · cases ts with
      | nil => exact absurd rfl hts.ne_nil
      | cons t ts =>
        have hdirective : Carries (followed more) (directive room body name stop (t :: ts)) _ :=
          directive_followed stop stop' more hb name hts
        simp only [List.cons_append] at hdirective ⊢
        by_cases hcolon : t.isDelim ':' = true
        · have hrest : Sealed ts := hts.of_cons (isSeal_of_isDelim hcolon (by decide))
          simp only [hcolon, if_true]
          rcases head_cases more hrest with hhead | ⟨front, u, tail, hhead, hmore, -⟩
          · have hnone := definition_unbounded stop room body name hrest hhead
            simp only [hhead, startsWithDelim, Bool.not_false, Bool.or_true, if_true]
            exact .of_yields hnone
          · simp only [hhead, hmore, startsWithDelim_followed more hrest, startsWithDelim_cons]
            split
            · exact definition_followed stop stop' more hb name hrest
            · exact hdirective
        · simp only [hcolon, Bool.false_eq_true, if_false]
          split
          · rename_i hbracket
            simp only [Bool.and_eq_true] at hbracket
            have hrest : Sealed ts := hts.of_cons (isSeal_of_isDelim hbracket.1 (by decide))
            exact blockCall_followed more room name t hrest
          · exact hdirective

theorem ruleset_followed (brace : Token) (front : List Token) {tail : List Token}
    (htail : Sealed tail) :
    Carries (followed more) (ruleset room body stop brace front tail)
      (ruleset room body stop' brace front (tail ++ more)) := by
  refine .bind_same ?_
  rintro ⟨ss, guard⟩ -
  refine (hb _ stop stop' more htail).bind fun (statements, rest) _ => ?_
  exact .ok rfl

theorem withBody_followed (brace : Token) (front : List Token) {tail : List Token}
    (hts : Sealed ts) (htail : Sealed tail) :
    Carries (followed more) (withBody room body stop brace front tail ts)
      (withBody room body stop' brace front (tail ++ more) (ts ++ more)) := by
  rw [withBody, withBody]
  split
  · apply (hb _ stop stop' more hts).bind
    rintro ⟨statements, rest⟩ -
    exact .ok rfl
  · refine (mixinHead?_followed more room brace front hts).bind fun found _ => ?_
    cases found with
    | none => exact ruleset_followed stop stop' more hb brace front htail
    | some p =>
      apply (hb _ stop stop' more htail).bind
      rintro ⟨statements, rest⟩ -
      exact .ok rfl

theorem statement_followed {t : Token} (hts : Sealed (t :: ts)) (ht : t.isSeal = false) :
    Carries (followed more) (statement room body stop t ts)
      (statement room body stop' t (ts ++ more)) := by
  have hsimple := simpleStatement_followed stop stop' more room hts
  unfold statement
  split
  · exact atRule_followed stop stop' more hb _ (hts.of_cons ht)
  · rcases head_cases more hts with hhead | ⟨front, brace, tail, hhead, hmore, htail⟩
    · rw [hhead]
      exact .of_yields (simpleStatement_unbounded stop room hts hhead)
    · rw [List.cons_append] at hmore
      simp only [hhead, hmore]
      split
      · exact withBody_followed stop stop' more hb brace front hts htail
      · exact hsimple

end Bodies

section Statements

variable {room : Room} {body : Body}

/-- What statements give where others stand in front of them. -/
def behind (ss : List Statement) (p : List Statement × List Token) :
    List Statement × List Token := (ss ++ p.1, p.2)

theorem map_behind_nil (x : Except Fault (List Statement × List Token)) :
    x.map (behind []) = x := by
  cases x <;> rfl

theorem map_behind_cons (s : Statement) (ss : List Statement)
    (x : Except Fault (List Statement × List Token)) :
    (x.map (behind ss)).map (fun (more, rest) => (s :: more, rest)) = x.map (behind (s :: ss)) := by
  cases x <;> rfl

/-- Statements that are read from a sealed range are followed by the statements of what is left of
it and of the tokens behind it. -/
theorem statements_append (hb : ∀ o, Local (body o))
    (hs : Encloses (fun _ => Statement.Shaped) room.levels body) {ss : List Statement}
    {rest : List Token} (hts : ts = [] ∨ Sealed ts)
    (h : statements room body stop ts = .ok (ss, rest)) :
    statements room body stop' (ts ++ more) =
      (statements room body stop' (rest ++ more)).map (behind ss) := by
  induction hn : ts.length using Nat.strongRecOn generalizing ts ss with
  | ind n ih =>
    cases ts with
    | nil =>
      rw [statements] at h
      cases h
      exact (map_behind_nil _).symm
    | cons t ts =>
      have hts : Sealed (t :: ts) := hts.resolve_left (by simp)
      simp only [List.length_cons] at hn
      by_cases hclose : t.isDelim '}' = true
      · rw [statements, if_pos hclose] at h
        cases h
        exact (map_behind_nil _).symm
      · by_cases hend : t.isDelim ';' = true
        · rw [statements, if_neg hclose, if_pos hend] at h
          rw [List.cons_append, statements, if_neg hclose, if_pos hend]
          cases hrest : statements room body stop ts with
          | error e =>
            rw [hrest] at h
            cases h
          | ok p =>
            rw [hrest] at h
            cases h
            rw [ih _ (by omega) hts.cons_cases hrest rfl, map_behind_cons]
        · have ht : t.isSeal = false := by simp [Token.isSeal, hclose, hend]
          cases hstatement : statement room body stop t ts with
          | error e =>
            rw [statements, if_neg hclose, if_neg hend, hstatement] at h
            cases h
          | ok p =>
            obtain ⟨s, after⟩ := p
            have hsuffix : after <:+ ts := ((statement_yields shaped_grammatical hs stop t ts).of_ok hstatement).2
            have hlength := hsuffix.length_le
            have hlonger : (after ++ more).length ≤ (ts ++ more).length := by
              simp only [List.length_append]
              omega
            have hafter : after = [] ∨ Sealed after := by
              by_cases hnil : after = []
              · exact .inl hnil
              · exact .inr (hts.of_suffix (hsuffix.trans (List.suffix_cons t ts)) hnil)
            have hmore := statement_followed stop stop' more hb hts ht _ hstatement
            rw [statements_cons stop ht hstatement hlength] at h
            rw [List.cons_append, statements_cons stop' ht hmore hlonger]
            cases hrest : statements room body stop after with
            | error e =>
              rw [hrest] at h
              cases h
            | ok p =>
              rw [hrest] at h
              cases h
              rw [ih _ (by omega) hafter hrest rfl, map_behind_cons]

/-- What statements leave starts with a closing brace. -/
theorem statements_stop (hs : Encloses (fun _ => Statement.Shaped) room.levels body) (stop : Token)
    (ts : List Token) :
    Yields (fun (_, rest) => rest = [] ∨ startsWithDelim '}' rest)
      (statements room body stop ts) := by
  induction hn : ts.length using Nat.strongRecOn generalizing ts with
  | ind n ih =>
    cases ts with
    | nil =>
      rw [statements]
      exact .inl rfl
    | cons t ts =>
      simp only [List.length_cons] at hn
      rw [statements]
      split
      · rename_i hclose
        exact .inr hclose
      · split
        · exact (ih _ (by omega) ts rfl).map fun h => h
        · refine (statement_yields shaped_grammatical hs stop t ts).bind ?_
          rintro ⟨s, after⟩ ⟨-, hafter⟩
          have hlength := hafter.length_le
          simp only [if_pos hlength]
          exact (ih _ (by omega) after rfl).map fun h => h

theorem statements_local (hb : ∀ o, Local (body o))
    (hs : Encloses (fun _ => Statement.Shaped) room.levels body) {ss : List Statement}
    {rest : List Token} (hts : Sealed ts) (hrest : rest ≠ [])
    (h : statements room body stop ts = .ok (ss, rest)) :
    statements room body stop' (ts ++ more) = .ok (ss, rest ++ more) := by
  have hclose := ((statements_stop hs stop ts).of_ok h).resolve_left hrest
  cases rest with
  | nil => exact absurd rfl hrest
  | cons t rest =>
    rw [statements_append stop stop' more hb hs (.inr hts) h, List.cons_append, statements,
      if_pos (show t.isDelim '}' = true from hclose)]
    simp [Except.map, behind]

end Statements

theorem bodyWith_local {deeper : Deeper (Rule (List Statement))}
    (hd : Deeper.All (fun r => ∀ {ts rest : List Token} {ss : List Statement}, Sealed ts →
      rest ≠ [] → r stop ts = .ok (ss, rest) →
        r stop' (ts ++ more) = .ok (ss, rest ++ more)) deeper)
    (o : Opening) (hts : Sealed ts) :
    Carries (followed more) (bodyWith deeper o stop ts) (bodyWith deeper o stop' (ts ++ more)) := by
  cases ts with
  | nil => exact absurd rfl hts.ne_nil
  | cons t ts =>
    simp only [bodyWith, List.cons_append]
    split
    · exact .error _
    · rename_i hopen
      have hopen : t.isDelim '{' = true := by simpa using hopen
      have hts : Sealed ts := hts.of_cons (isSeal_of_isDelim hopen (by decide))
      cases hdeeper : deeper o with
      | error shortage => cases shortage <;> simp only [enter, hdeeper] <;> exact .error _
      | ok read =>
        simp only [enter, hdeeper, bind, Except.bind]
        cases hread : read stop ts with
        | error e => exact .error e
        | ok p =>
          obtain ⟨ss, rest⟩ := p
          cases rest with
          | nil => exact .error _
          | cons u rest =>
            rw [hd o read hdeeper hts (by simp) hread]
            exact .ok rfl

theorem body_local (room : Room) (o : Opening) : Local (body room o) := by
  induction room using Room.induction generalizing o with
  | step room ih =>
    intro ts stop stop' more hts
    rw [body_eq]
    refine bodyWith_local stop stop' more (Room.below_all fun o inner hinner => ?_) o hts
    exact statements_local stop stop' more (ih o inner hinner)
      (body_encloses shaped_grammatical inner)

/-- The statements of a sealed range come first, and what follows the range decides whether all of
it can be read. -/
theorem sheet_append {room : Room} {first : Sheet} (hts : ts = [] ∨ Sealed ts)
    (h : sheet room stop ts = .ok first) :
    sheet room stop' (ts ++ more) = (sheet room stop' more).map (first ++ ·) := by
  unfold sheet at h ⊢
  cases hread : statements room (body room) stop ts with
  | error e =>
    rw [hread] at h
    cases h
  | ok p =>
    obtain ⟨ss, rest⟩ := p
    rw [hread] at h
    cases rest with
    | cons t rest => cases h
    | nil =>
      cases h
      rw [statements_append stop stop' more (body_local room)
        (body_encloses shaped_grammatical room) hts hread, List.nil_append]
      cases statements room (body room) stop' more with
      | error e => rfl
      | ok p =>
        obtain ⟨later, rest⟩ := p
        cases rest <;> rfl

end StyleTally.Stylesheet.Grammar
