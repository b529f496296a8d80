import StyleTally.Proofs.Likeness.Selector
import StyleTally.Stylesheet.Grammar.Statement

/-!
# Statements that are alike

The rules for statements, bodies and whole stylesheets on ranges that are alike.
-/

namespace StyleTally.Stylesheet.Likeness

open Grammar

variable {L : Likeness} {t u stop stop' : Token} {ts us : List Token}

abbrev Statements (L : Likeness) : Statement → Statement → Prop := Statement.Like L.text

abbrev Bodies (L : Likeness) : List Statement → List Statement → Prop := Statement.LikeAll L.text

abbrev Conditions (L : Likeness) : Option (List Value) → Option (List Value) → Prop :=
  Option.Rel (Value.LikeAll L.text)

theorem head (h : L.Tokens ts us) :
    L.Tokens (head ts).1 (head us).1 ∧ L.Tokens (head ts).2 (head us).2 :=
  cut _ 0 h

theorem endStatement (h : L.Tokens ts us) :
    L.Results L.Tokens (endStatement ts) (endStatement us) := by
  have hfound := foundAt_eq h
  cases h with
  | nil => exact .ok .nil
  | cons ht hts =>
    simp only [Grammar.endStatement, isDelim_eq ht, hfound]
    split
    · exact .ok hts
    · split
      · exact .ok (.cons ht hts)
      · exact .malformed _ (L.line_of ht)

/-- Splits of a mark off the end of a range. -/
def Split (L : Likeness) : Bool × Token × List Token → Bool × Token × List Token → Prop
  | (marked, stop, ts), (marked', stop', us) =>
    marked = marked' ∧ L.token stop stop' ∧ L.Tokens ts us

theorem splitImportant (hstop : L.token stop stop') (h : L.Tokens ts us) :
    L.Split (splitImportant stop ts) (splitImportant stop' us) := by
  have hrev : L.Tokens ts.reverse us.reverse := List.rel_reverse h
  rw [Grammar.splitImportant, Grammar.splitImportant]
  generalize ts.reverse = rs at hrev
  generalize us.reverse = rs' at hrev
  match hrev with
  | .nil | .cons _ .nil => exact ⟨rfl, hstop, h⟩
  | .cons hu (.cons ht hfront) =>
    simp only [isDelim_eq ht, isWord_eq hu]
    split
    · exact ⟨rfl, ht, List.rel_reverse hfront⟩
    · exact ⟨rfl, hstop, h⟩

theorem splitAll (hstop : L.token stop stop') (h : L.Tokens ts us) :
    L.Split (splitAll stop ts) (splitAll stop' us) := by
  have hrev : L.Tokens ts.reverse us.reverse := List.rel_reverse h
  rw [Grammar.splitAll, Grammar.splitAll]
  generalize ts.reverse = rs at hrev
  generalize us.reverse = rs' at hrev
  match hrev with
  | .nil | .cons _ .nil => exact ⟨rfl, hstop, h⟩
  | .cons hu (.cons ht hfront) =>
    simp only [isWord_eq hu, L.spaced_eq hu]
    split
    · exact ⟨rfl, hu, List.rel_reverse (.cons ht hfront)⟩
    · exact ⟨rfl, hstop, h⟩

section Rooms

variable {d e : Room} (hd : L.Rooms d e)
include hd

theorem valueIfAny (hstop : L.token stop stop') (h : L.Tokens ts us) :
    L.Results (Option.Rel L.Values) (valueIfAny d stop ts) (valueIfAny e stop' us) := by
  rw [Grammar.valueIfAny, Grammar.valueIfAny, isEmpty_eq h]
  split
  · exact .ok .none
  · exact (whole (value (operand hd) false) hstop h).map .some

theorem mediaQueriesIfAny (hstop : L.token stop stop') (h : L.Tokens ts us) :
    L.Results L.Conditions (mediaQueriesIfAny d stop ts) (mediaQueriesIfAny e stop' us) := by
  rw [Grammar.mediaQueriesIfAny, Grammar.mediaQueriesIfAny, isEmpty_eq h]
  split
  · exact .ok .none
  · exact (mediaQueries hd hstop h).map fun hs => .some (.of_forall₂ hs)

theorem declarationValue (hstop : L.token stop stop') (h : L.Tokens ts us) :
    L.Results (fun (v, important) (w, important') => Option.Rel L.Values v w ∧ important = important')
      (declarationValue d stop ts) (declarationValue e stop' us) := by
  have hsplit := splitImportant hstop h
  rw [Grammar.declarationValue, Grammar.declarationValue]
  generalize Grammar.splitImportant stop ts = p at hsplit
  generalize Grammar.splitImportant stop' us = q at hsplit
  obtain ⟨important, stop, ts⟩ := p
  obtain ⟨important', stop', us⟩ := q
  obtain ⟨rfl, hstop, h⟩ := hsplit
  exact (valueIfAny hd hstop h).map fun hv => ⟨hv, rfl⟩

theorem declaration {l m : Nat} (hl : L.line l m) (hstop : L.token stop stop')
    (h : L.Tokens ts us) :
    L.Results L.Statements (declaration d l stop ts) (declaration e m stop' us) := by
  obtain ⟨hname, hafter⟩ := cut [':'] 0 h
  rw [Grammar.declaration, Grammar.declaration]
  generalize Stylesheet.cut [':'] 0 ts = p at hname hafter
  generalize Stylesheet.cut [':'] 0 us = q at hname hafter
  obtain ⟨name, after⟩ := p
  obtain ⟨name', after'⟩ := q
  cases hafter with
  | nil => exact .malformed _ hl
  | cons hc hrest =>
    simp only [isDelim_eq hc, isEmpty_eq hname]
    split
    · exact .malformed _ hl
    · split
      · exact .malformed _ hl
      · refine (declarationValue hd hstop hrest).bind ?_
        rintro ⟨v, important⟩ ⟨w, important'⟩ ⟨hv, rfl⟩
        have hspans : Excerpt.property.Spans name := trivial
        exact .ok (.declaration (L.text_of hspans hname) hv)

end Rooms

theorem extendBody? (h : L.Tokens ts us) :
    Option.Rel (fun (b, rest) (b', rest') => L.token b b' ∧ L.Tokens rest rest')
      (extendBody? ts) (extendBody? us) := by
  match h with
  | .nil | .cons _ .nil | .cons _ (.cons _ .nil) | .cons _ (.cons _ (.cons _ .nil)) => exact .none
  | .cons hamp (.cons hcolon (.cons hname (.cons hbracket hrest))) =>
    simp only [Grammar.extendBody?, isDelim_eq hamp, isDelim_eq hcolon, L.spaced_eq hcolon,
      isWord_eq hname, isDelim_eq hbracket]
    split
    · exact .some ⟨hbracket, hrest⟩
    · exact .none

theorem extend (ht : L.token t u) (h : L.Tokens ts us) :
    L.Results (L.Read L.Statements) (extend t ts) (extend u us) := by
  refine (enclosed ht '(' h).bind ?_
  rintro ⟨inner, close, after⟩ ⟨inner', close', after'⟩ ⟨hinner, hclose, hafter⟩
  have hsplit := splitAll hclose hinner
  simp only
  generalize Grammar.splitAll close inner = p at hsplit
  generalize Grammar.splitAll close' inner' = q at hsplit
  obtain ⟨all, stop, inner⟩ := p
  obtain ⟨all', stop', inner'⟩ := q
  obtain ⟨rfl, hstop, hinner⟩ := hsplit
  exact (selectors hstop hinner).bind fun hs => .ok ⟨.extend hs, hafter⟩

/-- Splits of a range at the word that opens a guard. -/
def GuardSplit (L : Likeness) : List Token × Token × List Token →
    List Token × Token × List Token → Prop
  | (before, w, after), (before', w', after') =>
    L.Tokens before before' ∧ L.token w w' ∧ L.Tokens after after'

theorem splitGuard (depth : Int) (h : L.Tokens ts us) :
    Option.Rel L.GuardSplit (splitGuard depth ts) (splitGuard depth us) := by
  induction h generalizing depth with
  | nil => exact .none
  | @cons t u ts us ht hts ih =>
    have hfurther (depth : Int) : Option.Rel L.GuardSplit
        ((Grammar.splitGuard depth ts).map fun p => (t :: p.1, p.2))
        ((Grammar.splitGuard depth us).map fun p => (u :: p.1, p.2)) := by
      have hsplit := ih depth
      generalize Grammar.splitGuard depth ts = p at hsplit
      generalize Grammar.splitGuard depth us = q at hsplit
      cases hsplit with
      | none => exact .none
      | some hs => exact .some ⟨.cons ht hs.1, hs.2⟩
    simp only [Grammar.splitGuard, isDelim_eq ht, isWord_eq ht, L.spaced_eq ht]
    split
    · exact hfurther _
    · split
      · exact hfurther _
      · split
        · exact .some ⟨.nil, ht, hts⟩
        · exact hfurther _

section Bodies

variable {d e : Room} (hd : L.Rooms d e)
include hd

theorem rulesetHead (ht : L.token t u) (h : L.Tokens ts us) :
    L.Results (fun (ss, g) (ss', g') =>
        List.Forall₂ (Selector.Like L.text) ss ss' ∧ L.Conditions g g')
      (rulesetHead d t ts) (rulesetHead e u us) := by
  have hsplit := splitGuard 0 h
  rw [Grammar.rulesetHead, Grammar.rulesetHead]
  generalize Grammar.splitGuard 0 ts = p at hsplit
  generalize Grammar.splitGuard 0 us = q at hsplit
  cases hsplit with
  | none => exact (selectors ht h).map fun hs => ⟨hs, .none⟩
  | @some p q hpq =>
    obtain ⟨before, w, after⟩ := p
    obtain ⟨before', w', after'⟩ := q
    obtain ⟨hbefore, hw, hafter⟩ := hpq
    refine (selectors hw hbefore).bind fun hs => ?_
    exact (guard hd ht hafter).bind fun hg => .ok ⟨hs, .some (.of_forall₂ hg)⟩

theorem signature? {brace brace' : Token} {front front' rest rest' : List Token}
    (hbrace : L.token brace brace') (hfront : L.Tokens front front') (h : L.Tokens ts us)
    (ht : L.token t u) (hrest : L.Tokens rest rest') :
    L.Results (Option.Rel fun (ps, g) (qs, g') =>
        List.Forall₂ (Parameter.Like L.text) ps qs ∧ L.Conditions g g')
      (signature? d brace front ts t rest) (signature? e brace' front' us u rest') := by
  refine (enclosed ht '(' hrest).bind ?_
  rintro ⟨inner, close, after⟩ ⟨inner', close', after'⟩ ⟨hinner, hclose, hafter⟩
  simp only [h.length_eq, hfront.length_eq, hafter.length_eq, startsWithWord_eq hafter]
  split
  · exact .ok .none
  · refine (enter (below hd) _ (lineAt hbrace h)).bind fun ho => ?_
    refine (parameters ho hclose hinner).bind fun hp => ?_
    split
    · exact .ok (.some ⟨hp, .none⟩)
    · split
      · exact unexpectedAt hbrace .nil
      · exact (guard hd hbrace (drop _ hfront)).bind fun hg =>
          .ok (.some ⟨hp, .some (.of_forall₂ hg)⟩)

theorem mixinHead? {brace brace' : Token} {front front' : List Token}
    (hbrace : L.token brace brace') (hfront : L.Tokens front front') (h : L.Tokens ts us) :
    L.Results (Option.Rel fun (name, ps, g) (name', qs, g') =>
        name = name' ∧ List.Forall₂ (Parameter.Like L.text) ps qs ∧ L.Conditions g g')
      (mixinHead? d brace front ts) (mixinHead? e brace' front' us) := by
  have hname := mixinName? h
  rw [Grammar.mixinHead?, Grammar.mixinHead?]
  generalize Grammar.mixinName? ts = p at hname
  generalize Grammar.mixinName? us = q at hname
  cases hname with
  | none => exact .ok .none
  | @some p q hpq =>
    obtain ⟨name, after⟩ := p
    obtain ⟨name', after'⟩ := q
    obtain ⟨rfl, hafter⟩ := hpq
    cases hafter with
    | nil => exact .ok .none
    | cons hb hrest =>
      simp only [isDelim_eq hb]
      split
      · refine (signature? hd hbrace hfront h hb hrest).map fun hs => ?_
        cases hs with
        | none => exact .none
        | some hs => exact .some ⟨rfl, hs⟩
      · exact .ok .none

variable {b b' : Body} (hb : ∀ o, L.Rules L.Bodies (b o) (b' o))
include hb

theorem ruleset {brace brace' : Token} {front front' : List Token}
    (hbrace : L.token brace brace') (hfront : L.Tokens front front')
    (hstop : L.token stop stop') (h : L.Tokens ts us) :
    L.Results (L.Read L.Statements) (ruleset d b stop brace front ts)
      (ruleset e b' stop' brace' front' us) := by
  refine (rulesetHead hd hbrace hfront).bind ?_
  rintro ⟨ss, g⟩ ⟨ss', g'⟩ ⟨hs, hg⟩
  refine (hb _ hstop h).bind ?_
  rintro ⟨body, rest⟩ ⟨body', rest'⟩ ⟨hbody, hrest⟩
  exact .ok ⟨.ruleset hs hg hbody, hrest⟩

theorem withBody {brace brace' : Token} {front front' tail tail' : List Token}
    (hbrace : L.token brace brace') (hfront : L.Tokens front front')
    (htail : L.Tokens tail tail') (hstop : L.token stop stop') (h : L.Tokens ts us) :
    L.Results (L.Read L.Statements) (withBody d b stop brace front tail ts)
      (withBody e b' stop' brace' front' tail' us) := by
  rw [Grammar.withBody, Grammar.withBody, isEmpty_eq hfront]
  split
  · refine (hb _ hstop h).bind ?_
    rintro ⟨body, rest⟩ ⟨body', rest'⟩ ⟨hbody, hrest⟩
    exact .ok ⟨.block hbody, hrest⟩
  · refine (mixinHead? hd hbrace hfront h).bind fun hhead => ?_
    cases hhead with
    | none => exact ruleset hd hb hbrace hfront hstop htail
    | @some p q hpq =>
      obtain ⟨name, ps, g⟩ := p
      obtain ⟨name', qs, g'⟩ := q
      obtain ⟨rfl, hp, hg⟩ := hpq
      refine (hb _ hstop htail).bind ?_
      rintro ⟨body, rest⟩ ⟨body', rest'⟩ ⟨hbody, hrest⟩
      exact .ok ⟨.mixin hp hg hbody, hrest⟩

theorem media (hstop : L.token stop stop') (h : L.Tokens ts us) :
    L.Results (L.Read L.Statements) (media d b stop ts) (media e b' stop' us) := by
  obtain ⟨hfront, htail⟩ := head h
  simp only [Grammar.media, startsWithDelim_eq htail]
  split
  · exact .malformed _ (lineAt hstop h)
  · refine (mediaQueriesIfAny hd (headD hstop htail) hfront).bind fun hf => ?_
    refine (hb _ hstop htail).bind ?_
    rintro ⟨body, rest⟩ ⟨body', rest'⟩ ⟨hbody, hrest⟩
    exact .ok ⟨.media hf hbody, hrest⟩

theorem definition (name : String) (hstop : L.token stop stop') (h : L.Tokens ts us) :
    L.Results (L.Read L.Statements) (definition d b name stop ts)
      (definition e b' name stop' us) := by
  rw [Grammar.definition, Grammar.definition, startsWithDelim_eq h]
  split
  · refine (hb _ hstop h).bind ?_
    rintro ⟨body, rest⟩ ⟨body', rest'⟩ ⟨hbody, hrest⟩
    exact .ok ⟨.block hbody, hrest⟩
  · obtain ⟨hfront, htail⟩ := head h
    refine (declarationValue hd (headD hstop htail) hfront).bind ?_
    rintro ⟨v, important⟩ ⟨w, important'⟩ ⟨hv, rfl⟩
    cases hv with
    | none => exact .malformed _ (lineAt hstop htail)
    | some hv => exact (endStatement htail).bind fun hrest => .ok ⟨.definition hv, hrest⟩

theorem directive (name : String) (hstop : L.token stop stop') (h : L.Tokens ts us) :
    L.Results (L.Read L.Statements) (directive d b name stop ts)
      (directive e b' name stop' us) := by
  obtain ⟨hfront, htail⟩ := head h
  simp only [Grammar.directive, startsWithDelim_eq htail]
  split
  · refine (hb _ hstop htail).bind ?_
    rintro ⟨body, rest⟩ ⟨body', rest'⟩ ⟨hbody, hrest⟩
    have hspans : Excerpt.prelude.Spans (Grammar.head ts).1 := trivial
    exact .ok ⟨.blockDirective (L.text_of hspans hfront) hbody, hrest⟩
  · refine (valueIfAny hd (headD hstop htail) hfront).bind fun hv => ?_
    exact (endStatement htail).bind fun hrest => .ok ⟨.directive hv, hrest⟩

end Bodies

theorem importOptions (h : L.Tokens ts us) :
    L.Results (L.Read Eq) (importOptions ts) (importOptions us) := by
  cases h with
  | nil => exact .ok ⟨rfl, .nil⟩
  | cons ht hts =>
    simp only [Grammar.importOptions, isDelim_eq ht]
    split
    · refine (enclosed ht '(' hts).bind ?_
      rintro ⟨inner, close, after⟩ ⟨inner', close', after'⟩ ⟨hinner, _, hafter⟩
      refine .ok ⟨?_, hafter⟩
      induction hinner with
      | nil => rfl
      | cons hu _ ih => simp only [List.filterMap_cons, L.lexeme_eq hu, ih]
    · exact .ok ⟨rfl, .cons ht hts⟩

section Rooms

variable {d e : Room} (hd : L.Rooms d e)
include hd

theorem imported (hstop : L.token stop stop') (h : L.Tokens ts us) :
    L.Results (L.Read L.Statements) (imported d stop ts) (imported e stop' us) := by
  refine (importOptions h).bind ?_
  rintro ⟨options, ts⟩ ⟨options', us⟩ ⟨rfl, h⟩
  obtain ⟨hfront, htail⟩ := head h
  simp only [isEmpty_eq hfront]
  split
  · exact .malformed _ (lineAt hstop h)
  · have hat := headD hstop htail
    refine (primary (below hd) hat hfront).bind ?_
    rintro ⟨path, rest⟩ ⟨path', rest'⟩ ⟨hpath, hrest⟩
    refine (mediaQueriesIfAny hd hat hrest).bind fun hf => ?_
    exact (endStatement htail).bind fun hrest => .ok ⟨.imported hpath hf, hrest⟩

theorem blockCall (name : String) (ht : L.token t u) (h : L.Tokens ts us) :
    L.Results (L.Read L.Statements) (blockCall d name t ts) (blockCall e name u us) := by
  refine (argumentsFrom hd ht h).bind ?_
  rintro ⟨args, after⟩ ⟨args', after'⟩ ⟨hargs, hafter⟩
  refine (endStatement hafter).bind fun hrest => ?_
  exact .ok ⟨.mixinCall (.cons ⟨.same _, rfl⟩ .nil) (.some hargs), hrest⟩

theorem callOrDeclaration (hstop : L.token stop stop') (ht : L.token t u) (h : L.Tokens ts us) :
    L.Results L.Statements (callOrDeclaration d stop t ts) (callOrDeclaration e stop' u us) := by
  have hopens : opensMixinCall t = opensMixinCall u := by
    simp only [opensMixinCall, L.lexeme_eq ht]
  rw [Grammar.callOrDeclaration, Grammar.callOrDeclaration, hopens]
  split
  · exact mixinCall hd hstop h
  · exact declaration hd (L.line_of ht) hstop h

theorem unendedStatement (hstop : L.token stop stop') (ht : L.token t u) (h : L.Tokens ts us) :
    L.Results (L.Read L.Statements) (unendedStatement d stop t ts)
      (unendedStatement e stop' u us) := by
  have hextend := extendBody? (.cons ht h)
  rw [Grammar.unendedStatement, Grammar.unendedStatement]
  generalize Grammar.extendBody? (t :: ts) = p at hextend
  generalize Grammar.extendBody? (u :: us) = q at hextend
  cases hextend with
  | none =>
    obtain ⟨hfront, htail⟩ := head (.cons ht h)
    exact (callOrDeclaration hd (headD hstop htail) ht hfront).map fun hs => ⟨hs, htail⟩
  | some hpq => exact extend hpq.1 hpq.2

theorem simpleStatement (hstop : L.token stop stop') (ht : L.token t u) (h : L.Tokens ts us) :
    L.Results (L.Read L.Statements) (simpleStatement d stop t ts)
      (simpleStatement e stop' u us) := by
  refine (unendedStatement hd hstop ht h).bind ?_
  rintro ⟨s, tail⟩ ⟨s', tail'⟩ ⟨hs, htail⟩
  exact (endStatement htail).bind fun hrest => .ok ⟨hs, hrest⟩

section Bodies

variable {b b' : Body} (hb : ∀ o, L.Rules L.Bodies (b o) (b' o))
include hb

theorem atRule (name : String) (hstop : L.token stop stop') (h : L.Tokens ts us) :
    L.Results (L.Read L.Statements) (atRule d b name stop ts) (atRule e b' name stop' us) := by
  have hdirective := directive hd hb name hstop h
  rw [Grammar.atRule.eq_def d b, Grammar.atRule.eq_def e b']
  simp only
  split
  · exact media hd hb hstop h
  · split
    · exact imported hd hstop h
    · cases h with
      | nil => exact hdirective
      | cons ht hts =>
        simp only [isDelim_eq ht, L.spaced_eq ht, startsWithDelim_eq hts,
          startsWithDelim_eq (head hts).2]
        split
        · split
          · exact definition hd hb name hstop hts
          · exact hdirective
        · split
          · exact blockCall hd name ht hts
          · exact hdirective

theorem statement (hstop : L.token stop stop') (ht : L.token t u) (h : L.Tokens ts us) :
    L.Results (L.Read L.Statements) (statement d b stop t ts) (statement e b' stop' u us) := by
  have hsimple := simpleStatement hd hstop ht h
  simp only [Grammar.statement, L.lexeme_eq ht]
  split
  · exact atRule hd hb _ hstop h
  · obtain ⟨hfront, htail⟩ := head (.cons ht h)
    generalize Grammar.head (t :: ts) = p at hfront htail
    generalize Grammar.head (u :: us) = q at hfront htail
    obtain ⟨front, tail⟩ := p
    obtain ⟨front', tail'⟩ := q
    cases htail with
    | nil => exact hsimple
    | cons hbrace hafter =>
      simp only [isDelim_eq hbrace]
      split
      · exact withBody hd hb hbrace hfront (.cons hbrace hafter) hstop (.cons ht h)
      · exact hsimple

theorem statements : L.Rules L.Bodies (statements d b) (statements e b') := by
  intro stop stop' ts us hstop h
  induction hn : ts.length using Nat.strongRecOn generalizing ts us with
  | ind n ih =>
    cases h with
    | nil =>
      rw [Grammar.statements, Grammar.statements]
      exact .ok ⟨.nil, .nil⟩
    | cons ht hts =>
      rw [Grammar.statements, Grammar.statements, isDelim_eq ht, isDelim_eq ht]
      simp only [List.length_cons] at hn
      split
      · exact .ok ⟨.nil, .cons ht hts⟩
      · split
        · exact (ih _ (by omega) hts rfl).map fun hs => ⟨.cons .empty hs.1, hs.2⟩
        · refine (statement hd hb hstop ht hts).bind ?_
          rintro ⟨s, after⟩ ⟨s', after'⟩ ⟨hs, hafter⟩
          simp only [← hafter.length_eq, ← hts.length_eq]
          split
          · exact (ih _ (by omega) hafter rfl).map fun hss => ⟨.cons hs hss.1, hss.2⟩
          · exact .ok ⟨.cons hs .nil, hafter⟩

end Bodies

end Rooms

theorem bodyWith {d e : Deeper (Rule (List Statement))}
    (hd : L.Behind (L.Rules L.Bodies) d e) (o : Opening) :
    L.Rules L.Bodies (bodyWith d o) (bodyWith e o) := by
  intro stop stop' ts us hstop h
  have hfound := foundAt_eq h
  cases h with
  | nil => exact .malformed _ (L.line_of hstop)
  | cons ht hts =>
    simp only [Grammar.bodyWith, isDelim_eq ht, hfound]
    split
    · exact .malformed _ (L.line_of ht)
    · refine (enter hd _ (lineAt hstop hts)).bind fun hread => ?_
      refine (hread hstop hts).bind ?_
      rintro ⟨inside, rest⟩ ⟨inside', rest'⟩ ⟨hinside, hrest⟩
      cases hrest with
      | nil => exact .malformed _ (L.line_of hstop)
      | cons _ hrest => exact .ok ⟨hinside, hrest⟩

theorem body {d e : Room} (h : L.Rooms d e) (o : Opening) :
    L.Rules L.Bodies (body d o) (body e o) := by
  induction d using Room.induction generalizing e o with
  | step d ih =>
    rw [body_eq, body_eq]
    refine bodyWith (h.below fun o inner inner' hinner hrooms => ?_) o
    exact statements hrooms (ih o inner hinner hrooms)

theorem sheet {d e : Room} (hd : L.Rooms d e) (hstop : L.token stop stop') (h : L.Tokens ts us) :
    L.Results L.Bodies (sheet d stop ts) (sheet e stop' us) := by
  refine (statements hd (body hd) hstop h).bind ?_
  rintro ⟨inner, rest⟩ ⟨inner', rest'⟩ ⟨hinner, hrest⟩
  simp only [isEmpty_eq hrest]
  split
  · exact .ok hinner
  · exact unexpectedAt hstop hrest

end StyleTally.Stylesheet.Likeness
