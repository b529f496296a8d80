import Mathlib.Data.List.TakeWhile
import StyleTally.Proofs.Likeness.Value
import StyleTally.Stylesheet.Grammar.Mixin

/-!
# Selectors and calls that are alike

The rules for selectors, mixin parameters and arguments on ranges that are alike.
-/

namespace StyleTally.Stylesheet.Likeness

open Grammar

variable {L : Likeness} {t u stop stop' : Token} {ts us : List Token}

section Selectors

abbrev Parts (L : Likeness) : Part → Part → Prop := Part.Like L.text

theorem pseudo {c c' : Token} {cs cs' : List Token} (hcolon : c.isDelim ':')
    (hc : L.Tokens (c :: cs) (c' :: cs')) (hstop : L.token stop stop') (h : L.Tokens ts us) :
    L.Results (L.Read L.Parts) (pseudo (c :: cs) stop ts) (pseudo (c' :: cs') stop' us) := by
  cases h with
  | nil => exact .malformed _ (L.line_of hstop)
  | @cons t u ts us ht hts =>
    have hspans (more : List Token) : Excerpt.pseudo.Spans (c :: cs ++ more) := hcolon
    have hname : L.Results (L.Read L.Parts) (.ok (.text (textOf (c :: cs ++ [t])), ts))
        (.ok (.text (textOf (c' :: cs' ++ [u])), us)) :=
      .ok ⟨.text (L.text_of (hspans _) (List.rel_append hc (.cons ht .nil))), hts⟩
    have hnames : namesPseudo t = namesPseudo u := by
      simp only [namesPseudo, L.lexeme_eq ht, L.spaced_eq ht]
    simp only [Grammar.pseudo, hnames, opensCall_eq hts]
    split
    · exact .malformed _ (L.line_of ht)
    · cases hts with
      | nil => exact hname
      | @cons p q ts us hp hts =>
        simp only
        split
        · refine (enclosed hp '(' hts).bind ?_
          rintro ⟨inner, close, after⟩ ⟨inner', close', after'⟩ ⟨hinner, hclose, hafter⟩
          have htext : L.Tokens (c :: cs ++ t :: p :: inner ++ [close])
              (c' :: cs' ++ u :: q :: inner' ++ [close']) :=
            List.rel_append (List.rel_append hc (.cons ht (.cons hp hinner))) (.cons hclose .nil)
          have hall : Excerpt.pseudo.Spans (c :: cs ++ t :: p :: inner ++ [close]) := hcolon
          exact .ok ⟨.text (L.text_of hall htext), hafter⟩
        · exact hname

theorem isAttributeSign_eq (h : L.token t u) : isAttributeSign t = isAttributeSign u := by
  simp only [isAttributeSign, L.lexeme_eq h]

theorem takeWhile {p : Token → Bool} (hp : ∀ {t u}, L.token t u → p t = p u) (h : L.Tokens ts us) :
    L.Tokens (ts.takeWhile p) (us.takeWhile p) := by
  induction h with
  | nil => exact .nil
  | @cons t u ts us ht _ ih =>
    simp only [List.takeWhile_cons, hp ht]
    split
    · exact .cons ht ih
    · exact .nil

theorem drop (n : Nat) (h : L.Tokens ts us) : L.Tokens (ts.drop n) (us.drop n) :=
  List.forall₂_drop n h

theorem attributeTest : L.Rules (List.Forall₂ L.Values) attributeTest attributeTest := by
  intro stop stop' ts us hstop h
  cases h with
  | nil => exact .malformed _ (L.line_of hstop)
  | @cons t u ts us ht hts =>
    have hname : attributeName? t = attributeName? u := by
      simp only [attributeName?, L.lexeme_eq ht]
    have hsigns := takeWhile isAttributeSign_eq hts
    have hspans : Excerpt.signs.Spans (ts.takeWhile isAttributeSign) :=
      fun t ht => List.mem_takeWhile_imp ht
    simp only [Grammar.attributeTest, hname, isEmpty_eq hts, isEmpty_eq hsigns, hsigns.length_eq]
    split
    · exact .malformed _ (L.line_of ht)
    · split
      · exact .ok ⟨.cons (.same _) .nil, .nil⟩
      · split
        · exact .malformed _ (lineAt hstop hts)
        · have hrest := drop (us.takeWhile isAttributeSign).length hts
          generalize List.drop _ ts = rest at hrest
          generalize List.drop _ us = rest' at hrest
          cases hrest with
          | nil => exact .malformed _ (L.line_of hstop)
          | @cons v w rest rest' hv hrest =>
            have hvalue : attributeValue? v = attributeValue? w := by
              simp only [attributeValue?, L.lexeme_eq hv]
            simp only [hvalue, startsWithWord_eq hrest]
            split
            · exact .malformed _ (L.line_of hv)
            · refine .ok ⟨.cons (.same _) (.cons (.signs (L.text_of hspans hsigns))
                (.cons (.same _) .nil)), ?_⟩
              split
              · exact drop 1 hrest
              · exact hrest

theorem isQuoted_eq (h : L.Tokens ts us) : isQuoted ts = isQuoted us := by
  cases h with
  | nil => rfl
  | @cons t u ts us ht _ =>
    obtain ⟨lexeme, gap, text, line, start⟩ := t
    obtain ⟨lexeme', gap', text', line', start'⟩ := u
    obtain rfl : lexeme = lexeme' := L.lexeme_eq ht
    cases lexeme <;> rfl

theorem marked? (ht : L.token t u) (h : L.Tokens ts us) :
    L.Found L.Parts (marked? t ts) (marked? u us) := by
  cases h with
  | nil => exact .none
  | cons hv hts =>
    simp only [Grammar.marked?, L.lexeme_eq ht, L.spaced_eq hv, L.lexeme_eq hv]
    split
    · exact .none
    · split
      · exact .some ⟨.same _, hts⟩
      · exact .some ⟨.same _, hts⟩
      · exact .some ⟨.same _, hts⟩
      · exact .none

theorem part (hstop : L.token stop stop') (ht : L.token t u) (h : L.Tokens ts us) :
    L.Results (L.Read L.Parts) (part stop t ts) (part stop' u us) := by
  have hread (p : Part) : L.Results (L.Read L.Parts) (.ok (p, ts)) (.ok (p, us)) := .ok ⟨.same p, h⟩
  have hfound : foundAt [t] = foundAt [u] := foundAt_eq (.cons ht .nil)
  have hfault : L.Results (L.Read L.Parts)
      (.error (.malformed (.unexpectedInSelector (foundAt [t])) t.line))
      (.error (.malformed (.unexpectedInSelector (foundAt [u])) u.line)) := by
    rw [hfound]
    exact .malformed _ (L.line_of ht)
  have hmarked := marked? ht h
  unfold Grammar.part
  generalize Grammar.marked? t ts = p at hmarked
  generalize Grammar.marked? u us = q at hmarked
  cases hmarked with
  | some hm => exact .ok hm
  | none =>
    simp only [L.lexeme_eq ht]
    split
    · exact hread _
    · exact hread _
    · exact hread _
    · exact hread _
    · exact hread _
    · exact hread _
    · rename_i hlexeme
      have hcolon : t.isDelim ':' := by simp [Token.isDelim, L.lexeme_eq ht, hlexeme]
      cases h with
      | nil => exact pseudo hcolon (.cons ht .nil) hstop .nil
      | cons hu hts =>
        simp only [isDelim_eq hu, L.spaced_eq hu]
        split
        · exact pseudo hcolon (.cons ht (.cons hu .nil)) hstop hts
        · exact pseudo hcolon (.cons ht .nil) hstop (.cons hu hts)
    · refine (enclosed ht '[' h).bind ?_
      rintro ⟨inner, close, after⟩ ⟨inner', close', after'⟩ ⟨hinner, hclose, hafter⟩
      exact (whole attributeTest hclose hinner).bind fun hs =>
        .ok ⟨.parts (.of_forall₂ hs), hafter⟩
    · cases h with
      | nil => exact hfault
      | @cons v w ts us hv hts =>
        obtain ⟨lexeme, gap, text, line, start⟩ := v
        obtain ⟨lexeme', gap', text', line', start'⟩ := w
        obtain rfl : lexeme = lexeme' := L.lexeme_eq hv
        cases lexeme with
        | quoted s quote => exact .ok ⟨.same _, hts⟩
        | _ => exact hfault
    · exact hfault

theorem combinator?_eq (ht : L.token t u) (h : L.Tokens ts us) : combinator? t ts = combinator? u us := by
  simp only [combinator?, isDelim_eq ht, isQuoted_eq h]

theorem elementsFrom (pending : Option Char) (first : Bool) (hstop : L.token stop stop')
    (h : L.Tokens ts us) :
    L.Results (Selector.Like L.text) (elementsFrom pending first stop ts)
      (elementsFrom pending first stop' us) := by
  induction hn : ts.length using Nat.strongRecOn generalizing pending first ts us with
  | ind n ih =>
    cases h with
    | nil =>
      rw [Grammar.elementsFrom, Grammar.elementsFrom]
      exact .ok .nil
    | cons ht hts =>
      rw [Grammar.elementsFrom, Grammar.elementsFrom, combinator?_eq ht hts, L.spaced_eq ht]
      simp only [List.length_cons] at hn
      split
      · exact ih _ (by omega) _ _ hts rfl
      · refine (part hstop ht hts).bind ?_
        rintro ⟨p, after⟩ ⟨q, after'⟩ ⟨hpq, hafter⟩
        simp only [← hafter.length_eq, ← hts.length_eq]
        split
        · exact (ih _ (by omega) _ _ hafter rfl).map fun hs => .cons ⟨hpq, rfl⟩ hs
        · exact .ok (.cons ⟨hpq, rfl⟩ .nil)

theorem selector (hstop : L.token stop stop') (h : L.Tokens ts us) :
    L.Results (Selector.Like L.text) (selector stop ts) (selector stop' us) := by
  refine (elementsFrom none true hstop h).bind fun hs => ?_
  cases hs with
  | nil => exact .malformed _ (L.line_of hstop)
  | cons he hs => exact .ok (.cons he hs)

theorem selectors (hstop : L.token stop stop') (h : L.Tokens ts us) :
    L.Results (List.Forall₂ (Selector.Like L.text)) (selectors stop ts) (selectors stop' us) := by
  rw [Grammar.selectors, Grammar.selectors, isEmpty_eq h]
  split
  · exact .malformed _ (L.line_of hstop)
  · exact (pieces ',' hstop h).bind (eachPiece selector)

end Selectors

section Mixins

theorem delimiterOf_eq (h : L.Tokens ts us) : delimiterOf ts = delimiterOf us := by
  simp only [delimiterOf, startsWithDelim_eq (cut [';'] 0 h).2]

theorem named? (h : L.Tokens ts us) : L.Found Eq (named? ts) (named? us) := by
  match h with
  | .nil | .cons _ .nil => exact .none
  | .cons ht (.cons hu hts) =>
    simp only [Grammar.named?, L.lexeme_eq ht, isDelim_eq hu]
    split
    · split
      · exact .some ⟨rfl, hts⟩
      · exact .none
    · exact .none

theorem bareParameter? (h : L.Tokens ts us) :
    L.Found (Parameter.Like L.text) (bareParameter? ts) (bareParameter? us) := by
  have hbare (p : Parameter) (hp : p.value = none) : Parameter.Like L.text p p :=
    ⟨rfl, by rw [hp]; exact .none, rfl⟩
  match h with
  | .nil => exact .none
  | .cons ht .nil =>
    simp only [Grammar.bareParameter?, L.lexeme_eq ht]
    split
    · exact .some ⟨hbare _ rfl, .nil⟩
    · exact .some ⟨hbare _ rfl, .nil⟩
    · exact .none
  | .cons ht (.cons hu hts) =>
    simp only [Grammar.bareParameter?, L.lexeme_eq ht, L.lexeme_eq hu]
    split
    · exact .some ⟨hbare _ rfl, .cons hu hts⟩
    · exact .some ⟨hbare _ rfl, hts⟩
    · exact .none

section Operand

variable {o o' : Rule Value} (ho : L.Rules L.Values o o')
include ho

theorem parameter : L.Rules (Parameter.Like L.text) (parameter o) (parameter o') := by
  intro stop stop' ts us hstop h
  have hnamed := named? h
  have hbare := bareParameter? h
  unfold Grammar.parameter
  generalize Grammar.named? ts = p at hnamed
  generalize Grammar.named? us = q at hnamed
  generalize Grammar.bareParameter? ts = p' at hbare
  generalize Grammar.bareParameter? us = q' at hbare
  cases hnamed with
  | @some p q hpq =>
    obtain ⟨name, rest⟩ := p
    obtain ⟨name', rest'⟩ := q
    obtain ⟨rfl, hrest⟩ := hpq
    refine (value ho false hstop hrest).bind ?_
    rintro ⟨v, rest⟩ ⟨w, rest'⟩ ⟨hvw, hrest⟩
    exact .ok ⟨⟨rfl, .some hvw, rfl⟩, hrest⟩
  | none =>
    cases hbare with
    | @some p q hpq =>
      exact .ok hpq
    | none =>
      refine (value ho false hstop h).bind ?_
      rintro ⟨v, rest⟩ ⟨w, rest'⟩ ⟨hvw, hrest⟩
      exact .ok ⟨⟨rfl, .some hvw, rfl⟩, hrest⟩

theorem argument : L.Rules (Argument.Like L.text) (argument o) (argument o') := by
  intro stop stop' ts us hstop h
  have hnamed := named? h
  rw [Grammar.argument, Grammar.argument]
  generalize Grammar.named? ts = p at hnamed
  generalize Grammar.named? us = q at hnamed
  cases hnamed with
  | @some p q hpq =>
    obtain ⟨name, rest⟩ := p
    obtain ⟨name', rest'⟩ := q
    obtain ⟨rfl, hrest⟩ := hpq
    refine (value ho false hstop hrest).bind ?_
    rintro ⟨v, rest⟩ ⟨w, rest'⟩ ⟨hvw, hrest⟩
    exact .ok ⟨⟨hvw, rfl⟩, hrest⟩
  | none =>
    refine (value ho false hstop h).bind ?_
    rintro ⟨v, rest⟩ ⟨w, rest'⟩ ⟨hvw, hrest⟩
    exact .ok ⟨⟨hvw, rfl⟩, hrest⟩

end Operand

theorem filledPieces (delimiter : Char) (hstop : L.token stop stop') (h : L.Tokens ts us) :
    L.Results (List.Forall₂ L.Piece) (filledPieces delimiter stop ts)
      (filledPieces delimiter stop' us) := by
  refine (pieces delimiter hstop h).map fun hps => ?_
  induction hps with
  | nil => exact .nil
  | @cons p q ps qs hp _ ih =>
    simp only [List.filter_cons, isEmpty_eq hp.1]
    split
    · exact .cons hp ih
    · exact ih

theorem parameters {o o' : Rule Value} (ho : L.Rules L.Values o o') (hstop : L.token stop stop')
    (h : L.Tokens ts us) :
    L.Results (List.Forall₂ (Parameter.Like L.text)) (parameters o stop ts)
      (parameters o' stop' us) := by
  rw [Grammar.parameters, Grammar.parameters, isEmpty_eq h, delimiterOf_eq h]
  split
  · exact .ok .nil
  · exact (filledPieces _ hstop h).bind (eachPiece (whole (parameter ho)))

theorem arguments {o o' : Rule Value} (ho : L.Rules L.Values o o') (hstop : L.token stop stop')
    (h : L.Tokens ts us) :
    L.Results (Arguments.Like L.text) (arguments o stop ts) (arguments o' stop' us) := by
  rw [Grammar.arguments, Grammar.arguments, isEmpty_eq h, delimiterOf_eq h]
  split
  · exact .ok ⟨.nil, rfl⟩
  · refine ((filledPieces _ hstop h).bind (eachPiece (whole (argument ho)))).bind fun hs => ?_
    exact .ok ⟨hs, rfl⟩

theorem argumentsFrom {d e : Room} (hd : L.Rooms d e) (ht : L.token t u) (h : L.Tokens ts us) :
    L.Results (L.Read (Arguments.Like L.text)) (argumentsFrom d t ts) (argumentsFrom e u us) := by
  refine (enclosed ht '(' h).bind ?_
  rintro ⟨inner, close, after⟩ ⟨inner', close', after'⟩ ⟨hinner, hclose, hafter⟩
  refine (enter (below hd) _ (L.line_of ht)).bind fun ho => ?_
  exact (arguments ho hclose hinner).bind fun ha => .ok ⟨ha, hafter⟩

theorem className? (h : L.Tokens ts us) : L.Found Eq (className? ts) (className? us) := by
  cases h with
  | nil => exact .none
  | cons ht hts =>
    simp only [Grammar.className?, L.lexeme_eq ht, L.spaced_eq ht]
    split
    · split
      · exact .none
      · exact .some ⟨rfl, hts⟩
    · exact .none

theorem mixinName? (h : L.Tokens ts us) : L.Found Eq (mixinName? ts) (mixinName? us) := by
  cases h with
  | nil => exact .none
  | cons ht hts =>
    simp only [Grammar.mixinName?, L.lexeme_eq ht]
    split
    · exact .some ⟨rfl, hts⟩
    · split
      · exact className? hts
      · exact .none
    · exact .none

theorem dropImportant (h : L.Tokens ts us) :
    L.Read Eq (dropImportant ts) (dropImportant us) := by
  match h with
  | .nil => exact ⟨rfl, .nil⟩
  | .cons ht .nil => exact ⟨rfl, .cons ht .nil⟩
  | .cons ht (.cons hu hts) =>
    simp only [Grammar.dropImportant, isDelim_eq ht, isWord_eq hu]
    split
    · exact ⟨rfl, hts⟩
    · exact ⟨rfl, .cons ht (.cons hu hts)⟩

theorem callPath (pending : Option Char) (first : Bool) (h : L.Tokens ts us) :
    L.Results (L.Read (Selector.Like L.text)) (callPath pending first ts)
      (callPath pending first us) := by
  induction hn : ts.length using Nat.strongRecOn generalizing pending first ts us with
  | ind n ih =>
    cases h with
    | nil =>
      rw [Grammar.callPath]
      exact .ok ⟨.nil, .nil⟩
    | @cons t u ts us ht hts =>
      have hname := mixinName? (.cons ht hts)
      have hfound : foundAt [t] = foundAt [u] := foundAt_eq (.cons ht .nil)
      have hlength := @length_mixinName? (t :: ts)
      rw [callPath.eq_def pending first (t :: ts), callPath.eq_def pending first (u :: us)]
      simp only [isDelim_eq ht, L.spaced_eq ht, hfound]
      simp only [List.length_cons] at hn hlength
      split
      · exact .ok ⟨.nil, .cons ht hts⟩
      · split
        · exact ih _ (by omega) _ _ hts rfl
        · generalize Grammar.mixinName? (t :: ts) = p at hname hlength
          generalize Grammar.mixinName? (u :: us) = q at hname
          cases hname with
          | none => exact .malformed _ (L.line_of ht)
          | @some p q hpq =>
            obtain ⟨name, after⟩ := p
            obtain ⟨name', after'⟩ := q
            obtain ⟨rfl, hafter⟩ := hpq
            have := hlength rfl
            refine (ih _ (by omega) _ _ hafter rfl).map ?_
            rintro ⟨path, rest⟩ ⟨path', rest'⟩ ⟨hpath, hrest⟩
            exact ⟨.cons ⟨.same _, rfl⟩ hpath, hrest⟩

theorem callArguments {d e : Room} (hd : L.Rooms d e) (h : L.Tokens ts us) :
    L.Results (L.Read (Option.Rel (Arguments.Like L.text))) (callArguments d ts)
      (callArguments e us) := by
  cases h with
  | nil => exact .ok ⟨.none, .nil⟩
  | cons ht hts =>
    simp only [Grammar.callArguments, isDelim_eq ht]
    split
    · refine (argumentsFrom hd ht hts).map ?_
      rintro ⟨a, rest⟩ ⟨b, rest'⟩ ⟨hab, hrest⟩
      exact ⟨.some hab, hrest⟩
    · exact .ok ⟨.none, .cons ht hts⟩

theorem mixinCall {d e : Room} (hd : L.Rooms d e) (hstop : L.token stop stop')
    (h : L.Tokens ts us) :
    L.Results (Statement.Like L.text) (mixinCall d stop ts) (mixinCall e stop' us) := by
  refine (callPath none true h).bind ?_
  rintro ⟨path, rest⟩ ⟨path', rest'⟩ ⟨hpath, hrest⟩
  refine (callArguments hd hrest).bind ?_
  rintro ⟨args, rest⟩ ⟨args', rest'⟩ ⟨hargs, hrest⟩
  have himportant := dropImportant hrest
  simp only
  generalize Grammar.dropImportant rest = p at himportant
  generalize Grammar.dropImportant rest' = q at himportant
  obtain ⟨important, rest⟩ := p
  obtain ⟨important', rest'⟩ := q
  obtain ⟨rfl, hrest⟩ := himportant
  simp only [isEmpty_eq hrest, foundAt_eq hrest]
  split
  · exact .malformed _ (lineAt hstop hrest)
  · cases hpath with
    | nil => exact .malformed _ (L.line_of hstop)
    | cons he hs => exact .ok (.mixinCall (.cons he hs) hargs)

end Mixins

end StyleTally.Stylesheet.Likeness
