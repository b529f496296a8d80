import StyleTally.Proofs.Likeness.Range
import StyleTally.Stylesheet.Grammar.Guard
import StyleTally.Stylesheet.Grammar.Media

/-!
# Values that are alike

The rules for values, guards and media queries on ranges that are alike. Rules for operands are
alike when they may open as many levels, or, in a lenient likeness, when the left one may open
fewer.
-/

namespace StyleTally.Stylesheet.Likeness

open Grammar

variable {L : Likeness} {t u stop stop' : Token} {ts us : List Token}

abbrev Values (L : Likeness) : Value → Value → Prop := Value.Like L.text

theorem productJoin (divides : Bool) :
    L.Joins L.Values (productJoin divides) (productJoin divides) := by
  intro stop stop' ts us _ h
  cases h with
  | nil => exact .none
  | cons ht hts =>
    simp only [Grammar.productJoin, isDelim_eq ht]
    split
    · exact .some ⟨.operation, hts⟩
    · split
      · exact .some ⟨.operation, hts⟩
      · exact .none

theorem sumJoin : L.Joins L.Values sumJoin sumJoin := by
  intro stop stop' ts us hstop h
  cases h with
  | nil => exact .none
  | cons ht hts =>
    simp only [Grammar.sumJoin, isDelim_eq ht, L.spaced_eq ht, spacedAt_eq hstop hts]
    split
    · exact .none
    · split
      · exact .some ⟨.operation, hts⟩
      · split
        · exact .some ⟨.operation, hts⟩
        · exact .none

theorem slashJoin : L.Joins L.Values slashJoin slashJoin := by
  intro stop stop' ts us _ h
  cases h with
  | nil => exact .none
  | cons ht hts =>
    simp only [Grammar.slashJoin, isDelim_eq ht]
    split
    · exact .some ⟨.shorthand, hts⟩
    · exact .none

theorem comparisonOperator? (h : L.Tokens ts us) :
    L.Found Eq (comparisonOperator? ts) (comparisonOperator? us) := by
  have hop {op? : Option Operator} {vs ws : List Token} (h : L.Tokens vs ws) :
      L.Found Eq (op?.map (·, vs)) (op?.map (·, ws)) := by
    cases op? with
    | none => exact .none
    | some op => exact .some ⟨rfl, h⟩
  cases h with
  | nil => exact .none
  | @cons t u ts us ht hts =>
    have hsimple : simple? t = simple? u := by simp only [simple?, isDelim_eq ht]
    cases hts with
    | nil =>
      simp only [Grammar.comparisonOperator?, hsimple]
      exact hop .nil
    | @cons v w ts us hv hts =>
      have hcompound : compoundOf? t v = compoundOf? u w := by
        simp only [compoundOf?, L.lexeme_eq ht, L.lexeme_eq hv, L.spaced_eq hv]
      simp only [Grammar.comparisonOperator?, hsimple, hcompound]
      cases compoundOf? u w with
      | none => exact hop (.cons hv hts)
      | some op => exact .some ⟨rfl, hts⟩

section Operand

variable {operand operand' : Rule Value} (ho : L.Rules L.Values operand operand')
include ho

theorem product (divides : Bool) :
    L.Rules L.Values (product operand divides) (product operand' divides) :=
  chained (productJoin divides) ho

theorem sum (divides : Bool) : L.Rules L.Values (sum operand divides) (sum operand' divides) :=
  chained sumJoin (product ho divides)

theorem shorthand : L.Rules L.Values (shorthand operand) (shorthand operand') :=
  chained slashJoin (sum ho false)

theorem comparison : L.Rules L.Values (comparison operand) (comparison operand') := by
  intro stop stop' ts us hstop h
  refine (sum ho true hstop h).bind ?_
  rintro ⟨v, rest⟩ ⟨w, rest'⟩ ⟨hvw, hrest⟩
  have hop := comparisonOperator? hrest
  simp only
  generalize Grammar.comparisonOperator? rest = p at hop
  generalize Grammar.comparisonOperator? rest' = q at hop
  cases hop with
  | none => exact .ok ⟨hvw, hrest⟩
  | @some p q hpq =>
    obtain ⟨op, rest⟩ := p
    obtain ⟨op', rest'⟩ := q
    obtain ⟨rfl, hrest⟩ := hpq
    refine (sum ho true hstop hrest).bind ?_
    rintro ⟨v', rest⟩ ⟨w', rest'⟩ ⟨hvw', hrest⟩
    exact .ok ⟨.operation hvw hvw', hrest⟩

end Operand

section Items

variable {item item' : Rule Value} (hi : L.Rules L.Values item item')
include hi

theorem items (hstop : L.token stop stop') (h : L.Tokens ts us) :
    L.Results (L.Read (List.Forall₂ L.Values)) (items item stop ts) (items item' stop' us) := by
  induction hn : ts.length using Nat.strongRecOn generalizing ts us with
  | ind n ih =>
    rw [Grammar.items, Grammar.items, isEmpty_eq h, startsWithDelim_eq h]
    split
    · exact .ok ⟨.nil, h⟩
    · refine (hi hstop h).bind ?_
      rintro ⟨v, rest⟩ ⟨w, rest'⟩ ⟨hvw, hrest⟩
      simp only [← hrest.length_eq, ← h.length_eq]
      split
      · exact (ih rest.length (by omega) hrest rfl).map fun hs => ⟨.cons hvw hs.1, hs.2⟩
      · exact .ok ⟨.cons hvw .nil, hrest⟩

theorem listed (hstop : L.token stop stop') (h : L.Tokens ts us) :
    L.Results (L.Read (List.Forall₂ L.Values)) (listed item stop ts) (listed item' stop' us) := by
  induction hn : ts.length using Nat.strongRecOn generalizing ts us with
  | ind n ih =>
    rw [Grammar.listed, Grammar.listed]
    refine (hi hstop h).bind ?_
    rintro ⟨v, rest⟩ ⟨w, rest'⟩ ⟨hvw, hrest⟩
    cases hrest with
    | nil => exact .ok ⟨.cons hvw .nil, .nil⟩
    | @cons t u rest rest' ht hrest =>
      simp only [isDelim_eq ht, ← hrest.length_eq, ← h.length_eq]
      split
      · rename_i hlt
        simp only [Bool.and_eq_true, decide_eq_true_eq] at hlt
        exact (ih rest.length (by omega) hrest rfl).map fun hs => ⟨.cons hvw hs.1, hs.2⟩
      · exact .ok ⟨.cons hvw .nil, .cons ht hrest⟩

end Items

theorem collect {several : List Value → Value} {vs ws : List Value}
    (hseveral : ∀ {vs ws}, Value.LikeAll L.text vs ws → L.Values (several vs) (several ws))
    (h : List.Forall₂ L.Values vs ws) :
    L.Values (collect several vs) (collect several ws) := by
  cases h with
  | nil => exact hseveral .nil
  | cons hv hs =>
    cases hs with
    | nil => exact hv
    | cons hw hs => exact hseveral (.of_forall₂ (.cons hv (.cons hw hs)))

section Operand

variable {operand operand' : Rule Value} (ho : L.Rules L.Values operand operand')
include ho

theorem expression (divides : Bool) :
    L.Rules L.Values (expression operand divides) (expression operand' divides) := by
  have hitem : L.Rules L.Values
      (if divides then Grammar.comparison operand else Grammar.shorthand operand)
      (if divides then Grammar.comparison operand' else Grammar.shorthand operand') := by
    cases divides with
    | true => exact comparison ho
    | false => exact shorthand ho
  intro stop stop' ts us hstop h
  refine (items hitem hstop h).bind ?_
  rintro ⟨vs, rest⟩ ⟨ws, rest'⟩ ⟨hvs, hrest⟩
  cases hvs with
  | nil => exact .malformed _ (lineAt hstop hrest)
  | cons hv hs => exact .ok ⟨collect .expression (.cons hv hs), hrest⟩

theorem value (divides : Bool) :
    L.Rules L.Values (value operand divides) (value operand' divides) := by
  intro stop stop' ts us hstop h
  refine (listed (expression ho divides) hstop h).bind ?_
  rintro ⟨vs, rest⟩ ⟨ws, rest'⟩ ⟨hvs, hrest⟩
  exact .ok ⟨collect .expressionList hvs, hrest⟩

theorem functionArg : L.Rules L.Values (functionArg operand) (functionArg operand') := by
  intro stop stop' ts us hstop h
  have hplain := expression ho true hstop h
  cases h with
  | nil => exact hplain
  | @cons t t' ts us ht hts =>
    cases hts with
    | nil => exact hplain
    | @cons u u' ts us hu hts =>
      simp only [Grammar.functionArg, L.lexeme_eq ht, isDelim_eq hu, startsWithDelim_eq hts]
      split
      · split
        · refine (expression ho true hstop hts).bind ?_
          rintro ⟨v, rest⟩ ⟨w, rest'⟩ ⟨hvw, hrest⟩
          exact .ok ⟨.assignment hvw, hrest⟩
        · exact hplain
      · exact hplain

theorem functionArgs (hstop : L.token stop stop') (h : L.Tokens ts us) :
    L.Results (List.Forall₂ L.Values) (functionArgs operand stop ts)
      (functionArgs operand' stop' us) := by
  rw [Grammar.functionArgs, Grammar.functionArgs, isEmpty_eq h]
  split
  · exact .ok .nil
  · exact (pieces ',' hstop h).bind (eachPiece (whole (functionArg ho)))

end Operand

theorem opensCall_eq (h : L.Tokens ts us) : opensCall ts = opensCall us := by
  cases h with
  | nil => rfl
  | cons ht _ => simp only [opensCall, isDelim_eq ht, L.spaced_eq ht]

section Levels

variable {d e : Deeper (Rule Value)} (hd : L.Behind (L.Rules L.Values) d e)
include hd

theorem callFrom (o : Opening) (name : String) (ht : L.token t u) (h : L.Tokens ts us) :
    L.Results (L.Read L.Values) (callFrom d o name t ts) (callFrom e o name u us) := by
  refine (enclosed ht '(' h).bind ?_
  rintro ⟨inner, close, after⟩ ⟨inner', close', after'⟩ ⟨hinner, hclose, hafter⟩
  refine (enter hd _ (L.line_of ht)).bind fun ho => ?_
  exact (functionArgs ho hclose hinner).bind fun hargs =>
    .ok ⟨.call (.of_forall₂ hargs), hafter⟩

theorem primary : L.Rules L.Values (primary d) (primary e) := by
  intro stop stop' ts us hstop h
  have hfault := unexpectedAt (R := L.Read L.Values) hstop h
  cases h with
  | nil => exact hfault
  | @cons t u ts us ht hts =>
    have hread (v : Value) : L.Results (L.Read L.Values) (.ok (v, ts)) (.ok (v, us)) :=
      .ok ⟨.same v, hts⟩
    have hopens := opensCall_eq hts
    simp only [Grammar.primary, L.lexeme_eq ht]
    split
    · exact hread _
    · exact hread _
    · exact hread _
    · exact hread _
    · exact hread _
    · exact hread _
    · exact hread _
    · cases hts with
      | nil => exact hread _
      | cons hp hafter =>
        simp only [hopens]
        split
        · exact callFrom hd _ _ hp hafter
        · exact hread _
    · refine (enclosed ht '(' hts).bind ?_
      rintro ⟨inner, close, after⟩ ⟨inner', close', after'⟩ ⟨hinner, hclose, hafter⟩
      refine (enter hd _ (L.line_of ht)).bind fun ho => ?_
      exact (whole (value ho true) hclose hinner).bind fun hv => .ok ⟨.paren hv, hafter⟩
    · cases hts with
      | nil => exact hfault
      | @cons p q after after' hp hafter =>
        obtain ⟨lexeme, gap, text, line, start⟩ := p
        obtain ⟨lexeme', gap', text', line', start'⟩ := q
        obtain rfl : lexeme = lexeme' := L.lexeme_eq hp
        cases lexeme with
        | quoted s quote => exact .ok ⟨.same _, hafter⟩
        | _ => exact hfault
    · cases hts with
      | nil => exact hfault
      | cons hp hafter =>
        simp only [hopens]
        split
        · exact callFrom hd _ _ hp hafter
        · exact hfault
    · rename_i hopener
      refine (enclosed ht '[' hts).bind ?_
      rintro ⟨inner, close, after⟩ ⟨inner', close', after'⟩ ⟨hinner, hclose, hafter⟩
      have htext : L.Tokens (t :: inner ++ [close]) (u :: inner' ++ [close']) :=
        List.rel_append (.cons ht hinner) (.cons hclose .nil)
      have hspans : Excerpt.brackets.Spans (t :: inner ++ [close]) := by
        simp [Excerpt.Spans, startsWithDelim, Token.isDelim, L.lexeme_eq ht, hopener]
      exact .ok ⟨.brackets (L.text_of hspans htext), hafter⟩
    · exact hfault

theorem signed : L.Rules L.Values (signed d) (signed e) := by
  intro stop stop' ts us hstop h
  have hplain := primary hd hstop h
  cases h with
  | nil => exact hplain
  | cons ht hts =>
    have hline := lineAt hstop hts
    simp only [Grammar.signed, isDelim_eq ht]
    split
    · refine (enter hd _ hline).bind fun ho => ?_
      refine (ho hstop hts).bind ?_
      rintro ⟨v, rest⟩ ⟨w, rest'⟩ ⟨hvw, hrest⟩
      exact .ok ⟨.negative hvw, hrest⟩
    · split
      · exact (enter hd _ hline).bind fun ho => ho hstop hts
      · exact hplain

end Levels

theorem operand {d e : Room} (h : L.Rooms d e) : L.Rules L.Values (operand d) (operand e) := by
  induction d using Room.induction generalizing e with
  | step d ih =>
    rw [operand_eq, operand_eq]
    exact signed (h.below fun o inner _ hinner => ih o inner hinner)

theorem below {d e : Room} (h : L.Rooms d e) :
    L.Behind (L.Rules L.Values) (d.below Grammar.operand) (e.below Grammar.operand) :=
  h.below fun _ _ _ _ hrooms => operand hrooms

section Guards

theorem wordJoin (word : String) (op : Operator) :
    L.Joins L.Values (wordJoin word op) (wordJoin word op) := by
  intro stop stop' ts us _ h
  cases h with
  | nil => exact .none
  | cons ht hts =>
    simp only [Grammar.wordJoin, isWord_eq ht]
    split
    · exact .some ⟨.operation, hts⟩
    · exact .none

variable {o o' : Rule Value} (ho : L.Rules L.Values o o')
include ho

section Tests

variable {d e : Deeper (Rule Value)} (hd : L.Behind (L.Rules L.Values) d e)
include hd

theorem plainTest (negated : Bool) :
    L.Rules L.Values (plainTest o d negated) (plainTest o' e negated) := by
  intro stop stop' ts us hstop h
  have hcomparison : L.Results (L.Read L.Values)
      (Grammar.plainTest.comparisonTest o negated stop ts)
      (Grammar.plainTest.comparisonTest o' negated stop' us) := by
    refine (comparison ho hstop h).bind ?_
    rintro ⟨v, rest⟩ ⟨w, rest'⟩ ⟨hvw, hrest⟩
    exact .ok ⟨.condition hvw, hrest⟩
  cases h with
  | nil => exact hcomparison
  | cons ht hts =>
    simp only [Grammar.plainTest, isDelim_eq ht]
    split
    · refine (enclosed ht '(' hts).bind ?_
      rintro ⟨inner, close, after⟩ ⟨inner', close', after'⟩ ⟨hinner, hclose, hafter⟩
      refine (enter hd _ (L.line_of ht)).bind fun htest => ?_
      exact (whole htest hclose hinner).bind fun hv => .ok ⟨.condition hv, hafter⟩
    · exact hcomparison

theorem test : L.Rules L.Values (test o d) (test o' e) := by
  intro stop stop' ts us hstop h
  have hplain := plainTest ho hd false hstop h
  cases h with
  | nil => exact hplain
  | cons ht hts =>
    simp only [Grammar.test, isWord_eq ht]
    split
    · exact plainTest ho hd true hstop hts
    · exact hplain

theorem alternatives : L.Rules L.Values (alternatives o d) (alternatives o' e) :=
  chained (wordJoin "or" .either) (chained (wordJoin "and" .both) (test ho hd))

end Tests

theorem enclosedTest {nested nested' : Rule Value} (hn : L.Rules L.Values nested nested') :
    L.Rules L.Values (enclosedTest o nested) (enclosedTest o' nested') := by
  intro stop stop' ts us hstop h
  have hnested := hn hstop h
  have hplain := comparison ho hstop h
  cases h with
  | nil => exact hplain
  | cons ht hts =>
    simp only [Grammar.enclosedTest, isWord_eq ht, isDelim_eq ht]
    split
    · exact hnested
    · split
      · refine (enclosed ht '(' hts).bind ?_
        rintro ⟨inner, close, after⟩ ⟨inner', close', after'⟩ ⟨_, _, hafter⟩
        simp only [isEmpty_eq hafter, startsWithWord_eq hafter]
        split
        · exact hnested
        · exact hplain
      · exact hplain

end Guards

theorem tests {d e : Room} (h : L.Rooms d e) : L.Rules L.Values (tests d) (tests e) := by
  induction d using Room.induction generalizing e with
  | step d ih =>
    rw [tests_eq, tests_eq]
    refine alternatives (operand h) (h.below fun o inner inner' hinner hrooms => ?_)
    exact enclosedTest (operand hrooms) (ih o inner hinner hrooms)

theorem guard {d e : Room} (hd : L.Rooms d e) (hstop : L.token stop stop') (h : L.Tokens ts us) :
    L.Results (List.Forall₂ L.Values) (guard d stop ts) (guard e stop' us) := by
  rw [Grammar.guard, Grammar.guard, isEmpty_eq h]
  split
  · exact .malformed _ (L.line_of hstop)
  · exact (pieces ',' hstop h).bind (eachPiece (whole (tests hd)))

section Media

theorem bareNumber?_eq (h : L.token t u) : bareNumber? t = bareNumber? u := by
  simp only [bareNumber?, L.lexeme_eq h]

theorem ratio?_eq (h : L.Tokens ts us) : ratio? ts = ratio? us := by
  match h with
  | .nil | .cons _ .nil | .cons _ (.cons _ .nil) | .cons _ (.cons _ (.cons _ (.cons _ _))) => rfl
  | .cons ht (.cons hu (.cons hv .nil)) =>
    simp only [ratio?, bareNumber?_eq ht, isDelim_eq hu, bareNumber?_eq hv]

section Operand

variable {o o' : Rule Value} (ho : L.Rules L.Values o o')
include ho

theorem featureValue : L.Rules L.Values (featureValue o) (featureValue o') := by
  intro stop stop' ts us hstop h
  rw [Grammar.featureValue, Grammar.featureValue, ratio?_eq h]
  split
  · exact .ok ⟨.same _, .nil⟩
  · exact value ho false hstop h

theorem featureBody : L.Rules L.Values (featureBody o) (featureBody o') := by
  intro stop stop' ts us hstop h
  have hother : L.Results (L.Read L.Values)
      (Grammar.value o false stop ts >>= fun p => pure (.paren p.1, p.2))
      (Grammar.value o' false stop' us >>= fun p => pure (.paren p.1, p.2)) := by
    refine (value ho false hstop h).bind ?_
    rintro ⟨v, rest⟩ ⟨w, rest'⟩ ⟨hvw, hrest⟩
    exact .ok ⟨.paren hvw, hrest⟩
  cases h with
  | nil => exact hother
  | @cons t u ts us ht hts =>
    simp only [Grammar.featureBody, L.lexeme_eq ht, startsWithDelim_eq hts, isEmpty_eq hts]
    split
    · split
      · cases hts with
        | nil => exact .malformed _ (L.line_of hstop)
        | cons hu hts =>
          cases hts with
          | nil => exact .malformed _ (L.line_of hstop)
          | cons hv hts =>
            refine (featureValue ho hstop (.cons hv hts)).bind ?_
            rintro ⟨v, rest⟩ ⟨w, rest'⟩ ⟨hvw, hrest⟩
            exact .ok ⟨.feature hvw, hrest⟩
      · split
        · exact .ok ⟨.same _, .nil⟩
        · exact hother
    · exact hother

end Operand

variable {d e : Room} (hd : L.Rooms d e)
include hd

theorem feature (ht : L.token t u) (h : L.Tokens ts us) :
    L.Results (L.Read L.Values) (feature d t ts) (feature e u us) := by
  refine (enclosed ht '(' h).bind ?_
  rintro ⟨inner, close, after⟩ ⟨inner', close', after'⟩ ⟨hinner, hclose, hafter⟩
  refine (enter (below hd) _ (L.line_of ht)).bind fun ho => ?_
  exact (whole (featureBody ho) hclose hinner).bind fun hv => .ok ⟨hv, hafter⟩

theorem mediaItem : L.Rules L.Values (mediaItem d) (mediaItem e) := by
  intro stop stop' ts us hstop h
  have hprimary := primary (below hd) hstop h
  cases h with
  | nil => exact hprimary
  | @cons t u ts us ht hts =>
    simp only [Grammar.mediaItem, L.lexeme_eq ht, startsWithDelim_eq hts]
    split
    · exact feature hd ht hts
    · split
      · exact hprimary
      · exact .ok ⟨.same _, hts⟩
    · exact hprimary

theorem mediaItems (hstop : L.token stop stop') (h : L.Tokens ts us) :
    L.Results (List.Forall₂ L.Values) (mediaItems d stop ts) (mediaItems e stop' us) := by
  induction hn : ts.length using Nat.strongRecOn generalizing ts us with
  | ind n ih =>
    cases h with
    | nil =>
      rw [Grammar.mediaItems, Grammar.mediaItems]
      exact .ok .nil
    | cons ht hts =>
      rw [Grammar.mediaItems, Grammar.mediaItems]
      refine (mediaItem hd hstop (.cons ht hts)).bind ?_
      rintro ⟨v, rest⟩ ⟨w, rest'⟩ ⟨hvw, hrest⟩
      simp only [← hrest.length_eq, ← hts.length_eq]
      split
      · simp only [List.length_cons] at hn
        exact (ih rest.length (by omega) hrest rfl).map fun hs => .cons hvw hs
      · exact .ok (.cons hvw .nil)

theorem mediaQuery (hstop : L.token stop stop') (h : L.Tokens ts us) :
    L.Results L.Values (mediaQuery d stop ts) (mediaQuery e stop' us) := by
  refine (mediaItems hd hstop h).bind fun hs => ?_
  cases hs with
  | nil => exact .malformed _ (L.line_of hstop)
  | cons hv hs => exact .ok (collect .expression (.cons hv hs))

theorem mediaQueries (hstop : L.token stop stop') (h : L.Tokens ts us) :
    L.Results (List.Forall₂ L.Values) (mediaQueries d stop ts) (mediaQueries e stop' us) :=
  (pieces ',' hstop h).bind (eachPiece (mediaQuery hd))

end Media

end StyleTally.Stylesheet.Likeness
