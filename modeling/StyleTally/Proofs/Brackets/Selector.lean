import StyleTally.Proofs.Brackets.Value
import StyleTally.Stylesheet.Grammar.Mixin

/-!
# Brackets of selectors and calls

The rules for selectors read legible tokens, and so do those for the parameters, the arguments and
the calls of mixins. In a selector only the argument of a pseudo-class is passed over; the tests of
an attribute hold no further brackets.
-/

namespace StyleTally.Stylesheet.Grammar

section Selectors

/-- Legible tokens were read from `t` on, itself included. -/
def ReadBehind (t : Token) (ts rest : List Token) : Prop :=
  ∃ used, ts = used ++ rest ∧ Legible true (t :: used)

variable {t : Token} {ts rest : List Token}

theorem ReadBehind.refl (ht : t.isBracket = false) : ReadBehind t ts ts := ⟨[], rfl, .single ht⟩

theorem pseudo_readBehind {colon : Token} (hcolon : colon.isDelim ':' = true)
    (colons : List Token) (stop : Token) (ts : List Token) :
    Yields (fun (_, rest) => ReadBehind colon ts rest) (pseudo colons stop ts) := by
  have hplain : colon.isBracket = false := Token.isBracket_of_isDelim hcolon rfl
  unfold pseudo
  split
  · trivial
  · rename_i name rest
    by_cases hname : namesPseudo name = true
    · have halone : ReadBehind colon (name :: rest) rest :=
        ⟨[name], rfl, .cons hplain (.single (Token.isBracket_of_namesPseudo hname))⟩
      simp only [hname, Bool.not_true, Bool.false_eq_true, if_false]
      split
      · split
        · rename_i p rest' hcall
          refine (enclosed_counts p '(' rest').bind ?_
          rintro ⟨inner, close, after⟩ ⟨rfl, hclose, hcount⟩
          exact ⟨name :: p :: inner ++ [close], by simp,
            .pseudo hcolon hname (opensCall_cons hcall).1 hclose hcount⟩
        · exact halone
      · exact halone
    · simp [hname, Yields]

theorem isBracket_of_attributeName? {v : Value} (h : attributeName? t = some v) :
    t.isBracket = false := by
  unfold attributeName? at h
  split at h
  · exact Token.isBracket_of_lexeme ‹_› rfl
  · exact Token.isBracket_of_lexeme ‹_› rfl
  · cases h

theorem isBracket_of_attributeValue? {v : Value} (h : attributeValue? t = some v) :
    t.isBracket = false := by
  unfold attributeValue? at h
  split at h
  · exact Token.isBracket_of_lexeme ‹_› rfl
  · exact Token.isBracket_of_lexeme ‹_› rfl
  · exact Token.isBracket_of_lexeme ‹_› rfl
  · exact Token.isBracket_of_lexeme ‹_› rfl
  · cases h

theorem isBracket_of_isAttributeSign (h : isAttributeSign t = true) : t.isBracket = false := by
  unfold isAttributeSign at h
  split at h
  · rename_i c hc
    refine Token.isBracket_of_lexeme hc ?_
    simp only [List.contains_eq_mem, decide_eq_true_eq, List.mem_cons, List.not_mem_nil,
      or_false] at h
    rcases h with rfl | rfl | rfl | rfl | rfl | rfl <;> rfl
  · cases h

theorem attributeSigns_readOff (ts : List Token) :
    ReadOff true ts (ts.drop (ts.takeWhile isAttributeSign).length) := by
  induction ts with
  | nil => exact .refl []
  | cons t ts ih =>
    by_cases ht : isAttributeSign t = true
    · simp only [List.takeWhile_cons, ht, if_true, List.length_cons, List.drop_succ_cons]
      exact .cons (isBracket_of_isAttributeSign ht) ih
    · simp only [List.takeWhile_cons, ht]
      exact .refl _

theorem attributeTest_readOff (stop : Token) (ts : List Token) :
    Yields (fun (_, rest) => ReadOff true ts rest) (attributeTest stop ts) := by
  cases ts with
  | nil => trivial
  | cons t rest =>
    have hsigns := attributeSigns_readOff rest
    simp only [attributeTest]
    split
    · trivial
    · rename_i name hname
      have hname := isBracket_of_attributeName? hname
      split
      · rename_i hempty
        obtain rfl : rest = [] := List.isEmpty_iff.mp hempty
        exact .single hname
      · split
        · trivial
        · split
          · trivial
          · rename_i u rest' hdrop
            split
            · trivial
            · rename_i v hv
              rw [hdrop] at hsigns
              have hread : ReadOff true (t :: rest) rest' :=
                .cons hname (hsigns.trans (.single (isBracket_of_attributeValue? hv)))
              by_cases hmark : (startsWithWord "i" rest' || startsWithWord "s" rest') = true
              · simp only [if_pos hmark]
                cases rest' with
                | nil => exact hread
                | cons w rest' =>
                  simp only [startsWithWord, Bool.or_eq_true] at hmark
                  have hw : w.isBracket = false :=
                    hmark.elim isBracket_of_isWord isBracket_of_isWord
                  exact hread.trans (.single hw)
              · simp only [if_neg hmark]
                exact hread

theorem marked?_readBehind {sign : Token} {p : Part} (h : marked? sign ts = some (p, rest)) :
    ReadBehind sign ts rest := by
  unfold marked? at h
  split at h
  · cases h
  · split at h
    · cases h
    · split at h
      · rename_i hsign ht
        cases h
        exact ⟨[_], rfl, .cons (Token.isBracket_of_lexeme hsign rfl)
          (.single (Token.isBracket_of_lexeme ht rfl))⟩
      · rename_i hsign ht
        cases h
        exact ⟨[_], rfl, .cons (Token.isBracket_of_lexeme hsign rfl)
          (.single (Token.isBracket_of_lexeme ht rfl))⟩
      · rename_i hsign ht
        cases h
        exact ⟨[_], rfl, .cons (Token.isBracket_of_lexeme hsign rfl)
          (.single (Token.isBracket_of_lexeme ht rfl))⟩
      · cases h

theorem part_readBehind (stop t : Token) (ts : List Token) :
    Yields (fun (_, rest) => ReadBehind t ts rest) (part stop t ts) := by
  unfold part
  split
  · exact marked?_readBehind ‹_›
  · split
    · exact .refl (Token.isBracket_of_lexeme ‹_› rfl)
    · exact .refl (Token.isBracket_of_lexeme ‹_› rfl)
    · exact .refl (Token.isBracket_of_lexeme ‹_› rfl)
    · exact .refl (Token.isBracket_of_lexeme ‹_› rfl)
    · exact .refl (Token.isBracket_of_lexeme ‹_› rfl)
    · exact .refl (Token.isBracket_of_lexeme ‹_› rfl)
    · rename_i ht
      have hcolon : t.isDelim ':' = true := by simp [Token.isDelim, ht]
      split
      · split
        · rename_i u rest' hunmarked hu
          simp only [Bool.and_eq_true] at hu
          refine (pseudo_readBehind hu.1 _ stop rest').mono ?_
          rintro ⟨p, after⟩ ⟨used, rfl, hused⟩
          exact ⟨u :: used, rfl, .cons (Token.isBracket_of_lexeme ht rfl) hused⟩
        · exact pseudo_readBehind hcolon _ stop _
      · exact pseudo_readBehind hcolon _ stop _
    · rename_i ht
      refine (enclosed_counts t '[' ts).bind ?_
      rintro ⟨inner, close, after⟩ ⟨rfl, hclose, -⟩
      refine (whole_legible (attributeTest_readOff close inner)).bind fun h => ?_
      exact ⟨inner ++ [close], by simp, .attributeTest (by simp [Token.isDelim, ht]) hclose h⟩
    · rename_i ht
      split
      · exact ⟨[_], rfl, .cons (Token.isBracket_of_lexeme ht rfl)
          (.single (Token.isBracket_of_lexeme rfl rfl))⟩
      · trivial
    · trivial

theorem isBracket_of_combinator? {c : Char} (h : combinator? t ts = some c) :
    t.isBracket = false := by
  unfold combinator? at h
  split at h
  · exact Token.isBracket_of_isDelim ‹_› rfl
  · split at h
    · exact Token.isBracket_of_isDelim ‹_› rfl
    · split at h
      · rename_i ht
        simp only [Bool.and_eq_true] at ht
        exact Token.isBracket_of_isDelim ht.1 rfl
      · cases h

theorem elementsFrom_legible (pending : Option Char) (first : Bool) (stop : Token)
    (ts : List Token) :
    Yields (fun _ => Legible true ts) (elementsFrom pending first stop ts) := by
  induction hn : ts.length using Nat.strongRecOn generalizing pending first ts with
  | ind n ih =>
    cases ts with
    | nil =>
      rw [elementsFrom]
      exact .nil
    | cons t rest =>
      rw [elementsFrom]
      simp only [List.length_cons] at hn
      split
      · rename_i c hc
        exact (ih _ (by omega) _ _ rest rfl).mono fun h => .cons (isBracket_of_combinator? hc) h
      · refine (part_readBehind stop t rest).bind ?_
        rintro ⟨p, after⟩ ⟨used, rfl, hused⟩
        have hlength : after.length ≤ (used ++ after).length := by simp
        simp only [if_pos hlength]
        exact (ih _ (by omega) _ _ after rfl).map fun h => hused.append h

theorem selectors_legible (stop : Token) (ts : List Token) :
    Yields (fun _ => Legible true ts) (selectors stop ts) := by
  rw [selectors]
  split
  · trivial
  · refine commaPieces_legible (fun stop ts => ?_) stop ts
    refine (elementsFrom_legible none true stop ts).bind fun {es} h => ?_
    cases es with
    | nil => trivial
    | cons e es => exact h

end Selectors

section Mixins

variable {operand : Rule Value} (ho : ReadsOff false operand)

theorem named?_readOff {name : String} {ts rest : List Token} (h : named? ts = some (name, rest)) :
    ReadOff false ts rest := by
  unfold named? at h
  split at h
  · split at h
    · rename_i ht
      split at h
      · rename_i hu
        cases h
        exact (ReadOff.of_lexeme ht rfl).trans (.single (Token.isBracket_of_isDelim hu rfl))
      · cases h
    · cases h
  · cases h

theorem bareParameter?_readOff {p : Parameter} {ts rest : List Token}
    (h : bareParameter? ts = some (p, rest)) : ReadOff false ts rest := by
  unfold bareParameter? at h
  split at h
  · cases h
  · split at h
    · cases h
      exact .of_lexeme ‹_› rfl
    · cases h
      exact .of_lexeme ‹_› rfl
    · cases h
  · split at h
    · cases h
      exact .of_lexeme ‹_› rfl
    · rename_i ht hu
      cases h
      exact (ReadOff.of_lexeme ht rfl).trans (.of_lexeme hu rfl)
    · cases h

theorem filledPieces_legible {delimiter : Char}
    (hd : ['(', ')', '[', ']', '{', '}'].contains delimiter = false) (stop : Token)
    (ts : List Token) :
    Yields (fun ps => (∀ p ∈ ps, Legible false p.1) → Legible false ts)
      (filledPieces delimiter stop ts) := by
  refine (pieces_legible hd stop ts).map fun {ps} hps h => hps fun p hp => ?_
  by_cases hempty : p.1 = []
  · rw [hempty]
    exact .nil
  · exact h p (List.mem_filter.mpr ⟨hp, by simpa using hempty⟩)

theorem delimiterOf_plain (ts : List Token) :
    ['(', ')', '[', ']', '{', '}'].contains (delimiterOf ts) = false := by
  rw [delimiterOf]
  split <;> decide

include ho

theorem parameter_readsOff : ReadsOff false (parameter operand) := by
  intro stop ts
  unfold parameter
  split
  · rename_i hnamed
    exact (value_readsOff ho false stop _).bind fun h => (named?_readOff hnamed).trans h
  · split
    · exact bareParameter?_readOff ‹_›
    · exact (value_readsOff ho false stop ts).bind fun h => h

theorem argument_readsOff : ReadsOff false (argument operand) := by
  intro stop ts
  unfold argument
  split
  · rename_i hnamed
    exact (value_readsOff ho false stop _).bind fun h => (named?_readOff hnamed).trans h
  · exact (value_readsOff ho false stop ts).bind fun h => h

theorem parameters_legible (stop : Token) (ts : List Token) :
    Yields (fun _ => Legible false ts) (parameters operand stop ts) := by
  rw [parameters]
  split
  · rename_i hempty
    obtain rfl : ts = [] := List.isEmpty_iff.mp hempty
    exact .nil
  · refine (filledPieces_legible (delimiterOf_plain ts) stop ts).bind fun hps => ?_
    exact eachPiece_legible (fun stop ts => whole_legible (parameter_readsOff ho stop ts)) hps

theorem arguments_legible (stop : Token) (ts : List Token) :
    Yields (fun _ => Legible false ts) (arguments operand stop ts) := by
  rw [arguments]
  split
  · rename_i hempty
    obtain rfl : ts = [] := List.isEmpty_iff.mp hempty
    exact .nil
  · refine Yields.bind (P := fun _ => Legible false ts) ?_ fun h => h
    refine (filledPieces_legible (delimiterOf_plain ts) stop ts).bind fun hps => ?_
    exact eachPiece_legible (fun stop ts => whole_legible (argument_readsOff ho stop ts)) hps

omit ho

theorem argumentsFrom_readOff (room : Room) {bracket : Token}
    (hbracket : bracket.isDelim '(' = true) (ts : List Token) :
    Yields (fun (_, rest) => ReadOff false (bracket :: ts) rest)
      (argumentsFrom room bracket ts) := by
  refine (enclosed_counts bracket '(' ts).bind ?_
  rintro ⟨inner, close, after⟩ ⟨rfl, hclose, -⟩
  refine (enter_yields (below_readsOff room) _ _).bind fun ho => ?_
  refine (arguments_legible ho close inner).bind fun h => ?_
  exact ⟨bracket :: inner ++ [close], by simp, .round hbracket hclose h⟩

theorem callArguments_readOff (room : Room) (ts : List Token) :
    Yields (fun (_, rest) => ReadOff false ts rest) (callArguments room ts) := by
  cases ts with
  | nil => exact .refl []
  | cons t rest =>
    simp only [callArguments]
    split
    · exact (argumentsFrom_readOff room ‹_› rest).map fun h => h
    · exact .refl _

end Mixins

section Calls

variable {ts rest : List Token} {name : String}

theorem className?_readOff (h : className? ts = some (name, rest)) : ReadOff false ts rest := by
  unfold className? at h
  split at h
  · cases h
  · split at h
    · split at h
      · cases h
      · cases h
        exact .of_lexeme ‹_› rfl
    · cases h

theorem mixinName?_readOff (h : mixinName? ts = some (name, rest)) : ReadOff false ts rest := by
  unfold mixinName? at h
  split at h
  · cases h
  · split at h
    · cases h
      exact .of_lexeme ‹_› rfl
    · rename_i c hc
      split at h
      · rename_i hpoint
        simp only [beq_iff_eq] at hpoint
        subst hpoint
        exact (ReadOff.of_lexeme hc rfl).trans (className?_readOff h)
      · cases h
    · cases h

theorem callPath_readOff (pending : Option Char) (first : Bool) (ts : List Token) :
    Yields (fun (_, rest) => ReadOff false ts rest) (callPath pending first ts) := by
  induction hn : ts.length using Nat.strongRecOn generalizing pending first ts with
  | ind n ih =>
    rw [callPath.eq_def]
    split
    · exact .refl []
    · rename_i t rest
      simp only [List.length_cons] at hn
      split
      · exact .refl _
      · split
        · rename_i hgreater
          refine (ih _ (by omega) _ _ rest rfl).mono fun h => ?_
          exact .cons (Token.isBracket_of_isDelim hgreater rfl) h
        · split
          · trivial
          · rename_i name after hname
            have hlength := length_mixinName? hname
            simp only [List.length_cons] at hlength
            exact (ih _ (by omega) _ _ after rfl).map fun h => (mixinName?_readOff hname).trans h

theorem dropImportant_readOff (ts : List Token) : ReadOff false ts (dropImportant ts).2 := by
  unfold dropImportant
  split
  · split
    · rename_i hmark
      simp only [Bool.and_eq_true] at hmark
      exact .cons (Token.isBracket_of_isDelim hmark.1 rfl) (.single (isBracket_of_isWord hmark.2))
    · exact .refl _
  · exact .refl _

theorem mixinCall_legible (room : Room) (stop : Token) (ts : List Token) :
    Yields (fun _ => Legible false ts) (mixinCall room stop ts) := by
  refine (callPath_readOff none true ts).bind ?_
  rintro ⟨path, rest⟩ hpath
  refine (callArguments_readOff room rest).bind ?_
  rintro ⟨args, after⟩ hargs
  have hmark := dropImportant_readOff after
  simp only
  generalize dropImportant after = p at hmark
  obtain ⟨important, last⟩ := p
  cases last with
  | cons t last => trivial
  | nil =>
    cases path with
    | nil => trivial
    | cons e path => exact ((hpath.trans hargs).trans hmark).legible

end Calls

end StyleTally.Stylesheet.Grammar
