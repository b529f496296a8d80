import StyleTally.Proofs.Excerpt.Value
import StyleTally.Proofs.Shape.Selector

/-!
# The keys of selectors and calls

The elements of a selector are called by the name of one token, with a sign in front of it at most,
but for pseudo-classes, which are cut out with their arguments. The operator of an attribute test is
cut out as well.
-/

namespace StyleTally.Stylesheet.Grammar

variable {all ts : List Token}

section Selectors

theorem fits_pseudo {us rest : List Token} (hus : startsWithDelim ':' us)
    (h : Within all (us ++ rest)) : Part.Fit all (.text (textOf us)) :=
  .inr ⟨.pseudo, us, rfl, hus, h.of_append_left, rfl⟩

theorem startsWithDelim_append {c : Char} {us : List Token} (h : startsWithDelim c us)
    (vs : List Token) : startsWithDelim c (us ++ vs) := by
  cases us with
  | nil => cases h
  | cons u us => exact h

theorem pseudo_within {colons : List Token} (hcolons : startsWithDelim ':' colons) (stop : Token)
    (h : Within all (colons ++ ts)) :
    Yields (fun (p, rest) => p.Fit all ∧ Within all rest) (pseudo colons stop ts) := by
  unfold pseudo
  split
  · trivial
  · rename_i t rest
    have hname : Yields (fun (p, rest) => Part.Fit all p ∧ Within all rest)
        (.ok (.text (textOf (colons ++ [t])), rest)) := by
      have happend : colons ++ t :: rest = colons ++ [t] ++ rest := by simp
      rw [happend] at h
      exact ⟨fits_pseudo (startsWithDelim_append hcolons _) h, h.of_append_right⟩
    split
    · trivial
    · split
      · rename_i p rest'
        split
        · refine (enclosed_within p '(' h.of_append_right.tail.tail).bind ?_
          rintro ⟨inner, close, after⟩ ⟨rfl, -, hafter⟩
          have happend : colons ++ t :: p :: (inner ++ close :: after) =
              colons ++ t :: p :: inner ++ [close] ++ after := by simp
          rw [happend] at h
          refine ⟨fits_pseudo ?_ h, hafter⟩
          rw [List.append_assoc]
          exact startsWithDelim_append hcolons _
        · exact hname
      · exact hname

section Attributes

variable (hall : ∀ t ∈ all, t.lexeme.OneLine)
include hall

theorem attributeName?_fit {t : Token} (ht : t ∈ all) {v : Value} (h : attributeName? t = some v) :
    v.Fit all := by
  have hline := hall t ht
  unfold attributeName? at h
  split at h
  · rename_i hl
    cases h
    rw [hl] at hline
    exact .keyword (.inl hline)
  · rename_i hl
    cases h
    rw [hl] at hline
    exact .var hline
  · cases h

theorem attributeValue?_fit {t : Token} (ht : t ∈ all) {v : Value}
    (h : attributeValue? t = some v) : v.Fit all := by
  have hline := hall t ht
  unfold attributeValue? at h
  split at h
  · cases h
    exact .quoted _ _ _
  · rename_i hl
    cases h
    rw [hl] at hline
    exact .keyword (.inl hline)
  · rename_i hl
    cases h
    rw [hl] at hline
    exact .var hline
  · rename_i hl
    cases h
    rw [hl] at hline
    exact .dimension _ hline.2
  · cases h

theorem attributeTest_draws : Draws all (fun vs => ∀ v ∈ vs, v.Fit all) attributeTest := by
  intro stop ts h
  cases ts with
  | nil => trivial
  | cons t rest =>
    simp only [attributeTest]
    split
    · trivial
    · rename_i name hname
      have hname : name.Fit all := attributeName?_fit hall h.mem hname
      split
      · exact ⟨by simpa using hname, List.nil_infix⟩
      · split
        · trivial
        · have hrest := h.tail.drop (rest.takeWhile isAttributeSign).length
          split
          · trivial
          · rename_i u after hafter
            rw [hafter] at hrest
            split
            · trivial
            · rename_i v hv
              have hv : v.Fit all := attributeValue?_fit hall hrest.mem hv
              have hsigns : Mark.Fits all
                  ⟨.keywords, textOf (rest.takeWhile isAttributeSign)⟩ :=
                .inr ⟨.signs, _, rfl, List.all_eq_true.mp List.all_takeWhile,
                  (List.takeWhile_prefix _).isInfix.trans h.tail, rfl⟩
              refine ⟨by simpa using ⟨hname, .keyword hsigns, hv⟩, ?_⟩
              split
              · exact hrest.tail.drop 1
              · exact hrest.tail

theorem marked?_fit {sign : Token} {rest : List Token} {p : Part} (h : Within all ts)
    (hmarked : marked? sign ts = some (p, rest)) : p.Fit all ∧ Within all rest := by
  unfold marked? at hmarked
  split at hmarked
  · cases hmarked
  · split at hmarked
    · cases hmarked
    · split at hmarked
      · rename_i hl
        cases hmarked
        have hline : '\n' ∉ _ := h.oneLine hall hl
        exact ⟨.inl (by simpa using hline), h.tail⟩
      · rename_i hl
        cases hmarked
        exact ⟨.var (h.oneLine hall hl), h.tail⟩
      · rename_i hl
        cases hmarked
        exact ⟨.var (h.oneLine hall hl), h.tail⟩
      · cases hmarked

theorem part_within (stop t : Token) (h : Within all (t :: ts)) :
    Yields (fun (p, rest) => p.Fit all ∧ Within all rest) (part stop t ts) := by
  unfold part
  split
  · exact marked?_fit hall h.tail ‹_›
  · split
    · rename_i hl
      exact ⟨.inl (h.oneLine hall hl), h.tail⟩
    · rename_i hl
      exact ⟨.inl (h.oneLine hall hl), h.tail⟩
    · rename_i hl
      exact ⟨.inl (h.oneLine hall hl).1, h.tail⟩
    · exact ⟨.inl (by decide), h.tail⟩
    · exact ⟨.inl (by decide), h.tail⟩
    · rename_i hl
      exact ⟨.var (h.oneLine hall hl), h.tail⟩
    · rename_i hl
      have hcolons (us : List Token) : startsWithDelim ':' (t :: us) := by
        simp [startsWithDelim, Token.isDelim, hl]
      split
      · split
        · exact pseudo_within (hcolons [_]) stop h
        · exact pseudo_within (hcolons []) stop h
      · exact pseudo_within (hcolons []) stop h
    · refine (enclosed_within t '[' h.tail).bind ?_
      rintro ⟨inner, close, after⟩ ⟨-, hinner, hafter⟩
      exact ((attributeTest_draws hall).whole close inner hinner).bind fun hparts => ⟨hparts, hafter⟩
    · split
      · exact ⟨.quoted _ _ _, h.tail.tail⟩
      · trivial
    · trivial

theorem elementsFrom_within (pending : Option Char) (first : Bool) (stop : Token)
    (h : Within all ts) :
    Yields (fun es => ∀ e ∈ es, Element.Fit all e) (elementsFrom pending first stop ts) := by
  induction hn : ts.length using Nat.strongRecOn generalizing pending first ts with
  | ind n ih =>
    cases ts with
    | nil =>
      rw [elementsFrom]
      simp [Yields]
    | cons t rest =>
      rw [elementsFrom]
      simp only [List.length_cons] at hn
      split
      · exact ih _ (by omega) _ _ h.tail rfl
      · refine (part_within hall stop t h).bind ?_
        rintro ⟨p, after⟩ ⟨hp, hafter⟩
        simp only
        by_cases hlength : after.length ≤ rest.length
        · rw [if_pos hlength]
          refine (ih _ (by omega) _ _ hafter rfl).map fun {es} hes => ?_
          exact List.forall_mem_cons.mpr ⟨hp, hes⟩
        · rw [if_neg hlength]
          exact List.forall_mem_cons.mpr ⟨hp, by simp⟩

theorem selector_within (stop : Token) (ts : List Token) (h : Within all ts) :
    Yields (fun s => ∀ e ∈ s, Element.Fit all e) (selector stop ts) := by
  refine (elementsFrom_within hall none true stop h).bind fun {es} hes => ?_
  cases es with
  | nil => trivial
  | cons e es => exact hes

theorem selectors_within (stop : Token) (h : Within all ts) :
    Yields (fun ss => ∀ s ∈ ss, ∀ e ∈ s, Element.Fit all e) (selectors stop ts) := by
  rw [selectors]
  split
  · trivial
  · exact pieces_eachPiece_within (selector_within hall) ',' stop h

end Attributes

end Selectors

section Mixins

theorem named?_suffix {rest : List Token} {name : String} (h : named? ts = some (name, rest)) :
    rest <:+ ts := by
  unfold named? at h
  split at h
  · split at h
    · split at h
      · cases h
        exact List.suffix_append [_, _] rest
      · cases h
    · cases h
  · cases h

theorem bareParameter?_fit {rest : List Token} {p : Parameter}
    (h : bareParameter? ts = some (p, rest)) : p.Fit all ∧ rest <:+ ts := by
  have hbare {p : Parameter} (hp : p.value = none) : p.Fit all := by
    intro v hv
    rw [hp] at hv
    cases hv
  unfold bareParameter? at h
  split at h
  · cases h
  · split at h <;> cases h <;> exact ⟨hbare rfl, List.nil_suffix⟩
  · split at h <;> cases h
    · exact ⟨hbare rfl, List.suffix_cons _ _⟩
    · exact ⟨hbare rfl, List.suffix_append [_, _] _⟩

variable {operand : Rule Value} (ho : Draws all (Value.Fit all) operand)
include ho

theorem parameter_draws : Draws all (Parameter.Fit all) (parameter operand) := by
  have hvalue (name : Option String) (stop : Token) {ts : List Token} (h : Within all ts) :
      Yields (fun p => Parameter.Fit all p.1 ∧ Within all p.2)
        (value operand false stop ts >>= fun p => pure (⟨name, some p.1, false⟩, p.2)) := by
    refine (value_draws ho false stop ts h).bind ?_
    rintro ⟨v, rest⟩ ⟨hv, hrest⟩
    exact ⟨by simpa [Parameter.Fit] using hv, hrest⟩
  intro stop ts h
  unfold parameter
  split
  · exact hvalue _ stop (h.suffix (named?_suffix ‹_›))
  · split
    · rename_i hbare
      obtain ⟨hp, hrest⟩ := bareParameter?_fit hbare
      exact ⟨hp, h.suffix hrest⟩
    · exact hvalue none stop h

theorem argument_draws : Draws all (fun a => Value.Fit all a.value) (argument operand) := by
  intro stop ts h
  unfold argument
  split
  · refine (value_draws ho false stop _ (h.suffix (named?_suffix ‹_›))).bind ?_
    rintro ⟨v, rest⟩ ⟨hv, hrest⟩
    exact ⟨hv, hrest⟩
  · refine (value_draws ho false stop ts h).bind ?_
    rintro ⟨v, rest⟩ ⟨hv, hrest⟩
    exact ⟨hv, hrest⟩

omit ho in
theorem filledPieces_within (delimiter : Char) (stop : Token) (h : Within all ts) :
    Yields (fun ps => ∀ p ∈ ps, Within all p.1) (filledPieces delimiter stop ts) :=
  (pieces_within delimiter stop h).map fun hps p hp => hps p (List.mem_of_mem_filter hp)

theorem parameters_within (stop : Token) (h : Within all ts) :
    Yields (fun ps => ∀ p ∈ ps, p.Fit all) (parameters operand stop ts) := by
  rw [parameters]
  split
  · simp [Yields]
  · exact (filledPieces_within _ stop h).bind fun hps =>
      eachPiece_within (parameter_draws ho).whole hps

theorem arguments_within (stop : Token) (h : Within all ts) :
    Yields (Arguments.Fit all) (arguments operand stop ts) := by
  rw [arguments]
  split
  · simp [Yields, Arguments.Fit]
  · refine Yields.bind (P := fun items : List Argument => ∀ i ∈ items, i.value.Fit all) ?_
      fun hitems => hitems
    exact (filledPieces_within _ stop h).bind fun hps =>
      eachPiece_within (argument_draws ho).whole hps

end Mixins

section Calls

variable (hall : ∀ t ∈ all, t.lexeme.OneLine)
include hall

theorem argumentsFrom_within (room : Room) (bracket : Token) (h : Within all ts) :
    Yields (fun (a, rest) => a.Fit all ∧ Within all rest) (argumentsFrom room bracket ts) := by
  refine (enclosed_within bracket '(' h).bind ?_
  rintro ⟨inner, close, after⟩ ⟨-, hinner, hafter⟩
  refine (enter_yields (below_draws hall room) _ bracket.line).bind fun {operand} ho => ?_
  exact (arguments_within ho close hinner).bind fun ha => ⟨ha, hafter⟩

theorem callArguments_within (room : Room) (h : Within all ts) :
    Yields (fun (a?, rest) => (∀ a ∈ a?, Arguments.Fit all a) ∧ Within all rest)
      (callArguments room ts) := by
  cases ts with
  | nil => exact ⟨by simp, h⟩
  | cons t rest =>
    simp only [callArguments]
    split
    · refine (argumentsFrom_within hall room t h.tail).map ?_
      rintro ⟨a, after⟩ ⟨ha, hafter⟩
      exact ⟨by simpa using ha, hafter⟩
    · exact ⟨by simp, h⟩

theorem mixinName?_oneLine {rest : List Token} {name : String} (h : Within all ts)
    (hname : mixinName? ts = some (name, rest)) : '\n' ∉ name.toList := by
  cases ts with
  | nil => cases hname
  | cons t ts =>
    simp only [mixinName?] at hname
    split at hname
    · rename_i hl
      cases hname
      exact h.oneLine hall hl
    · split at hname
      · unfold className? at hname
        split at hname
        · cases hname
        · split at hname
          · rename_i hl
            split at hname
            · cases hname
            · cases hname
              have hline : '\n' ∉ _ := h.tail.oneLine hall hl
              simpa using hline
          · cases hname
      · cases hname
    · cases hname

theorem callPath_within (pending : Option Char) (first : Bool) (h : Within all ts) :
    Yields (fun (path, rest) => (∀ e ∈ path, Element.Fit all e) ∧ Within all rest)
      (callPath pending first ts) := by
  induction hn : ts.length using Nat.strongRecOn generalizing pending first ts with
  | ind n ih =>
    rw [callPath.eq_def]
    split
    · exact ⟨by simp, h⟩
    · rename_i t rest
      simp only [List.length_cons] at hn
      split
      · exact ⟨by simp, h⟩
      · split
        · exact ih _ (by omega) _ _ h.tail rfl
        · split
          · trivial
          · rename_i name after hname
            have hlength := length_mixinName? hname
            simp only [List.length_cons] at hlength
            have hafter : Within all after :=
              h.tail.suffix (mixinName?_consumed hname).suffix
            refine (ih _ (by omega) _ _ hafter rfl).map ?_
            rintro ⟨path, rest⟩ ⟨hpath, hrest⟩
            have helement : Part.Fit all (.text name) := .inl (mixinName?_oneLine hall h hname)
            exact ⟨List.forall_mem_cons.mpr ⟨helement, hpath⟩, hrest⟩

end Calls

end StyleTally.Stylesheet.Grammar
