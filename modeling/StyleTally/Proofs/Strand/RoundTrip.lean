import StyleTally.Proofs.Strand.Tokens

/-!
# The round trip of a strand

A ruleset whose selector is the text of a strand parses to the elements of the strand, with blanks
around its combinators or with none. Without blanks a plus sign must not make up a range of code
points; with blanks no type behind the first may be the word that opens a guard.
-/

namespace StyleTally.Stylesheet

open Formula (propertyWord wordToken)

section Members

variable {t : Token} {ts : List Token}

/-- A word, a hash or a sign of a strand. -/
def IsMember (t : Token) : Prop :=
  (∃ name, t.lexeme = .ident name) ∨ (∃ name, t.lexeme = .hash name) ∨
    ∃ c ∈ ['.', '>', '+', '~'], t.lexeme = .delim c

/-- A search for these stops goes past the signs of a strand. -/
def Apart (stops : List Char) : Prop := ∀ c ∈ ['.', '>', '+', '~'], c ∉ stops

instance (stops : List Char) : Decidable (Apart stops) :=
  List.decidableBAll (· ∉ stops) ['.', '>', '+', '~']

theorem IsMember.isDelim (h : IsMember t) {c : Char} (hc : c ∉ ['.', '>', '+', '~']) :
    t.isDelim c = false := by
  rw [Token.isDelim, beq_eq_false_iff_ne]
  rcases h with ⟨name, h⟩ | ⟨name, h⟩ | ⟨d, hd, h⟩
  · simp [h]
  · simp [h]
  · rw [h]
    rintro ⟨⟩
    exact hc hd

theorem IsMember.depthAfter? (h : IsMember t) {stops : List Char} (hstops : Apart stops) :
    depthAfter? stops 0 t = some 0 := by
  rcases h with ⟨name, h⟩ | ⟨name, h⟩ | ⟨d, hd, h⟩
  · rw [Stylesheet.depthAfter?, h]
  · rw [Stylesheet.depthAfter?, h]
  · have hnot := hstops d hd
    simp only [List.mem_cons, List.not_mem_nil, or_false] at hd
    rw [Stylesheet.depthAfter?, h]
    rcases hd with rfl | rfl | rfl | rfl <;> simp [hnot]

theorem IsMember.isSeal (h : IsMember t) : t.isSeal = false := by
  rw [Token.isSeal, h.isDelim (by decide), h.isDelim (by decide)]
  rfl

theorem IsMember.ne_atKeyword (h : IsMember t) (name : String) : t.lexeme ≠ .atKeyword name := by
  rcases h with ⟨_, h⟩ | ⟨_, h⟩ | ⟨_, -, h⟩ <;> simp [h]

theorem crosses_members (hts : ∀ t ∈ ts, IsMember t) {stops : List Char} (hstops : Apart stops) :
    Crosses stops 0 ts 0 := by
  induction ts with
  | nil => exact .nil
  | cons t ts ih =>
    obtain ⟨ht, hts⟩ := List.forall_mem_cons.mp hts
    exact .cons (ht.depthAfter? hstops) (ih hts)

theorem splitGuard_members (hts : ∀ t ∈ ts, IsMember t)
    (hwhen : ∀ t ∈ ts, (t.isWord "when" && t.spaced) = false) (rest : List Token) :
    Grammar.splitGuard 0 (ts ++ rest) =
      (Grammar.splitGuard 0 rest).map fun (before, w, after) => (ts ++ before, w, after) := by
  induction ts with
  | nil => simp
  | cons t ts ih =>
    obtain ⟨ht, hts⟩ := List.forall_mem_cons.mp hts
    obtain ⟨hword, hwhen⟩ := List.forall_mem_cons.mp hwhen
    simp [Grammar.splitGuard, ht.isDelim, hword, ih hts hwhen, Function.comp_def]

end Members

namespace Simple

variable {stop : Token}

theorem member_of_mem {spaced : Bool} {s : Simple} {t : Token} (h : t ∈ s.tokens spaced) :
    IsMember t := by
  cases s with
  | type name =>
    obtain rfl := List.mem_singleton.mp h
    exact .inl ⟨_, rfl⟩
  | classOf name =>
    rcases List.mem_pair.mp h with rfl | rfl
    · exact .inr (.inr ⟨'.', by decide, rfl⟩)
    · exact .inl ⟨_, rfl⟩
  | idOf name =>
    obtain rfl := List.mem_singleton.mp h
    exact .inr (.inl ⟨_, rfl⟩)

theorem elementsFrom_part (pending : Option Char) (first : Bool) {t : Token}
    {rest after : List Token} {p : Part} (hsign : Grammar.combinator? t rest = none)
    (hpart : Grammar.part stop t rest = .ok (p, after)) (hlength : after.length ≤ rest.length) :
    Grammar.elementsFrom pending first stop (t :: rest) =
      (Grammar.elementsFrom none false stop after).map
        (⟨p, pending.or (if !first && t.spaced then some ' ' else none)⟩ :: ·) := by
  rw [Grammar.elementsFrom, hsign]
  simp only [hpart, bind, Except.bind, if_pos hlength]

theorem spaced_glyph (spaced : Bool) (lexeme : Lexeme) (text : List Char) :
    (glyph spaced lexeme text).spaced = spaced := by
  cases spaced <;> rfl

theorem isQuoted_tokens (spaced : Bool) (s : Simple) (rest : List Token) :
    Grammar.isQuoted (s.tokens spaced ++ rest) = false := by
  cases s <;> rfl

/-- Only a sign marks the name behind it. -/
theorem marked?_eq_none {t : Token} (h : ∀ c, t.lexeme ≠ .delim c) (rest : List Token) :
    Grammar.marked? t rest = none := by
  cases rest with
  | nil => rfl
  | cons u rest =>
    cases hlexeme : t.lexeme with
    | delim c => exact absurd hlexeme (h c)
    | _ => simp [Grammar.marked?, hlexeme]

/-- A simple selector is one element, with the combinator in front of it. -/
theorem elementsFrom_tokens (pending : Option Char) (first spaced : Bool) (s : Simple)
    (rest : List Token) :
    Grammar.elementsFrom pending first stop (s.tokens spaced ++ rest) =
      (Grammar.elementsFrom none false stop rest).map
        (⟨.text (String.ofList s.text), pending.or (if !first && spaced then some ' ' else none)⟩ :: ·) := by
  cases s with
  | type name =>
    have hpart : Grammar.part stop (wordToken spaced name) rest = .ok (.text name.text, rest) := by
      unfold Grammar.part
      rw [marked?_eq_none (by rintro c ⟨⟩) rest]
      rfl
    have hstep := elementsFrom_part pending first rfl hpart (Nat.le_refl _)
    rw [wordToken, spaced_glyph] at hstep
    exact hstep
  | classOf name =>
    have hpart : Grammar.part stop (mark spaced '.') (wordToken false name :: rest) =
        .ok (.text ("." ++ name.text), rest) := rfl
    have htext : "." ++ name.text = String.ofList ('.' :: name.chars) := by
      rw [← String.toList_inj]
      simp [Spelling.text]
    have hstep := elementsFrom_part pending first rfl hpart (by simp)
    rw [mark, spaced_glyph, htext] at hstep
    exact hstep
  | idOf name =>
    have hpart : Grammar.part stop (hashToken spaced name) rest =
        .ok (.text (String.ofList ('#' :: name.chars)), rest) := by
      unfold Grammar.part
      rw [marked?_eq_none (by rintro c ⟨⟩) rest]
      rfl
    have hstep := elementsFrom_part pending first rfl hpart (Nat.le_refl _)
    rw [hashToken, spaced_glyph] at hstep
    exact hstep

end Simple

namespace Strand

variable {stop : Token} {spaced : Bool}

theorem elementsFrom_symbol (pending : Option Char) (first spaced : Bool) (c : Combinator)
    {rest : List Token} (hrest : Grammar.isQuoted rest = false) :
    Grammar.elementsFrom pending first stop (mark spaced c.symbol :: rest) =
      Grammar.elementsFrom (some c.symbol) first stop rest := by
  have hsign : Grammar.combinator? (mark spaced c.symbol) rest = some c.symbol := by
    unfold Grammar.combinator?
    rw [hrest]
    cases c <;> rfl
  rw [Grammar.elementsFrom, hsign]

/-- The members of a strand behind its first, with the combinators in front of them. -/
theorem elementsFrom_tokensOf (spaced : Bool) (more : List (Combinator × Simple)) :
    Grammar.elementsFrom none false stop (tokensOf spaced more) =
      .ok (more.map fun (c, s) => ⟨.text (String.ofList s.text), some c.symbol⟩) := by
  induction more with
  | nil => rw [tokensOf, Grammar.elementsFrom]; rfl
  | cons p more ih =>
    obtain ⟨c, s⟩ := p
    rw [tokensOf, elementsFrom_symbol none false spaced c (s.isQuoted_tokens spaced _),
      Simple.elementsFrom_tokens, ih]
    rfl

theorem elementsFrom_eq (spaced : Bool) (r : Strand) :
    Grammar.elementsFrom none true stop (r.tokens spaced) = .ok r.elements := by
  rw [tokens, Simple.elementsFrom_tokens, elementsFrom_tokensOf]
  rfl

theorem member_symbol (spaced : Bool) (c : Combinator) : IsMember (mark spaced c.symbol) := by
  refine .inr (.inr ⟨c.symbol, ?_, rfl⟩)
  cases c <;> decide

theorem member_of_mem_tokensOf {more : List (Combinator × Simple)} {t : Token}
    (h : t ∈ tokensOf spaced more) : IsMember t := by
  induction more with
  | nil => cases h
  | cons p more ih =>
    obtain ⟨c, s⟩ := p
    rcases List.mem_cons.mp h with rfl | h
    · exact member_symbol spaced c
    · rcases List.mem_append.mp h with h | h
      · exact Simple.member_of_mem h
      · exact ih h

theorem member_of_mem {r : Strand} {t : Token} (h : t ∈ r.tokens spaced) : IsMember t := by
  rcases List.mem_append.mp h with h | h
  · exact Simple.member_of_mem h
  · exact member_of_mem_tokensOf h

theorem exists_first (spaced : Bool) (r : Strand) :
    ∃ t ts, r.tokens spaced = t :: ts ∧ IsMember t := by
  have hmember : ∀ t ∈ r.tokens spaced, IsMember t := fun t ht => member_of_mem ht
  cases htokens : r.tokens spaced with
  | nil =>
    obtain ⟨first, more⟩ := r
    cases first <;> cases htokens
  | cons t ts => exact ⟨t, ts, rfl, hmember t (by simp [htokens])⟩

theorem crosses_tokens {stops : List Char} (hstops : Apart stops)
    (spaced : Bool) (r : Strand) : Crosses stops 0 (r.tokens spaced) 0 :=
  crosses_members (fun _ ht => member_of_mem ht) hstops

theorem selectors_tokens (r : Strand) :
    Grammar.selectors stop (r.tokens spaced) = .ok [r.elements] := by
  have hcross : Crosses [','] 0 (r.tokens spaced) 0 := crosses_tokens (by decide) spaced r
  have hselector : Grammar.selector stop (r.tokens spaced) = .ok r.elements := by
    rw [Grammar.selector, elementsFrom_eq]
    rfl
  obtain ⟨t, ts, htokens, -⟩ := r.exists_first spaced
  have hne : (r.tokens spaced).isEmpty = false := by
    rw [htokens]
    rfl
  rw [Grammar.selectors, hne, pieces_last hcross]
  change (Grammar.selector stop (r.tokens spaced) >>= _) = _
  rw [hselector]
  rfl

/-- No parenthesis follows the first name of a strand, so it is no head of a mixin. -/
theorem mixinHead?_tokens (r : Strand) {room : Room} {brace u : Token} {front rest : List Token}
    (hu : u.isDelim '(' = false) :
    Grammar.mixinHead? room brace front (r.tokens spaced ++ u :: rest) = .ok none := by
  obtain ⟨first, more⟩ := r
  obtain ⟨v, vs, hv, hparen⟩ : ∃ v vs, tokensOf spaced more ++ u :: rest = v :: vs ∧
      v.isDelim '(' = false := by
    cases more with
    | nil => exact ⟨u, rest, rfl, hu⟩
    | cons p more =>
      obtain ⟨c, s⟩ := p
      refine ⟨mark spaced c.symbol, _, rfl, ?_⟩
      cases c <;> rfl
  rw [tokens, List.append_assoc, hv]
  cases first with
  | type name => rfl
  | classOf name =>
    change (if v.isDelim '(' = true then _ else _) = _
    rw [hparen]
    rfl
  | idOf name =>
    change (if v.isDelim '(' = true then _ else _) = _
    rw [hparen]
    rfl

end Strand

section Guards

variable {spaced : Bool} {t : Token}

theorem Simple.spaced_of_mem {s : Simple} (h : t ∈ s.tokens false) : t.spaced = false := by
  cases s with
  | type name | idOf name =>
    obtain rfl := List.mem_singleton.mp h
    rfl
  | classOf name => rcases List.mem_pair.mp h with rfl | rfl <;> rfl

theorem Simple.isWord_wordToken (spaced : Bool) (name : Word) :
    (wordToken spaced name).isWord "when" = (type name).isWhen := by
  simp [Token.isWord, wordToken, glyph, Spelling.text, isWhen]

theorem Simple.no_guard {s : Simple} (hwhen : spaced = true → s.isWhen = false)
    (h : t ∈ s.tokens spaced) : (t.isWord "when" && t.spaced) = false := by
  cases spaced with
  | false => rw [spaced_of_mem h, Bool.and_false]
  | true =>
    cases s with
    | type name =>
      obtain rfl := List.mem_singleton.mp h
      rw [isWord_wordToken, hwhen rfl]
      rfl
    | classOf name =>
      rcases List.mem_pair.mp h with rfl | rfl
      · rfl
      · exact Bool.and_false _
    | idOf name =>
      obtain rfl := List.mem_singleton.mp h
      rfl

theorem Strand.no_guard_tokensOf {more : List (Combinator × Simple)}
    (hwhen : spaced = true → ∀ p ∈ more, p.2.isWhen = false) (h : t ∈ tokensOf spaced more) :
    (t.isWord "when" && t.spaced) = false := by
  induction more with
  | nil => cases h
  | cons p more ih =>
    rcases List.mem_cons.mp h with rfl | h
    · rfl
    · rcases List.mem_append.mp h with h | h
      · exact Simple.no_guard (fun hspaced => hwhen hspaced p List.mem_cons_self) h
      · exact ih (fun hspaced q hq => hwhen hspaced q (List.mem_cons_of_mem _ hq)) h

/-- Nothing opens a guard without a blank in front of the word `when`. -/
theorem Strand.splitGuard_tokens {r : Strand}
    (hwhen : spaced = true → ∀ p ∈ r.more, p.2.isWhen = false) :
    Grammar.splitGuard 0 (r.tokens spaced) = none := by
  have hnone : ∀ t ∈ r.tokens spaced, (t.isWord "when" && t.spaced) = false := by
    intro t ht
    rcases List.mem_append.mp ht with ht | ht
    · exact Simple.no_guard (fun h => absurd h Bool.false_ne_true) ht
    · exact no_guard_tokensOf hwhen ht
  have hsplit := splitGuard_members (fun t ht => member_of_mem ht) hnone []
  rw [List.append_nil] at hsplit
  exact hsplit

end Guards

section Sheets

/-- The tokens of a body with one declaration. -/
def bodyTokens : List Token :=
  [mark true '\x7b', wordToken true propertyWord, mark false ':',
    glyph true (.number "1" (.ofDecimal false 1 0) "") ['1'], mark false ';', mark true '\x7d']

/-- The declaration is that of a formula. -/
theorem exists_formula : ∃ f : Formula, f.inOrder false = true ∧ f.nesting = 0 ∧
    f.value = .dimension (.ofDecimal false 1 0) "" ∧ bodyTokens =
      mark true '\x7b' :: (Formula.declarationTokens f ++ [mark false ';', mark true '\x7d']) :=
  ⟨.number ⟨['1'], by simp, by simp⟩ none, rfl, rfl, rfl, rfl⟩

theorem fitting_bodyTokens : Fitting bodyTokens [] := by
  obtain ⟨f, horder, -, -, htokens⟩ := exists_formula
  rw [htokens]
  exact (Formula.fitting_sheetTokens horder).2

theorem charsOf_bodyTokens : charsOf bodyTokens = " \x7b x: 1; \x7d".toList := by decide

theorem body_bodyTokens {room inner : Room} (hopened : room.opened .ruleset = .ok inner)
    (stop : Token) : Grammar.body room .ruleset stop bodyTokens =
      .ok ([.declaration "x" (some (.dimension (.ofDecimal false 1 0) "")) false], []) := by
  obtain ⟨f, horder, hnesting, hvalue, htokens⟩ := exists_formula
  have hreadable : Formula.Readable inner false f :=
    Formula.readable f ⟨by omega, by omega⟩ horder
  rw [htokens, ← hvalue]
  exact Formula.body_tokens hopened stop hreadable

namespace Strand

variable {spaced : Bool}

theorem rulesetHead_tokens {r : Strand} {room : Room} {brace : Token}
    (hwhen : spaced = true → ∀ p ∈ r.more, p.2.isWhen = false) :
    Grammar.rulesetHead room brace (r.tokens spaced) = .ok ([r.elements], none) := by
  unfold Grammar.rulesetHead
  rw [splitGuard_tokens hwhen]
  change (Grammar.selectors brace (r.tokens spaced)).map _ = _
  rw [selectors_tokens]
  rfl

/-- The brace of the body ends the head of the statement. -/
theorem head_tokens (spaced : Bool) (r : Strand) (rest : List Token) :
    Grammar.head (r.tokens spaced ++ (bodyTokens ++ rest)) = (r.tokens spaced, bodyTokens ++ rest) :=
  (crosses_tokens (by decide) spaced r).cut_cons (t := mark true '\x7b') rfl (bodyTokens.tail ++ rest)

/-- A strand in front of a body is a ruleset with the elements of the strand for its selector. -/
theorem sheet_tokens {r : Strand} (hwhen : spaced = true → ∀ p ∈ r.more, p.2.isWhen = false)
    {room inner : Room} (hopened : room.opened .ruleset = .ok inner) (stop : Token) :
    Grammar.sheet room stop (r.tokens spaced ++ bodyTokens) =
      .ok [.ruleset [r.elements] none
        [.declaration "x" (some (.dimension (.ofDecimal false 1 0) "")) false]] := by
  obtain ⟨t, ts, htokens, ht⟩ := r.exists_first spaced
  have hhead : Grammar.head (r.tokens spaced ++ bodyTokens) = (r.tokens spaced, bodyTokens) :=
    head_tokens spaced r []
  have hmixin : Grammar.mixinHead? room (mark true '\x7b') (r.tokens spaced)
      (r.tokens spaced ++ bodyTokens) = .ok none := mixinHead?_tokens r rfl
  have hruleset : Grammar.rulesetHead room (mark true '\x7b') (r.tokens spaced) =
      .ok ([r.elements], none) := rulesetHead_tokens hwhen
  rw [htokens, List.cons_append] at hhead hmixin
  rw [htokens] at hruleset
  rw [htokens]
  apply Clause.sheet_statement ht.isSeal
  change Grammar.statement room (Grammar.body room) stop t (ts ++ bodyTokens) = _
  rw [Formula.statement_head ht.ne_atKeyword hhead, if_pos (by decide)]
  change (Grammar.mixinHead? _ _ _ _ >>= _) = _
  rw [hmixin]
  change (Grammar.rulesetHead _ _ _ >>= _) = _
  rw [hruleset]
  change (Grammar.body room .ruleset stop bodyTokens >>= _) = _
  rw [body_bodyTokens hopened]
  rfl

/-- A ruleset with one declaration and a strand for its selector, as it is written. -/
def source (spaced : Bool) (r : Strand) : String :=
  String.ofList (r.text spaced) ++ " \x7b x: 1; \x7d"

theorem charsOf_source (spaced : Bool) (r : Strand) :
    (r.source spaced).toList = charsOf (r.tokens spaced ++ bodyTokens) := by
  rw [source, String.toList_append, String.toList_ofList, charsOf_append, charsOf_tokens,
    charsOf_bodyTokens]

theorem fitting_source {r : Strand} (h : spaced = true ∨ joinsRange r.first r.more = false) :
    Fitting (r.tokens spaced ++ bodyTokens) [] :=
  (fitting_tokensOf spaced false r.first r.more h _).append fitting_bodyTokens

theorem parse_source (r : Strand) (spaced : Bool) {limit : Int} (hlimit : 0 < limit)
    (hjoins : spaced = true ∨ joinsRange r.first r.more = false)
    (hwhen : spaced = true → ∀ p ∈ r.more, p.2.isWhen = false) :
    parse limit (r.source spaced) =
      .ok [.ruleset [r.elements] none
        [.declaration "x" (some (.dimension (.ofDecimal false 1 0) "")) false]] := by
  have hcalls : 10 * 1 ≤ stackCalls := by decide
  have hroom : Room.Holds ⟨limit.toNat, stackCalls⟩ 1 := ⟨Int.lt_toNat.mpr hlimit, hcalls⟩
  obtain ⟨inner, hopened, -⟩ := hroom.opened .ruleset
  exact parse_of_fitting (charsOf_source spaced r) (fitting_source hjoins)
    (sheet_tokens hwhen hopened)

end Strand

end Sheets

end StyleTally.Stylesheet
