import Mathlib.Data.List.Forall2
import StyleTally.Proofs.Formula.Lexing
import StyleTally.Proofs.Lexer.Replace

/-!
# The tokens of a formula

A formula as tokens, and that its text is read as these tokens. The text of tokens reads as the
tokens again when each of them fits in front of those behind it; of a formula it is enough that a
blank, a closing parenthesis, a comma or a semicolon follows.
-/

namespace StyleTally.Stylesheet

section Reading

variable {ts us : List Token} {rest : List Char}

/-- Each token is read in front of the text of those behind it. -/
def Fitting : List Token → List Char → Prop
  | [], _ => True
  | t :: ts, rest => Fits t (charsOf ts ++ rest) ∧ Fitting ts rest

theorem Fitting.append (hts : Fitting ts (charsOf us ++ rest)) (hus : Fitting us rest) :
    Fitting (ts ++ us) rest := by
  induction ts with
  | nil => exact hus
  | cons t ts ih =>
    obtain ⟨ht, hts⟩ := hts
    have hchars : charsOf (ts ++ us) ++ rest = charsOf ts ++ (charsOf us ++ rest) := by
      rw [charsOf_append, List.append_assoc]
    constructor
    · change Fits t (charsOf (ts ++ us) ++ rest)
      rw [hchars]
      exact ht
    · exact ih hts

theorem tokensFrom_fitting (h : Fitting ts rest) (line start : Nat) (previous : Option Token) :
    ∃ us line' start' previous', List.Forall₂ Token.Alike us ts ∧
      tokensFrom line start previous (charsOf ts ++ rest) =
        (tokensFrom line' start' previous' rest).map (us ++ ·) := by
  induction ts generalizing line start previous with
  | nil =>
    refine ⟨[], line, start, previous, .nil, ?_⟩
    cases htail : tokensFrom line start previous rest <;> simp [charsOf, htail, Except.map]
  | cons t ts ih =>
    obtain ⟨⟨htext, hnext⟩, hts⟩ := h
    let u : Token := { t with line := line, start := start + t.gap.length }
    obtain ⟨us, line', start', previous', halike, htail⟩ :=
      ih hts (linesAfter u.line u.text) u.stop (some u)
    refine ⟨u :: us, line', start', previous', .cons ⟨rfl, rfl, rfl⟩ halike, ?_⟩
    have hu : u.text ≠ [] := htext
    rw [tokensFrom_eq, charsOf_cons, List.append_assoc, hnext]
    change (if u.text = [] then .ok [u] else
      (tokensFrom (linesAfter u.line u.text) u.stop (some u) (charsOf ts ++ rest)).map (u :: ·)) = _
    rw [if_neg hu, htail]
    cases tokensFrom line' start' previous' rest <;> rfl

theorem tokensFrom_nil (line start : Nat) (previous : Option Token) :
    tokensFrom line start previous [] = .ok [⟨.endOfInput, [], [], line, start⟩] := by
  rw [tokensFrom_eq]
  rfl

end Reading

namespace Formula

mutual

/-- The tokens of a formula, with a blank in front of the first one or with none. -/
def tokens (spaced : Bool) : Formula → List Token
  | .var name => [glyph spaced (.atKeyword name.text) ('@' :: name.chars)]
  | .number digits unit => [numberToken spaced digits unit]
  | .negative f => mark spaced '-' :: f.tokens false
  | .call name args =>
    glyph spaced (.ident name.text) name.chars :: mark false '(' ::
      (tokensOfArgs args ++ [mark false ')'])
  | .paren f => mark spaced '(' :: (f.tokens false ++ [mark false ')'])
  | .operation op l r => l.tokens spaced ++ mark true op.symbol :: r.tokens true

def tokensOfArgs : List Formula → List Token
  | [] => []
  | f :: fs => f.tokens false ++ tokensOfMore fs

def tokensOfMore : List Formula → List Token
  | [] => []
  | f :: fs => mark false ',' :: (f.tokens true ++ tokensOfMore fs)

end

mutual

theorem charsOf_tokens (spaced : Bool) (f : Formula) :
    charsOf (f.tokens spaced) = (if spaced then [' '] else []) ++ f.text := by
  cases f with
  | var name => simp [tokens, charsOf, glyph, text]
  | number digits unit => simp [tokens, charsOf, numberToken, glyph, text]
  | negative f =>
    rw [tokens, charsOf_cons, charsOf_tokens false f]
    simp [mark, glyph, text]
  | call name args =>
    rw [tokens, charsOf_cons, charsOf_cons, charsOf_append, charsOf_tokensOfArgs args]
    simp [charsOf, mark, glyph, text]
  | paren f =>
    rw [tokens, charsOf_cons, charsOf_append, charsOf_tokens false f]
    simp [charsOf, mark, glyph, text]
  | operation op l r =>
    rw [tokens, charsOf_append, charsOf_cons, charsOf_tokens spaced l, charsOf_tokens true r]
    simp [mark, glyph, text]

theorem charsOf_tokensOfArgs (fs : List Formula) : charsOf (tokensOfArgs fs) = textOfArgs fs := by
  cases fs with
  | nil => rfl
  | cons f fs =>
    rw [tokensOfArgs, charsOf_append, charsOf_tokens false f, charsOf_tokensOfMore fs, textOfArgs]
    simp

theorem charsOf_tokensOfMore (fs : List Formula) : charsOf (tokensOfMore fs) = textOfMore fs := by
  cases fs with
  | nil => rfl
  | cons f fs =>
    rw [tokensOfMore, charsOf_cons, charsOf_append, charsOf_tokens true f, charsOf_tokensOfMore fs,
      textOfMore]
    simp [mark, glyph]

end

end Formula

section Words

variable {d : Char} {more : List Char}

/-- Tests that a word passes with the character behind it: the last test is for that character. -/
theorem opensWith_word (ps : List (Char → Bool)) (q : Char → Bool) {w : List Char}
    (hw : ∀ c ∈ w, q c = false) (hd : ∀ p ∈ ps, p d = false)
    (h : opensWith (ps ++ [q]) (w ++ d :: more) = true) :
    opensWith ps w = true ∧ w.length = ps.length ∧ q d = true := by
  induction ps generalizing w with
  | nil =>
    cases w with
    | nil => exact ⟨rfl, rfl, by simpa [opensWith] using h⟩
    | cons c w =>
      have hc := hw c List.mem_cons_self
      simp [opensWith, hc] at h
  | cons p ps ih =>
    cases w with
    | nil =>
      have hp := hd p List.mem_cons_self
      simp [opensWith, hp] at h
    | cons c w =>
      simp only [List.cons_append, opensWith, Bool.and_eq_true] at h
      obtain ⟨hc, hrest⟩ := h
      obtain ⟨hopens, hlength, hq⟩ := ih (fun e he => hw e (List.mem_cons_of_mem _ he))
        (fun e he => hd e (List.mem_cons_of_mem _ he)) hrest
      refine ⟨?_, ?_, hq⟩
      · rw [opensWith, hc, hopens]
        rfl
      · rw [List.length_cons, List.length_cons, hlength]

theorem opensUrl_word (w : Word) (hname : w.chars.map Char.toLower ≠ "url".toList) :
    opensUrl (w.chars ++ '(' :: more) = false := by
  rw [Bool.eq_false_iff]
  intro h
  have hletters : ∀ c ∈ w.chars, (c == '(') = false := by
    intro c hc
    exact beq_eq_false_iff_ne.mpr (letter_ne (w.all c hc) (by decide))
  obtain ⟨hopens, hlength, -⟩ := opensWith_word [isLetter 'u', isLetter 'r', isLetter 'l']
    (· == '(') hletters (by decide) h
  apply hname
  obtain ⟨a, b, c, hchars⟩ := List.length_eq_three.mp hlength
  rw [hchars] at hopens ⊢
  simp only [opensWith, isLetter, Bool.and_eq_true, beq_iff_eq, and_true] at hopens
  obtain ⟨ha, hb, hc⟩ := hopens
  simp [ha, hb, hc]

theorem opensFilter_word (w : Word) : opensWith filterMark (w.chars ++ '(' :: more) = false := by
  rw [Bool.eq_false_iff]
  intro h
  have hletters : ∀ c ∈ w.chars, (c == ':') = false := by
    intro c hc
    exact beq_eq_false_iff_ne.mpr (letter_ne (w.all c hc) (by decide))
  obtain ⟨-, -, hcolon⟩ := opensWith_word (filterMark.take 6) (· == ':') hletters (by decide) h
  cases hcolon

end Words

namespace Formula

/-- A text that ends an operand. -/
def Closing (rest : List Char) : Prop := ∃ d more, rest = d :: more ∧ d ∈ closers

theorem closing_more (fs : List Formula) {rest : List Char} (hrest : Closing rest) :
    Closing (charsOf (tokensOfMore fs) ++ rest) := by
  cases fs with
  | nil => exact hrest
  | cons f fs =>
    exact ⟨',', charsOf (f.tokens true ++ tokensOfMore fs) ++ rest, rfl, by decide⟩

theorem signed_text (f : Formula) (hsign : f.takesSign = true) {sheltered : Bool}
    (horder : f.inOrder sheltered = true) :
    ∃ n d more, f.text = List.replicate n '-' ++ d :: more ∧ (d = '@' ∨ d = '(') := by
  match f, hsign with
  | .var name, _ => exact ⟨0, '@', name.chars, rfl, .inl rfl⟩
  | .paren f, _ => exact ⟨0, '(', f.text ++ [')'], rfl, .inr rfl⟩
  | .negative f, _ =>
    rw [inOrder, Bool.and_eq_true] at horder
    obtain ⟨n, d, more, htext, hd⟩ := signed_text f horder.1 horder.2
    refine ⟨n + 1, d, more, ?_, hd⟩
    rw [text, htext]
    rfl

mutual

theorem fitting_tokens (spaced : Bool) (f : Formula) {sheltered : Bool}
    (horder : f.inOrder sheltered = true) {rest : List Char} (hrest : Closing rest) :
    Fitting (f.tokens spaced) rest := by
  cases f with
  | var name =>
    obtain ⟨d, more, rfl, hd⟩ := hrest
    exact ⟨fits_variable name hd, trivial⟩
  | number digits unit =>
    obtain ⟨d, more, rfl, hd⟩ := hrest
    exact ⟨fits_number digits unit hd, trivial⟩
  | negative f =>
    rw [inOrder, Bool.and_eq_true] at horder
    obtain ⟨hsign, horder⟩ := horder
    obtain ⟨n, d, more, htext, hd⟩ := signed_text f hsign horder
    refine ⟨?_, fitting_tokens false f horder hrest⟩
    rw [charsOf_tokens, htext]
    simpa using fits_sign n hd
  | call name args =>
    rw [inOrder, Bool.and_eq_true, bne_iff_ne] at horder
    obtain ⟨hname, horder⟩ := horder
    have hbracket : Fitting [mark false ')'] rest := ⟨fits_bracket (by decide), trivial⟩
    have hclosing : Closing (charsOf [mark false ')'] ++ rest) := ⟨')', rest, rfl, by decide⟩
    have hargs := (fitting_tokensOfArgs args horder hclosing).append hbracket
    refine ⟨?_, fits_bracket (by decide), hargs⟩
    apply fits_word
    · decide
    · decide
    · decide
    · exact opensUrl_word name hname
    · exact opensFilter_word name
  | paren f =>
    rw [inOrder] at horder
    have hbracket : Fitting [mark false ')'] rest := ⟨fits_bracket (by decide), trivial⟩
    have hclosing : Closing (charsOf [mark false ')'] ++ rest) := ⟨')', rest, rfl, by decide⟩
    have hinner := (fitting_tokens false f horder hclosing).append hbracket
    exact ⟨fits_bracket (by decide), hinner⟩
  | operation op l r =>
    simp only [inOrder, Bool.and_eq_true] at horder
    obtain ⟨⟨⟨hl, hr⟩, -⟩, -⟩ := horder
    rw [tokens]
    apply Fitting.append
    · apply fitting_tokens spaced l hl
      exact ⟨' ', op.symbol :: (charsOf (r.tokens true) ++ rest), rfl, by decide⟩
    · refine ⟨?_, fitting_tokens true r hr hrest⟩
      rw [charsOf_tokens]
      exact fits_operator op

theorem fitting_tokensOfArgs (fs : List Formula) (horder : allInOrder fs = true) {rest : List Char}
    (hrest : Closing rest) : Fitting (tokensOfArgs fs) rest := by
  cases fs with
  | nil => trivial
  | cons f fs =>
    rw [allInOrder, Bool.and_eq_true] at horder
    rw [tokensOfArgs]
    apply Fitting.append
    · exact fitting_tokens false f horder.1 (closing_more fs hrest)
    · exact fitting_tokensOfMore fs horder.2 hrest

theorem fitting_tokensOfMore (fs : List Formula) (horder : allInOrder fs = true) {rest : List Char}
    (hrest : Closing rest) : Fitting (tokensOfMore fs) rest := by
  cases fs with
  | nil => trivial
  | cons f fs =>
    rw [allInOrder, Bool.and_eq_true] at horder
    rw [tokensOfMore]
    refine ⟨fits_bracket (by decide), ?_⟩
    apply Fitting.append
    · exact fitting_tokens true f horder.1 (closing_more fs hrest)
    · exact fitting_tokensOfMore fs horder.2 hrest

end

end Formula

end StyleTally.Stylesheet
