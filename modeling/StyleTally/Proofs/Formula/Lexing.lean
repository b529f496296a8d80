import StyleTally.Proofs.Formula.Basic
import StyleTally.Proofs.Lexer.Equations

/-!
# Single tokens of a formula

Words, variables, numbers, signs and brackets. Each of them is read for itself, whatever stands in
front of it, as soon as what follows it cannot belong to it.
-/

namespace StyleTally.Stylesheet

open Text

section Characters

/-- What is checked of the characters of ASCII, one by one. -/
theorem of_ascii {p q : Char → Bool}
    (h : ∀ n < 128, p (Char.ofNat n) = true → q (Char.ofNat n) = true) {c : Char}
    (hc : c.toNat < 128) (hp : p c = true) : q c = true := by
  have hchar := h c.toNat hc
  rw [Char.ofNat_toNat] at hchar
  exact hchar hp

/-- Characters that mean something to the rules for tokens and belong to no word or number. -/
def openers : List Char :=
  ['"', '\'', '\x60', '@', '#', '/', '\\', '.', '+', '-', '*', '(', ')', ',', ';', ':', ' ', '%',
    '\x7b']

/-- A letter is a letter to every rule for tokens. -/
theorem letter_cases {c : Char} (h : c.isAlpha = true) :
    isNameChar c = true ∧ isIdentChar c = true ∧ isIdentStart c = true ∧ isBlank c = false ∧
      isDecimalDigit c = false ∧ c ∉ openers := by
  have hall : (isNameChar c && isIdentChar c && isIdentStart c && !isBlank c &&
      !isDecimalDigit c && !openers.contains c) = true :=
    of_ascii (p := Char.isAlpha) (q := fun d => isNameChar d && isIdentChar d && isIdentStart d &&
      !isBlank d && !isDecimalDigit d && !openers.contains d) (by with_unfolding_all decide)
      (toNat_lt_of_isAlpha h) h
  simpa [and_assoc] using hall

/-- A digit opens a number. -/
theorem digit_cases {c : Char} (h : c.isDigit = true) :
    isDecimalDigit c = true ∧ Decimal.plainChar c = c ∧ isBlank c = false ∧ c.isAlpha = false ∧
      isLetter 'u' c = false ∧ c ∉ openers := by
  have hall : (isDecimalDigit c && Decimal.plainChar c == c && !isBlank c && !c.isAlpha &&
      !isLetter 'u' c && !openers.contains c) = true :=
    of_ascii (p := Char.isDigit) (q := fun d => isDecimalDigit d && Decimal.plainChar d == d &&
      !isBlank d && !d.isAlpha && !isLetter 'u' d && !openers.contains d) (by decide)
      (toNat_lt_of_isDigit h) h
  simpa [and_assoc] using hall

theorem letter_ne {c d : Char} (h : c.isAlpha = true) (hd : d ∈ openers) : c ≠ d := by
  rintro rfl
  exact (letter_cases h).2.2.2.2.2 hd

theorem digit_ne {c d : Char} (h : c.isDigit = true) (hd : d ∈ openers) : c ≠ d := by
  rintro rfl
  exact (digit_cases h).2.2.2.2.2 hd

/-- The run of characters of one kind in front of another kind. -/
theorem takeWhile_run {p : Char → Bool} {cs : List Char} (hcs : ∀ c ∈ cs, p c = true) {d : Char}
    (hd : p d = false) (more : List Char) : (cs ++ d :: more).takeWhile p = cs := by
  rw [List.takeWhile_append_of_pos hcs, List.takeWhile_cons, hd]
  simp

end Characters

section Fitting

variable {spaced : Bool} {lexeme : Lexeme} {c : Char} {cs rest : List Char}

/-- The token of a text after a blank or after none. -/
def glyph (spaced : Bool) (lexeme : Lexeme) (text : List Char) : Token :=
  ⟨lexeme, if spaced then [' '] else [], text, 0, 0⟩

/-- A token is read in front of a text, wherever it stands. -/
def Fits (t : Token) (rest : List Char) : Prop :=
  t.text ≠ [] ∧ ∀ line start previous, nextToken line start previous (t.gap ++ t.text ++ rest) =
    .ok ({ t with line, start := start + t.gap.length }, rest)

theorem gapFrom_glyph (spaced : Bool) (line : Nat) (hblank : isBlank c = false)
    (hcomment : c = '/' → ∃ d more, cs = d :: more ∧ d ≠ '*' ∧ d ≠ '/') :
    gapFrom line .blank ((if spaced then [' '] else []) ++ c :: cs) =
      .ok (if spaced then [' '] else [], c :: cs) := by
  have hnone : gapFrom line .blank (c :: cs) = .ok ([], c :: cs) := by
    rw [gapFrom_blank, if_neg (by simp [hblank])]
    · intro ds hc hcs
      obtain ⟨d, more, rfl, hd, -⟩ := hcomment hc
      cases hcs
      exact hd rfl
    · intro ds hc hcs
      obtain ⟨d, more, rfl, -, hd⟩ := hcomment hc
      cases hcs
      exact hd rfl
  cases spaced with
  | false => exact hnone
  | true =>
    have hblankSpace : isBlank ' ' = true := by decide
    simp only [if_true, List.singleton_append]
    rw [gapFrom_blank (by simp) (by simp), if_pos hblankSpace]
    have hline : lineAfter line ' ' = line := rfl
    rw [hline, hnone]
    rfl

theorem fits_glyph (hblank : isBlank c = false)
    (hcomment : c = '/' → ∃ d more, cs ++ rest = d :: more ∧ d ≠ '*' ∧ d ≠ '/')
    (hlexeme : ∀ previous gap, lexemeAt previous gap c (cs ++ rest) = .ok (lexeme, cs.length)) :
    Fits (glyph spaced lexeme (c :: cs)) rest := by
  refine ⟨by simp [glyph], ?_⟩
  intro line start previous
  have hgap := gapFrom_glyph spaced line hblank hcomment
  have hlines : linesAfter line (if spaced then [' '] else []) = line := by
    cases spaced <;> rfl
  unfold nextToken
  simp only [glyph, List.append_assoc, List.cons_append]
  rw [hgap]
  simp only [hlexeme, hlines, List.take_left', List.drop_left']

theorem no_quote (h : ∀ d ∈ openers, c ≠ d) : c ∉ ['"', '\'', '\x60'] := by
  intro hmem
  exact h c (List.mem_append_left _ hmem) rfl

/-- A range of code points opens with the letter for it. -/
theorem no_range (hsmall : c ≠ 'u') (hcapital : c ≠ 'U') : unicodeRangeLength? (c :: cs) = none := by
  unfold unicodeRangeLength?
  split
  · rename_i heq
    obtain ⟨rfl, -⟩ := List.cons.inj heq
    simp [hsmall, hcapital]
  · rfl

theorem lexemeAt_plain {previous : Option Token} {gap : List Char}
    (hquote : c ∉ ['"', '\'', '\x60']) (hurl : opensUrl (c :: cs) = false) :
    lexemeAt previous gap c cs = .ok (plainAt previous (!gap.isEmpty) c cs) := by
  simp only [List.mem_cons, List.not_mem_nil, or_false, not_or] at hquote
  obtain ⟨hdouble, hsingle, hback⟩ := hquote
  unfold lexemeAt
  simp [hdouble, hsingle, hback, hurl]

end Fitting

section Marks

variable {spaced : Bool} {c : Char} {cs rest : List Char}

/-- Characters that are tokens of their own in a formula and around it. -/
def marks : List Char :=
  ['+', '-', '*', '/', '(', ')', ',', ':', ';', '\x7b', '\x7d', '>', '<', '=', '!', '~']

def mark (spaced : Bool) (c : Char) : Token := glyph spaced (.delim c) [c]

theorem mark_cases (hc : c ∈ marks) :
    isBlank c = false ∧ isLetter 'u' c = false ∧ isLetter 'p' c = false ∧ isIdentStart c = false ∧
      isDecimalDigit c = false ∧ c ∉ ['"', '\'', '\x60', 'u', 'U', '@', '#', '.', '\\'] := by
  simp only [marks, List.mem_cons, List.not_mem_nil, or_false] at hc
  rcases hc with rfl | rfl | rfl | rfl | rfl | rfl | rfl | rfl | rfl | rfl | rfl | rfl | rfl |
    rfl | rfl | rfl <;> decide

theorem plainAt_mark {previous : Option Token} (hc : c ∈ marks)
    (hnumber : NumberText.read? (c :: cs) = none) (hname : identLength? (c :: cs) = none) :
    plainAt previous spaced c cs = (.delim c, 0) := by
  obtain ⟨-, -, hp, -, -, hother⟩ := mark_cases hc
  simp only [List.mem_cons, List.not_mem_nil, or_false, not_or] at hother
  obtain ⟨-, -, -, hsmall, hcapital, hat, hhash, hdot, -⟩ := hother
  have hfilter : filterNameLength? (c :: cs) = none := by
    simp [filterNameLength?, filterMark, opensWith, hp]
  have hdots : opensWith [(· == '.'), (· == '.'), (· == '.')] (c :: cs) = false := by
    simp [opensWith, hdot]
  unfold plainAt
  rw [no_range hsmall hcapital]
  simp [hat, hhash, number?, hnumber, wordAt, hfilter, hname, hdots]

theorem lexemeAt_mark {previous : Option Token} {gap : List Char} (hc : c ∈ marks)
    (hnumber : NumberText.read? (c :: cs) = none) (hname : identLength? (c :: cs) = none) :
    lexemeAt previous gap c cs = .ok (.delim c, 0) := by
  obtain ⟨-, hu, -, -, -, hother⟩ := mark_cases hc
  have hquote : c ∉ ['"', '\'', '\x60'] := by
    intro hmem
    apply hother
    exact List.mem_append_left ['u', 'U', '@', '#', '.', '\\'] hmem
  have hurl : opensUrl (c :: cs) = false := by
    simp [opensUrl, opensWith, hu]
  rw [lexemeAt_plain hquote hurl, plainAt_mark hc hnumber hname]

theorem fits_mark (hc : c ∈ marks)
    (hcomment : c = '/' → ∃ d more, rest = d :: more ∧ d ≠ '*' ∧ d ≠ '/')
    (hnumber : NumberText.read? (c :: rest) = none) (hname : identLength? (c :: rest) = none) :
    Fits (mark spaced c) rest := by
  have hblank := (mark_cases hc).1
  unfold mark
  apply fits_glyph hblank
  · exact hcomment
  · intro previous gap
    exact lexemeAt_mark hc hnumber hname

/-- No number opens with a character that is no digit, no sign and no point. -/
theorem no_number (hdigit : isDecimalDigit c = false) (hother : c ∉ ['+', '-', '.']) :
    NumberText.read? (c :: cs) = none := by
  simp only [List.mem_cons, List.not_mem_nil, or_false, not_or] at hother
  obtain ⟨hplus, hminus, hdot⟩ := hother
  have hplaces : NumberText.readPlaces (c :: cs) = [] := by
    unfold NumberText.readPlaces
    split
    · rename_i heq
      obtain ⟨rfl, -⟩ := List.cons.inj heq
      exact absurd rfl hdot
    · rfl
  simp [NumberText.read?, hplus, hminus, hdigit, hplaces]

theorem undashed_none (hstart : isIdentStart c = false) (hescape : c ≠ '\\') :
    undashedLength? (c :: cs) = none := by
  unfold undashedLength?
  split
  · rename_i heq
    cases heq
    exact absurd rfl hescape
  · rename_i heq
    cases heq
    simp [hstart]
  · rfl

theorem no_name (hc : c ∈ marks) (hminus : c ≠ '-') : identLength? (c :: cs) = none := by
  obtain ⟨-, -, -, hstart, -, hother⟩ := mark_cases hc
  have hescape : c ≠ '\\' := by
    rintro rfl
    simp at hother
  simp [identLength?, hminus, undashed_none hstart hescape]

/-- Dashes in front of a character that opens no name are no name. -/
theorem no_dashed_name (n : Nat) {d : Char} (hdash : d ≠ '-') (hstart : isIdentStart d = false)
    (hescape : d ≠ '\\') : identLength? (List.replicate n '-' ++ d :: cs) = none := by
  have hdashes : (List.replicate n '-' ++ d :: cs).takeWhile (· == '-') = List.replicate n '-' := by
    apply takeWhile_run
    · intro e he
      rw [List.eq_of_mem_replicate he]
      rfl
    · simpa using hdash
  unfold identLength?
  simp only [hdashes, List.length_replicate, List.drop_left', undashed_none hstart hescape]
  simp

/-- A sign in front of no digit and no point is no number. -/
theorem no_signed_number {d : Char} (hsign : c = '+' ∨ c = '-') (hdigit : isDecimalDigit d = false)
    (hdot : d ≠ '.') : NumberText.read? (c :: d :: cs) = none := by
  have hplaces : NumberText.readPlaces (d :: cs) = [] := by
    unfold NumberText.readPlaces
    split
    · rename_i heq
      cases heq
      exact absurd rfl hdot
    · rfl
  rcases hsign with rfl | rfl
  · simp [NumberText.read?, hdigit, hplaces]
  · simp [NumberText.read?, hdigit, hplaces]

/-- Marks that are tokens of their own wherever they stand. -/
theorem fits_bracket
    (hc : c ∈ ['(', ')', ',', ':', ';', '\x7b', '\x7d', '>', '<', '=', '!', '~']) :
    Fits (mark spaced c) rest := by
  have hmark : c ∈ marks := List.mem_append_right ['+', '-', '*', '/'] hc
  have hdigit := (mark_cases hmark).2.2.2.2.1
  have hother : c ∉ ['+', '-', '.'] ∧ c ≠ '-' ∧ c ≠ '/' := by
    simp only [List.mem_cons, List.not_mem_nil, or_false] at hc
    rcases hc with rfl | rfl | rfl | rfl | rfl | rfl | rfl | rfl | rfl | rfl | rfl | rfl <;> decide
  obtain ⟨hsign, hminus, hslash⟩ := hother
  apply fits_mark hmark
  · intro h
    exact absurd h hslash
  · exact no_number hdigit hsign
  · exact no_name hmark hminus

/-- An operator in front of a blank. -/
theorem fits_operator (op : Arithmetic) : Fits (mark spaced op.symbol) (' ' :: rest) := by
  have hmark : op.symbol ∈ marks := by
    cases op <;> simp [Arithmetic.symbol, marks]
  have hblank : isDecimalDigit ' ' = false ∧ isIdentStart ' ' = false := by decide
  apply fits_mark hmark
  · intro _
    exact ⟨' ', rest, rfl, by decide, by decide⟩
  · by_cases hsign : op.symbol = '+' ∨ op.symbol = '-'
    · exact no_signed_number hsign hblank.1 (by decide)
    · apply no_number (mark_cases hmark).2.2.2.2.1
      cases op <;> simp_all [Arithmetic.symbol]
  · by_cases hminus : op.symbol = '-'
    · rw [hminus]
      exact no_dashed_name 1 (by decide) hblank.2 (by decide)
    · exact no_name hmark hminus

/-- A minus sign, with more of them or none, in front of a variable or a parenthesis. -/
theorem fits_sign (n : Nat) {d : Char} (hd : d = '@' ∨ d = '(') :
    Fits (mark spaced '-') (List.replicate n '-' ++ d :: rest) := by
  have hcases : isDecimalDigit d = false ∧ isIdentStart d = false ∧ d ≠ '-' ∧ d ≠ '.' ∧ d ≠ '\\' := by
    rcases hd with rfl | rfl <;> decide
  obtain ⟨hdigit, hstart, hdash, hdot, hescape⟩ := hcases
  apply fits_mark
  · simp [marks]
  · intro h
    cases h
  · cases n with
    | zero => exact no_signed_number (.inr rfl) hdigit hdot
    | succ n => exact no_signed_number (.inr rfl) (by decide) (by decide)
  · exact no_dashed_name (n + 1) hdash hstart hescape

end Marks

section Words

variable {spaced : Bool} {c d : Char} {cs more : List Char}

theorem escapedRun_letters (hcs : ∀ e ∈ cs, e.isAlpha = true) (hd : isIdentChar d = false)
    (hescape : d ≠ '\\') : escapedRun isIdentChar (cs ++ d :: more) = cs.length := by
  induction cs with
  | nil =>
    have hstep : escapedRun isIdentChar (d :: more) =
        if isIdentChar d then escapedRun isIdentChar more + 1 else 0 := by
      apply escapedRun.eq_3
      intro e ds h
      exact absurd h hescape
    rw [List.nil_append, hstep, hd]
    rfl
  | cons e cs ih =>
    have he := hcs e List.mem_cons_self
    have hident := (letter_cases he).2.1
    have hstep : escapedRun isIdentChar (e :: (cs ++ d :: more)) =
        if isIdentChar e then escapedRun isIdentChar (cs ++ d :: more) + 1 else 0 := by
      apply escapedRun.eq_3
      intro e' ds h
      exact absurd h (letter_ne he (by decide))
    rw [List.cons_append, hstep, hident, ih fun e he => hcs e (List.mem_cons_of_mem _ he)]
    rfl

theorem identLength_word (hc : c.isAlpha = true) (hcs : ∀ e ∈ cs, e.isAlpha = true)
    (hd : isIdentChar d = false) (hescape : d ≠ '\\') :
    identLength? (c :: (cs ++ d :: more)) = some (1 + cs.length) := by
  have hstart := (letter_cases hc).2.2.1
  have hdash : c ≠ '-' := letter_ne hc (by decide)
  have hundashed : undashedLength? (c :: (cs ++ d :: more)) = some (1 + cs.length) := by
    unfold undashedLength?
    split
    · rename_i heq
      exact absurd (List.cons.inj heq).1 (letter_ne hc (by decide))
    · rename_i heq
      obtain ⟨rfl, rfl⟩ := List.cons.inj heq
      rw [if_pos hstart, escapedRun_letters hcs hd hescape]
    · rename_i heq
      cases heq
  simp [identLength?, hdash, hundashed]

theorem no_range_word (hcs : ∀ e ∈ cs, e.isAlpha = true) (hd : d ≠ '+') :
    unicodeRangeLength? (c :: (cs ++ d :: more)) = none := by
  unfold unicodeRangeLength?
  split
  · rename_i u ds heq
    obtain ⟨rfl, htail⟩ := List.cons.inj heq
    cases cs with
    | nil =>
      obtain ⟨rfl, -⟩ := List.cons.inj htail
      exact absurd rfl hd
    | cons e cs =>
      have he := hcs e List.mem_cons_self
      exact absurd (List.cons.inj htail).1 (letter_ne he (by decide))
  · rfl

/-- A word is a name up to the next character, unless it opens a range, a URL or the name of a
filter. -/
theorem fits_name (w : Word) (hd : isIdentChar d = false) (hescape : d ≠ '\\')
    (hrange : unicodeRangeLength? (w.chars ++ d :: more) = none)
    (hurl : opensUrl (w.chars ++ d :: more) = false)
    (hfilter : opensWith filterMark (w.chars ++ d :: more) = false) :
    Fits (glyph spaced (.ident w.text) w.chars) (d :: more) := by
  obtain ⟨chars, hne, hall⟩ := w
  cases chars with
  | nil => exact absurd rfl hne
  | cons c cs =>
    have hc := hall c List.mem_cons_self
    have hcs : ∀ e ∈ cs, e.isAlpha = true := fun e he => hall e (List.mem_cons_of_mem _ he)
    have hother : ∀ e ∈ openers, c ≠ e := fun e he => letter_ne hc he
    obtain ⟨-, -, -, hblank, hdigit, -⟩ := letter_cases hc
    apply fits_glyph hblank
    · intro h
      exact absurd h (hother '/' (by decide))
    · intro previous gap
      have hnumber : NumberText.read? (c :: (cs ++ d :: more)) = none := by
        apply no_number hdigit
        simp [hother '+' (by decide), hother '-' (by decide), hother '.' (by decide)]
      have hrange' : unicodeRangeLength? (c :: (cs ++ d :: more)) = none := hrange
      have hurl' : opensUrl (c :: (cs ++ d :: more)) = false := hurl
      have hfilter' : opensWith filterMark (c :: (cs ++ d :: more)) = false := hfilter
      have hname : identLength? (c :: (cs ++ d :: more)) = some (1 + cs.length) :=
        identLength_word hc hcs hd hescape
      rw [lexemeAt_plain (no_quote hother) hurl']
      unfold plainAt
      rw [hrange']
      simp [hother '@' (by decide), hother '#' (by decide), number?, hnumber, wordAt, filterNameLength?, hfilter', hname, nameFrom,
        Spelling.text]

/-- No range opens in front of anything but a plus sign. -/
theorem fits_word (w : Word) (hd : isIdentChar d = false) (hescape : d ≠ '\\') (hplus : d ≠ '+')
    (hurl : opensUrl (w.chars ++ d :: more) = false)
    (hfilter : opensWith filterMark (w.chars ++ d :: more) = false) :
    Fits (glyph spaced (.ident w.text) w.chars) (d :: more) := by
  obtain ⟨c, cs, hchars⟩ := List.exists_cons_of_ne_nil w.nonempty
  have hcs : ∀ e ∈ cs, e.isAlpha = true := fun e he => w.all e (by simp [hchars, he])
  have hrange : unicodeRangeLength? (w.chars ++ d :: more) = none := by
    rw [hchars]
    exact no_range_word hcs hplus
  exact fits_name w hd hescape hrange hurl hfilter

/-- What may follow an operand. -/
def closers : List Char := [' ', ')', ',', ';']

theorem closer_cases (hd : d ∈ closers) :
    isNameChar d = false ∧ isIdentChar d = false ∧ isDecimalDigit d = false ∧ d.isAlpha = false ∧
      d ∉ ['.', 'e', 'E', '%', '\\', '+', '-'] := by
  simp only [closers, List.mem_cons, List.not_mem_nil, or_false] at hd
  rcases hd with rfl | rfl | rfl | rfl <;> decide

theorem fits_variable (w : Word) (hd : d ∈ closers) :
    Fits (glyph spaced (.atKeyword w.text) ('@' :: w.chars)) (d :: more) := by
  obtain ⟨hname, -⟩ := closer_cases hd
  apply fits_glyph
  · decide
  · intro h
    cases h
  · intro previous gap
    have hwords : ∀ e ∈ w.chars, isNameChar e = true := fun e he => (letter_cases (w.all e he)).1
    have hrun : (w.chars ++ d :: more).takeWhile isNameChar = w.chars := takeWhile_run hwords hname more
    have hfront : (w.chars ++ d :: more).takeWhile (· == '@') = [] ∧
        interpolation? (w.chars ++ d :: more) = none := by
      obtain ⟨c, cs, hchars⟩ := List.exists_cons_of_ne_nil w.nonempty
      have hc := w.all c (by simp [hchars])
      have hat : c ≠ '@' := letter_ne hc (by decide)
      have hbrace : c ≠ '\x7b' := letter_ne hc (by decide)
      rw [hchars]
      constructor
      · simp [hat]
      · unfold interpolation?
        split
        · rename_i heq
          exact absurd (List.cons.inj heq).1 hbrace
        · rfl
    have hkeyword : atKeyword? (w.chars ++ d :: more) = some (.atKeyword w.text, w.chars.length) := by
      have hne : w.chars.isEmpty = false := by simpa using w.nonempty
      simp [atKeyword?, hfront.1, hrun, hne, Spelling.text]
    have hurl : opensUrl ('@' :: (w.chars ++ d :: more)) = false := rfl
    rw [lexemeAt_plain (by decide) hurl]
    unfold plainAt
    rw [no_range (by decide) (by decide)]
    simp [hfront.2, hkeyword]

end Words

section Numbers

variable {spaced : Bool} {c d : Char} {cs more : List Char}

/-- The character behind the digits of a number. -/
theorem behind_digits (more : List Char) (hcs : ∀ e ∈ cs, e.isAlpha = true) (hd : d ∈ closers) :
    ∃ e ds, cs ++ d :: more = e :: ds ∧ isDecimalDigit e = false ∧
      e ∉ ['.', '%', '+', '-'] := by
  cases cs with
  | nil =>
    obtain ⟨-, -, hdigit, -, hother⟩ := closer_cases hd
    refine ⟨d, more, rfl, hdigit, ?_⟩
    intro hmem
    apply hother
    simp only [List.mem_cons, List.not_mem_nil, or_false] at hmem
    rcases hmem with rfl | rfl | rfl | rfl <;> decide
  | cons c cs =>
    have hc := hcs c List.mem_cons_self
    have hdigit := (letter_cases hc).2.2.2.2.1
    refine ⟨c, cs ++ d :: more, rfl, hdigit, ?_⟩
    intro hmem
    simp only [List.mem_cons, List.not_mem_nil, or_false] at hmem
    rcases hmem with h | h | h | h <;> exact letter_ne hc (by decide) h

theorem readPlaces_unit (hcs : ∀ e ∈ cs, e.isAlpha = true) (hd : d ∈ closers) :
    NumberText.readPlaces (cs ++ d :: more) = [] := by
  obtain ⟨e, ds, heq, -, hother⟩ := behind_digits more hcs hd
  rw [heq]
  unfold NumberText.readPlaces
  split
  · rename_i h
    obtain ⟨rfl, -⟩ := List.cons.inj h
    simp at hother
  · rfl

theorem readExponent_unit (hcs : ∀ e ∈ cs, e.isAlpha = true) (hd : d ∈ closers) :
    NumberText.readExponent (cs ++ d :: more) = [] := by
  cases cs with
  | nil =>
    obtain ⟨-, -, -, -, hother⟩ := closer_cases hd
    simp only [List.mem_cons, List.not_mem_nil, or_false, not_or] at hother
    simp [NumberText.readExponent, hother]
  | cons c cs =>
    have hrest : ∀ e ∈ cs, e.isAlpha = true := fun e he => hcs e (List.mem_cons_of_mem _ he)
    obtain ⟨e, ds, heq, hdigit, hother⟩ := behind_digits more hrest hd
    simp only [List.mem_cons, List.not_mem_nil, or_false, not_or] at hother
    rw [List.cons_append, heq]
    simp [NumberText.readExponent, hdigit, hother]

theorem readUnit_unit (hcs : ∀ e ∈ cs, e.isAlpha = true) (hd : d ∈ closers) :
    NumberText.readUnit (cs ++ d :: more) = cs := by
  obtain ⟨-, -, -, halpha, hother⟩ := closer_cases hd
  have hword : NumberText.unitWord (cs ++ d :: more) = cs := by
    obtain ⟨e, ds, heq, -, hpercent⟩ := behind_digits more hcs hd
    have hrun := takeWhile_run hcs halpha more
    unfold NumberText.unitWord
    split
    · rename_i h
      rw [heq] at h
      obtain ⟨rfl, -⟩ := List.cons.inj h
      simp at hpercent
    · exact hrun
  unfold NumberText.readUnit
  simp only [hword, List.drop_left]
  split
  · rename_i h
    obtain ⟨rfl, -⟩ := List.cons.inj h
    simp at hother
  · rfl

theorem unitChars_letters (unit : Option Word) :
    ∀ c ∈ Formula.unitChars unit, c.isAlpha = true := by
  cases unit with
  | none => simp [Formula.unitChars]
  | some w => exact w.all

/-- A number without a sign, a point or an exponent. -/
theorem read_number (more : List Char) (digits : Numeral) (unit : Option Word)
    (hd : d ∈ closers) :
    NumberText.read? (digits.chars ++ (Formula.unitChars unit ++ d :: more)) =
      some ⟨[], digits.chars, [], [], Formula.unitChars unit⟩ := by
  have hunit := unitChars_letters unit
  have hdigits : ∀ c ∈ digits.chars, isDecimalDigit c = true := fun c hc =>
    (digit_cases (digits.all c hc)).1
  obtain ⟨e, ds, heq, hdigit, -⟩ := behind_digits more hunit hd
  have hwhole : (digits.chars ++ (Formula.unitChars unit ++ d :: more)).takeWhile isDecimalDigit =
      digits.chars := by
    rw [heq]
    exact takeWhile_run hdigits hdigit ds
  have hsign : (digits.chars ++ (Formula.unitChars unit ++ d :: more)).takeWhile
      (fun c => c == '+' || c == '-') = [] := by
    obtain ⟨c, cs, hchars⟩ := List.exists_cons_of_ne_nil digits.nonempty
    have hc := digits.all c (by simp [hchars])
    have hplus : c ≠ '+' := digit_ne hc (by decide)
    have hminus : c ≠ '-' := digit_ne hc (by decide)
    simp [hchars, hplus, hminus]
  have hne : digits.chars.isEmpty = false := by simpa using digits.nonempty
  unfold NumberText.read?
  simp [hsign, hwhole, hne, readPlaces_unit hunit hd, readExponent_unit hunit hd,
    readUnit_unit hunit hd]

def numberToken (spaced : Bool) (digits : Numeral) (unit : Option Word) : Token :=
  glyph spaced (.number (String.ofList (digits.chars ++ Formula.unitChars unit))
    (.ofDecimal false (Decimal.digitsValue digits.chars) 0) (String.ofList (Formula.unitChars unit)))
    (digits.chars ++ Formula.unitChars unit)

theorem value_number (digits : Numeral) (unit : List Char) :
    NumberText.value ⟨[], digits.chars, [], [], unit⟩ =
      .ofDecimal false (Decimal.digitsValue digits.chars) 0 := by
  have hplain : digits.chars.map Decimal.plainChar = digits.chars := by
    have heach : ∀ c ∈ digits.chars, Decimal.plainChar c = id c := fun c hc =>
      (digit_cases (digits.all c hc)).2.1
    rw [List.map_congr_left heach, List.map_id]
  have hexponent : (Decimal.readExponent? []).getD 0 = 0 := by decide
  simp [NumberText.value, hplain, hexponent]

theorem fits_number (digits : Numeral) (unit : Option Word) (hd : d ∈ closers) :
    Fits (numberToken spaced digits unit) (d :: more) := by
  have hread := read_number more digits unit hd
  have hvalue := value_number digits (Formula.unitChars unit)
  unfold numberToken
  obtain ⟨c, cs, hchars⟩ := List.exists_cons_of_ne_nil digits.nonempty
  have hc := digits.all c (by simp [hchars])
  have hother : ∀ e ∈ openers, c ≠ e := fun e he => digit_ne hc he
  obtain ⟨-, -, hblank, -, hu, -⟩ := digit_cases hc
  rw [hchars] at hread hvalue ⊢
  apply fits_glyph hblank
  · intro h
    exact absurd h (hother '/' (by decide))
  · intro previous gap
    have hurl : ∀ ds, opensUrl (c :: ds) = false := by
      intro ds
      simp [opensUrl, opensWith, hu]
    have hsmall : c ≠ 'u' := by
      rintro rfl
      cases hu
    have hcapital : c ≠ 'U' := by
      rintro rfl
      cases hu
    rw [lexemeAt_plain (no_quote hother) (hurl _)]
    unfold plainAt
    rw [no_range hsmall hcapital]
    simp only [List.cons_append] at hread ⊢
    simp [hother '@' (by decide), number?, hread, hvalue, NumberText.text, String.append_assoc]

end Numbers

end StyleTally.Stylesheet
