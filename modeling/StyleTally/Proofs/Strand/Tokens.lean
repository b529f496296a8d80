import StyleTally.Proofs.Guard.RoundTrip

/-!
# Strands of simple selectors

A strand is a selector of types, classes and ids with combinators between them. It is written with a
blank on each side of a combinator or with none. Its text is read as the tokens of its members,
unless a plus sign without blanks joins a `u` and a hexadecimal digit to a range of code points.
-/

namespace StyleTally.Stylesheet

open Text
open Formula (wordToken)

inductive Combinator where
  | child
  | next
  | later
  deriving DecidableEq, Repr

def Combinator.symbol : Combinator → Char
  | child => '>'
  | next => '+'
  | later => '~'

inductive Simple where
  | type (name : Word)
  | classOf (name : Word)
  | idOf (name : Word)

namespace Simple

def text : Simple → List Char
  | type name => name.chars
  | classOf name => '.' :: name.chars
  | idOf name => '#' :: name.chars

/-- Whether a type or class has for its name the letter that opens a range of code points. -/
def namesRangeLetter : Simple → Bool
  | type name | classOf name => name.chars == ['u'] || name.chars == ['U']
  | idOf _ => false

def opensHexadecimal (s : Simple) : Bool := s.text.head?.any isHexDigit

def isWhen : Simple → Bool
  | type name => name.chars.map Char.toLower == "when".toList
  | _ => false

end Simple

/-- Simple selectors with combinators between them. -/
structure Strand where
  first : Simple
  more : List (Combinator × Simple)

namespace Strand

def textOf (spaced : Bool) : List (Combinator × Simple) → List Char
  | [] => []
  | (c, s) :: more =>
    (if spaced then [' ', c.symbol, ' '] else [c.symbol]) ++ s.text ++ textOf spaced more

/-- A strand as it is written, with blanks around its combinators or with none. -/
def text (spaced : Bool) (r : Strand) : List Char := r.first.text ++ textOf spaced r.more

/-- The elements that a strand stands for. -/
def elements (r : Strand) : Selector :=
  ⟨.text (String.ofList r.first.text), none⟩ ::
    r.more.map fun (c, s) => ⟨.text (String.ofList s.text), some c.symbol⟩

/-- Whether a plus sign behind the selector, or behind one further on, makes up a range of code
points when no blank stands next to it. -/
def joinsRange (s : Simple) : List (Combinator × Simple) → Bool
  | [] => false
  | (c, s') :: more =>
    c == .next && s.namesRangeLetter && s'.opensHexadecimal || joinsRange s' more

end Strand

def hashToken (spaced : Bool) (w : Word) : Token :=
  glyph spaced (.hash (String.ofList ('#' :: w.chars))) ('#' :: w.chars)

namespace Simple

def tokens (spaced : Bool) : Simple → List Token
  | type name => [wordToken spaced name]
  | classOf name => [mark spaced '.', wordToken false name]
  | idOf name => [hashToken spaced name]

theorem charsOf_tokens (spaced : Bool) (s : Simple) :
    charsOf (s.tokens spaced) = (if spaced then [' '] else []) ++ s.text := by
  cases s <;> simp [tokens, charsOf, wordToken, hashToken, mark, glyph, text]

end Simple

namespace Strand

def tokensOf (spaced : Bool) : List (Combinator × Simple) → List Token
  | [] => []
  | (c, s) :: more => mark spaced c.symbol :: (s.tokens spaced ++ tokensOf spaced more)

def tokens (spaced : Bool) (r : Strand) : List Token := r.first.tokens false ++ tokensOf spaced r.more

theorem charsOf_tokensOf (spaced : Bool) (more : List (Combinator × Simple)) :
    charsOf (tokensOf spaced more) = textOf spaced more := by
  induction more with
  | nil => rfl
  | cons p more ih =>
    obtain ⟨c, s⟩ := p
    rw [tokensOf, charsOf_cons, charsOf_append, Simple.charsOf_tokens, ih, textOf]
    cases spaced <;> simp [mark, glyph]

theorem charsOf_tokens (spaced : Bool) (r : Strand) : charsOf (r.tokens spaced) = r.text spaced := by
  rw [tokens, charsOf_append, Simple.charsOf_tokens, charsOf_tokensOf, text]
  simp

end Strand

section Joints

/-- What may follow a simple selector. -/
def joints : List Char := [' ', '>', '+', '~']

variable {d : Char} {more rest : List Char} {spaced : Bool}

theorem joint_cases (hd : d ∈ joints) :
    isNameChar d = false ∧ isIdentChar d = false ∧ d ≠ '\\' ∧ (d == '(') = false ∧ (d == ':') = false ∧
      (∀ c ∈ "urlprogd".toList, isLetter c d = false) ∧ ['i', 'I', 'ı', 'İ'].contains d = false := by
  have hletters (h : "urlprogd".toList.any (isLetter · d) = false) :
      ∀ c ∈ "urlprogd".toList, isLetter c d = false :=
    fun c hc => eq_false_of_ne_true (List.any_eq_false.mp h c hc)
  simp only [joints, List.mem_cons, List.not_mem_nil, or_false] at hd
  rcases hd with rfl | rfl | rfl | rfl
  all_goals exact ⟨by decide, by decide, by decide, rfl, rfl, hletters (by decide), by decide⟩

theorem letters_ne (w : Word) {e : Char} (he : e ∈ openers) : ∀ c ∈ w.chars, (c == e) = false :=
  fun c hc => beq_eq_false_iff_ne.mpr (letter_ne (w.all c hc) he)

theorem opensUrl_joint (w : Word) (hd : d ∈ joints) : opensUrl (w.chars ++ d :: more) = false := by
  rw [Bool.eq_false_iff]
  intro h
  obtain ⟨-, -, -, hparen, -, hletters, -⟩ := joint_cases hd
  have hfront : ∀ p ∈ [isLetter 'u', isLetter 'r', isLetter 'l'], p d = false := by
    intro p hp
    simp only [List.mem_cons, List.not_mem_nil, or_false] at hp
    rcases hp with rfl | rfl | rfl <;> exact hletters _ (by decide)
  obtain ⟨-, -, hopen⟩ := opensWith_word [isLetter 'u', isLetter 'r', isLetter 'l'] (· == '(')
    (letters_ne w (by decide)) hfront h
  rw [hparen] at hopen
  cases hopen

theorem opensFilter_joint (w : Word) (hd : d ∈ joints) :
    opensWith filterMark (w.chars ++ d :: more) = false := by
  rw [Bool.eq_false_iff]
  intro h
  obtain ⟨-, -, -, -, hcolon, hletters, hdotted⟩ := joint_cases hd
  have hfront : ∀ p ∈ filterMark.take 6, p d = false := by
    intro p hp
    simp only [filterMark, List.take_succ_cons, List.take_zero, List.mem_cons, List.not_mem_nil,
      or_false] at hp
    rcases hp with rfl | rfl | rfl | rfl | rfl | rfl
    · exact hletters _ (by decide)
    · exact hletters _ (by decide)
    · exact hletters _ (by decide)
    · exact hletters _ (by decide)
    · exact hdotted
    · exact hletters _ (by decide)
  obtain ⟨-, -, hlast⟩ := opensWith_word (filterMark.take 6) (· == ':')
    (letters_ne w (by decide)) hfront h
  rw [hcolon] at hlast
  cases hlast

/-- A range of code points needs its letter alone, a plus sign and a digit. -/
theorem no_range_joint (w : Word)
    (h : d ≠ '+' ∨ (w.chars ≠ ['u'] ∧ w.chars ≠ ['U']) ∨
      ∃ e ds, more = e :: ds ∧ isHexDigit e = false ∧ e ≠ '?') :
    unicodeRangeLength? (w.chars ++ d :: more) = none := by
  obtain ⟨c, cs, hchars⟩ := List.exists_cons_of_ne_nil w.nonempty
  have hcs : ∀ e ∈ cs, e.isAlpha = true := fun e he => w.all e (by simp [hchars, he])
  rw [hchars] at h ⊢
  cases cs with
  | nil =>
    rcases h with hplus | ⟨hsmall, hcapital⟩ | ⟨e, ds, rfl, hhex, hmark⟩
    · exact no_range_word hcs hplus
    · exact no_range (by simpa using hsmall) (by simpa using hcapital)
    · by_cases hplus : d = '+'
      · subst hplus
        simp [unicodeRangeLength?, hhex, hmark]
      · exact no_range_word hcs hplus
  | cons e cs =>
    have he : e ≠ '+' := letter_ne (hcs e List.mem_cons_self) (by decide)
    unfold unicodeRangeLength?
    split
    · rename_i heq
      obtain ⟨-, htail⟩ := List.cons.inj heq
      exact absurd (List.cons.inj htail).1 he
    · rfl

theorem escapedRun_name {cs : List Char} (hcs : ∀ e ∈ cs, e.isAlpha = true)
    (hd : isNameChar d = false) (hescape : d ≠ '\\') :
    escapedRun isNameChar (cs ++ d :: more) = cs.length := by
  induction cs with
  | nil => rw [List.nil_append, escapedRun_cons hescape, hd]; rfl
  | cons e cs ih =>
    have he := hcs e List.mem_cons_self
    rw [List.cons_append, escapedRun_cons (letter_ne he (by decide)), (letter_cases he).1,
      ih fun e he => hcs e (List.mem_cons_of_mem _ he)]
    rfl

theorem fits_hash (w : Word) (hd : d ∈ joints) : Fits (hashToken spaced w) (d :: more) := by
  obtain ⟨hname, -, hescape, -⟩ := joint_cases hd
  have hrun : escapedRun isNameChar (w.chars ++ d :: more) = w.chars.length :=
    escapedRun_name w.all hname hescape
  have hpos : 0 < w.chars.length := List.length_pos_iff.mpr w.nonempty
  apply fits_glyph (by decide)
  · intro h
    cases h
  · intro previous gap
    have hnumber : NumberText.read? ('#' :: (w.chars ++ d :: more)) = none :=
      no_number (by decide) (by decide)
    rw [lexemeAt_plain (by decide) rfl]
    unfold plainAt
    rw [no_range (by decide) (by decide)]
    simp [number?, hnumber, hashAt, hrun, hpos, nameFrom]

/-- A plus sign in front of a blank, a letter, a number sign, or a point that no digit follows. -/
theorem fits_plus {e : Char} (he : isDecimalDigit e = false)
    (hpoint : e = '.' → ∃ f ds, more = f :: ds ∧ isDecimalDigit f = false) :
    Fits (mark spaced '+') (e :: more) := by
  have hnumber : NumberText.read? ('+' :: e :: more) = none := by
    by_cases hdot : e = '.'
    · obtain ⟨f, ds, rfl, hf⟩ := hpoint hdot
      subst hdot
      simp [NumberText.read?, NumberText.readPlaces, he, hf]
    · exact no_signed_number (.inl rfl) he hdot
  apply fits_mark (by simp [marks])
  · intro h
    cases h
  · exact hnumber
  · exact no_name (by simp [marks]) (by decide)

end Joints

section Fitting

variable {d : Char} {more : List Char}

/-- What a simple selector opens with. -/
theorem Simple.exists_head (s : Simple) :
    ∃ e ds, s.text = e :: ds ∧ isDecimalDigit e = false ∧ e ≠ '?' ∧
      (e = '.' → ∃ f fs, ds = f :: fs ∧ isDecimalDigit f = false) := by
  have hletter {e : Char} (he : e.isAlpha = true) : isDecimalDigit e = false ∧ e ≠ '?' ∧ e ≠ '.' := by
    refine ⟨(letter_cases he).2.2.2.2.1, ?_, letter_ne he (by decide)⟩
    rintro rfl
    cases he
  cases s with
  | type name =>
    obtain ⟨e, es, hchars⟩ := List.exists_cons_of_ne_nil name.nonempty
    obtain ⟨hdigit, hmark, hpoint⟩ := hletter (name.all e (by simp [hchars]))
    exact ⟨e, es, hchars, hdigit, hmark, fun h => absurd h hpoint⟩
  | classOf name =>
    obtain ⟨e, es, hchars⟩ := List.exists_cons_of_ne_nil name.nonempty
    obtain ⟨hdigit, -, -⟩ := hletter (name.all e (by simp [hchars]))
    exact ⟨'.', name.chars, rfl, by decide, by decide, fun _ => ⟨e, es, hchars, hdigit⟩⟩
  | idOf name => exact ⟨'#', name.chars, rfl, by decide, by decide, fun h => absurd h (by decide)⟩

theorem Simple.fitting_tokens (spaced : Bool) (s : Simple) (hd : d ∈ joints)
    (hrange : s.namesRangeLetter = true → d = '+' →
      ∃ e ds, more = e :: ds ∧ isHexDigit e = false ∧ e ≠ '?') :
    Fitting (s.tokens spaced) (d :: more) := by
  obtain ⟨-, hident, hescape, -⟩ := joint_cases hd
  have hname (own : Bool) (w : Word)
      (hw : (w.chars == ['u'] || w.chars == ['U']) = true → s.namesRangeLetter = true) :
      Fits (wordToken own w) (d :: more) := by
    apply fits_name w hident hescape _ (opensUrl_joint w hd) (opensFilter_joint w hd)
    apply no_range_joint
    by_cases hplus : d = '+'
    · by_cases hletter : s.namesRangeLetter = true
      · exact .inr (.inr (hrange hletter hplus))
      · refine .inr (.inl ?_)
        have hother : (w.chars == ['u'] || w.chars == ['U']) = false := by
          rw [← Bool.not_eq_true]
          exact fun h => hletter (hw h)
        simpa using hother
    · exact .inl hplus
  cases s with
  | type name => exact ⟨hname spaced name fun h => h, trivial⟩
  | classOf name =>
    obtain ⟨e, es, hchars⟩ := List.exists_cons_of_ne_nil name.nonempty
    have he : e.isAlpha = true := name.all e (by simp [hchars])
    refine ⟨?_, hname false name fun h => h, trivial⟩
    have htext : charsOf [wordToken false name] ++ d :: more = e :: (es ++ d :: more) := by
      simp [charsOf, wordToken, glyph, hchars]
    rw [htext]
    exact Clause.fits_point he _
  | idOf name => exact ⟨fits_hash name hd, trivial⟩

theorem fits_combinator (spaced : Bool) (c : Combinator) (s : Simple) (rest : List Char) :
    Fits (mark spaced c.symbol) (charsOf (s.tokens spaced) ++ rest) := by
  cases c with
  | child => exact fits_bracket (by decide)
  | later => exact fits_bracket (by decide)
  | next =>
    rw [Simple.charsOf_tokens]
    cases spaced with
    | true => exact fits_plus (by decide) fun h => absurd h (by decide)
    | false =>
      obtain ⟨e, ds, htext, hdigit, -, hpoint⟩ := s.exists_head
      have hfront : (if false = true then [' '] else []) ++ s.text ++ rest = e :: (ds ++ rest) := by
        simp [htext]
      rw [hfront]
      apply fits_plus hdigit
      intro he
      obtain ⟨f, fs, rfl, hf⟩ := hpoint he
      exact ⟨f, fs ++ rest, rfl, hf⟩

theorem Combinator.symbol_joint (c : Combinator) : c.symbol ∈ joints := by
  cases c <;> decide

/-- A simple selector is read in front of a combinator and another one, without blanks, unless they
make up a range of code points. -/
theorem Simple.fitting_joint (own : Bool) (s s' : Simple) (c : Combinator) (rest : List Char)
    (h : (c == .next && s.namesRangeLetter && s'.opensHexadecimal) = false) :
    Fitting (s.tokens own) (c.symbol :: (s'.text ++ rest)) := by
  apply s.fitting_tokens own c.symbol_joint
  intro hletter hplus
  obtain ⟨e, ds, htext, -, hmark, -⟩ := s'.exists_head
  have hnext : c = .next := by
    cases c with
    | next => rfl
    | child | later => exact absurd hplus (by decide)
  have hopens : s'.opensHexadecimal = false := by simpa [hnext, hletter] using h
  rw [Simple.opensHexadecimal, htext] at hopens
  refine ⟨e, ds ++ rest, ?_, hopens, hmark⟩
  rw [htext]
  rfl

/-- The members of a strand are read one by one, in front of a blank. -/
theorem Strand.fitting_tokensOf (spaced own : Bool) (s : Simple) (more : List (Combinator × Simple))
    (h : spaced = true ∨ joinsRange s more = false) (rest : List Char) :
    Fitting (s.tokens own ++ tokensOf spaced more) (' ' :: rest) := by
  induction more generalizing s own with
  | nil =>
    rw [tokensOf, List.append_nil]
    exact s.fitting_tokens own (by decide) fun _ h => absurd h (by decide)
  | cons p more ih =>
    obtain ⟨c, s'⟩ := p
    have hmore : spaced = true ∨ joinsRange s' more = false := by
      refine h.imp_right fun h => ?_
      rw [joinsRange, Bool.or_eq_false_iff] at h
      exact h.2
    refine Fitting.append ?_ ⟨?_, ih spaced s' hmore⟩
    · rw [tokensOf, charsOf_cons, charsOf_append, Simple.charsOf_tokens]
      cases spaced with
      | true => exact s.fitting_tokens own (by decide) fun _ h => absurd h (by decide)
      | false =>
        have hjoins := h.resolve_left Bool.false_ne_true
        rw [joinsRange, Bool.or_eq_false_iff] at hjoins
        simpa [mark, glyph] using s.fitting_joint own s' c _ hjoins.1
    · rw [charsOf_append, List.append_assoc]
      exact fits_combinator spaced c s' _

end Fitting

end StyleTally.Stylesheet
