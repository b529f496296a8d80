import StyleTally.Proofs.Lead.Sheet
import StyleTally.Proofs.Strand.Inversion
import StyleTally.Proofs.Strand.RoundTrip

/-!
# Strands that blanks change

Both texts of a strand parse to one and the same ruleset, unless a plus sign without blanks makes up
a range of code points, which is no selector, or a blank makes the word that opens a guard of a type
behind the first. In these cases the texts never parse to the same ruleset.
-/

namespace StyleTally.Stylesheet

open Text
open Formula (letter wordToken)

section Ranges

variable {stop t : Token} {front rest : List Token}

/-- A range of code points. -/
def IsRange (t : Token) : Prop := ∃ text, t.lexeme = .unicodeRange text

/-- No selector is read from tokens that a range of code points follows. -/
def Blocked (front : List Token) : Prop :=
  ∀ pending first stop t rest, IsRange t →
    ∃ e, Grammar.elementsFrom pending first stop (front ++ t :: rest) = .error e

theorem part_range (stop : Token) (rest : List Token) (ht : IsRange t) :
    ∃ e, Grammar.part stop t rest = .error e := by
  obtain ⟨text, ht⟩ := ht
  have hmarked : Grammar.marked? t rest = none := Simple.marked?_eq_none (by simp [ht]) rest
  refine ⟨.malformed (.unexpectedInSelector (foundAt [t])) t.line, ?_⟩
  unfold Grammar.part
  rw [hmarked, ht]

theorem blocked_nil : Blocked [] := by
  intro pending first stop t rest ht
  obtain ⟨e, he⟩ := part_range stop rest ht
  have hsign : Grammar.combinator? t rest = none := by
    obtain ⟨text, ht⟩ := ht
    simp [Grammar.combinator?, Token.isDelim, ht]
  refine ⟨e, ?_⟩
  rw [List.nil_append, Grammar.elementsFrom, hsign]
  simp only [he, bind, Except.bind]

theorem blocked_point : Blocked [mark false '.'] := by
  intro pending first stop t rest ⟨text, ht⟩
  have hmarked : Grammar.marked? (mark false '.') (t :: rest) = none := by
    simp [Grammar.marked?, ht]
  have hpart : Grammar.part stop (mark false '.') (t :: rest) =
      .error (.malformed (.unexpectedInSelector (foundAt [mark false '.'])) 0) := by
    unfold Grammar.part
    rw [hmarked]
    rfl
  refine ⟨.malformed (.unexpectedInSelector (foundAt [mark false '.'])) 0, ?_⟩
  rw [List.singleton_append, Grammar.elementsFrom]
  change Grammar.part stop (mark false '.') (t :: rest) >>= _ = _
  rw [hpart]
  rfl

theorem isQuoted_members (hfront : ∀ t ∈ front, IsMember t)
    (ht : IsRange t) : Grammar.isQuoted (front ++ t :: rest) = false := by
  obtain ⟨text, ht⟩ := ht
  unfold Grammar.isQuoted
  split
  · rename_i heq
    cases front with
    | nil =>
      obtain ⟨rfl, -⟩ := List.cons.inj heq
      cases ht
    | cons u front =>
      obtain ⟨rfl, -⟩ := List.cons.inj heq
      rcases hfront _ List.mem_cons_self with ⟨_, h⟩ | ⟨_, h⟩ | ⟨_, -, h⟩ <;> cases h
  · rfl

theorem blocked_behind (s : Simple) (c : Combinator) (hfront : ∀ t ∈ front, IsMember t)
    (h : Blocked front) : Blocked (s.tokens false ++ mark false c.symbol :: front) := by
  intro pending first stop t rest ht
  obtain ⟨e, he⟩ := h (some c.symbol) false stop t rest ht
  refine ⟨e, ?_⟩
  rw [List.append_assoc, Simple.elementsFrom_tokens, List.cons_append,
    Strand.elementsFrom_symbol none false false c (isQuoted_members hfront ht), he]
  rfl

/-- Tokens of a strand without blanks, in front of a text that opens with a range. -/
structure Approach (front : List Token) (text : List Char) : Prop where
  member : ∀ t ∈ front, IsMember t
  unspaced : ∀ t ∈ front, t.spaced = false
  blocked : Blocked front
  fitting : Fitting front text
  opens : ∃ letter digit cs, text = letter :: '+' :: digit :: cs ∧ (letter = 'u' ∨ letter = 'U') ∧
    isHexDigit digit = true

/-- The letter, the plus sign and the digit stand behind the point of a class, or behind nothing. -/
theorem approach_joint {s s' : Simple} (hletter : s.namesRangeLetter = true)
    (hopens : s'.opensHexadecimal = true) (rest : List Char) :
    ∃ front text, s.text ++ '+' :: (s'.text ++ rest) = charsOf front ++ text ∧
      Approach front text := by
  obtain ⟨digit, ds, htext, -⟩ := s'.exists_head
  rw [Simple.opensHexadecimal, htext] at hopens
  have hopening (letter : Char) (hl : letter = 'u' ∨ letter = 'U') :
      ∃ l d cs, letter :: '+' :: (s'.text ++ rest) = l :: '+' :: d :: cs ∧ (l = 'u' ∨ l = 'U') ∧
        isHexDigit d = true := by
    refine ⟨letter, digit, ds ++ rest, ?_, hl, hopens⟩
    rw [htext]
    rfl
  have hname {name : Word} (h : (name.chars == ['u'] || name.chars == ['U']) = true) :
      ∃ letter, name.chars = [letter] ∧ (letter = 'u' ∨ letter = 'U') := by
    simp only [Bool.or_eq_true, beq_iff_eq] at h
    rcases h with h | h
    · exact ⟨'u', h, .inl rfl⟩
    · exact ⟨'U', h, .inr rfl⟩
  cases s with
  | type name =>
    obtain ⟨letter, hchars, hl⟩ := hname hletter
    refine ⟨[], letter :: '+' :: (s'.text ++ rest), ?_, ?_⟩
    · simp [Simple.text, hchars, charsOf]
    · exact ⟨by simp, by simp, blocked_nil, trivial, hopening letter hl⟩
  | classOf name =>
    obtain ⟨letter, hchars, hl⟩ := hname hletter
    have halpha : letter.isAlpha = true := by
      rcases hl with rfl | rfl <;> rfl
    refine ⟨[mark false '.'], letter :: '+' :: (s'.text ++ rest), ?_, ?_⟩
    · simp [Simple.text, hchars, charsOf, mark, glyph]
    · refine ⟨?_, ?_, blocked_point, ⟨Clause.fits_point halpha _, trivial⟩, hopening letter hl⟩
      · intro t ht
        obtain rfl := List.mem_singleton.mp ht
        exact .inr (.inr ⟨'.', by decide, rfl⟩)
      · intro t ht
        obtain rfl := List.mem_singleton.mp ht
        rfl
  | idOf name => cases hletter

namespace Strand

theorem exists_approach {s : Simple} {more : List (Combinator × Simple)}
    (h : joinsRange s more = true) (tail : List Char) :
    ∃ front text, s.text ++ (textOf false more ++ tail) = charsOf front ++ text ∧
      Approach front text := by
  induction more generalizing s with
  | nil => cases h
  | cons p more ih =>
    obtain ⟨c, s'⟩ := p
    cases hjoins : c == .next && s.namesRangeLetter && s'.opensHexadecimal with
    | true =>
      simp only [Bool.and_eq_true, beq_iff_eq] at hjoins
      obtain ⟨⟨rfl, hletter⟩, hopens⟩ := hjoins
      have happroach := approach_joint hletter hopens (textOf false more ++ tail)
      simpa [textOf, Combinator.symbol] using happroach
    | false =>
      have hmore : joinsRange s' more = true := by
        rw [joinsRange, hjoins, Bool.false_or] at h
        exact h
      obtain ⟨front, text, htext, happroach⟩ := ih hmore
      refine ⟨s.tokens false ++ mark false c.symbol :: front, text, ?_, ?_, ?_, ?_, ?_,
        happroach.opens⟩
      · rw [textOf, charsOf_append, Simple.charsOf_tokens, charsOf_cons]
        simp [mark, glyph, htext]
      · intro t ht
        rcases List.mem_append.mp ht with ht | ht
        · exact Simple.member_of_mem ht
        · rcases List.mem_cons.mp ht with rfl | ht
          · exact member_symbol false c
          · exact happroach.member t ht
      · intro t ht
        rcases List.mem_append.mp ht with ht | ht
        · exact Simple.spaced_of_mem ht
        · rcases List.mem_cons.mp ht with rfl | ht
          · rfl
          · exact happroach.unspaced t ht
      · exact blocked_behind s c happroach.member happroach.blocked
      · have hnext : charsOf (mark false c.symbol :: front) ++ text =
            c.symbol :: (s'.text ++ (textOf false more ++ tail)) := by
          rw [htext]
          rfl
        have hsymbol : charsOf front ++ text =
            charsOf (s'.tokens false) ++ (textOf false more ++ tail) := by
          rw [Simple.charsOf_tokens, ← htext]
          rfl
        refine Fitting.append ?_ ⟨?_, happroach.fitting⟩
        · rw [hnext]
          exact s.fitting_joint false s' c _ hjoins
        · rw [hsymbol]
          exact fits_combinator false c s' _

end Strand

theorem range_length {letter digit : Char} (hletter : letter = 'u' ∨ letter = 'U')
    (hdigit : isHexDigit digit = true) (cs : List Char) :
    ∃ n, unicodeRangeLength? (letter :: '+' :: digit :: cs) = some n := by
  have hopens : ((letter == 'u' || letter == 'U') &&
      0 < min ((digit :: cs).takeWhile fun c => isHexDigit c || c == '?').length 6) = true := by
    have hfirst : 0 < ((digit :: cs).takeWhile fun c => isHexDigit c || c == '?').length := by
      simp [hdigit]
    simp only [Bool.and_eq_true, Bool.or_eq_true, beq_iff_eq, decide_eq_true_eq]
    exact ⟨hletter, by omega⟩
  simp only [unicodeRangeLength?]
  rw [if_pos hopens]
  split <;> exact ⟨_, rfl⟩

theorem tokensFrom_range {text : List Char} {line start : Nat} {previous : Option Token}
    {us : List Token} (happroach : Approach front text)
    (h : tokensFrom line start previous text = .ok (us ++ [stop])) :
    ∃ t rest, us = t :: rest ∧ IsRange t := by
  obtain ⟨letter, digit, cs, rfl, hletter, hdigit⟩ := happroach.opens
  obtain ⟨n, hn⟩ := range_length hletter hdigit cs
  have hlexeme : lexemeAt previous [] letter ('+' :: digit :: cs) =
      .ok (.unicodeRange (nameFrom letter ('+' :: digit :: cs) (n - 1)), n - 1) := by
    have hurl : opensUrl (letter :: '+' :: digit :: cs) = false := by
      have hsign : isLetter 'r' '+' = false := by decide
      simp [opensUrl, opensWith, hsign]
    rw [lexemeAt_plain ?_ hurl]
    · unfold plainAt
      rw [hn]
    · rcases hletter with rfl | rfl <;> decide
  have hgap : gapFrom line .blank (letter :: '+' :: digit :: cs) =
      .ok ([], letter :: '+' :: digit :: cs) := by
    rcases hletter with rfl | rfl
    · exact gapFrom_glyph false line (by decide) fun h => absurd h (by decide)
    · exact gapFrom_glyph false line (by decide) fun h => absurd h (by decide)
  obtain ⟨t, rest, hnext, hcases⟩ := tokensFrom_cases h
  rw [nextToken, hgap] at hnext
  simp only [hlexeme] at hnext
  obtain ⟨rfl, -⟩ := Prod.mk.inj (Except.ok.inj hnext)
  rcases hcases with ⟨htext, -⟩ | ⟨-, -, vs, hvs, heq⟩
  · cases htext
  · cases us with
    | nil => exact absurd (List.cons.inj heq).2.symm (tokensFrom_ne_nil hvs)
    | cons u us =>
      obtain ⟨rfl, -⟩ := List.cons.inj heq
      exact ⟨_, us, rfl, ⟨_, rfl⟩⟩

/-- A search for the end of a range goes past a range of code points. -/
theorem crosses_range {stops : List Char} (hfront : ∀ t ∈ front, IsMember t)
    (ht : IsRange t) (hstops : Apart stops) (rest : List Token) :
    cut stops 0 (front ++ t :: rest) = (front ++ t :: (cut stops 0 rest).1, (cut stops 0 rest).2) := by
  have hcross : Crosses stops 0 (front ++ [t]) 0 := by
    obtain ⟨name, ht⟩ := ht
    refine (crosses_members hfront hstops).append (.cons ?_ .nil)
    rw [depthAfter?, ht]
  simpa using hcross rest

/-- No selectors are read from tokens among which a range of code points stands. -/
theorem selectors_blocked (hfront : ∀ t ∈ front, IsMember t) (hblocked : Blocked front)
    (ht : IsRange t) (stop : Token) (rest : List Token) :
    ∃ e, Grammar.selectors stop (front ++ t :: rest) = .error e := by
  have hcut := crosses_range hfront ht (by decide : Apart [',']) rest
  have hselector (stop : Token) : ∃ e, Grammar.selector stop (front ++ t :: (cut [','] 0 rest).1) =
      .error e := by
    obtain ⟨e, he⟩ := hblocked none true stop t (cut [','] 0 rest).1 ht
    refine ⟨e, ?_⟩
    rw [Grammar.selector, he]
    rfl
  have hne : (front ++ t :: rest).isEmpty = false := by simp
  rw [Grammar.selectors, hne, if_neg Bool.false_ne_true, Grammar.pieces_eq, hcut]
  generalize (cut [','] 0 rest).2 = after
  cases after with
  | nil =>
    obtain ⟨e, he⟩ := hselector stop
    exact ⟨e, by simp [Except.bind, eachPiece, he, bind]⟩
  | cons u after =>
    obtain ⟨e, he⟩ := hselector u
    dsimp only
    split
    · cases pieces ',' stop after with
      | error e => exact ⟨e, rfl⟩
      | ok pieces => exact ⟨e, by simp [Except.map, Except.bind, eachPiece, he, bind]⟩
    · exact ⟨_, rfl⟩

theorem splitGuard_range (hfront : ∀ t ∈ front, IsMember t) (hspaced : ∀ t ∈ front, t.spaced = false)
    (ht : IsRange t) (rest : List Token) :
    Grammar.splitGuard 0 (front ++ t :: rest) =
      (Grammar.splitGuard 0 rest).map fun (before, w, after) => (front ++ t :: before, w, after) := by
  have hnone : ∀ t ∈ front, (t.isWord "when" && t.spaced) = false := by
    intro t ht
    rw [hspaced t ht, Bool.and_false]
  have hstep : Grammar.splitGuard 0 (t :: rest) =
      (Grammar.splitGuard 0 rest).map fun (before, w, after) => (t :: before, w, after) := by
    obtain ⟨name, ht⟩ := ht
    simp [Grammar.splitGuard, Token.isDelim, Token.isWord, ht]
  rw [splitGuard_members hfront hnone, hstep, Option.map_map]
  rfl

theorem rulesetHead_blocked {room : Room} {brace : Token} (hfront : ∀ t ∈ front, IsMember t)
    (hspaced : ∀ t ∈ front, t.spaced = false) (hblocked : Blocked front)
    (ht : IsRange t) (rest : List Token) :
    ∃ e, Grammar.rulesetHead room brace (front ++ t :: rest) = .error e := by
  unfold Grammar.rulesetHead
  rw [splitGuard_range hfront hspaced ht]
  cases Grammar.splitGuard 0 rest with
  | none =>
    obtain ⟨e, he⟩ := selectors_blocked hfront hblocked ht brace rest
    exact ⟨e, by simp [he, Except.map]⟩
  | some found =>
    obtain ⟨before, w, after⟩ := found
    obtain ⟨e, he⟩ := selectors_blocked hfront hblocked ht w before
    exact ⟨e, by simp [he, bind, Except.bind]⟩

end Ranges

section Guards

variable {ts : List Token}

theorem splitGuard_isSome (hts : ∀ t ∈ ts, IsMember t)
    (h : ∃ t ∈ ts, (t.isWord "when" && t.spaced) = true) :
    ∃ found, Grammar.splitGuard 0 ts = some found := by
  induction ts with
  | nil =>
    obtain ⟨t, ht, -⟩ := h
    cases ht
  | cons u ts ih =>
    obtain ⟨hu, hts⟩ := List.forall_mem_cons.mp hts
    cases hword : u.isWord "when" && u.spaced with
    | true => exact ⟨([], u, ts), by simp [Grammar.splitGuard, hu.isDelim, hword]⟩
    | false =>
      obtain ⟨t, ht, hwhen⟩ := h
      have hmem : t ∈ ts := by
        rcases List.mem_cons.mp ht with rfl | ht
        · rw [hword] at hwhen
          cases hwhen
        · exact ht
      obtain ⟨found, hfound⟩ := ih hts ⟨t, hmem, hwhen⟩
      exact ⟨(u :: found.1, found.2), by simp [Grammar.splitGuard, hu.isDelim, hword, hfound]⟩

end Guards

namespace Strand

variable {r : Strand} {limit : Int} {selectors : List Selector} {guard : Option (List Value)}
  {inner : List Statement}

theorem mem_tokensOf {spaced : Bool} {more : List (Combinator × Simple)} {p : Combinator × Simple}
    {t : Token} (hp : p ∈ more) (ht : t ∈ p.2.tokens spaced) : t ∈ tokensOf spaced more := by
  induction more with
  | nil => cases hp
  | cons q more ih =>
    obtain ⟨c, s⟩ := q
    rw [tokensOf, List.mem_cons, List.mem_append]
    rcases List.mem_cons.mp hp with rfl | hp
    · exact .inr (.inl ht)
    · exact .inr (.inr (ih hp))

theorem no_ruleset_of_range (h : joinsRange r.first r.more = true) :
    parse limit (r.source false) ≠ .ok [.ruleset selectors guard inner] := by
  intro hparse
  obtain ⟨front, text, htext, happroach⟩ := exists_approach h " \x7b x: 1; \x7d".toList
  have hchars : (r.source false).toList = charsOf front ++ text := by
    rw [← htext, source, String.toList_append, String.toList_ofList, Strand.text, List.append_assoc]
  obtain ⟨line, start, previous, us, stop, htokens, hsheet⟩ :=
    sheet_of_fitting hchars happroach.fitting hparse
  obtain ⟨t, rest, rfl, ht⟩ := tokensFrom_range happroach htokens
  obtain ⟨u, ts, hts, hkeyword, hseal⟩ : ∃ u ts, front ++ t :: rest = u :: ts ∧
      (∀ name, u.lexeme ≠ .atKeyword name) ∧ u.isSeal = false := by
    cases hfront : front with
    | nil =>
      obtain ⟨name, ht⟩ := ht
      exact ⟨t, rest, rfl, by simp [ht], by simp [Token.isSeal, Token.isDelim, ht]⟩
    | cons u front' =>
      have hu : IsMember u := happroach.member u (by simp [hfront])
      exact ⟨u, front' ++ t :: rest, rfl, hu.ne_atKeyword, hu.isSeal⟩
  have hhead : (Grammar.head (front ++ t :: rest)).1 =
      front ++ t :: (cut [';', '\x7b', '\x7d'] 0 rest).1 :=
    congrArg Prod.fst (crosses_range happroach.member ht (by decide) rest)
  rw [hts] at hsheet hhead
  obtain ⟨brace, hok⟩ := headed_of_sheet hkeyword hseal hsheet _ _ _ rfl
  obtain ⟨e, herror⟩ := rulesetHead_blocked happroach.member happroach.unspaced happroach.blocked ht _
  rw [hhead, herror] at hok
  cases hok

theorem splitGuard_of_when {p : Combinator × Simple} (hp : p ∈ r.more) (hwhen : p.2.isWhen = true) :
    ∃ found, Grammar.splitGuard 0 (r.tokens true) = some found := by
  obtain ⟨c, s⟩ := p
  cases s with
  | type name =>
    have hmem : wordToken true name ∈ r.tokens true :=
      List.mem_append_right _ (mem_tokensOf hp List.mem_cons_self)
    have hword : ((wordToken true name).isWord "when" && (wordToken true name).spaced) = true := by
      rw [Simple.isWord_wordToken, hwhen]
      rfl
    exact splitGuard_isSome (fun t ht => member_of_mem ht) ⟨_, hmem, hword⟩
  | classOf name | idOf name => cases hwhen

/-- A type `when` behind a blank opens a guard. -/
theorem guard_of_when {p : Combinator × Simple} (hp : p ∈ r.more) (hwhen : p.2.isWhen = true)
    (hparse : parse limit (r.source true) = .ok [.ruleset selectors guard inner]) : guard ≠ none := by
  have hchars : (r.source true).toList = charsOf (r.tokens true ++ bodyTokens) ++ [] := by
    rw [charsOf_source, List.append_nil]
  obtain ⟨line, start, previous, us, stop, -, hsheet⟩ :=
    sheet_of_fitting hchars (fitting_source (.inl rfl)) hparse
  obtain ⟨t, ts, htokens, ht⟩ := r.exists_first true
  have hfront : r.tokens true ++ (bodyTokens ++ us) = t :: (ts ++ (bodyTokens ++ us)) := by
    rw [htokens, List.cons_append]
  rw [List.append_assoc, hfront] at hsheet
  obtain ⟨brace, hok⟩ := headed_of_sheet ht.ne_atKeyword ht.isSeal hsheet _ _ _ rfl
  obtain ⟨⟨before, w, after⟩, hfound⟩ := splitGuard_of_when hp hwhen
  rw [← hfront, head_tokens true r us, Grammar.rulesetHead, hfound] at hok
  have hguard : Yields (fun p : List Selector × Option (List Value) => p.2 ≠ none)
      (Grammar.selectors w before >>= fun selectors =>
        Grammar.guard ⟨limit.toNat, stackCalls⟩ brace after >>= fun conditions =>
          pure (selectors, some conditions)) :=
    (Yields.any _).bind fun _ => (Yields.any _).bind fun _ => Option.some_ne_none _
  exact hguard.of_ok hok

/-- No plus sign makes up a range of code points, and no type behind the first is the word that
opens a guard. -/
def isPlain (r : Strand) : Bool :=
  !joinsRange r.first r.more && r.more.all fun p => !p.2.isWhen

/-- With blanks around its combinators and with none a plain strand parses to the ruleset with its
elements. The texts of any other strand do not parse to the same ruleset. -/
theorem parse_strand (r : Strand) {limit : Int} (hlimit : 0 < limit) :
    (r.isPlain = true → ∀ spaced, parse limit (r.source spaced) =
        .ok [.ruleset [r.elements] none
          [.declaration "x" (some (.dimension (.ofDecimal false 1 0) "")) false]]) ∧
      (r.isPlain = false → ¬ ∃ selectors guard inner, ∀ spaced,
        parse limit (r.source spaced) = .ok [.ruleset selectors guard inner]) := by
  constructor
  · intro hplain spaced
    simp only [isPlain, Bool.and_eq_true, Bool.not_eq_true', List.all_eq_true] at hplain
    exact parse_source r spaced hlimit (.inr hplain.1) fun _ => hplain.2
  · rintro hplain ⟨selectors, guard, inner, hparse⟩
    cases hjoins : joinsRange r.first r.more with
    | true => exact no_ruleset_of_range hjoins (hparse false)
    | false =>
      obtain ⟨p, hp, hwhen⟩ : ∃ p ∈ r.more, p.2.isWhen = true := by
        simpa [isPlain, hjoins] using hplain
      have hunguarded := parse_source r false hlimit (.inr hjoins) fun h => nomatch h
      rw [hparse false] at hunguarded
      cases hunguarded
      exact guard_of_when hp hwhen (hparse true) rfl

/-- `.u + g > #u + a` -/
def sample : Strand :=
  let u := letter 'u' rfl
  ⟨.classOf u, [(.next, .type (letter 'g' rfl)), (.child, .idOf u),
    (.next, .type (letter 'a' rfl))]⟩

theorem parse_strand_sample :
    sample.isPlain = true ∧ (0 : Int) < 64 ∧ ∀ source ∈ [".u+g>#u+a \x7b x: 1; \x7d",
        ".u + g > #u + a \x7b x: 1; \x7d"],
      parse 64 source = .ok [.ruleset
        [[⟨.text ".u", none⟩, ⟨.text "g", some '+'⟩, ⟨.text "#u", some '>'⟩, ⟨.text "a", some '+'⟩]]
        none [.declaration "x" (some (.dimension (.ofDecimal false 1 0) "")) false]] := by
  have hplain : sample.isPlain = true := by decide
  have hparse := (parse_strand sample (by decide : (0 : Int) < 64)).1 hplain
  refine ⟨hplain, by decide, ?_⟩
  intro source hsource
  simp only [List.mem_cons, List.not_mem_nil, or_false] at hsource
  rcases hsource with rfl | rfl
  · have htext : ".u+g>#u+a \x7b x: 1; \x7d" = sample.source false := rfl
    rw [htext]
    exact hparse false
  · have htext : ".u + g > #u + a \x7b x: 1; \x7d" = sample.source true := rfl
    rw [htext]
    exact hparse true

/-- `u + a`, a range of code points without its blanks -/
def joined : Strand :=
  ⟨.type (letter 'u' rfl), [(.next, .type (letter 'a' rfl))]⟩

/-- `a > when`, a guard without a test with its blanks -/
def guarded : Strand :=
  ⟨.type (letter 'a' rfl), [(.child, .type Clause.whenWord)]⟩

theorem parse_strand_changed :
    (joined.source false = "u+a \x7b x: 1; \x7d" ∧
        parse 64 "u+a \x7b x: 1; \x7d" =
          .error (.malformed (.unexpectedInSelector (.text "u+a")) 1) ∧
        ∃ sheet, parse 64 (joined.source true) = .ok sheet) ∧
      guarded.source true = "a > when \x7b x: 1; \x7d" ∧
        parse 64 "a > when \x7b x: 1; \x7d" = .error (.malformed .missingGuard 1) ∧
        ∃ sheet, parse 64 (guarded.source false) = .ok sheet := by
  have hjoined : joined.source false = "u+a \x7b x: 1; \x7d" ∧
      joined.source true = "u + a \x7b x: 1; \x7d" := by
    decide +kernel
  have hguarded : guarded.source true = "a > when \x7b x: 1; \x7d" ∧
      guarded.source false = "a>when \x7b x: 1; \x7d" := by
    decide +kernel
  refine ⟨⟨hjoined.1, ?_, ?_⟩, hguarded.1, ?_, ?_⟩
  · exact parse_of_map_eq_error (by decide +kernel)
  · rw [hjoined.2]
    exact parse_of_isSome (by decide +kernel)
  · exact parse_of_map_eq_error (by decide +kernel)
  · rw [hguarded.2]
    exact parse_of_isSome (by decide +kernel)

end Strand

end StyleTally.Stylesheet
