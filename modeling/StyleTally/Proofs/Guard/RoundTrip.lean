import StyleTally.Proofs.Guard.Reading

/-!
# The round trip of a guard

A mixin and a ruleset whose guard is the text of clauses that are in order parse to a mixin and a
ruleset with the values of the clauses as conditions, one for each clause.
-/

namespace StyleTally.Stylesheet

open Text
open Formula (letter wordToken selectorWord)

/-- Tokens that fit in front of each other are the tokens of their text, and a stylesheet of this
text parses to what the tokens are read as. -/
theorem parse_of_fitting {limit : Int} {source : String} {ts : List Token} {s : Sheet}
    (hchars : source.toList = charsOf ts) (hts : Fitting ts [])
    (hsheet : ∀ stop, Grammar.sheet ⟨limit.toNat, stackCalls⟩ stop ts = .ok s) :
    parse limit source = .ok s := by
  obtain ⟨us, line, start, previous, halike, htokens⟩ := tokensFrom_fitting hts 1 0 none
  rw [tokensFrom_nil, List.append_nil] at htokens
  let stop : Token := ⟨.endOfInput, [], [], line, start⟩
  have hend : splitEnd (us ++ [stop]) = (us, stop) := by
    rw [splitEnd_append us (by simp)]
    simp [splitEnd]
  have hparse : parseAt ⟨limit.toNat, stackCalls⟩ source = .ok s := by
    rw [parseAt_eq, tokenize, hchars, htokens]
    change Grammar.sheet _ (splitEnd (us ++ [stop])).2 (splitEnd (us ++ [stop])).1 = _
    rw [hend]
    exact sheet_alike ⟨rfl, rfl, rfl⟩ halike (hsheet stop)
  exact parse_eq_ok.mpr hparse

namespace Clause

def whenWord : Word := ⟨['w', 'h', 'e', 'n'], by simp, by simp⟩

def nameWord : Word := letter 'm' (by decide)

section Crossing

variable {stops : List Char} {depth : Nat}

theorem crosses_tokensOfMore (hstops : Outside stops)
    (hcomma : depthAfter? stops depth (mark false ',') = some depth) (cs : List Clause) :
    Crosses stops depth (tokensOfMore cs) depth := by
  induction cs with
  | nil => exact .nil
  | cons c cs ih => exact (Crosses.cons hcomma (crosses_tokens hstops depth true c)).append ih

theorem crosses_tokensOfAll (hstops : Outside stops)
    (hcomma : depthAfter? stops depth (mark false ',') = some depth) (spaced : Bool)
    (cs : List Clause) : Crosses stops depth (tokensOfAll spaced cs) depth := by
  cases cs with
  | nil => exact .nil
  | cons c cs =>
    exact (crosses_tokens hstops depth spaced c).append (crosses_tokensOfMore hstops hcomma cs)

end Crossing

section Heads

/-- The tokens of a mixin without parameters, up to its guard. -/
def mixinFront : List Token :=
  [mark false '.', wordToken false nameWord, mark false '(', mark false ')',
    wordToken true whenWord]

/-- The tokens of a selector, up to the guard behind it. -/
def rulesetFront : List Token := [wordToken false selectorWord, wordToken true whenWord]

/-- A body without statements. -/
def emptyBody : List Token := [mark true '\x7b', mark true '\x7d']

/-- A point in front of a name is a token of its own. -/
theorem fits_point {spaced : Bool} {c : Char} (hc : c.isAlpha = true) (rest : List Char) :
    Fits (mark spaced '.') (c :: rest) := by
  have hdigit : isDecimalDigit c = false := (letter_cases hc).2.2.2.2.1
  have hpoint : c ≠ '.' := letter_ne hc (by decide)
  have hnumber : NumberText.read? ('.' :: c :: rest) = none := by
    have hmark : isDecimalDigit '.' = false := by decide
    simp [NumberText.read?, NumberText.readPlaces, hmark, hdigit]
  have hname : identLength? ('.' :: c :: rest) = none := by
    have hundashed : undashedLength? ('.' :: c :: rest) = none :=
      undashed_none (by decide) (by decide)
    simp [identLength?, hundashed]
  have hfilter : filterNameLength? ('.' :: c :: rest) = none := rfl
  have hdots : opensWith [(· == '.'), (· == '.'), (· == '.')] ('.' :: c :: rest) = false := by
    simp [opensWith, hpoint]
  unfold mark
  apply fits_glyph (by decide)
  · intro h
    cases h
  · intro previous gap
    rw [lexemeAt_plain (by decide) rfl]
    unfold plainAt
    rw [no_range (by decide) (by decide)]
    simp [number?, hnumber, wordAt, hfilter, hname, hdots]

theorem fits_when (rest : List Char) : Fits (wordToken true whenWord) (' ' :: rest) :=
  fits_word whenWord (by decide) (by decide) (by decide) rfl rfl

theorem fitting_emptyBody : Fitting emptyBody [] :=
  ⟨fits_bracket (by decide), fits_bracket (by decide), trivial⟩

variable {cs : List Clause}

theorem fitting_front {front : List Token} (hcs : cs ≠ []) (horder : ∀ c ∈ cs, c.inOrder = true)
    (hfront : ∀ rest, Fitting front (' ' :: rest)) :
    Fitting (front ++ (tokensOfAll true cs ++ emptyBody)) [] := by
  have hguard :=
    (fitting_tokensOfAll true cs horder (charsOf emptyBody ++ [])).append fitting_emptyBody
  have hchars : charsOf (tokensOfAll true cs ++ emptyBody) ++ [] =
      ' ' :: (textOfAll cs ++ charsOf emptyBody) := by
    rw [List.append_nil, charsOf_append, charsOf_tokensOfAll hcs, List.cons_append]
  apply Fitting.append
  · rw [hchars]
    exact hfront _
  · exact hguard

theorem fitting_mixinFront (rest : List Char) : Fitting mixinFront (' ' :: rest) := by
  have hname : ∀ more, Fits (wordToken false nameWord) ('(' :: more) :=
    fun more => fits_word nameWord (by decide) (by decide) (by decide) rfl rfl
  exact ⟨fits_point (by decide) _, hname _, fits_bracket (by decide), fits_bracket (by decide),
    fits_when rest, trivial⟩

theorem fitting_rulesetFront (rest : List Char) : Fitting rulesetFront (' ' :: rest) := by
  have hname : ∀ more, Fits (wordToken false selectorWord) (' ' :: more) :=
    fun more => fits_word selectorWord (by decide) (by decide) (by decide) rfl rfl
  exact ⟨hname _, fits_when rest, trivial⟩

theorem charsOf_front (front : List Token) {text : String} (hcs : cs ≠ [])
    (hfront : charsOf front ++ [' '] = text.toList) :
    (text ++ String.ofList (textOfAll cs) ++ " \x7b \x7d").toList =
      charsOf (front ++ (tokensOfAll true cs ++ emptyBody)) := by
  have hback : " \x7b \x7d".toList = charsOf emptyBody := by decide
  rw [charsOf_append, charsOf_append, charsOf_tokensOfAll hcs, String.toList_append,
    String.toList_append, String.toList_ofList, ← hfront, hback]
  simp

end Heads

section Statements

variable {room : Room} {cs : List Clause} {values : List Value} {ts : List Token} {stop : Token}

theorem body_empty (hroom : room.Holds 1) (stop : Token) :
    Grammar.body room .ruleset stop emptyBody = .ok ([], []) := by
  obtain ⟨inner, hopened, -⟩ := hroom.opened .ruleset
  have hclose : Grammar.statements inner (Grammar.body inner) stop [mark true '\x7d'] =
      .ok ([], [mark true '\x7d']) := by
    rw [Grammar.statements]
    rfl
  rw [Grammar.body_eq]
  change (enter (room.below _) .ruleset _ >>= _) = _
  rw [Room.enter_below _ hopened]
  change (Grammar.statements inner (Grammar.body inner) stop [mark true '\x7d'] >>= _) = _
  rw [hclose]
  rfl

/-- The guard of a mixin starts behind the `when` behind its parameters. -/
theorem mixinHead_tokens (hroom : room.Holds 1) {brace : Token}
    (hguard : Grammar.guard room brace ts = .ok values) :
    Grammar.mixinHead? room brace (mixinFront ++ ts) (mixinFront ++ (ts ++ emptyBody)) =
      .ok (some (".m", [], some values)) := by
  obtain ⟨inner, hopened, -⟩ := hroom.opened .parameters
  have hsignature : Grammar.signature? room brace (mixinFront ++ ts)
      (mixinFront ++ (ts ++ emptyBody)) (mark false '(')
        (mark false ')' :: wordToken true whenWord :: (ts ++ emptyBody)) =
          .ok (some ([], some values)) := by
    have hused : (mixinFront ++ (ts ++ emptyBody)).length -
        (wordToken true whenWord :: (ts ++ emptyBody)).length = 4 := by
      simp [mixinFront]
    have hlength : (mixinFront ++ ts).length = ts.length + 5 := by
      simp [mixinFront]
    have henclosed : enclosed (mark false '(') '('
        (mark false ')' :: wordToken true whenWord :: (ts ++ emptyBody)) =
          .ok ([], mark false ')', wordToken true whenWord :: (ts ++ emptyBody)) :=
      Formula.enclosed_tokens .nil _
    have hwhen : startsWithWord "when" (wordToken true whenWord :: (ts ++ emptyBody)) = true := rfl
    have hend : (4 == ts.length + 5) = false := by simp
    have hlong : ¬ ts.length + 5 < 4 := by omega
    unfold Grammar.signature?
    rw [henclosed]
    simp only [bind, Except.bind, hused, hlength, hwhen, hend, if_neg hlong]
    rw [Room.enter_below _ hopened]
    change (Grammar.guard room brace ts >>= fun conditions =>
      pure (some ([], some conditions))) = _
    rw [hguard]
    rfl
  change (Grammar.signature? room brace (mixinFront ++ ts) (mixinFront ++ (ts ++ emptyBody))
    (mark false '(') (mark false ')' :: wordToken true whenWord :: (ts ++ emptyBody))).map _ = _
  rw [hsignature]
  rfl

theorem rulesetHead_tokens {brace : Token} (hguard : Grammar.guard room brace ts = .ok values) :
    Grammar.rulesetHead room brace (rulesetFront ++ ts) =
      .ok ([[⟨.text "a", none⟩]], some values) := by
  have hsplit : Grammar.splitGuard 0 (rulesetFront ++ ts) =
      some ([wordToken false selectorWord], wordToken true whenWord, ts) := rfl
  unfold Grammar.rulesetHead
  rw [hsplit]
  change (Grammar.selectors (wordToken true whenWord) [wordToken false selectorWord] >>= _) = _
  rw [Formula.selectors_word]
  change (Grammar.guard room brace ts >>= _) = _
  rw [hguard]
  rfl

/-- A guard and an empty body stand behind the first tokens of a statement. -/
theorem head_tokens {front : List Token} (hfront : Crosses [';', '\x7b', '\x7d'] 0 front 0) :
    Grammar.head (front ++ (tokensOfAll true cs ++ emptyBody)) =
      (front ++ tokensOfAll true cs, emptyBody) := by
  have hguard : Crosses [';', '\x7b', '\x7d'] 0 (tokensOfAll true cs) 0 :=
    crosses_tokensOfAll (by decide) rfl true cs
  rw [← List.append_assoc]
  exact (hfront.append hguard).cut_cons rfl [mark true '\x7d']

theorem statement_mixin (hroom : room.Holds 1) (stop : Token)
    (hguard : ∀ brace, Grammar.guard room brace (tokensOfAll true cs) = .ok values) :
    Grammar.statement room (Grammar.body room) stop (mark false '.')
      (mixinFront.tail ++ (tokensOfAll true cs ++ emptyBody)) =
        .ok (.mixin ".m" [] (some values) [], []) := by
  have hfront : Crosses [';', '\x7b', '\x7d'] 0 mixinFront 0 :=
    .cons rfl (.cons rfl (.cons rfl (.cons rfl (.cons rfl .nil))))
  have hhead :
      Grammar.head (mark false '.' :: (mixinFront.tail ++ (tokensOfAll true cs ++ emptyBody))) =
        (mixinFront ++ tokensOfAll true cs, emptyBody) := head_tokens hfront
  rw [Formula.statement_head (by rintro name ⟨⟩) hhead, if_pos (by decide)]
  change (Grammar.mixinHead? room (mark true '\x7b') (mixinFront ++ tokensOfAll true cs)
    (mixinFront ++ (tokensOfAll true cs ++ emptyBody)) >>= _) = _
  rw [mixinHead_tokens hroom (hguard _)]
  change (Grammar.body room .ruleset stop emptyBody >>= _) = _
  rw [body_empty hroom]
  rfl

theorem statement_ruleset (hroom : room.Holds 1) (stop : Token)
    (hguard : ∀ brace, Grammar.guard room brace (tokensOfAll true cs) = .ok values) :
    Grammar.statement room (Grammar.body room) stop (wordToken false selectorWord)
      (rulesetFront.tail ++ (tokensOfAll true cs ++ emptyBody)) =
        .ok (.ruleset [[⟨.text "a", none⟩]] (some values) [], []) := by
  have hfront : Crosses [';', '\x7b', '\x7d'] 0 rulesetFront 0 := .cons rfl (.cons rfl .nil)
  have hhead : Grammar.head (wordToken false selectorWord ::
      (rulesetFront.tail ++ (tokensOfAll true cs ++ emptyBody))) =
        (rulesetFront ++ tokensOfAll true cs, emptyBody) := head_tokens hfront
  rw [Formula.statement_head (by rintro name ⟨⟩) hhead, if_pos (by decide)]
  change (Grammar.rulesetHead room (mark true '\x7b') (rulesetFront ++ tokensOfAll true cs)
    >>= _) = _
  rw [rulesetHead_tokens (hguard _)]
  change (Grammar.body room .ruleset stop emptyBody >>= _) = _
  rw [body_empty hroom]
  rfl

/-- A stylesheet of one statement. -/
theorem sheet_statement {t : Token} {rest : List Token} {s : Statement} (ht : t.isSeal = false)
    (h : Grammar.statement room (Grammar.body room) stop t rest = .ok (s, [])) :
    Grammar.sheet room stop (t :: rest) = .ok [s] := by
  have hend : Grammar.statements room (Grammar.body room) stop [] = .ok ([], []) := by
    rw [Grammar.statements]
  rw [Grammar.sheet, Grammar.statements_cons stop ht h (Nat.zero_le _), hend]
  rfl

end Statements

/-- The guard of a mixin or of a ruleset is read as the values of its clauses, at every limit that
admits their nesting. The stack holds at least 64 levels, whatever opens them. -/
theorem parse_guard (cs : List Clause) (hcs : cs ≠ []) (horder : ∀ c ∈ cs, c.inOrder = true)
    (limit : Nat) (hnesting : ∀ c ∈ cs, c.nesting ≤ limit ∧ c.nesting ≤ 64) :
    parse limit (".m() when " ++ String.ofList (textOfAll cs) ++ " \x7b \x7d") =
        .ok [.mixin ".m" [] (some (cs.map value)) []] ∧
      parse limit ("a when " ++ String.ofList (textOfAll cs) ++ " \x7b \x7d") =
        .ok [.ruleset [[⟨.text "a", none⟩]] (some (cs.map value)) []] := by
  have hholds : ∀ c ∈ cs, Room.Holds ⟨limit, stackCalls⟩ c.nesting := by
    intro c hc
    obtain ⟨hlimit, hstack⟩ := hnesting c hc
    have hcalls : 10 * 64 ≤ stackCalls := by decide
    exact ⟨hlimit, Nat.le_trans (Nat.mul_le_mul_left 10 hstack) hcalls⟩
  have hroom : Room.Holds ⟨limit, stackCalls⟩ 1 := by
    obtain ⟨c, hc⟩ := List.exists_mem_of_ne_nil cs hcs
    exact (hholds c hc).mono c.nesting_pos
  have hguard : ∀ brace,
      Grammar.guard ⟨limit, stackCalls⟩ brace (tokensOfAll true cs) = .ok (cs.map value) :=
    guard_tokens hcs (fun c hc => readable c (hholds c hc) (horder c hc)) true
  constructor
  · apply parse_of_fitting (charsOf_front mixinFront hcs (by decide))
    · exact fitting_front hcs horder fitting_mixinFront
    · intro stop
      exact sheet_statement rfl (statement_mixin hroom stop hguard)
  · apply parse_of_fitting (charsOf_front rulesetFront hcs (by decide))
    · exact fitting_front hcs horder fitting_rulesetFront
    · intro stop
      exact sheet_statement rfl (statement_ruleset hroom stop hguard)

/-- `not ((@a + 1) * 2 >= x(@x)) and ((@a = 1) or (@x)), (@x)` -/
def sample : List Clause :=
  let one := Formula.number ⟨['1'], by simp, by simp⟩ none
  let two := Formula.number ⟨['2'], by simp, by simp⟩ none
  let a := Formula.var selectorWord
  let x := Formula.var Formula.propertyWord
  let product := Formula.operation .multiply (.paren (.operation .add a one)) two
  let left := Clause.compares true .greaterOrEqual product (.call Formula.propertyWord [x])
  let right := Clause.either (.compares false .equal a one) (.holds false x)
  [.both left (.nested false right), .holds false x]

theorem parse_guard_sample :
    sample ≠ [] ∧ (∀ c ∈ sample, c.inOrder = true) ∧
      (∀ c ∈ sample, c.nesting ≤ 64 ∧ c.nesting ≤ 64) ∧
      parse 64 ".m() when not ((@a + 1) * 2 >= x(@x)) and ((@a = 1) or (@x)), (@x) \x7b \x7d" =
          .ok [.mixin ".m" [] (some (sample.map value)) []] ∧
        parse 64 "a when not ((@a + 1) * 2 >= x(@x)) and ((@a = 1) or (@x)), (@x) \x7b \x7d" =
          .ok [.ruleset [[⟨.text "a", none⟩]] (some (sample.map value)) []] := by
  have hmixin : ".m() when " ++ String.ofList (textOfAll sample) ++ " \x7b \x7d" =
      ".m() when not ((@a + 1) * 2 >= x(@x)) and ((@a = 1) or (@x)), (@x) \x7b \x7d" := by
    rfl
  have hruleset : "a when " ++ String.ofList (textOfAll sample) ++ " \x7b \x7d" =
      "a when not ((@a + 1) * 2 >= x(@x)) and ((@a = 1) or (@x)), (@x) \x7b \x7d" := by
    rfl
  have hne : sample ≠ [] := List.cons_ne_nil _ _
  have horder : ∀ c ∈ sample, c.inOrder = true := by decide
  have hnesting : ∀ c ∈ sample, c.nesting ≤ 64 ∧ c.nesting ≤ 64 := by decide
  refine ⟨hne, horder, hnesting, ?_⟩
  rw [← hmixin, ← hruleset]
  exact parse_guard sample hne horder 64 hnesting

end Clause

end StyleTally.Stylesheet
