import StyleTally.Proofs.Formula.Reading
import StyleTally.Proofs.Likeness.Moved
import StyleTally.Proofs.Shape.Statement
import StyleTally.Stylesheet.Parse

/-!
# The round trip of a formula

A declaration whose value is the text of a formula that is in order parses to a declaration of the
value of the formula. The tokens of the text are those of the formula but for where they stand, and
where tokens stand leaves no trace in a tree.
-/

namespace StyleTally.Stylesheet

namespace Formula

section Statements

variable {room inner : Room} {f : Formula}

/-- A word of one letter. -/
def letter (c : Char) (h : c.isAlpha = true) : Word := ⟨[c], by simp, by simpa using h⟩

def wordToken (spaced : Bool) (w : Word) : Token := glyph spaced (.ident w.text) w.chars

def selectorWord : Word := letter 'a' (by decide)

def propertyWord : Word := letter 'x' (by decide)

def declarationTokens (f : Formula) : List Token :=
  wordToken true propertyWord :: mark false ':' :: f.tokens true

/-- The tokens of a ruleset with one declaration. -/
def sheetTokens (f : Formula) : List Token :=
  wordToken false selectorWord :: mark true '\x7b' ::
    (declarationTokens f ++ [mark false ';', mark true '\x7d'])

theorem charsOf_sheetTokens (f : Formula) :
    charsOf f.sheetTokens = ("a \x7b x: " ++ String.ofList f.text ++ "; \x7d").toList := by
  have hfront : "a \x7b x: ".toList = ['a', ' ', '\x7b', ' ', 'x', ':', ' '] := by decide
  have hback : "; \x7d".toList = [';', ' ', '\x7d'] := by decide
  simp only [String.toList_append, String.toList_ofList, hfront, hback]
  simp [sheetTokens, declarationTokens, charsOf_cons, charsOf_append, charsOf_tokens, wordToken,
    selectorWord, propertyWord, letter, mark, glyph]
  rfl

theorem fitting_sheetTokens (horder : f.inOrder false = true) : Fitting f.sheetTokens [] := by
  have hend : Fitting [mark false ';', mark true '\x7d'] [] :=
    ⟨fits_bracket (by decide), fits_bracket (by decide), trivial⟩
  have hclosing : Closing (charsOf [mark false ';', mark true '\x7d'] ++ []) :=
    ⟨';', [' ', '\x7d'], rfl, by decide⟩
  have hvalue := (fitting_tokens true f horder hclosing).append hend
  have hproperty : ∀ more, Fits (wordToken true propertyWord) (':' :: more) := by
    intro more
    apply fits_word
    · decide
    · decide
    · decide
    · rfl
    · rfl
  have hselector : ∀ more, Fits (wordToken false selectorWord) (' ' :: more) := by
    intro more
    apply fits_word
    · decide
    · decide
    · decide
    · rfl
    · rfl
  exact ⟨hselector _, fits_bracket (by decide), hproperty _, fits_bracket (by decide), hvalue⟩

theorem crosses_declaration (f : Formula) :
    Crosses [';', '\x7b', '\x7d'] 0 (declarationTokens f) 0 := by
  have hstops : Outside [';', '\x7b', '\x7d'] := by decide
  have hf : Crosses [';', '\x7b', '\x7d'] 0 (f.tokens true) 0 := crosses_tokens hstops 0 true f
  exact .cons rfl (.cons rfl hf)

/-- No mark of importance ends a formula. -/
theorem splitImportant_tokens (f : Formula) (stop : Token) :
    Grammar.splitImportant stop (f.tokens true) = (false, stop, f.tokens true) := by
  have hmark : Foreign '!' := by decide
  have hnone := isDelim_tokens hmark true f
  unfold Grammar.splitImportant
  split
  · rename_i u t front heq
    have ht : t.isDelim '!' = false := by
      apply hnone
      rw [← List.mem_reverse, heq]
      simp
    simp [ht]
  · rfl

theorem declaration_tokens (line : Nat) (stop : Token) (hf : Readable room false f) :
    Grammar.declaration room line stop (declarationTokens f) =
      .ok (.declaration "x" (some f.value) false) := by
  have hcut : cut [':'] 0 (declarationTokens f) =
      ([wordToken true propertyWord], mark false ':' :: f.tokens true) := by
    have hname : Crosses [':'] 0 [wordToken true propertyWord] 0 := .cons rfl .nil
    exact hname.cut_cons rfl (f.tokens true)
  have hvalue : Grammar.declarationValue room stop (f.tokens true) = .ok (some f.value, false) := by
    obtain ⟨t, ts, htokens, -, -⟩ := exists_head true f
    have hne : (f.tokens true).isEmpty = false := by
      rw [htokens]
      rfl
    unfold Grammar.declarationValue Grammar.valueIfAny
    rw [splitImportant_tokens]
    simp only [hne, hf.value_whole]
    rfl
  unfold Grammar.declaration
  rw [hcut]
  change (Grammar.declarationValue room stop (f.tokens true) >>= _) = _
  rw [hvalue]
  rfl

/-- The brace or semicolon that bounds a statement decides what it is, unless its name does. -/
theorem statement_head {body : Grammar.Body} {stop t brace : Token}
    {front rest after : List Token} (ht : ∀ name, t.lexeme ≠ .atKeyword name)
    (hhead : Grammar.head (t :: rest) = (front, brace :: after)) :
    Grammar.statement room body stop t rest =
      if brace.isDelim '\x7b' then
        Grammar.withBody room body stop brace front (brace :: after) (t :: rest)
      else Grammar.simpleStatement room stop t rest := by
  unfold Grammar.statement
  split
  · rename_i name hname
    exact absurd hname (ht name)
  · rw [hhead]

theorem statement_tokens (body : Grammar.Body) (stop : Token) (rest : List Token)
    (hf : Readable room false f) :
    Grammar.statement room body stop (wordToken true propertyWord)
      (mark false ':' :: (f.tokens true ++ mark false ';' :: rest)) =
        .ok (.declaration "x" (some f.value) false, rest) := by
  have hhead : Grammar.head (wordToken true propertyWord :: mark false ':' ::
      (f.tokens true ++ mark false ';' :: rest)) = (declarationTokens f, mark false ';' :: rest) :=
    (crosses_declaration f).cut_cons rfl rest
  have hsimple : Grammar.simpleStatement room stop (wordToken true propertyWord)
      (mark false ':' :: (f.tokens true ++ mark false ';' :: rest)) =
        .ok (.declaration "x" (some f.value) false, rest) := by
    have hextend : Grammar.extendBody? (wordToken true propertyWord :: mark false ':' ::
        (f.tokens true ++ mark false ';' :: rest)) = none := by
      unfold Grammar.extendBody?
      split
      · rename_i heq
        obtain ⟨rfl, -⟩ := List.cons.inj heq
        rfl
      · rfl
    unfold Grammar.simpleStatement Grammar.unendedStatement
    rw [hextend]
    simp only [hhead]
    change ((Grammar.declaration room 0 (mark false ';') (declarationTokens f)).map _ >>= _) = _
    rw [declaration_tokens 0 _ hf]
    rfl
  rw [statement_head (by rintro name ⟨⟩) hhead, if_neg (by decide), hsimple]

theorem body_tokens (hopened : room.opened .ruleset = .ok inner) (stop : Token)
    (hf : Readable inner false f) :
    Grammar.body room .ruleset stop
      (mark true '\x7b' :: (declarationTokens f ++ [mark false ';', mark true '\x7d'])) =
        .ok ([.declaration "x" (some f.value) false], []) := by
  have hstatement := statement_tokens (Grammar.body inner) stop [mark true '\x7d'] hf
  have hclose : Grammar.statements inner (Grammar.body inner) stop [mark true '\x7d'] =
      .ok ([], [mark true '\x7d']) := by
    rw [Grammar.statements]
    rfl
  have hstatements : Grammar.statements inner (Grammar.body inner) stop
      (declarationTokens f ++ [mark false ';', mark true '\x7d']) =
        .ok ([.declaration "x" (some f.value) false], [mark true '\x7d']) := by
    rw [declarationTokens, List.cons_append, List.cons_append,
      Grammar.statements_cons stop rfl hstatement, hclose]
    · rfl
    · simp
  rw [Grammar.body_eq]
  change (enter (room.below _) .ruleset _ >>= _) = _
  rw [Room.enter_below _ hopened]
  change (Grammar.statements inner (Grammar.body inner) stop
    (declarationTokens f ++ [mark false ';', mark true '\x7d']) >>= _) = _
  rw [hstatements]
  rfl

theorem selectors_word (stop : Token) :
    Grammar.selectors stop [wordToken false selectorWord] = .ok [[⟨.text "a", none⟩]] := by
  have hcross : Crosses [','] 0 [wordToken false selectorWord] 0 := .cons rfl .nil
  have helements : Grammar.elementsFrom none true stop [wordToken false selectorWord] =
      .ok [⟨.text "a", none⟩] := by
    have hend : Grammar.elementsFrom none false stop [] = .ok [] := by
      rw [Grammar.elementsFrom]
    rw [Grammar.elementsFrom]
    change (Grammar.elementsFrom none false stop []).map _ = _
    rw [hend]
    rfl
  unfold Grammar.selectors
  rw [pieces_last hcross]
  change (Grammar.selector stop [wordToken false selectorWord] >>= _) = _
  unfold Grammar.selector
  rw [helements]
  rfl

theorem sheet_tokens (hopened : room.opened .ruleset = .ok inner) (stop : Token)
    (hf : Readable inner false f) :
    Grammar.sheet room stop f.sheetTokens =
      .ok [.ruleset [[⟨.text "a", none⟩]] none [.declaration "x" (some f.value) false]] := by
  have hbody := body_tokens hopened stop hf
  have hruleset : Grammar.statement room (Grammar.body room) stop (wordToken false selectorWord)
      (mark true '\x7b' :: (declarationTokens f ++ [mark false ';', mark true '\x7d'])) =
        .ok (.ruleset [[⟨.text "a", none⟩]] none [.declaration "x" (some f.value) false], []) := by
    have hselector : Crosses [';', '\x7b', '\x7d'] 0 [wordToken false selectorWord] 0 :=
      .cons rfl .nil
    have hhead : Grammar.head (wordToken false selectorWord :: mark true '\x7b' ::
        (declarationTokens f ++ [mark false ';', mark true '\x7d'])) =
          ([wordToken false selectorWord], mark true '\x7b' ::
            (declarationTokens f ++ [mark false ';', mark true '\x7d'])) :=
      hselector.cut_cons rfl _
    have hselectors : Grammar.rulesetHead room (mark true '\x7b') [wordToken false selectorWord] =
        .ok ([[⟨.text "a", none⟩]], none) := by
      have hguard : Grammar.splitGuard 0 [wordToken false selectorWord] = none := rfl
      unfold Grammar.rulesetHead
      rw [hguard]
      change (Grammar.selectors (mark true '\x7b') [wordToken false selectorWord]).map _ = _
      rw [selectors_word]
      rfl
    rw [statement_head (by rintro name ⟨⟩) hhead, if_pos (by decide)]
    change (Grammar.rulesetHead room (mark true '\x7b') [wordToken false selectorWord] >>= _) = _
    rw [hselectors]
    change (Grammar.body room .ruleset stop (mark true '\x7b' ::
      (declarationTokens f ++ [mark false ';', mark true '\x7d'])) >>= _) = _
    rw [hbody]
    rfl
  have hend : Grammar.statements room (Grammar.body room) stop [] = .ok ([], []) := by
    rw [Grammar.statements]
  unfold Grammar.sheet sheetTokens
  rw [Grammar.statements_cons stop rfl hruleset (Nat.zero_le _), hend]
  rfl

end Statements

/-- The text of a formula that is in order parses to the value of the formula. -/
theorem parse_formula (f : Formula) (horder : f.inOrder false = true) (hnesting : f.nesting ≤ 63) :
    parse 64 ("a \x7b x: " ++ String.ofList f.text ++ "; \x7d") =
      .ok [.ruleset [[⟨.text "a", none⟩]] none [.declaration "x" (some f.value) false]] := by
  have hchars : ("a \x7b x: " ++ String.ofList f.text ++ "; \x7d").toList =
      charsOf f.sheetTokens ++ [] := by
    rw [charsOf_sheetTokens, List.append_nil]
  obtain ⟨us, line, start, previous, halike, htokens⟩ :=
    tokensFrom_fitting (fitting_sheetTokens horder) 1 0 none
  rw [tokensFrom_nil] at htokens
  have hroom : Room.Holds ⟨64, stackCalls⟩ 64 := ⟨by decide, by decide⟩
  obtain ⟨inner, hopened, hinner⟩ := hroom.opened .ruleset
  have hreadable : Readable inner false f := readable f (hinner.mono hnesting) horder
  have hsheet : ∀ stop, Grammar.sheet ⟨64, stackCalls⟩ stop us =
      .ok [.ruleset [[⟨.text "a", none⟩]] none [.declaration "x" (some f.value) false]] := by
    intro stop
    exact sheet_alike ⟨rfl, rfl, rfl⟩ halike (sheet_tokens hopened stop hreadable)
  let stop : Token := ⟨.endOfInput, [], [], line, start⟩
  have hend : splitEnd (us ++ [stop]) = (us, stop) := by
    rw [splitEnd_append us (by simp)]
    simp [splitEnd]
  have hparse : parseAt ⟨64, stackCalls⟩ ("a \x7b x: " ++ String.ofList f.text ++ "; \x7d") =
      Grammar.sheet ⟨64, stackCalls⟩ stop us := by
    rw [parseAt_eq, tokenize, hchars, htokens]
    change Grammar.sheet _ (splitEnd (us ++ [stop])).2 (splitEnd (us ++ [stop])).1 = _
    rw [hend]
  exact parse_eq_ok.mpr (hparse.trans (hsheet stop))

/-- `(1x + @a / 2) * f(3, -@b) - 4` -/
def sample : Formula :=
  let digit (c : Char) (h : c.isDigit = true) : Numeral := ⟨[c], by simp, by simpa using h⟩
  let sum := Formula.operation .add (.number (digit '1' (by decide)) (some propertyWord))
    (.operation .divide (.var selectorWord) (.number (digit '2' (by decide)) none))
  let call := Formula.call (letter 'f' (by decide))
    [.number (digit '3' (by decide)) none, .negative (.var (letter 'b' (by decide)))]
  .operation .subtract (.operation .multiply (.paren sum) call)
    (.number (digit '4' (by decide)) none)

theorem parse_formula_sample :
    sample.inOrder false = true ∧ sample.nesting ≤ 63 ∧
      parse 64 "a \x7b x: (1x + @a / 2) * f(3, -@b) - 4; \x7d" =
        .ok [.ruleset [[⟨.text "a", none⟩]] none [.declaration "x" (some sample.value) false]] := by
  have htext : "a \x7b x: " ++ String.ofList sample.text ++ "; \x7d" =
      "a \x7b x: (1x + @a / 2) * f(3, -@b) - 4; \x7d" := by
    rfl
  have horder : sample.inOrder false = true := by decide
  have hnesting : sample.nesting ≤ 63 := by decide
  refine ⟨horder, hnesting, ?_⟩
  rw [← htext]
  exact parse_formula sample horder hnesting

end Formula

end StyleTally.Stylesheet
