import StyleTally.Proofs.Formula.RoundTrip
import StyleTally.Proofs.Guard.Basic

/-!
# The tokens of a guard

A clause as tokens, and that its text is read as these tokens.
-/

namespace StyleTally.Stylesheet

open Formula (wordToken)

namespace Comparator

/-- The tokens of a comparison; nothing stands between two signs of one. -/
def tokens (op : Comparator) : List Token :=
  mark true op.sign :: op.sign?.toList.map (mark false)

theorem charsOf_tokens (op : Comparator) :
    charsOf op.tokens = ' ' :: op.sign :: op.sign?.toList := by
  cases op <;> rfl

theorem fitting_tokens (op : Comparator) (rest : List Char) : Fitting op.tokens rest := by
  cases op with
  | equal | greater | less => exact ⟨fits_bracket (by decide), trivial⟩
  | notEqual | greaterOrEqual | equalOrGreater | lessOrEqual | equalOrLess =>
    exact ⟨fits_bracket (by decide), fits_bracket (by decide), trivial⟩

end Comparator

namespace Clause

def andWord : Word := ⟨['a', 'n', 'd'], by simp, by simp⟩

def orWord : Word := ⟨['o', 'r'], by simp, by simp⟩

def notWord : Word := ⟨['n', 'o', 't'], by simp, by simp⟩

/-- What stands in front of a test, up to its parenthesis. -/
def opening (spaced negated : Bool) : List Token :=
  if negated then [wordToken spaced notWord, mark true '('] else [mark spaced '(']

/-- The tokens of a clause, with a blank in front of the first one or with none. -/
def tokens (spaced : Bool) : Clause → List Token
  | holds negated f => opening spaced negated ++ (f.tokens false ++ [mark false ')'])
  | compares negated op l r =>
    opening spaced negated ++ (l.tokens false ++ (op.tokens ++ r.tokens true) ++ [mark false ')'])
  | nested negated c => opening spaced negated ++ (c.tokens false ++ [mark false ')'])
  | both l r => l.tokens spaced ++ wordToken true andWord :: r.tokens true
  | either l r => l.tokens spaced ++ wordToken true orWord :: r.tokens true

def tokensOfMore (cs : List Clause) : List Token :=
  cs.flatMap fun c => mark false ',' :: c.tokens true

/-- The tokens of clauses with commas between them. -/
def tokensOfAll (spaced : Bool) : List Clause → List Token
  | [] => []
  | c :: cs => c.tokens spaced ++ tokensOfMore cs

theorem charsOf_opening (spaced negated : Bool) :
    charsOf (opening spaced negated) =
      (if spaced then [' '] else []) ++ (negation negated ++ ['(']) := by
  cases spaced <;> cases negated <;> rfl

theorem charsOf_tokens (spaced : Bool) (c : Clause) :
    charsOf (c.tokens spaced) = (if spaced then [' '] else []) ++ c.text := by
  induction c generalizing spaced with
  | holds negated f =>
    rw [tokens, charsOf_append, charsOf_append, charsOf_opening, Formula.charsOf_tokens]
    simp [charsOf, mark, glyph, text]
  | compares negated op l r =>
    simp only [tokens, charsOf_append, charsOf_opening, Formula.charsOf_tokens,
      Comparator.charsOf_tokens]
    simp [charsOf, mark, glyph, text]
  | nested negated c ih =>
    rw [tokens, charsOf_append, charsOf_append, charsOf_opening, ih]
    simp [charsOf, mark, glyph, text]
  | both l r ihl ihr =>
    rw [tokens, charsOf_append, charsOf_cons, ihl, ihr]
    simp [wordToken, andWord, glyph, text]
  | either l r ihl ihr =>
    rw [tokens, charsOf_append, charsOf_cons, ihl, ihr]
    simp [wordToken, orWord, glyph, text]

theorem charsOf_tokensOfMore (cs : List Clause) : charsOf (tokensOfMore cs) = textOfMore cs := by
  induction cs with
  | nil => rfl
  | cons c cs ih =>
    rw [tokensOfMore, List.flatMap_cons, charsOf_append, charsOf_cons, charsOf_tokens]
    change _ ++ charsOf (tokensOfMore cs) = _
    rw [ih]
    simp [textOfMore, mark, glyph]

theorem charsOf_tokensOfAll {cs : List Clause} (hcs : cs ≠ []) :
    charsOf (tokensOfAll true cs) = ' ' :: textOfAll cs := by
  obtain ⟨c, cs, rfl⟩ := List.exists_cons_of_ne_nil hcs
  rw [tokensOfAll, charsOf_append, charsOf_tokens, charsOf_tokensOfMore]
  rfl

/-- A word of a guard in front of a blank. -/
theorem fits_keyword {w : Word} (hw : w ∈ [andWord, orWord, notWord]) (spaced : Bool)
    (rest : List Char) : Fits (wordToken spaced w) (' ' :: rest) := by
  simp only [List.mem_cons, List.not_mem_nil, or_false] at hw
  have hblank : isIdentChar ' ' = false := by decide
  rcases hw with rfl | rfl | rfl
  · exact fits_word andWord hblank (by decide) (by decide) rfl rfl
  · exact fits_word orWord hblank (by decide) (by decide) rfl rfl
  · exact fits_word notWord hblank (by decide) (by decide) rfl rfl

theorem fitting_opening (spaced negated : Bool) (rest : List Char) :
    Fitting (opening spaced negated) rest := by
  cases negated with
  | false => exact ⟨fits_bracket (by decide), trivial⟩
  | true => exact ⟨fits_keyword (by simp) spaced _, fits_bracket (by decide), trivial⟩

/-- A clause behind the word that joins it to the tokens in front. -/
theorem fitting_joined {w : Word} (hw : w ∈ [andWord, orWord, notWord]) {ts : List Token}
    {c : Clause} (hts : ∀ rest, Fitting ts rest) (hc : ∀ rest, Fitting (c.tokens true) rest)
    (rest : List Char) : Fitting (ts ++ wordToken true w :: c.tokens true) rest := by
  refine (hts _).append ⟨?_, hc rest⟩
  rw [charsOf_tokens]
  exact fits_keyword hw true _

theorem fitting_tokens (spaced : Bool) (c : Clause) (horder : c.inOrder = true)
    (rest : List Char) : Fitting (c.tokens spaced) rest := by
  have hclose : ∀ rest, Fitting [mark false ')'] rest :=
    fun rest => ⟨fits_bracket (by decide), trivial⟩
  have hclosing : ∀ rest, Formula.Closing (charsOf [mark false ')'] ++ rest) :=
    fun rest => ⟨')', rest, rfl, by decide⟩
  induction c generalizing spaced rest with
  | holds negated f =>
    simp only [inOrder, Bool.and_eq_true] at horder
    have hf := Formula.fitting_tokens false f horder.1.1 (hclosing rest)
    exact (fitting_opening spaced negated _).append (hf.append (hclose rest))
  | compares negated op l r =>
    simp only [inOrder, Bool.and_eq_true] at horder
    obtain ⟨⟨hl, hr⟩, -⟩ := horder
    have hright := Formula.fitting_tokens true r hr (hclosing rest)
    have hblank : Formula.Closing
        (charsOf (op.tokens ++ r.tokens true) ++ (charsOf [mark false ')'] ++ rest)) := by
      rw [charsOf_append, Comparator.charsOf_tokens]
      exact ⟨' ', _, rfl, by decide⟩
    have hleft := Formula.fitting_tokens false l hl hblank
    have hall := (hleft.append ((op.fitting_tokens _).append hright)).append (hclose rest)
    exact (fitting_opening spaced negated _).append hall
  | nested negated c ih =>
    have hc := ih false horder (charsOf [mark false ')'] ++ rest)
    exact (fitting_opening spaced negated _).append (hc.append (hclose rest))
  | both l r ihl ihr =>
    simp only [inOrder, Bool.and_eq_true] at horder
    obtain ⟨⟨⟨hl, hr⟩, -⟩, -⟩ := horder
    exact fitting_joined (by simp) (ihl spaced hl) (ihr true hr) rest
  | either l r ihl ihr =>
    simp only [inOrder, Bool.and_eq_true] at horder
    obtain ⟨⟨hl, hr⟩, -⟩ := horder
    exact fitting_joined (by simp) (ihl spaced hl) (ihr true hr) rest

theorem fitting_tokensOfMore (cs : List Clause) (horder : ∀ c ∈ cs, c.inOrder = true)
    (rest : List Char) : Fitting (tokensOfMore cs) rest := by
  induction cs with
  | nil => trivial
  | cons c cs ih =>
    obtain ⟨hc, hcs⟩ := List.forall_mem_cons.mp horder
    have hfirst : Fitting (mark false ',' :: c.tokens true) (charsOf (tokensOfMore cs) ++ rest) :=
      ⟨fits_bracket (by decide), fitting_tokens true c hc _⟩
    exact hfirst.append (ih hcs)

theorem fitting_tokensOfAll (spaced : Bool) (cs : List Clause) (horder : ∀ c ∈ cs, c.inOrder = true)
    (rest : List Char) : Fitting (tokensOfAll spaced cs) rest := by
  cases cs with
  | nil => trivial
  | cons c cs =>
    obtain ⟨hc, hcs⟩ := List.forall_mem_cons.mp horder
    exact (fitting_tokens spaced c hc _).append (fitting_tokensOfMore cs hcs rest)

end Clause

end StyleTally.Stylesheet
