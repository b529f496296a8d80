import StyleTally.Proofs.Formula.Reading
import StyleTally.Proofs.Guard.Tokens
import StyleTally.Stylesheet.Grammar.Guard

/-!
# Reading a guard

The rules for guards read the tokens of a clause that is in order as its value. A parenthesis in a
test opens a nested clause exactly when the test is one: behind the parenthesis that closes it then
stands nothing, `and` or `or`, and behind one that belongs to a formula an operator or a comparison.
-/

namespace StyleTally.Stylesheet

open Formula (wordToken)

section Crossing

variable {stops : List Char}

/-- A search for these stops goes past the signs of a guard and into a parenthesis. -/
def Clause.Outside (stops : List Char) : Prop :=
  ∀ c ∈ ['+', '-', '*', '/', '(', '>', '<', '=', '!'], c ∉ stops

instance (stops : List Char) : Decidable (Clause.Outside stops) :=
  List.decidableBAll (· ∉ stops) ['+', '-', '*', '/', '(', '>', '<', '=', '!']

theorem Clause.Outside.formula (h : Clause.Outside stops) : Formula.Outside stops :=
  fun c hc => h c (List.mem_append_left ['>', '<', '=', '!'] hc)

theorem depthAfter_comparison {spaced : Bool} {c : Char} {depth : Nat}
    (hc : c ∈ ['>', '<', '=', '!']) (hstop : c ∉ stops) :
    depthAfter? stops depth (mark spaced c) = some depth := by
  have hbracket : c ≠ '\x7b' ∧ c ≠ '\x7d' ∧ c ≠ '(' ∧ c ≠ '[' ∧ c ≠ ')' ∧ c ≠ ']' := by
    simp only [List.mem_cons, List.not_mem_nil, or_false] at hc
    rcases hc with rfl | rfl | rfl | rfl <;> decide
  simp [depthAfter?, mark, glyph, hstop, hbracket]

theorem Comparator.crosses_tokens (hstops : Clause.Outside stops) (depth : Nat) (op : Comparator) :
    Crosses stops depth op.tokens depth := by
  have hmark : ∀ spaced, ∀ c ∈ ['>', '<', '=', '!'],
      depthAfter? stops depth (mark spaced c) = some depth := fun spaced c hc =>
    depthAfter_comparison hc (hstops c (List.mem_append_right ['+', '-', '*', '/', '('] hc))
  cases op with
  | equal | greater | less => exact .cons (hmark true _ (by decide)) .nil
  | notEqual | greaterOrEqual | equalOrGreater | lessOrEqual | equalOrLess =>
    exact .cons (hmark true _ (by decide)) (.cons (hmark false _ (by decide)) .nil)

namespace Clause

theorem crosses_opening (hstops : Outside stops) (depth : Nat) (spaced negated : Bool) :
    Crosses stops depth (opening spaced negated) (depth + 1) := by
  have hopen : '(' ∉ stops := hstops '(' (by decide)
  cases negated with
  | false => exact .cons (Formula.depthAfter_open hopen) .nil
  | true => exact .cons rfl (.cons (Formula.depthAfter_open hopen) .nil)

/-- No range ends within a clause. -/
theorem crosses_tokens (hstops : Outside stops) (depth : Nat) (spaced : Bool) (c : Clause) :
    Crosses stops depth (c.tokens spaced) depth := by
  have hclose : ∀ depth, Crosses stops (depth + 1) [mark false ')'] depth :=
    fun depth => .cons Formula.depthAfter_close .nil
  have hformula : ∀ depth spaced f, Crosses stops depth (Formula.tokens spaced f) depth :=
    fun depth spaced f => Formula.crosses_tokens hstops.formula depth spaced f
  induction c generalizing depth spaced with
  | holds negated f =>
    exact (crosses_opening hstops depth spaced negated).append
      ((hformula (depth + 1) false f).append (hclose depth))
  | compares negated op l r =>
    have hoperator := op.crosses_tokens hstops (depth + 1)
    have hinner := (hformula (depth + 1) false l).append
      (hoperator.append (hformula (depth + 1) true r))
    exact (crosses_opening hstops depth spaced negated).append (hinner.append (hclose depth))
  | nested negated c ih =>
    exact (crosses_opening hstops depth spaced negated).append
      ((ih (depth + 1) false).append (hclose depth))
  | both l r ihl ihr | either l r ihl ihr =>
    exact (ihl depth spaced).append (.cons rfl (ihr depth true))

end Clause

end Crossing

section Tests

variable (operand nested : Rule Value) (stop : Token)

/-- A formula in parentheses is read as a value, unless it is a lone parenthesis: what stands behind
its first parenthesis joins it to no other test. -/
theorem Formula.enclosedTest_tokens (f : Formula) (hnot : f.opensWithNot = false)
    (tail : List Token) (htail : f.isParen = true → ∃ c more, tail = mark true c :: more) :
    Grammar.enclosedTest operand nested stop (f.tokens false ++ tail) =
      Grammar.comparison operand stop (f.tokens false ++ tail) := by
  match f with
  | .var _ | .number _ _ | .negative _ => rfl
  | .call name args =>
    have hword : (glyph false (.ident name.text) name.chars).isWord "not" = false := by
      change (name.text.toList.map Char.toLower == "not".toList) = false
      rw [Spelling.text, String.toList_ofList]
      exact hnot
    simp only [tokens, List.cons_append, Grammar.enclosedTest, hword]
    rfl
  | .paren f =>
    obtain ⟨c, more, rfl⟩ := htail rfl
    have hcross : Crosses [')'] 0 (f.tokens false) 0 := crosses_tokens (by decide) 0 false f
    have htokens : f.paren.tokens false ++ mark true c :: more =
        mark false '(' :: (f.tokens false ++ mark false ')' :: mark true c :: more) := by
      simp [tokens]
    rw [htokens]
    change (enclosed (mark false '(') '(' (f.tokens false ++ mark false ')' :: mark true c :: more)
      >>= _) = _
    rw [enclosed_tokens hcross]
    rfl
  | .operation op l r =>
    have hl := enclosedTest_tokens l hnot (mark true op.symbol :: (r.tokens true ++ tail))
      fun _ => ⟨_, _, rfl⟩
    rw [tokens, List.append_assoc, List.cons_append]
    exact hl

namespace Clause

/-- What may stand behind a clause that stands in parentheses. -/
def Joins (tail : List Token) : Prop :=
  tail = [] ∨ ∃ w more, w ∈ [andWord, orWord] ∧ tail = wordToken true w :: more

theorem enclosedTest_opening (negated : Bool) {inner tail : List Token}
    (hinner : Crosses [')'] 0 inner 0) (htail : Joins tail) :
    Grammar.enclosedTest operand nested stop
        (opening false negated ++ (inner ++ mark false ')' :: tail)) =
      nested stop (opening false negated ++ (inner ++ mark false ')' :: tail)) := by
  cases negated with
  | true => rfl
  | false =>
    change (enclosed (mark false '(') '(' (inner ++ mark false ')' :: tail) >>= _) = _
    rw [Formula.enclosed_tokens hinner]
    rcases htail with rfl | ⟨w, more, hw, rfl⟩
    · rfl
    · simp only [List.mem_cons, List.not_mem_nil, or_false] at hw
      rcases hw with rfl | rfl <;> rfl

/-- A clause in parentheses is read as a clause. -/
theorem enclosedTest_tokens (c : Clause) (tail : List Token) (htail : Joins tail) :
    Grammar.enclosedTest operand nested stop (c.tokens false ++ tail) =
      nested stop (c.tokens false ++ tail) := by
  have hstops : Outside [')'] := by decide
  have hformula : ∀ spaced f, Crosses [')'] 0 (Formula.tokens spaced f) 0 :=
    fun spaced f => Formula.crosses_tokens hstops.formula 0 spaced f
  induction c generalizing tail with
  | holds negated f =>
    have h := enclosedTest_opening operand nested stop negated
      (hformula false f) htail
    simpa [tokens] using h
  | compares negated op l r =>
    have hinner := (hformula false l).append ((op.crosses_tokens hstops 0).append (hformula true r))
    have h := enclosedTest_opening operand nested stop negated
      hinner htail
    simpa [tokens] using h
  | nested negated c =>
    have h := enclosedTest_opening operand nested stop negated
      (crosses_tokens hstops 0 false c) htail
    simpa [tokens] using h
  | both l r ihl =>
    have h := ihl (wordToken true andWord :: (r.tokens true ++ tail))
      (.inr ⟨_, _, by simp, rfl⟩)
    simpa [tokens] using h
  | either l r ihl =>
    have h := ihl (wordToken true orWord :: (r.tokens true ++ tail))
      (.inr ⟨_, _, by simp, rfl⟩)
    simpa [tokens] using h

end Clause

end Tests

section Comparisons

variable {room : Room} {stop : Token}

theorem Comparator.comparisonOperator?_tokens (op : Comparator) {t : Token} (ht : t.spaced = true)
    (ts : List Token) :
    Grammar.comparisonOperator? (op.tokens ++ t :: ts) = some (op.operator, t :: ts) := by
  have hnone : ∀ c, Grammar.compoundOf? (mark true c) t = none := by
    intro c
    unfold Grammar.compoundOf?
    split
    · rw [if_pos ht]
    · rfl
  cases op with
  | equal | greater | less =>
    simp only [tokens, sign, sign?, Option.toList_none, List.map_nil, List.singleton_append,
      Grammar.comparisonOperator?, hnone]
    rfl
  | notEqual | greaterOrEqual | equalOrGreater | lessOrEqual | equalOrLess => rfl

/-- No sign of a comparison continues a product or a sum. -/
theorem Comparator.no_join (op : Comparator) (stop : Token) (rest : List Token) :
    Grammar.productJoin true stop (op.tokens ++ rest) = none ∧
      Grammar.sumJoin stop (op.tokens ++ rest) = none := by
  cases op <;>
    simp [tokens, sign, Grammar.productJoin, Grammar.sumJoin, Formula.isDelim_mark]

theorem Formula.Readable.comparison_whole {f : Formula} (h : Formula.Readable room true f)
    (spaced : Bool) :
    Grammar.comparison (Grammar.operand room) stop (f.tokens spaced) = .ok (f.value, []) := by
  change (Grammar.sum (Grammar.operand room) true stop (f.tokens spaced) >>= _) = _
  rw [h.sum_whole]
  rfl

theorem Comparator.comparison_tokens (op : Comparator) {l r : Formula} (hl : l.Readable room true)
    (hr : r.Readable room true) :
    Grammar.comparison (Grammar.operand room) stop
      (l.tokens false ++ (op.tokens ++ r.tokens true)) =
        .ok (.operation op.operator l.value r.value, []) := by
  obtain ⟨hproduct, hsum⟩ := op.no_join stop (r.tokens true)
  have hleft : Grammar.sum (Grammar.operand room) true stop
      (l.tokens false ++ (op.tokens ++ r.tokens true)) =
        .ok (l.value, op.tokens ++ r.tokens true) := by
    rw [hl.sum false stop _ hproduct, chain_stop hsum]
  obtain ⟨t, ts, htokens, hspaced, -⟩ := Formula.exists_head true r
  have hoperator : Grammar.comparisonOperator? (op.tokens ++ r.tokens true) =
      some (op.operator, r.tokens true) := by
    rw [htokens]
    exact op.comparisonOperator?_tokens hspaced ts
  change (Grammar.sum (Grammar.operand room) true stop
    (l.tokens false ++ (op.tokens ++ r.tokens true)) >>= _) = _
  rw [hleft]
  simp only [bind, Except.bind, hoperator, hr.sum_whole]
  rfl

end Comparisons

namespace Clause

section Levels

variable {room : Room}

/-- What is read within the parentheses of a test. -/
def within (room : Room) : Rule Value :=
  Grammar.enclosedTest (Grammar.operand room) (Grammar.tests room)

def oneTest (room : Room) : Rule Value := Grammar.test (Grammar.operand room) (room.below within)

/-- Tests that `and` joins. -/
def conjunction (room : Room) : Rule Value := chained (Grammar.wordJoin "and" .both) (oneTest room)

theorem tests_eq (room : Room) :
    Grammar.tests room = chained (Grammar.wordJoin "or" .either) (conjunction room) :=
  Grammar.tests_eq room

/-- The rules with this room for nesting read a clause, each up to the words it looks for. -/
structure Readable (room : Room) (c : Clause) : Prop where
  test (h : c.isTest = true) (spaced : Bool) (stop : Token) (rest : List Token) :
    oneTest room stop (c.tokens spaced ++ rest) = .ok (c.value, rest)
  conjunction (h : c.isEither = false) (spaced : Bool) (stop : Token) (rest : List Token) :
    Clause.conjunction room stop (c.tokens spaced ++ rest) =
      chain (Grammar.wordJoin "and" .both) (oneTest room) c.value stop rest
  tests (spaced : Bool) (stop : Token) (rest : List Token)
    (hrest : Grammar.wordJoin "and" .both stop rest = none) :
    Grammar.tests room stop (c.tokens spaced ++ rest) =
      chain (Grammar.wordJoin "or" .either) (Clause.conjunction room) c.value stop rest

/-- What is read as a conjunction is read as a whole clause. -/
theorem tests_of_conjunction {c : Clause}
    (h : ∀ spaced stop rest, conjunction room stop (c.tokens spaced ++ rest) =
      chain (Grammar.wordJoin "and" .both) (oneTest room) c.value stop rest)
    (spaced : Bool) (stop : Token) (rest : List Token)
    (hrest : Grammar.wordJoin "and" .both stop rest = none) :
    Grammar.tests room stop (c.tokens spaced ++ rest) =
      chain (Grammar.wordJoin "or" .either) (conjunction room) c.value stop rest := by
  have hconjunction : conjunction room stop (c.tokens spaced ++ rest) = .ok (c.value, rest) := by
    rw [h, chain_stop hrest]
  rw [tests_eq, chained, hconjunction]
  rfl

theorem Readable.of_test {c : Clause}
    (h : ∀ spaced stop rest, oneTest room stop (c.tokens spaced ++ rest) = .ok (c.value, rest)) :
    Readable room c := by
  have hconjunction : ∀ spaced stop rest, Clause.conjunction room stop (c.tokens spaced ++ rest) =
      chain (Grammar.wordJoin "and" .both) (oneTest room) c.value stop rest := by
    intro spaced stop rest
    rw [Clause.conjunction, chained, h]
    rfl
  exact ⟨fun _ => h, fun _ => hconjunction, tests_of_conjunction hconjunction⟩

/-- A test in its parentheses, with a `not` in front of it or without. -/
theorem oneTest_opening {inner : Room} (hopened : room.opened .test = .ok inner) {v : Value}
    {enclosing : List Token} (negated : Bool) (hcross : Crosses [')'] 0 enclosing 0)
    (hv : whole (within inner) (mark false ')') enclosing = .ok v)
    (spaced : Bool) (stop : Token) (rest : List Token) :
    oneTest room stop (opening spaced negated ++ (enclosing ++ mark false ')' :: rest)) =
      .ok (.condition v negated, rest) := by
  have hplain : ∀ spaced, Grammar.plainTest (Grammar.operand room) (room.below within) negated stop
      (mark spaced '(' :: (enclosing ++ mark false ')' :: rest)) =
        .ok (.condition v negated, rest) := by
    intro spaced
    change (enclosed (mark spaced '(') '(' (enclosing ++ mark false ')' :: rest) >>= _) = _
    rw [Formula.enclosed_tokens hcross]
    change (enter (room.below _) .test _ >>= _) = _
    rw [Room.enter_below _ hopened]
    change (whole (within inner) (mark false ')') enclosing >>= _) = _
    rw [hv]
    rfl
  cases negated with
  | false => exact hplain spaced
  | true => exact hplain true

variable {l r : Clause}

theorem Readable.both (hl : Readable room l) (hr : Readable room r) (hleft : l.isEither = false)
    (hright : r.isTest = true) : Readable room (.both l r) := by
  have hconjunction : ∀ spaced stop rest,
      Clause.conjunction room stop ((Clause.both l r).tokens spaced ++ rest) =
        chain (Grammar.wordJoin "and" .both) (oneTest room) (Clause.both l r).value stop rest := by
    intro spaced stop rest
    have hlength : rest.length < (wordToken true andWord :: (r.tokens true ++ rest)).length := by
      simp only [List.length_cons, List.length_append]
      omega
    rw [tokens, List.append_assoc, hl.conjunction hleft, List.cons_append]
    exact chain_step rfl (hr.test hright true stop rest) hlength
  constructor
  · intro h
    cases h
  · intro _
    exact hconjunction
  · exact tests_of_conjunction hconjunction

theorem Readable.either (hl : Readable room l) (hr : Readable room r)
    (hright : r.isEither = false) : Readable room (.either l r) := by
  constructor
  · intro h
    cases h
  · intro h
    cases h
  · intro spaced stop rest hrest
    have hconjunction :
        Clause.conjunction room stop (r.tokens true ++ rest) = .ok (r.value, rest) := by
      rw [hr.conjunction hright, chain_stop hrest]
    have hlength : rest.length < (wordToken true orWord :: (r.tokens true ++ rest)).length := by
      simp only [List.length_cons, List.length_append]
      omega
    rw [tokens, List.append_assoc, hl.tests spaced, List.cons_append]
    · exact chain_step rfl hconjunction hlength
    · rfl

theorem Readable.tests_whole {c : Clause} (h : Readable room c) (spaced : Bool) (stop : Token) :
    whole (Grammar.tests room) stop (c.tokens spaced) = .ok c.value := by
  have htests := h.tests spaced stop [] rfl
  rw [List.append_nil, chain_stop rfl] at htests
  rw [whole, htests]
  rfl

end Levels

section Induction

variable {room inner : Room}

theorem readable_holds (hopened : room.opened .test = .ok inner) {negated : Bool} {f : Formula}
    (hf : Formula.Readable inner true f) (hparen : f.isParen = false)
    (hnot : f.opensWithNot = false) : Readable room (.holds negated f) := by
  have hcross : Crosses [')'] 0 (f.tokens false) 0 := Formula.crosses_tokens (by decide) 0 false f
  have hvalue : whole (within inner) (mark false ')') (f.tokens false) = .ok f.value := by
    have htest := Formula.enclosedTest_tokens (Grammar.operand inner) (Grammar.tests inner)
      (mark false ')') f hnot [] (by simp [hparen])
    rw [List.append_nil] at htest
    rw [whole, within, htest, hf.comparison_whole]
    rfl
  apply Readable.of_test
  intro spaced stop rest
  have htest := oneTest_opening hopened negated hcross hvalue spaced stop rest
  simpa [tokens, value] using htest

theorem readable_compares (hopened : room.opened .test = .ok inner) {negated : Bool}
    {op : Comparator} {l r : Formula} (hl : Formula.Readable inner true l)
    (hr : Formula.Readable inner true r) (hnot : l.opensWithNot = false) :
    Readable room (.compares negated op l r) := by
  have hstops : Outside [')'] := by decide
  have hcross : Crosses [')'] 0 (l.tokens false ++ (op.tokens ++ r.tokens true)) 0 :=
    (Formula.crosses_tokens hstops.formula 0 false l).append
      ((op.crosses_tokens hstops 0).append (Formula.crosses_tokens hstops.formula 0 true r))
  have hvalue : whole (within inner) (mark false ')')
      (l.tokens false ++ (op.tokens ++ r.tokens true)) =
        .ok (.operation op.operator l.value r.value) := by
    have htest := Formula.enclosedTest_tokens (Grammar.operand inner) (Grammar.tests inner)
      (mark false ')') l hnot (op.tokens ++ r.tokens true) fun _ => ⟨_, _, rfl⟩
    rw [whole, within, htest, op.comparison_tokens hl hr]
    rfl
  apply Readable.of_test
  intro spaced stop rest
  have htest := oneTest_opening hopened negated hcross hvalue spaced stop rest
  simpa [tokens, value] using htest

theorem readable_nested (hopened : room.opened .test = .ok inner) {negated : Bool} {c : Clause}
    (hc : Readable inner c) :
    Readable room (.nested negated c) := by
  have hcross : Crosses [')'] 0 (c.tokens false) 0 := crosses_tokens (by decide) 0 false c
  have hvalue : whole (within inner) (mark false ')') (c.tokens false) = .ok c.value := by
    have htest := enclosedTest_tokens (Grammar.operand inner) (Grammar.tests inner)
      (mark false ')') c [] (.inl rfl)
    rw [List.append_nil] at htest
    rw [whole, within, htest]
    exact hc.tests_whole false (mark false ')')
  apply Readable.of_test
  intro spaced stop rest
  have htest := oneTest_opening hopened negated hcross hvalue spaced stop rest
  simpa [tokens, value] using htest

/-- A clause that is in order is read as its value where there is room for its nesting. -/
theorem readable (c : Clause) (hroom : room.Holds c.nesting) (horder : c.inOrder = true) :
    Readable room c := by
  induction c generalizing room with
  | holds negated f =>
    simp only [inOrder, Bool.and_eq_true, Bool.not_eq_true'] at horder
    obtain ⟨inner, hopened, hinner⟩ := hroom.opened .test
    exact readable_holds hopened (Formula.readable f hinner horder.1.1) horder.1.2 horder.2
  | compares negated op l r =>
    simp only [inOrder, Bool.and_eq_true, Bool.not_eq_true'] at horder
    obtain ⟨inner, hopened, hinner⟩ := hroom.opened .test
    have hl : Formula.Readable inner true l :=
      Formula.readable l (hinner.mono (Nat.le_max_left _ _)) horder.1.1
    have hr : Formula.Readable inner true r :=
      Formula.readable r (hinner.mono (Nat.le_max_right _ _)) horder.1.2
    exact readable_compares hopened hl hr horder.2
  | nested negated c ih =>
    obtain ⟨inner, hopened, hinner⟩ := hroom.opened .test
    exact readable_nested hopened (ih hinner horder)
  | both l r ihl ihr =>
    simp only [inOrder, Bool.and_eq_true, Bool.not_eq_true'] at horder
    obtain ⟨⟨⟨hl, hr⟩, hleft⟩, hright⟩ := horder
    have hinl := ihl (hroom.mono (Nat.le_max_left _ _)) hl
    have hinr := ihr (hroom.mono (Nat.le_max_right _ _)) hr
    exact .both hinl hinr hleft hright
  | either l r ihl ihr =>
    simp only [inOrder, Bool.and_eq_true, Bool.not_eq_true'] at horder
    obtain ⟨⟨hl, hr⟩, hright⟩ := horder
    have hinl := ihl (hroom.mono (Nat.le_max_left _ _)) hl
    have hinr := ihr (hroom.mono (Nat.le_max_right _ _)) hr
    exact .either hinl hinr hright

end Induction

section Lists

variable {room : Room}

/-- Clauses with commas between them are read one by one. -/
theorem pieces_tokens (c : Clause) (cs : List Clause) (h : ∀ e ∈ c :: cs, Readable room e)
    (spaced : Bool) (stop : Token) :
    (pieces ',' stop (c.tokens spaced ++ tokensOfMore cs)).bind
        (eachPiece (whole (Grammar.tests room))) =
      .ok ((c :: cs).map value) := by
  have hcross : ∀ (c : Clause) (spaced : Bool), Crosses [','] 0 (c.tokens spaced) 0 :=
    fun c spaced => crosses_tokens (by decide) 0 spaced c
  induction cs generalizing c spaced with
  | nil =>
    have hc : Readable room c := h c List.mem_cons_self
    change (pieces ',' stop (c.tokens spaced ++ [])).bind _ = _
    rw [List.append_nil]
    exact eachPiece_last (hcross c spaced) (hc.tests_whole spaced stop)
  | cons e cs ih =>
    have hc : Readable room c := h c List.mem_cons_self
    have hrest := ih e (fun e he => h e (List.mem_cons_of_mem _ he)) true
    exact eachPiece_cons (hcross c spaced) rfl rfl (hc.tests_whole spaced (mark false ',')) hrest

theorem tokens_ne_nil (spaced : Bool) (c : Clause) : c.tokens spaced ≠ [] := by
  cases c with
  | holds negated f | compares negated op l r | nested negated c => cases negated <;> simp [tokens]
  | both l r | either l r => simp [tokens]

theorem guard_tokens {cs : List Clause} (hcs : cs ≠ []) (h : ∀ c ∈ cs, Readable room c)
    (spaced : Bool) (stop : Token) :
    Grammar.guard room stop (tokensOfAll spaced cs) = .ok (cs.map value) := by
  obtain ⟨c, cs, rfl⟩ := List.exists_cons_of_ne_nil hcs
  have hne : tokensOfAll spaced (c :: cs) ≠ [] := by simp [tokensOfAll, tokens_ne_nil]
  rw [Grammar.guard, if_neg (by simpa using hne)]
  exact pieces_tokens c cs h spaced stop

end Lists

end Clause

end StyleTally.Stylesheet
