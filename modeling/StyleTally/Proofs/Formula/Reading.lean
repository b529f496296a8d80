import StyleTally.Proofs.Formula.Tokens
import StyleTally.Proofs.Shape.Crossing
import StyleTally.Stylesheet.Grammar.Value

/-!
# Reading a formula

The rules for values read the tokens of a formula that is in order as its value. An operand is read
wherever it stands; a product is read up to the next token that is no sign of a product, and a sum
up to the next one that is no sign of either.
-/

namespace StyleTally.Stylesheet

section Chains

variable {α : Type} {join? : Token → List Token → Option ((α → α → α) × List Token)}
  {operand : Rule α} {join : α → α → α} {left right : α} {stop : Token} {ts us rest : List Token}

theorem chain_stop (hjoin : join? stop ts = none) :
    chain join? operand left stop ts = .ok (left, ts) := by
  rw [chain, hjoin]

theorem chain_step (hjoin : join? stop ts = some (join, us))
    (hright : operand stop us = .ok (right, rest)) (hlength : rest.length < ts.length) :
    chain join? operand left stop ts = chain join? operand (join left right) stop rest := by
  rw [chain, hjoin]
  change (operand stop us >>= _) = _
  rw [hright]
  change (if rest.length < ts.length then _ else _) = _
  rw [if_pos hlength]

end Chains

namespace Formula

section Crossing

variable {stops : List Char}

theorem depthAfter_mark {spaced : Bool} {c : Char} {depth : Nat} (hc : c ∈ ['+', '-', '*', '/'])
    (hstop : c ∉ stops) : depthAfter? stops depth (mark spaced c) = some depth := by
  have hbracket : c ≠ '\x7b' ∧ c ≠ '\x7d' ∧ c ≠ '(' ∧ c ≠ '[' ∧ c ≠ ')' ∧ c ≠ ']' := by
    simp only [List.mem_cons, List.not_mem_nil, or_false] at hc
    rcases hc with rfl | rfl | rfl | rfl <;> decide
  simp [depthAfter?, mark, glyph, hstop, hbracket]

theorem depthAfter_open {spaced : Bool} {depth : Nat} (hstop : '(' ∉ stops) :
    depthAfter? stops depth (mark spaced '(') = some (depth + 1) := by
  simp [depthAfter?, mark, glyph, hstop]

theorem depthAfter_close {depth : Nat} :
    depthAfter? stops (depth + 1) (mark false ')') = some depth := by
  simp [depthAfter?, mark, glyph]

theorem depthAfter_comma {depth : Nat} :
    depthAfter? stops (depth + 1) (mark false ',') = some (depth + 1) := by
  simp [depthAfter?, mark, glyph]

theorem symbol_mem (op : Arithmetic) : op.symbol ∈ ['+', '-', '*', '/'] := by
  cases op <;> simp [Arithmetic.symbol]

/-- A search for these stops goes past an operator and into a parenthesis. -/
def Outside (stops : List Char) : Prop := ∀ c ∈ ['+', '-', '*', '/', '('], c ∉ stops

instance (stops : List Char) : Decidable (Outside stops) :=
  List.decidableBAll (· ∉ stops) ['+', '-', '*', '/', '(']

mutual

/-- No range ends within a formula. -/
theorem crosses_tokens (hstops : Outside stops) (depth : Nat) (spaced : Bool) (f : Formula) :
    Crosses stops depth (f.tokens spaced) depth := by
  have hopen : '(' ∉ stops := hstops '(' (by decide)
  have hclose : Crosses stops (depth + 1) [mark false ')'] depth := .cons depthAfter_close .nil
  cases f with
  | var name => exact .cons rfl .nil
  | number digits unit => exact .cons rfl .nil
  | negative f =>
    have hminus := hstops '-' (by decide)
    exact .cons (depthAfter_mark (by decide) hminus) (crosses_tokens hstops depth false f)
  | call name args =>
    have hargs := crosses_tokensOfArgs hstops (depth + 1) depthAfter_comma args
    exact .cons rfl (.cons (depthAfter_open hopen) (hargs.append hclose))
  | paren f =>
    have hinner := crosses_tokens hstops (depth + 1) false f
    exact .cons (depthAfter_open hopen) (hinner.append hclose)
  | operation op l r =>
    have hsymbol := symbol_mem op
    have hstop := hstops op.symbol (List.mem_append_left ['('] hsymbol)
    have hr := crosses_tokens hstops depth true r
    rw [tokens]
    exact (crosses_tokens hstops depth spaced l).append (.cons (depthAfter_mark hsymbol hstop) hr)

theorem crosses_tokensOfArgs (hstops : Outside stops) (depth : Nat)
    (hcomma : depthAfter? stops depth (mark false ',') = some depth) (fs : List Formula) :
    Crosses stops depth (tokensOfArgs fs) depth := by
  cases fs with
  | nil => exact .nil
  | cons f fs =>
    have hfs := crosses_tokensOfMore hstops depth hcomma fs
    exact (crosses_tokens hstops depth false f).append hfs

theorem crosses_tokensOfMore (hstops : Outside stops) (depth : Nat)
    (hcomma : depthAfter? stops depth (mark false ',') = some depth) (fs : List Formula) :
    Crosses stops depth (tokensOfMore fs) depth := by
  cases fs with
  | nil => exact .nil
  | cons f fs =>
    have hfs := crosses_tokensOfMore hstops depth hcomma fs
    exact .cons hcomma ((crosses_tokens hstops depth true f).append hfs)

end

end Crossing

section Heads

variable {c : Char}

/-- The first token of a formula. -/
theorem exists_head (spaced : Bool) (f : Formula) :
    ∃ t ts, f.tokens spaced = t :: ts ∧ t.spaced = spaced ∧ t.isDelim ',' = false := by
  have hspaced (lexeme : Lexeme) (text : List Char) :
      (glyph spaced lexeme text).spaced = spaced := by
    cases spaced <;> rfl
  match f with
  | .var name => exact ⟨_, [], rfl, hspaced _ _, rfl⟩
  | .number digits unit => exact ⟨_, [], rfl, hspaced _ _, rfl⟩
  | .negative f => exact ⟨_, f.tokens false, rfl, hspaced _ _, rfl⟩
  | .call name args => exact ⟨_, _, rfl, hspaced _ _, rfl⟩
  | .paren f => exact ⟨_, _, rfl, hspaced _ _, rfl⟩
  | .operation op l r =>
    obtain ⟨t, ts, hl, ht⟩ := exists_head spaced l
    refine ⟨t, ts ++ mark true op.symbol :: r.tokens true, ?_, ht⟩
    rw [tokens, hl]
    rfl

theorem isDelim_mark (spaced : Bool) (a : Char) : (mark spaced a).isDelim c = (a == c) := by
  simp [Token.isDelim, mark, glyph]

/-- A delimiter that no formula holds. -/
def Foreign (c : Char) : Prop := c ∉ ['+', '-', '*', '/', '(', ')', ',']

instance (c : Char) : Decidable (Foreign c) :=
  inferInstanceAs (Decidable (c ∉ ['+', '-', '*', '/', '(', ')', ',']))

theorem Foreign.isDelim_mark (hc : Foreign c) (spaced : Bool) {a : Char}
    (ha : a ∈ ['+', '-', '*', '/', '(', ')', ',']) : (mark spaced a).isDelim c = false := by
  rw [Formula.isDelim_mark, beq_eq_false_iff_ne]
  rintro rfl
  exact hc ha

mutual

theorem isDelim_tokens (hc : Foreign c) (spaced : Bool) (f : Formula) :
    ∀ t ∈ f.tokens spaced, t.isDelim c = false := by
  intro t ht
  cases f with
  | var name =>
    obtain rfl := List.mem_singleton.mp ht
    rfl
  | number digits unit =>
    obtain rfl := List.mem_singleton.mp ht
    rfl
  | negative f =>
    rcases List.mem_cons.mp ht with rfl | ht
    · exact hc.isDelim_mark spaced (by decide)
    · exact isDelim_tokens hc false f t ht
  | call name args =>
    simp only [tokens, List.mem_cons, List.mem_append, List.not_mem_nil, or_false] at ht
    rcases ht with rfl | rfl | ht | rfl
    · rfl
    · exact hc.isDelim_mark false (by decide)
    · exact isDelim_tokensOfArgs hc args t ht
    · exact hc.isDelim_mark false (by decide)
  | paren f =>
    simp only [tokens, List.mem_cons, List.mem_append, List.not_mem_nil, or_false] at ht
    rcases ht with rfl | ht | rfl
    · exact hc.isDelim_mark spaced (by decide)
    · exact isDelim_tokens hc false f t ht
    · exact hc.isDelim_mark false (by decide)
  | operation op l r =>
    simp only [tokens, List.mem_append, List.mem_cons] at ht
    rcases ht with ht | rfl | ht
    · exact isDelim_tokens hc spaced l t ht
    · exact hc.isDelim_mark true (List.mem_append_left ['(', ')', ','] (symbol_mem op))
    · exact isDelim_tokens hc true r t ht

theorem isDelim_tokensOfArgs (hc : Foreign c) (fs : List Formula) :
    ∀ t ∈ tokensOfArgs fs, t.isDelim c = false := by
  intro t ht
  cases fs with
  | nil => cases ht
  | cons f fs =>
    rcases List.mem_append.mp ht with ht | ht
    · exact isDelim_tokens hc false f t ht
    · exact isDelim_tokensOfMore hc fs t ht

theorem isDelim_tokensOfMore (hc : Foreign c) (fs : List Formula) :
    ∀ t ∈ tokensOfMore fs, t.isDelim c = false := by
  intro t ht
  cases fs with
  | nil => cases ht
  | cons f fs =>
    simp only [tokensOfMore, List.mem_cons, List.mem_append] at ht
    rcases ht with rfl | ht | ht
    · exact hc.isDelim_mark false (by decide)
    · exact isDelim_tokens hc true f t ht
    · exact isDelim_tokensOfMore hc fs t ht

end

end Heads

section Levels

variable {room : Room} {divides : Bool} {f : Formula}

/-- The rules with this room for nesting read a formula, each up to the tokens it looks for. -/
structure Readable (room : Room) (divides : Bool) (f : Formula) : Prop where
  operand (h : f.isOperation = false) (spaced : Bool) (stop : Token) (rest : List Token) :
    Grammar.operand room stop (f.tokens spaced ++ rest) = .ok (f.value, rest)
  product (h : f.isSum = false) (spaced : Bool) (stop : Token) (rest : List Token) :
    Grammar.product (Grammar.operand room) divides stop (f.tokens spaced ++ rest) =
      chain (Grammar.productJoin divides) (Grammar.operand room) f.value stop rest
  sum (spaced : Bool) (stop : Token) (rest : List Token)
    (hrest : Grammar.productJoin divides stop rest = none) :
    Grammar.sum (Grammar.operand room) divides stop (f.tokens spaced ++ rest) =
      chain Grammar.sumJoin (Grammar.product (Grammar.operand room) divides) f.value stop rest

/-- What is read as a product is read as a sum. -/
theorem sum_of_product
    (h : ∀ spaced stop rest, Grammar.product (Grammar.operand room) divides stop
      (f.tokens spaced ++ rest) =
        chain (Grammar.productJoin divides) (Grammar.operand room) f.value stop rest)
    (spaced : Bool) (stop : Token) (rest : List Token)
    (hrest : Grammar.productJoin divides stop rest = none) :
    Grammar.sum (Grammar.operand room) divides stop (f.tokens spaced ++ rest) =
      chain Grammar.sumJoin (Grammar.product (Grammar.operand room) divides) f.value stop rest := by
  have hproduct : Grammar.product (Grammar.operand room) divides stop (f.tokens spaced ++ rest) =
      .ok (f.value, rest) := by
    rw [h, chain_stop hrest]
  rw [Grammar.sum, chained, hproduct]
  rfl

theorem Readable.of_operand
    (h : ∀ spaced stop rest, Grammar.operand room stop (f.tokens spaced ++ rest) =
      .ok (f.value, rest)) : Readable room divides f := by
  have hproduct : ∀ spaced stop rest, Grammar.product (Grammar.operand room) divides stop
      (f.tokens spaced ++ rest) =
        chain (Grammar.productJoin divides) (Grammar.operand room) f.value stop rest := by
    intro spaced stop rest
    rw [Grammar.product, chained, h]
    rfl
  exact ⟨fun _ => h, fun _ => hproduct, sum_of_product hproduct⟩

variable {op : Arithmetic} {l r : Formula} {rest : List Token} {stop : Token}

theorem productJoin_sign (hop : op.isSum = true) :
    Grammar.productJoin divides stop (mark true op.symbol :: rest) = none := by
  cases op with
  | add | subtract => simp [Grammar.productJoin, isDelim_mark, Arithmetic.symbol]
  | multiply | divide => cases hop

theorem productJoin_factor (hop : op.isSum = false) (hdivides : op = .divide → divides = true) :
    Grammar.productJoin divides stop (mark true op.symbol :: rest) =
      some (.operation op.operator, rest) := by
  cases op with
  | add | subtract => cases hop
  | multiply => simp [Grammar.productJoin, isDelim_mark, Arithmetic.symbol, Arithmetic.operator]
  | divide =>
    simp [Grammar.productJoin, isDelim_mark, Arithmetic.symbol, Arithmetic.operator, hdivides rfl]

/-- A sign with a blank on each side joins what stands beside it. -/
theorem sumJoin_sign (hop : op.isSum = true) (hspaced : spacedAt stop rest = true) :
    Grammar.sumJoin stop (mark true op.symbol :: rest) = some (.operation op.operator, rest) := by
  have hmark : (mark true op.symbol).spaced = true := rfl
  cases op with
  | add | subtract =>
    simp [Grammar.sumJoin, hspaced, isDelim_mark, Arithmetic.symbol, Arithmetic.operator]
  | multiply | divide => cases hop

theorem spacedAt_tokens (f : Formula) (stop : Token) (rest : List Token) :
    spacedAt stop (f.tokens true ++ rest) = true := by
  obtain ⟨t, ts, htokens, hspaced, -⟩ := exists_head true f
  rw [htokens]
  exact hspaced

theorem Readable.factors (hl : Readable room divides l) (hr : Readable room divides r)
    (hop : op.isSum = false) (hdivides : op = .divide → divides = true) (hleft : l.isSum = false)
    (hright : r.isOperation = false) : Readable room divides (.operation op l r) := by
  have hproduct : ∀ spaced stop rest, Grammar.product (Grammar.operand room) divides stop
      ((Formula.operation op l r).tokens spaced ++ rest) =
        chain (Grammar.productJoin divides) (Grammar.operand room) (Formula.operation op l r).value
          stop rest := by
    intro spaced stop rest
    have hlength : rest.length < (mark true op.symbol :: (r.tokens true ++ rest)).length := by
      simp only [List.length_cons, List.length_append]
      omega
    rw [tokens, List.append_assoc, hl.product hleft, List.cons_append]
    exact chain_step (productJoin_factor hop hdivides) (hr.operand hright true stop rest) hlength
  constructor
  · intro h
    cases h
  · intro _
    exact hproduct
  · exact sum_of_product hproduct

theorem Readable.terms (hl : Readable room divides l) (hr : Readable room divides r)
    (hop : op.isSum = true) (hright : r.isSum = false) :
    Readable room divides (.operation op l r) := by
  constructor
  · intro h
    cases h
  · intro h
    rw [isSum, hop] at h
    cases h
  · intro spaced stop rest hrest
    have hproduct : Grammar.product (Grammar.operand room) divides stop (r.tokens true ++ rest) =
        .ok (r.value, rest) := by
      rw [hr.product hright, chain_stop hrest]
    have hlength : rest.length < (mark true op.symbol :: (r.tokens true ++ rest)).length := by
      simp only [List.length_cons, List.length_append]
      omega
    rw [tokens, List.append_assoc, hl.sum spaced, List.cons_append]
    · exact chain_step (sumJoin_sign hop (spacedAt_tokens r stop rest)) hproduct hlength
    · exact productJoin_sign hop

end Levels

section Whole

variable {room : Room} {divides : Bool} {f : Formula}

theorem Readable.sum_whole (h : Readable room divides f) (spaced : Bool) (stop : Token) :
    Grammar.sum (Grammar.operand room) divides stop (f.tokens spaced) = .ok (f.value, []) := by
  have hsum := h.sum spaced stop [] rfl
  rw [List.append_nil] at hsum
  rw [hsum]
  exact chain_stop rfl

/-- A formula alone is one item: no comparison and no second value follows it. -/
theorem Readable.items_whole (h : Readable room divides f) (spaced : Bool) (stop : Token) :
    Grammar.items (if divides then Grammar.comparison (Grammar.operand room)
      else Grammar.shorthand (Grammar.operand room)) stop (f.tokens spaced) =
        .ok ([f.value], []) := by
  have hsum := h.sum_whole spaced stop
  have hitem : (if divides then Grammar.comparison (Grammar.operand room)
      else Grammar.shorthand (Grammar.operand room)) stop (f.tokens spaced) =
        .ok (f.value, []) := by
    cases divides with
    | true =>
      change (Grammar.sum (Grammar.operand room) true stop (f.tokens spaced) >>= _) = _
      rw [hsum]
      rfl
    | false =>
      change (Grammar.sum (Grammar.operand room) false stop (f.tokens spaced) >>= _) = _
      rw [hsum]
      exact chain_stop rfl
  obtain ⟨t, ts, htokens, -, hcomma⟩ := exists_head spaced f
  have hstart : ((f.tokens spaced).isEmpty || startsWithDelim ',' (f.tokens spaced)) = false := by
    rw [htokens]
    exact hcomma
  have hlength : ([] : List Token).length < (f.tokens spaced).length := by
    rw [htokens]
    exact Nat.succ_pos _
  have hend : ∀ item : Rule Value, Grammar.items item stop [] = .ok ([], []) := by
    intro item
    rw [Grammar.items]
    rfl
  rw [Grammar.items, if_neg (by rw [hstart]; decide), hitem]
  change (if ([] : List Token).length < (f.tokens spaced).length then _ else _) = _
  rw [if_pos hlength, hend]
  rfl

theorem Readable.expression_whole (h : Readable room divides f) (spaced : Bool) (stop : Token) :
    Grammar.expression (Grammar.operand room) divides stop (f.tokens spaced) =
      .ok (f.value, []) := by
  unfold Grammar.expression
  rw [h.items_whole spaced stop]
  rfl

theorem Readable.value_whole (h : Readable room divides f) (spaced : Bool) (stop : Token) :
    whole (Grammar.value (Grammar.operand room) divides) stop (f.tokens spaced) = .ok f.value := by
  have hlisted : Grammar.listed (Grammar.expression (Grammar.operand room) divides) stop
      (f.tokens spaced) = .ok ([f.value], []) := by
    rw [Grammar.listed, h.expression_whole]
    rfl
  unfold whole Grammar.value
  rw [hlisted]
  rfl

/-- A formula is an argument without a name. -/
theorem Readable.arg_whole (h : Readable room true f) (spaced : Bool) (stop : Token) :
    whole (Grammar.functionArg (Grammar.operand room)) stop (f.tokens spaced) = .ok f.value := by
  have hequals : Foreign '=' := by decide
  have hnone := isDelim_tokens hequals spaced f
  have harg : Grammar.functionArg (Grammar.operand room) stop (f.tokens spaced) =
      .ok (f.value, []) := by
    rw [← h.expression_whole spaced stop]
    unfold Grammar.functionArg
    split
    · rename_i t u rest heq
      have hu : u.isDelim '=' = false := by
        apply hnone
        rw [heq]
        simp
      split
      · simp [hu]
      · rfl
    · rfl
  unfold whole
  rw [harg]
  rfl

end Whole

section Operands

variable {room : Room} {divides : Bool} {f : Formula} {stop : Token} {rest : List Token}

/-- A parenthesis encloses what no range ends within. -/
theorem enclosed_tokens {bracket : Token} {inner : List Token} (h : Crosses [')'] 0 inner 0)
    (rest : List Token) :
    enclosed bracket '(' (inner ++ mark false ')' :: rest) =
      .ok (inner, mark false ')', rest) := by
  have hcut := h.cut_cons (t := mark false ')') rfl rest
  unfold enclosed
  rw [show [closerOf '('] = [')'] from rfl, hcut]
  rfl

theorem variableNamed_word (name : Word) :
    Grammar.variableNamed name.text = .var name.text .direct := by
  obtain ⟨c, cs, hchars⟩ := List.exists_cons_of_ne_nil name.nonempty
  have hat : c ≠ '@' := letter_ne (name.all c (by simp [hchars])) (by decide)
  have hlist : name.text.toList = c :: cs := by
    rw [Spelling.text, String.toList_ofList, hchars]
  unfold Grammar.variableNamed
  rw [hlist]
  split
  · rename_i heq
    obtain ⟨rfl, -⟩ := List.cons.inj heq
    exact absurd rfl hat
  · rfl

theorem operand_var (name : Word) (spaced : Bool) (stop : Token) (rest : List Token) :
    Grammar.operand room stop ((Formula.var name).tokens spaced ++ rest) =
      .ok ((Formula.var name).value, rest) := by
  rw [Grammar.operand_eq]
  change Except.ok (Grammar.variableNamed name.text, rest) = _
  rw [variableNamed_word]
  rfl

theorem operand_number (digits : Numeral) (unit : Option Word) (spaced : Bool) (stop : Token)
    (rest : List Token) :
    Grammar.operand room stop ((Formula.number digits unit).tokens spaced ++ rest) =
      .ok ((Formula.number digits unit).value, rest) := by
  rw [Grammar.operand_eq]
  rfl

theorem operand_negative {inner : Room} (hopened : room.opened .sign = .ok inner)
    (h : Readable inner divides f) (hf : f.isOperation = false) (spaced : Bool) (stop : Token)
    (rest : List Token) :
    Grammar.operand room stop (f.negative.tokens spaced ++ rest) =
      .ok (f.negative.value, rest) := by
  have hoperand := h.operand hf false stop rest
  rw [Grammar.operand_eq]
  change (enter (room.below Grammar.operand) .sign _ >>= _) = _
  rw [Room.enter_below _ hopened]
  change (Grammar.operand inner stop (f.tokens false ++ rest) >>= _) = _
  rw [hoperand]
  rfl

theorem operand_paren {inner : Room} (hopened : room.opened .parenthesis = .ok inner)
    (h : Readable inner true f) (spaced : Bool) (stop : Token) (rest : List Token) :
    Grammar.operand room stop (f.paren.tokens spaced ++ rest) = .ok (f.paren.value, rest) := by
  have hstops : Outside [')'] := by decide
  have hcross : Crosses [')'] 0 (f.tokens false) 0 := crosses_tokens hstops 0 false f
  have henclosed : enclosed (mark spaced '(') '(' (f.tokens false ++ mark false ')' :: rest) =
      .ok (f.tokens false, mark false ')', rest) := enclosed_tokens hcross rest
  have hvalue := h.value_whole false (mark false ')')
  have htokens : f.paren.tokens spaced ++ rest =
      mark spaced '(' :: (f.tokens false ++ mark false ')' :: rest) := by
    simp [tokens]
  rw [htokens, Grammar.operand_eq]
  change (enclosed (mark spaced '(') '(' (f.tokens false ++ mark false ')' :: rest) >>= _) = _
  rw [henclosed]
  change (enter (room.below Grammar.operand) .parenthesis _ >>= _) = _
  rw [Room.enter_below _ hopened]
  change (whole (Grammar.value (Grammar.operand inner) true) (mark false ')') (f.tokens false)
    >>= _) = _
  rw [hvalue]
  rfl

/-- Arguments with commas between them are read one by one. -/
theorem pieces_tokens (f : Formula) (fs : List Formula) (h : ∀ g ∈ f :: fs, Readable room true g)
    (spaced : Bool) (stop : Token) :
    (pieces ',' stop (f.tokens spaced ++ tokensOfMore fs)).bind
      (eachPiece (whole (Grammar.functionArg (Grammar.operand room)))) =
        .ok (valuesOf (f :: fs)) := by
  have hstops : Outside [','] := by decide
  have hcross : ∀ (f : Formula) (spaced : Bool), Crosses [','] 0 (f.tokens spaced) 0 :=
    fun f spaced => crosses_tokens hstops 0 spaced f
  induction fs generalizing f spaced with
  | nil =>
    have hf : Readable room true f := h f List.mem_cons_self
    rw [tokensOfMore, List.append_nil]
    exact eachPiece_last (hcross f spaced) (hf.arg_whole spaced stop)
  | cons g fs ih =>
    have hf : Readable room true f := h f List.mem_cons_self
    have hrest := ih g (fun e he => h e (List.mem_cons_of_mem _ he)) true
    exact eachPiece_cons (hcross f spaced) rfl rfl (hf.arg_whole spaced (mark false ',')) hrest

theorem functionArgs_tokens {args : List Formula} (h : ∀ f ∈ args, Readable room true f)
    (stop : Token) :
    Grammar.functionArgs (Grammar.operand room) stop (tokensOfArgs args) = .ok (valuesOf args) := by
  cases args with
  | nil => rfl
  | cons f fs =>
    have hne : (tokensOfArgs (f :: fs)).isEmpty = false := by
      obtain ⟨t, ts, htokens, -, -⟩ := exists_head false f
      rw [tokensOfArgs, htokens]
      rfl
    rw [Grammar.functionArgs, if_neg (by rw [hne]; decide)]
    exact pieces_tokens f fs h false stop

theorem operand_call {inner : Room} (hopened : room.opened .call = .ok inner) (name : Word)
    {args : List Formula} (h : ∀ f ∈ args, Readable inner true f) (spaced : Bool) (stop : Token)
    (rest : List Token) :
    Grammar.operand room stop ((Formula.call name args).tokens spaced ++ rest) =
      .ok ((Formula.call name args).value, rest) := by
  have hstops : Outside [')'] := by decide
  have hcross : Crosses [')'] 0 (tokensOfArgs args) 0 := crosses_tokensOfArgs hstops 0 rfl args
  have henclosed : enclosed (mark false '(') '(' (tokensOfArgs args ++ mark false ')' :: rest) =
      .ok (tokensOfArgs args, mark false ')', rest) := enclosed_tokens hcross rest
  have htokens : (Formula.call name args).tokens spaced ++ rest =
      glyph spaced (.ident name.text) name.chars :: mark false '(' ::
        (tokensOfArgs args ++ mark false ')' :: rest) := by
    simp [tokens]
  rw [htokens, Grammar.operand_eq]
  change (enclosed (mark false '(') '(' (tokensOfArgs args ++ mark false ')' :: rest) >>= _) = _
  rw [henclosed]
  change (enter (room.below Grammar.operand) .call _ >>= _) = _
  rw [Room.enter_below _ hopened]
  change (Grammar.functionArgs (Grammar.operand inner) (mark false ')') (tokensOfArgs args)
    >>= _) = _
  rw [functionArgs_tokens h]
  rfl

end Operands

section Induction

theorem isOperation_of_takesSign {f : Formula} (h : f.takesSign = true) :
    f.isOperation = false := by
  cases f with
  | operation op l r => cases h
  | var | number | negative | call | paren => rfl

mutual

/-- A formula that is in order is read as its value where there is room for its nesting. -/
theorem readable {room : Room} {divides : Bool} (f : Formula) (hroom : room.Holds f.nesting)
    (horder : f.inOrder divides = true) : Readable room divides f := by
  cases f with
  | var name => exact .of_operand (operand_var name)
  | number digits unit => exact .of_operand (operand_number digits unit)
  | negative f =>
    rw [inOrder, Bool.and_eq_true] at horder
    obtain ⟨inner, hopened, hinner⟩ := Room.Holds.opened hroom .sign
    have hf : Readable inner divides f := readable f hinner horder.2
    exact .of_operand (operand_negative hopened hf (isOperation_of_takesSign horder.1))
  | call name args =>
    rw [inOrder, Bool.and_eq_true] at horder
    obtain ⟨inner, hopened, hinner⟩ := Room.Holds.opened hroom .call
    exact .of_operand (operand_call hopened name (allReadable args hinner horder.2))
  | paren f =>
    rw [inOrder] at horder
    obtain ⟨inner, hopened, hinner⟩ := Room.Holds.opened hroom .parenthesis
    have hf : Readable inner true f := readable f hinner horder
    exact .of_operand (operand_paren hopened hf)
  | operation op l r =>
    simp only [inOrder, Bool.and_eq_true, Bool.or_eq_true, bne_iff_ne] at horder
    obtain ⟨⟨⟨hl, hr⟩, hdivides⟩, hshape⟩ := horder
    rw [nesting] at hroom
    have hleft : Readable room divides l := readable l (hroom.mono (by omega)) hl
    have hright : Readable room divides r := readable r (hroom.mono (by omega)) hr
    by_cases hop : op.isSum = true
    · rw [if_pos hop] at hshape
      exact .terms hleft hright hop (by simpa using hshape)
    · rw [if_neg hop, Bool.and_eq_true] at hshape
      apply Readable.factors hleft hright
      · simpa using hop
      · intro h
        rcases hdivides with hdivides | hdivides
        · exact absurd h hdivides
        · exact hdivides
      · simpa using hshape.1
      · simpa using hshape.2

theorem allReadable {room : Room} (fs : List Formula) (hroom : room.Holds (nestingOf fs))
    (horder : allInOrder fs = true) : ∀ f ∈ fs, Readable room true f := by
  cases fs with
  | nil =>
    intro f hf
    cases hf
  | cons f fs =>
    rw [nestingOf] at hroom
    rw [allInOrder, Bool.and_eq_true] at horder
    have hf : Readable room true f := readable f (hroom.mono (by omega)) horder.1
    exact List.forall_mem_cons.mpr ⟨hf, allReadable fs (hroom.mono (by omega)) horder.2⟩

end

end Induction

end Formula

end StyleTally.Stylesheet
