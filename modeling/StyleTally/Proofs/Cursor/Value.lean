import StyleTally.Proofs.Cursor.Grammar
import StyleTally.Proofs.Cursor.Slice
import StyleTally.Proofs.Shape.Value

/-!
# Values by position

The moves for values, guards and media queries track the rules. Their loops read at least one token
on each pass, and every operator that they look up is found.
-/

namespace StyleTally.Stylesheet.Tape

open Value (Derives derives_grammatical)

variable {tape : Tape} {limit pos : Int} {range : List Token} {stop : Token}

/-- A move for operands that tracks a rule for operands. -/
structure Follows (tape : Tape) (move : Move Value) (rule : Rule Value) : Prop where
  tracks : Tracks tape move rule
  reads : Reads (Derives .operand) rule

section Joins

variable {α : Type} {t : Token} {rest : List Token}

theorem Reached.tail {a : α} (h : Slice tape limit pos (t :: rest) stop) :
    Reached tape limit stop (a, rest) (a, pos + 1) :=
  ⟨rfl, h.tail⟩

theorem operatorOf_delim {c : Char} {op : Operator} (ht : t.isDelim c = true)
    (hop : Operator.ofSymbol? (String.singleton c) = some op) :
    operatorOf t.lexeme.value = .ok op := by
  simp only [Token.isDelim, beq_iff_eq] at ht
  rw [operatorOf, ht, Lexeme.value, hop]

theorem productJoin_joins (divides : Bool) :
    JoinsAt tape (tape.productJoin divides) (Grammar.productJoin divides) := by
  intro limit pos range stop h
  have hpeek := h.peek_eq
  cases range with
  | nil => exact ⟨none, by simp [productJoin, hpeek], .none⟩
  | cons t rest =>
    have hfound {c : Char} {op : Operator} (ht : t.isDelim c = true)
        (hop : Operator.ofSymbol? (String.singleton c) = some op)
        (hc : (t.isDelim '*' || divides && t.isDelim '/') = true) :
        tape.productJoin divides limit pos = .ok (some (.operation op, pos + 1)) := by
      simp only [productJoin, hpeek, List.headD_cons, ok_bind, hc, if_true,
        operatorOf_delim ht hop, pure_eq_ok]
    simp only [Grammar.productJoin]
    split
    · rename_i ht
      exact ⟨_, hfound ht rfl (by simp [ht]), .some ⟨.tail h, by simp⟩⟩
    · rename_i hstar
      split
      · rename_i hslash
        have ht : t.isDelim '/' = true := (Bool.and_eq_true_iff.mp hslash).2
        exact ⟨_, hfound ht rfl (by simp [hslash]), .some ⟨.tail h, by simp⟩⟩
      · rename_i hslash
        rw [Bool.not_eq_true] at hstar hslash
        refine ⟨none, ?_, .none⟩
        simp only [productJoin, hpeek, List.headD_cons, ok_bind, hstar, hslash, Bool.or_self,
          Bool.false_eq_true, if_false, pure_eq_ok]

theorem sumJoin_joins : JoinsAt tape tape.sumJoin Grammar.sumJoin := by
  intro limit pos range stop h
  have hpeek := h.peek_eq
  cases range with
  | nil => exact ⟨none, by simp [sumJoin, hpeek], .none⟩
  | cons t rest =>
    have hnext := h.tail.peek_eq
    have hspaced : (rest.headD stop.ended).spaced = spacedAt stop rest := by
      cases rest <;> rfl
    have hfound {c : Char} {op : Operator} (ht : t.isDelim c = true)
        (hop : Operator.ofSymbol? (String.singleton c) = some op)
        (hc : (t.isDelim '+' || t.isDelim '-') = true)
        (hs : ¬(t.spaced && !spacedAt stop rest) = true) :
        tape.sumJoin limit pos = .ok (some (.operation op, pos + 1)) := by
      simp only [sumJoin, hpeek, hnext, List.headD_cons, ok_bind, hc, if_true, hspaced, if_neg hs,
        operatorOf_delim ht hop, pure_eq_ok]
    simp only [Grammar.sumJoin]
    split
    · rename_i hs
      refine ⟨none, ?_, .none⟩
      simp only [sumJoin, hpeek, hnext, List.headD_cons, ok_bind, hspaced, if_pos hs, pure_eq_ok,
        ite_self]
    · rename_i hs
      split
      · rename_i ht
        exact ⟨_, hfound ht rfl (by simp [ht]) hs, .some ⟨.tail h, by simp⟩⟩
      · rename_i hplus
        split
        · rename_i ht
          exact ⟨_, hfound ht rfl (by simp [ht]) hs, .some ⟨.tail h, by simp⟩⟩
        · rename_i hminus
          exact ⟨none, by simp [sumJoin, hpeek, hplus, hminus], .none⟩

theorem slashJoin_joins : JoinsAt tape tape.slashJoin Grammar.slashJoin := by
  intro limit pos range stop h
  have hpeek := h.peek_eq
  cases range with
  | nil => exact ⟨none, by simp [slashJoin, hpeek], .none⟩
  | cons t rest =>
    simp only [Grammar.slashJoin]
    split
    · rename_i ht
      exact ⟨some (.shorthand, pos + 1), by simp [slashJoin, hpeek, ht], .some ⟨.tail h, by simp⟩⟩
    · rename_i ht
      exact ⟨none, by simp [slashJoin, hpeek, ht], .none⟩

theorem wordJoin_joins (word : String) (op : Operator) :
    JoinsAt tape (tape.wordJoin word op) (Grammar.wordJoin word op) := by
  intro limit pos range stop h
  have hpeek := h.peek_eq
  cases range with
  | nil => exact ⟨none, by simp [wordJoin, hpeek], .none⟩
  | cons t rest =>
    simp only [Grammar.wordJoin]
    split
    · rename_i ht
      exact ⟨some (.operation op, pos + 1), by simp [wordJoin, hpeek, ht],
        .some ⟨.tail h, by simp⟩⟩
    · rename_i ht
      exact ⟨none, by simp [wordJoin, hpeek, ht], .none⟩

end Joins

section Comparisons

theorem contains_compound (a b : Char) :
    compoundComparisons.contains (String.singleton a ++ String.singleton b) =
      (Grammar.compound? a b).isSome := by
  have hpair (s : String) : String.singleton a ++ String.singleton b = s ↔ [a, b] = s.toList := by
    rw [← String.toList_inj, String.toList_append]
    simp
  rw [Bool.eq_iff_iff, List.contains_iff_mem]
  simp only [compoundComparisons, List.mem_cons, List.not_mem_nil, or_false, hpair]
  constructor
  · rintro (h | h | h | h | h) <;> (cases h; rfl)
  · intro h
    unfold Grammar.compound? at h
    split at h <;> simp_all

theorem operatorOf_compound {a b : Char} {op : Operator} (h : Grammar.compound? a b = some op) :
    operatorOf (String.singleton a ++ String.singleton b) = .ok op := by
  unfold Grammar.compound? at h
  split at h <;> cases h <;> rfl

/-- Three points are no part of a comparison. -/
theorem contains_ellipsis (a : Char) :
    compoundComparisons.contains (String.singleton a ++ "...") = false := by
  have hlength (s : String) (h : String.singleton a ++ "..." = s) : s.toList.length = 4 := by
    rw [← h, String.toList_append]
    simp
  rw [Bool.eq_false_iff, ne_eq, List.contains_iff_mem]
  simp only [compoundComparisons, List.mem_cons, List.not_mem_nil, or_false]
  rintro (h | h | h | h | h) <;> exact absurd (hlength _ h) (by decide)

/-- Whether two tokens that a move looks at make up one comparison. -/
def isCompound (t u : Token) : Bool :=
  u.lexeme.kind == "delim" && !u.spaced &&
    compoundComparisons.contains (t.lexeme.value ++ u.lexeme.value)

theorem isCompound_eq {t u : Token} {a : Char} (ht : t.lexeme = .delim a) :
    isCompound t u = (Grammar.compoundOf? t u).isSome := by
  unfold isCompound Grammar.compoundOf?
  rw [ht]
  cases hu : u.lexeme with
  | delim b =>
    simp only [Lexeme.kind, Lexeme.value, contains_compound]
    cases u.spaced <;> simp
  | ellipsis => simp only [Lexeme.value, contains_ellipsis, Bool.and_false, Option.isSome_none]
  | _ => simp [Lexeme.kind]

theorem operatorOf_compoundOf? {t u : Token} {op : Operator}
    (h : Grammar.compoundOf? t u = some op) :
    operatorOf (t.lexeme.value ++ u.lexeme.value) = .ok op := by
  unfold Grammar.compoundOf? at h
  split at h
  · rename_i a b ht hu
    split at h
    · cases h
    · rw [ht, hu]
      exact operatorOf_compound h
  · cases h

theorem operatorOf_simple? {t : Token} {op : Operator} (h : Grammar.simple? t = some op) :
    operatorOf t.lexeme.value = .ok op := by
  rw [Grammar.simple?] at h
  split at h
  · cases h
    exact operatorOf_delim ‹_› rfl
  · split at h
    · cases h
      exact operatorOf_delim ‹_› rfl
    · split at h
      · cases h
        exact operatorOf_delim ‹_› rfl
      · cases h

/-- A token that opens a comparison is one alone or an exclamation mark. -/
theorem simple?_eq_none {t : Token} (h : ['>', '<', '=', '!'].any t.isDelim = true)
    (hnone : Grammar.simple? t = none) : t.isDelim '!' = true := by
  rw [Grammar.simple?] at hnone
  split at hnone
  · cases hnone
  · rename_i hgreater
    split at hnone
    · cases hnone
    · rename_i hless
      split at hnone
      · cases hnone
      · rename_i hequals
        simpa [hgreater, hless, hequals] using h

theorem isDelim_bang_of_simple? {t : Token} {op : Operator} (h : Grammar.simple? t = some op) :
    t.isDelim '!' = false := by
  rw [Grammar.simple?] at h
  split at h
  · rename_i ht
    simp_all [Token.isDelim]
  · split at h
    · rename_i ht
      simp_all [Token.isDelim]
    · split at h
      · rename_i ht
        simp_all [Token.isDelim]
      · cases h

/-- Tokens that open no comparison make up none. -/
theorem no_comparison {t : Token} (h : ['>', '<', '=', '!'].any t.isDelim = false) :
    Grammar.simple? t = none ∧ ∀ u, Grammar.compoundOf? t u = none := by
  simp only [List.any_cons, List.any_nil, Bool.or_false, Bool.or_eq_false_iff] at h
  refine ⟨by simp [Grammar.simple?, h], fun u => ?_⟩
  unfold Grammar.compoundOf?
  split
  · rename_i a b ht hu
    split
    · rfl
    · unfold Grammar.compound?
      simp only [Token.isDelim, ht, beq_eq_false_iff_ne, ne_eq, Lexeme.delim.injEq] at h
      split <;> simp_all
  · rfl

theorem comparisonOperator?_eq (h : Slice tape limit pos range stop) :
    ∃ found, tape.comparisonOperator? limit pos = .ok found ∧
      match Grammar.comparisonOperator? range with
      | none => found = (none, pos)
      | some (op, rest) => found.1 = some op ∧ Slice tape limit found.2 rest stop := by
  cases range with
  | nil => exact ⟨(none, pos), by simp [comparisonOperator?, h.peek_eq], rfl⟩
  | cons t rest =>
    have hpeek := h.peek_cons
    have hnext := h.tail.peek_eq
    by_cases hopens : ['>', '<', '=', '!'].any t.isDelim = true
    · obtain ⟨a, ht⟩ : ∃ a, t.lexeme = .delim a := by
        simp only [List.any_cons, List.any_nil, Bool.or_false, Bool.or_eq_true, Token.isDelim,
          beq_iff_eq] at hopens
        rcases hopens with h | h | h | h <;> exact ⟨_, h⟩
      have hcompound := isCompound_eq (u := rest.headD stop.ended) ht
      -- Where the two tokens make up no comparison, the first one may.
      have halone : isCompound t (rest.headD stop.ended) = false →
          ∃ found, tape.comparisonOperator? limit pos = .ok found ∧
            match (Grammar.simple? t).map (·, rest) with
            | none => found = (none, pos)
            | some (op, rest) => found.1 = some op ∧ Slice tape limit found.2 rest stop := by
        intro hno
        rw [isCompound] at hno
        cases hsimple : Grammar.simple? t with
        | none =>
          refine ⟨(none, pos), ?_, rfl⟩
          simp only [comparisonOperator?, hpeek, ok_bind, hopens, if_true, hnext, hno,
            simple?_eq_none hopens hsimple, Bool.false_eq_true, if_false, pure_eq_ok]
        | some op =>
          refine ⟨(some op, pos + 1), ?_, rfl, h.tail⟩
          simp only [comparisonOperator?, hpeek, ok_bind, hopens, if_true, hnext, hno,
            isDelim_bang_of_simple? hsimple, operatorOf_simple? hsimple, Bool.false_eq_true,
            if_false, pure_eq_ok]
      cases rest with
      | nil =>
        refine halone ?_
        simp [isCompound, Lexeme.kind]
      | cons u rest =>
        rw [List.headD_cons] at hcompound hnext halone
        rw [Grammar.comparisonOperator?]
        cases hof : Grammar.compoundOf? t u with
        | none =>
          rw [hof] at hcompound
          exact halone hcompound
        | some op =>
          rw [hof] at hcompound
          rw [isCompound] at hcompound
          refine ⟨(some op, pos + 2), ?_, rfl, h.tail_two⟩
          simp only [comparisonOperator?, hpeek, ok_bind, hopens, if_true, hnext, hcompound,
            Option.isSome_some, operatorOf_compoundOf? hof, pure_eq_ok]
    · have hopens : ['>', '<', '=', '!'].any t.isDelim = false := by simpa using hopens
      obtain ⟨hsimple, hcompound⟩ := no_comparison hopens
      refine ⟨(none, pos), by simp only [comparisonOperator?, hpeek, ok_bind, hopens,
        Bool.false_eq_true, if_false, pure_eq_ok], ?_⟩
      cases rest with
      | nil => simp [Grammar.comparisonOperator?, hsimple]
      | cons u rest => simp [Grammar.comparisonOperator?, hsimple, hcompound]

end Comparisons

section Levels

variable {move : Move Value} {rule : Rule Value} (hm : Follows tape move rule)
include hm

theorem product_tracks (divides : Bool) :
    Tracks tape (tape.product move divides) (Grammar.product rule divides) :=
  chained_tracks (productJoin_joins divides) hm.tracks (advances_of_reads hm.reads)

theorem sum_tracks (divides : Bool) :
    Tracks tape (tape.sum move divides) (Grammar.sum rule divides) :=
  chained_tracks sumJoin_joins (product_tracks hm divides)
    (advances_of_reads (Grammar.product_reads (d := 0) derives_grammatical hm.reads divides))

theorem shorthand_tracks : Tracks tape (tape.shorthand move) (Grammar.shorthand rule) :=
  chained_tracks slashJoin_joins (sum_tracks hm false)
    (advances_of_reads (Grammar.sum_reads (d := 0) derives_grammatical hm.reads false))

theorem comparison_tracks : Tracks tape (tape.comparison move) (Grammar.comparison rule) := by
  intro limit pos range stop h
  refine (sum_tracks hm true h).bind ?_
  rintro ⟨left, rest⟩ ⟨left', pos⟩ ⟨rfl, hrest⟩
  obtain ⟨found, hfound, hop⟩ := comparisonOperator?_eq hrest
  refine .look hfound ?_
  simp only
  generalize Grammar.comparisonOperator? rest = p at hop
  cases p with
  | none =>
    subst hop
    exact .ok ⟨rfl, hrest⟩
  | some p =>
    obtain ⟨op, after⟩ := p
    obtain ⟨op?, pos'⟩ := found
    obtain ⟨rfl, hafter⟩ := hop
    exact (sum_tracks hm true hafter).wrap _

end Levels

section Items

variable {item : Move Value} {rule : Rule Value} (hi : Tracks tape item rule) (ha : Advances rule)
include hi ha

theorem items_sim (h : Slice tape limit pos range stop) :
    Sim tape (Reached tape limit stop) (Grammar.items rule stop range)
      (tape.items item limit pos) := by
  induction hn : range.length using Nat.strongRecOn generalizing pos range with
  | ind n ih =>
    have hends : ((range.headD stop.ended).isEnd || (range.headD stop.ended).isDelim ',') =
        (range.isEmpty || startsWithDelim ',' range) := by
      cases range with
      | nil => rfl
      | cons t rest => simp [startsWithDelim, h.isEnd_head]
    rw [Grammar.items, items]
    refine .look h.peek_eq ?_
    simp only [hends]
    split
    · exact .ok ⟨rfl, h⟩
    · refine ((hi h).yields (ha stop range)).bind ?_
      rintro ⟨v, rest⟩ ⟨v', pos'⟩ ⟨⟨rfl, hrest⟩, hless⟩
      simp only at hrest hless
      simp only [if_pos hless, dif_pos (h.remaining_lt hrest hless)]
      exact (ih _ (by omega) hrest rfl).wrapMap _

theorem listed_sim (h : Slice tape limit pos range stop) :
    Sim tape (Reached tape limit stop) (Grammar.listed rule stop range)
      (tape.listed item limit pos) := by
  induction hn : range.length using Nat.strongRecOn generalizing pos range with
  | ind n ih =>
    rw [Grammar.listed, listed]
    refine ((hi h).yields (ha stop range)).bind ?_
    rintro ⟨v, rest⟩ ⟨v', pos'⟩ ⟨⟨rfl, hrest⟩, hless⟩
    simp only at hrest hless
    refine .look hrest.peek_eq ?_
    cases rest with
    | nil => exact .ok ⟨rfl, hrest⟩
    | cons t rest =>
      simp only [List.length_cons] at hless
      have hshorter : rest.length < range.length := by omega
      have hprogress := h.remaining_lt hrest.tail hshorter
      simp only [List.headD_cons, hshorter, decide_true, Bool.and_true, dif_pos hprogress]
      split
      · exact (ih _ (by omega) hrest.tail rfl).wrapMap _
      · exact .ok ⟨rfl, hrest⟩

end Items

section Operand

variable {move : Move Value} {rule : Rule Value} (hm : Follows tape move rule)
include hm

theorem expression_tracks (divides : Bool) :
    Tracks tape (tape.expression move divides) (Grammar.expression rule divides) := by
  have hitem : Tracks tape (if divides then tape.comparison move else tape.shorthand move)
      (if divides then Grammar.comparison rule else Grammar.shorthand rule) := by
    cases divides with
    | true => exact comparison_tracks hm
    | false => exact shorthand_tracks hm
  have hadvances : Advances
      (if divides then Grammar.comparison rule else Grammar.shorthand rule) := by
    cases divides with
    | true =>
      exact advances_of_reads (Grammar.comparison_reads (d := 0) derives_grammatical hm.reads)
    | false =>
      exact advances_of_reads (Grammar.shorthand_reads (d := 0) derives_grammatical hm.reads)
  intro limit pos range stop h
  refine (items_sim hitem hadvances h).bind ?_
  rintro ⟨vs, rest⟩ ⟨vs', pos'⟩ ⟨rfl, hrest⟩
  cases vs' with
  | nil =>
    exact .look hrest.peek_eq (refuse_sim _ hrest)
  | cons v vs => exact .ok ⟨rfl, hrest⟩

theorem value_tracks (divides : Bool) :
    Tracks tape (tape.value move divides) (Grammar.value rule divides) := by
  have hadvances := advances_of_reads
    (Grammar.expression_reads (d := 0) derives_grammatical hm.reads divides)
  intro limit pos range stop h
  exact (listed_sim (expression_tracks hm divides) hadvances h).wrap _

theorem functionArg_tracks :
    Tracks tape (tape.functionArg move) (Grammar.functionArg rule) := by
  intro limit pos range stop h
  have hplain := expression_tracks hm true h
  unfold functionArg
  refine .look h.peek_eq ?_
  match range with
  | [] => exact hplain
  | [t] =>
    simp only [List.headD_cons, Grammar.functionArg]
    cases hname : t.lexeme with
    | ident name =>
      refine .look h.peek_one ?_
      refine .look h.peek_two ?_
      exact hplain
    | _ => exact hplain
  | t :: u :: rest =>
    simp only [List.headD_cons, Grammar.functionArg]
    cases hname : t.lexeme with
    | ident name =>
      have hassigned : startsWithDelim '=' rest = (rest.headD stop.ended).isDelim '=' := by
        cases rest <;> rfl
      refine .look h.peek_one ?_
      refine .look h.peek_two ?_
      simp only [List.drop_succ_cons, List.drop_zero, List.headD_cons, hassigned]
      split
      · exact (expression_tracks hm true h.tail_two).wrap _
      · exact hplain
    | _ => exact hplain

theorem functionArgs_sim (h : Slice tape limit pos range stop) :
    Sim tape (fun a b => b = a) (Grammar.functionArgs rule stop range)
      (tape.functionArgs move pos limit) :=
  .ite h.isEmpty_iff_le (fun _ => .ok rfl) fun _ =>
    (split_sim ',' h).bind (eachRange_sim (within_sim (functionArg_tracks hm)))

end Operand

section Brackets

variable {deeper : Deeper (Move Value)} {deeper' : Deeper (Rule Value)}
  (hd : Deeper.Rel (Follows tape) deeper deeper')
include hd

theorem callFrom_sim (o : Opening) (name : String) {bracket : Token} {rest : List Token}
    (hbracket : bracket.isDelim '(' = true) (h : Slice tape limit pos (bracket :: rest) stop) :
    Sim tape (Reached tape limit stop) (Grammar.callFrom deeper' o name bracket rest)
      (tape.callFrom deeper o name limit pos) := by
  refine (closing_sim hbracket (.inl rfl) h).bind ?_
  rintro ⟨inner, close, after⟩ index hinner
  refine (nested_sim hd _ h).bind fun ho => ?_
  refine (functionArgs_sim ho hinner.inner).bind ?_
  rintro args args' rfl
  exact .ok ⟨rfl, hinner.after⟩

theorem primary_tracks : Tracks tape (tape.primary deeper) (Grammar.primary deeper') := by
  intro limit pos range stop h
  unfold primary
  refine .look h.peek_eq ?_
  cases range with
  | nil => exact unexpected_sim h
  | cons t rest =>
    have hread (v : Value) :
        Sim tape (Reached tape limit stop) (.ok (v, rest)) (.ok (v, pos + 1)) :=
      .ok ⟨rfl, h.tail⟩
    have hfault := unexpected_sim (R := Reached (α := Value) tape limit stop) h
    simp only [List.headD_cons, Grammar.primary]
    cases hlexeme : t.lexeme with
    | number text x unit => exact hread _
    | quoted s quote => exact hread _
    | url s => exact hread _
    | unicodeRange s => exact hread _
    | atKeyword name => exact hread _
    | interpolation name => exact hread _
    | hash s => exact hread _
    | ident s =>
      refine .look h.peek_one ?_
      cases rest with
      | nil => exact hread _
      | cons p after =>
        simp only [List.drop_succ_cons, List.drop_zero, List.headD_cons]
        rw [Grammar.opensCall, opensCall]
        split
        · rename_i hcall
          exact callFrom_sim hd _ s (Bool.and_eq_true_iff.mp hcall).1 h.tail
        · exact hread _
    | delim c =>
      have ht {d : Char} (hc : c = d) : t.isDelim d = true := by simp [Token.isDelim, hlexeme, hc]
      by_cases hround : c = '('
      · subst hround
        refine (closing_sim (ht rfl) (.inl rfl) h).bind ?_
        rintro ⟨inner, close, after⟩ index hinner
        refine (nested_sim hd _ h).bind fun ho => ?_
        refine (within_sim (value_tracks ho true) hinner.inner).bind ?_
        rintro v v' rfl
        exact .ok ⟨rfl, hinner.after⟩
      by_cases htilde : c = '~'
      · subst htilde
        refine .look h.peek_one ?_
        cases rest with
        | nil => exact hfault
        | cons u after =>
          obtain ⟨lexeme, gap, text, line, start⟩ := u
          cases lexeme with
          | quoted s quote => exact .ok ⟨rfl, h.tail_two⟩
          | _ => exact hfault
      by_cases hpercent : c = '%'
      · subst hpercent
        refine .look h.peek_one ?_
        cases rest with
        | nil => exact hfault
        | cons p after =>
          simp only [List.drop_succ_cons, List.drop_zero, List.headD_cons]
          rw [Grammar.opensCall, opensCall]
          split
          · rename_i hcall
            exact callFrom_sim hd _ "%" (Bool.and_eq_true_iff.mp hcall).1 h.tail
          · exact hfault
      by_cases hsquare : c = '['
      · subst hsquare
        refine (closing_sim (ht rfl) (.inr rfl) h).bind ?_
        rintro ⟨inner, close, after⟩ index hinner
        have hrange : Slice tape limit pos ((t :: inner ++ [close]) ++ after) stop := by
          simpa [hinner.range_eq] using h
        have htext := spelled_eq (t :: inner ++ [close]) after hrange (by simp)
        have hindex : pos + ((t :: inner ++ [close]).length : Int) = index + 1 := by
          rw [hinner.close_eq]
          simp
          omega
        rw [hindex] at htext
        exact .look htext (.ok ⟨rfl, hinner.after⟩)
      -- No other delimiter opens a value.
      · repeat' split
        all_goals first
          | contradiction
          | simp_all
    | ellipsis => exact hfault
    | endOfInput => exact hfault

theorem signed_tracks : Tracks tape (tape.signed deeper) (Grammar.signed deeper') := by
  intro limit pos range stop h
  have hprimary := primary_tracks hd h
  unfold signed
  refine .look h.peek_eq ?_
  cases range with
  | nil => exact hprimary
  | cons t rest =>
    refine .ite .rfl (fun _ => ?_) fun _ => .ite .rfl (fun _ => ?_) fun _ => hprimary
    · refine (nested_sim hd _ h.tail).bind fun ho => (ho.tracks h.tail).bind ?_
      rintro ⟨v, after⟩ ⟨v', pos'⟩ ⟨rfl, hafter⟩
      exact .ok ⟨rfl, hafter⟩
    · exact (nested_sim hd _ h.tail).bind fun ho => ho.tracks h.tail

end Brackets

section Depth

theorem operand_follows (room : Room) :
    Follows tape (tape.operand room) (Grammar.operand room) := by
  refine ⟨?_, Grammar.operand_reads derives_grammatical room⟩
  induction room using Room.induction with
  | step room ih =>
    rw [operand_eq, Grammar.operand_eq]
    refine signed_tracks (Room.below_rel fun o inner hinner => ?_)
    exact ⟨ih o inner hinner, Grammar.operand_reads derives_grammatical inner⟩

theorem below_follows (room : Room) :
    Deeper.Rel (Follows tape) (room.below tape.operand) (room.below Grammar.operand) :=
  Room.below_rel fun _ inner _ => operand_follows inner

end Depth

section Guards

section Tests

variable {move : Move Value} {rule : Rule Value} (hm : Follows tape move rule)
  {deeper : Deeper (Move Value)} {deeper' : Deeper (Rule Value)}
  (hd : Deeper.Rel (fun move rule => Tracks tape move rule) deeper deeper')
include hm hd

theorem plainTest_tracks (negated : Bool) :
    Tracks tape (tape.plainTest move deeper negated) (Grammar.plainTest rule deeper' negated) := by
  intro limit pos range stop h
  have hcomparison := (comparison_tracks hm h).wrap (Value.condition · negated)
  unfold plainTest
  refine .look h.peek_eq ?_
  cases range with
  | nil => exact hcomparison
  | cons t rest =>
    refine .ite .rfl (fun ht => ?_) fun _ => hcomparison
    refine (closing_sim ht (.inl rfl) h).bind ?_
    rintro ⟨inner, close, after⟩ index hinner
    refine (nested_sim hd _ h).bind fun htest => (within_sim htest hinner.inner).bind ?_
    rintro v v' rfl
    exact .ok ⟨rfl, hinner.after⟩

theorem test_tracks : Tracks tape (tape.test move deeper) (Grammar.test rule deeper') := by
  intro limit pos range stop h
  have hplain := plainTest_tracks hm hd false h
  unfold test
  refine .look h.peek_eq ?_
  cases range with
  | nil => exact hplain
  | cons t rest =>
    exact .ite .rfl (fun _ => plainTest_tracks hm hd true h.tail) fun _ => hplain

theorem alternatives_tracks (hreads : Deeper.All
      (Reads fun v => Derives .comparison v ∨ Derives .disjunction v) deeper') :
    Tracks tape (tape.alternatives move deeper) (Grammar.alternatives rule deeper') := by
  have htest : Reads (Derives .condition) (Grammar.test rule deeper') :=
    Grammar.test_reads (d := 1) (P := fun _ => Derives) derives_grammatical hm.reads
      fun o r hr => ⟨0, rfl, hreads o r hr⟩
  have hboth : Reads (Derives .conjunction)
      (chained (Grammar.wordJoin "and" .both) (Grammar.test rule deeper')) :=
    chained_reads (Grammar.wordJoin_joining htest .both) (htest.mono .conjunction)
  have hconjunction : Tracks tape (Move.chained (tape.wordJoin "and" .both) (tape.test move deeper))
      (chained (Grammar.wordJoin "and" .both) (Grammar.test rule deeper')) :=
    chained_tracks (wordJoin_joins _ _) (test_tracks hm hd) (advances_of_reads htest)
  intro limit pos range stop
  exact chained_tracks (wordJoin_joins _ _) hconjunction (advances_of_reads hboth)

end Tests

theorem enclosedTest_tracks {move nested : Move Value} {rule nested' : Rule Value}
    (hm : Follows tape move rule) (hn : Tracks tape nested nested') :
    Tracks tape (tape.enclosedTest move nested) (Grammar.enclosedTest rule nested') := by
  intro limit pos range stop h
  have hcomparison := comparison_tracks hm h
  unfold enclosedTest
  refine .look h.peek_eq ?_
  cases range with
  | nil => exact hcomparison
  | cons t rest =>
    refine .ite .rfl (fun _ => hn h) fun _ => .ite .rfl (fun ht => ?_) fun _ => hcomparison
    refine (closing_sim ht (.inl rfl) h).bind ?_
    rintro ⟨inner, close, after⟩ index hinner
    refine .look hinner.after.peek_eq (.ite ?_ (fun _ => hn h) fun _ => hcomparison)
    cases after with
    | nil => exact .rfl
    | cons u after => simp [startsWithWord, hinner.after.isEnd_head]

theorem tests_tracks (room : Room) : Tracks tape (tape.tests room) (Grammar.tests room) := by
  induction room using Room.induction with
  | step room ih =>
    rw [tests_eq, Grammar.tests_eq]
    refine alternatives_tracks (operand_follows room) (Room.below_rel fun o inner hinner => ?_)
      (Room.below_all fun o inner hinner => ?_)
    · exact enclosedTest_tracks (operand_follows inner) (ih o inner hinner)
    · exact Grammar.enclosedTest_reads (d := inner.levels) (P := fun _ => Derives)
        derives_grammatical (Grammar.operand_reads derives_grammatical inner)
        (Grammar.tests_reads derives_grammatical inner)

theorem guard_whole (room : Room) :
    TracksWhole tape (tape.guard room) (Grammar.guard room) :=
  commaSeparated_whole .missingGuard (within_sim (tests_tracks room))

end Guards

section Media

theorem bareNumber?_ended (t : Token) : Grammar.bareNumber? t.ended = none := rfl

theorem featureValue_tracks {move : Move Value} {rule : Rule Value} (hm : Follows tape move rule) :
    Tracks tape (tape.featureValue move) (Grammar.featureValue rule) := by
  intro limit pos range stop h
  have hvalue := value_tracks hm false h
  unfold featureValue
  refine .look h.peek_eq (.look h.peek_one (.look h.peek_two (.look h.peek_three ?_)))
  match range with
  | [] => exact hvalue
  | [t] => simpa [Grammar.featureValue, Grammar.ratio?, bareNumber?_ended] using hvalue
  | [t, u] => simpa [Grammar.featureValue, Grammar.ratio?, bareNumber?_ended] using hvalue
  | [t, u, w] =>
    rw [Grammar.featureValue]
    simp only [List.headD_cons, List.drop_succ_cons, List.drop_zero, List.drop_nil, List.headD_nil]
    cases hratio : Grammar.ratio? [t, u, w] with
    | none => exact hvalue
    | some v =>
      have hfront : Slice tape limit pos ([t, u, w] ++ []) stop := h
      exact .ok ⟨rfl, hfront.append⟩
  | t :: u :: w :: x :: rest =>
    have hx : x.isEnd = false := h.isEnd_eq (by simp)
    simp only [List.headD_cons, List.drop_succ_cons, List.drop_zero, hx, Bool.false_eq_true,
      if_false]
    cases Grammar.ratio? [t, u, w] with
    | none => exact hvalue
    | some v => exact hvalue

theorem featureBody_tracks {move : Move Value} {rule : Rule Value} (hm : Follows tape move rule) :
    Tracks tape (tape.featureBody move) (Grammar.featureBody rule) := by
  intro limit pos range stop h
  have hother := (value_tracks hm false h).wrap Value.paren
  unfold featureBody
  refine .look h.peek_eq ?_
  cases range with
  | nil => exact hother
  | cons t rest =>
    simp only [List.headD_cons, Grammar.featureBody]
    cases hname : t.lexeme with
    | ident name =>
      refine .look h.peek_one ?_
      cases rest with
      | nil => exact .ok ⟨rfl, h.tail⟩
      | cons u rest =>
        have hu := h.tail.isEnd_head
        refine .ite .rfl (fun _ => .look h.peek_two ?_) fun _ => ?_
        · cases rest with
          | nil => exact .malformed _ h.stop_mem
          | cons w rest =>
            simp only [List.drop_succ_cons, List.drop_zero, List.headD_cons, h.tail_two.isEnd_head]
            exact (featureValue_tracks hm h.tail_two).wrap fun v => Value.feature name (some v)
        · exact .ite (by simp [hu]) (by simp) fun _ => hother
    | _ => exact hother

theorem feature_sim (room : Room) {bracket : Token} {rest : List Token}
    (hbracket : bracket.isDelim '(' = true) (h : Slice tape limit pos (bracket :: rest) stop) :
    Sim tape (Reached tape limit stop) (Grammar.feature room bracket rest)
      (tape.feature room limit pos) := by
  refine (closing_sim hbracket (.inl rfl) h).bind ?_
  rintro ⟨inner, close, after⟩ index hinner
  refine (nested_sim (below_follows room) _ h).bind fun ho =>
    (within_sim (featureBody_tracks ho) hinner.inner).bind ?_
  rintro v v' rfl
  exact .ok ⟨rfl, hinner.after⟩

theorem mediaItem_tracks (room : Room) :
    Tracks tape (tape.mediaItem room) (Grammar.mediaItem room) := by
  intro limit pos range stop h
  have hprimary := primary_tracks (below_follows room) h
  unfold mediaItem
  refine .look h.peek_eq ?_
  cases range with
  | nil => exact hprimary
  | cons t rest =>
    simp only [List.headD_cons, Grammar.mediaItem]
    cases hlexeme : t.lexeme with
    | ident s =>
      refine .look h.peek_one (.ite ?_ (fun _ => hprimary) fun _ => .ok ⟨rfl, h.tail⟩)
      cases rest with
      | nil => exact .rfl
      | cons u rest => exact .rfl
    | delim c =>
      by_cases hround : c = '('
      · subst hround
        exact feature_sim room (by simp [Token.isDelim, hlexeme]) h
      -- No other delimiter opens a feature.
      · repeat' split
        all_goals simp_all
    | _ => exact hprimary

theorem mediaItems_sim (room : Room) (h : Slice tape limit pos range stop) :
    Sim tape (fun vs q => q = (vs, limit)) (Grammar.mediaItems room stop range)
      (tape.mediaItems room limit pos) := by
  induction hn : range.length using Nat.strongRecOn generalizing pos range with
  | ind n ih =>
    rw [mediaItems]
    refine .look h.peek_eq ?_
    cases range with
    | nil =>
      rw [Grammar.mediaItems, h.isEmpty_iff.mp rfl]
      exact .ok rfl
    | cons t rest =>
      have hreads := Grammar.mediaItem_reads derives_grammatical room stop (t :: rest)
      rw [Grammar.mediaItems]
      simp only [List.headD_cons, h.isEnd_head, Bool.false_eq_true, if_false]
      refine ((mediaItem_tracks room h).yields hreads).bind ?_
      rintro ⟨v, after⟩ ⟨v', pos'⟩ ⟨⟨rfl, hafter⟩, -, hconsumed⟩
      have hless : after.length < (t :: rest).length := hconsumed.length_lt
      simp only at hafter
      have hlength : after.length ≤ rest.length := Nat.le_of_lt_succ hless
      simp only [if_pos hlength, dif_pos (h.remaining_lt hafter hless)]
      refine (ih _ (by omega) hafter rfl).map ?_
      rintro vs q rfl
      rfl

theorem mediaQuery_whole (room : Room) :
    TracksWhole tape (tape.mediaQuery room) (Grammar.mediaQuery room) := by
  intro limit pos range stop h
  refine (mediaItems_sim room h).bind ?_
  rintro vs q rfl
  cases vs with
  | nil => exact .look (h.peek_of_le (Int.le_refl limit)) (.malformed _ h.stop_mem)
  | cons v vs => exact .ok rfl

theorem mediaQueries_sim (room : Room) (h : Slice tape limit pos range stop) :
    Sim tape (fun a b => b = a) (Grammar.mediaQueries room stop range)
      (tape.mediaQueries room pos limit) :=
  (split_sim ',' h).bind (eachRange_sim (within_whole (mediaQuery_whole room)))

end Media

end StyleTally.Stylesheet.Tape
