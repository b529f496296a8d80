import StyleTally.Proofs.Brackets.Basic
import StyleTally.Proofs.Shape.Value

/-!
# Brackets of values

The rules for values, guards and media queries read legible tokens: the brackets of calls,
parentheses and features are read in pairs, and only what stands between square brackets is passed
over.
-/

namespace StyleTally.Stylesheet.Grammar

section Levels

theorem productJoin_plain (divides : Bool) : JoinsPlainly (productJoin divides) := by
  intro stop ts join rest h
  cases ts with
  | nil => cases h
  | cons t ts =>
    simp only [productJoin] at h
    split at h
    · rename_i ht
      cases h
      exact ⟨t, rfl, Token.isBracket_of_isDelim ht rfl⟩
    · split at h
      · rename_i ht
        cases h
        simp only [Bool.and_eq_true] at ht
        exact ⟨t, rfl, Token.isBracket_of_isDelim ht.2 rfl⟩
      · cases h

theorem sumJoin_plain : JoinsPlainly sumJoin := by
  intro stop ts join rest h
  cases ts with
  | nil => cases h
  | cons t ts =>
    simp only [sumJoin] at h
    split at h
    · cases h
    · split at h
      · rename_i ht
        cases h
        exact ⟨t, rfl, Token.isBracket_of_isDelim ht rfl⟩
      · split at h
        · rename_i ht
          cases h
          exact ⟨t, rfl, Token.isBracket_of_isDelim ht rfl⟩
        · cases h

theorem slashJoin_plain : JoinsPlainly slashJoin := by
  intro stop ts join rest h
  cases ts with
  | nil => cases h
  | cons t ts =>
    simp only [slashJoin] at h
    split at h
    · rename_i ht
      cases h
      exact ⟨t, rfl, Token.isBracket_of_isDelim ht rfl⟩
    · cases h

theorem isBracket_of_isWord {t : Token} {word : String} (h : t.isWord word = true) :
    t.isBracket = false := by
  unfold Token.isWord at h
  split at h
  · exact Token.isBracket_of_lexeme ‹_› rfl
  · cases h

theorem wordJoin_plain (word : String) (op : Operator) : JoinsPlainly (wordJoin word op) := by
  intro stop ts join rest h
  cases ts with
  | nil => cases h
  | cons t ts =>
    simp only [wordJoin] at h
    split at h
    · rename_i ht
      cases h
      exact ⟨t, rfl, isBracket_of_isWord ht⟩
    · cases h

variable {operand : Rule Value} (ho : ReadsOff false operand)

theorem isBracket_of_simple? {t : Token} {op : Operator} (h : simple? t = some op) :
    t.isBracket = false := by
  rw [simple?] at h
  split at h
  · exact Token.isBracket_of_isDelim ‹_› rfl
  · split at h
    · exact Token.isBracket_of_isDelim ‹_› rfl
    · split at h
      · exact Token.isBracket_of_isDelim ‹_› rfl
      · cases h

theorem isBracket_of_compoundOf? {t u : Token} {op : Operator} (h : compoundOf? t u = some op) :
    t.isBracket = false ∧ u.isBracket = false := by
  rw [compoundOf?] at h
  split at h
  · rename_i a b ha hb
    split at h
    · cases h
    · unfold compound? at h
      split at h <;> cases h <;>
        exact ⟨Token.isBracket_of_lexeme ha rfl, Token.isBracket_of_lexeme hb rfl⟩
  · cases h

theorem comparisonOperator?_readOff {ts rest : List Token} {op : Operator}
    (h : comparisonOperator? ts = some (op, rest)) : ReadOff false ts rest := by
  match ts, h with
  | [t], h =>
    obtain ⟨op', hop, heq⟩ := Option.map_eq_some_iff.mp h
    cases heq
    exact .single (isBracket_of_simple? hop)
  | t :: u :: ts, h =>
    rw [comparisonOperator?, Option.or_eq_some_iff] at h
    rcases h with h | ⟨-, h⟩
    · obtain ⟨op', hop, heq⟩ := Option.map_eq_some_iff.mp h
      cases heq
      obtain ⟨ht, hu⟩ := isBracket_of_compoundOf? hop
      exact .cons ht (.single hu)
    · obtain ⟨op', hop, heq⟩ := Option.map_eq_some_iff.mp h
      cases heq
      exact .single (isBracket_of_simple? hop)

include ho

theorem sum_readsOff (divides : Bool) : ReadsOff false (sum operand divides) :=
  chained_readsOff sumJoin_plain (chained_readsOff (productJoin_plain divides) ho)

theorem comparison_readsOff : ReadsOff false (comparison operand) := by
  have hsum := sum_readsOff ho true
  intro stop ts
  refine (hsum stop ts).bind ?_
  rintro ⟨left, rest⟩ hrest
  simp only
  split
  · exact hrest
  · rename_i op after hop
    refine (hsum stop after).bind ?_
    rintro ⟨right, last⟩ hlast
    exact (hrest.trans (comparisonOperator?_readOff hop)).trans hlast

end Levels

section Items

variable {item : Rule Value} (hi : ReadsOff false item)
include hi

theorem items_readOff (stop : Token) (ts : List Token) :
    Yields (fun (_, rest) => ReadOff false ts rest) (items item stop ts) := by
  induction hn : ts.length using Nat.strongRecOn generalizing ts with
  | ind n ih =>
    rw [items]
    by_cases hend : (ts.isEmpty || startsWithDelim ',' ts) = true
    · rw [if_pos hend]
      exact .refl ts
    · rw [if_neg hend]
      refine (hi stop ts).bind ?_
      rintro ⟨v, rest⟩ hrest
      by_cases hlength : rest.length < ts.length
      · simp only [if_pos hlength]
        exact (ih _ (hn ▸ hlength) rest rfl).map fun h => hrest.trans h
      · simp only [if_neg hlength]
        exact hrest

theorem listed_readOff (stop : Token) (ts : List Token) :
    Yields (fun (_, rest) => ReadOff false ts rest) (listed item stop ts) := by
  induction hn : ts.length using Nat.strongRecOn generalizing ts with
  | ind n ih =>
    rw [listed]
    refine (hi stop ts).bind ?_
    rintro ⟨v, rest⟩ hrest
    cases rest with
    | nil => exact hrest
    | cons t rest =>
      by_cases hcomma : (t.isDelim ',' && decide (rest.length < ts.length)) = true
      · simp only [if_pos hcomma]
        simp only [Bool.and_eq_true, decide_eq_true_eq] at hcomma
        refine (ih _ (hn ▸ hcomma.2) rest rfl).map fun h => ?_
        exact hrest.trans (.cons (Token.isBracket_of_isDelim hcomma.1 rfl) h)
      · simp only [if_neg hcomma]
        exact hrest

end Items

section Operand

variable {operand : Rule Value} (ho : ReadsOff false operand)
include ho

theorem expression_readsOff (divides : Bool) : ReadsOff false (expression operand divides) := by
  have hitem : ReadsOff false (if divides then comparison operand else shorthand operand) := by
    cases divides with
    | true => exact comparison_readsOff ho
    | false => exact chained_readsOff slashJoin_plain (sum_readsOff ho false)
  intro stop ts
  refine (items_readOff hitem stop ts).bind ?_
  rintro ⟨vs, rest⟩ hrest
  cases vs with
  | nil => trivial
  | cons v vs => exact hrest

theorem value_readsOff (divides : Bool) : ReadsOff false (value operand divides) := by
  intro stop ts
  exact (listed_readOff (expression_readsOff ho divides) stop ts).bind fun h => h

theorem functionArg_readsOff : ReadsOff false (functionArg operand) := by
  have hexpression := expression_readsOff ho true
  intro stop ts
  match ts with
  | [] | [_] => exact hexpression stop _
  | t :: u :: rest =>
    simp only [functionArg]
    split
    · rename_i name hname
      split
      · rename_i hequals
        simp only [Bool.and_eq_true] at hequals
        refine (hexpression stop rest).bind fun h => ?_
        exact (ReadOff.of_lexeme hname rfl).trans
          (.cons (Token.isBracket_of_isDelim hequals.1 rfl) h)
      · exact hexpression stop _
    · exact hexpression stop _

theorem functionArgs_legible (stop : Token) (ts : List Token) :
    Yields (fun _ => Legible false ts) (functionArgs operand stop ts) := by
  rw [functionArgs]
  split
  · rename_i hempty
    obtain rfl : ts = [] := List.isEmpty_iff.mp hempty
    exact .nil
  · refine commaPieces_legible (fun stop ts => ?_) stop ts
    exact whole_legible (functionArg_readsOff ho stop ts)

end Operand

section Brackets

theorem opensCall_cons {p : Token} {rest : List Token} (h : opensCall (p :: rest) = true) :
    p.isDelim '(' = true ∧ p.spaced = false := by
  simpa [opensCall] using h

variable {deeper : Deeper (Rule Value)} (hd : Deeper.All (ReadsOff false) deeper)
include hd

theorem callFrom_readOff (o : Opening) (name : String) {bracket : Token}
    (hbracket : bracket.isDelim '(' = true) (ts : List Token) :
    Yields (fun (_, rest) => ReadOff false (bracket :: ts) rest)
      (callFrom deeper o name bracket ts) := by
  refine (enclosed_counts bracket '(' ts).bind ?_
  rintro ⟨inner, close, after⟩ ⟨rfl, hclose, -⟩
  refine (enter_yields hd _ _).bind fun ho => ?_
  refine (functionArgs_legible ho close inner).bind fun h => ?_
  exact ⟨bracket :: inner ++ [close], by simp, .round hbracket hclose h⟩

theorem primary_readsOff : ReadsOff false (primary deeper) := by
  intro stop ts
  cases ts with
  | nil => trivial
  | cons t rest =>
    simp only [primary]
    split
    · exact .of_lexeme ‹_› rfl
    · exact .of_lexeme ‹_› rfl
    · exact .of_lexeme ‹_› rfl
    · exact .of_lexeme ‹_› rfl
    · exact .of_lexeme ‹_› rfl
    · exact .of_lexeme ‹_› rfl
    · exact .of_lexeme ‹_› rfl
    · rename_i s hs
      split
      · split
        · rename_i hcall
          refine (callFrom_readOff hd _ _ (opensCall_cons hcall).1 _).mono fun h => ?_
          exact (ReadOff.of_lexeme hs rfl).trans h
        · exact .of_lexeme hs rfl
      · exact .of_lexeme hs rfl
    · rename_i ht
      refine (enclosed_counts t '(' rest).bind ?_
      rintro ⟨inner, close, after⟩ ⟨rfl, hclose, -⟩
      refine (enter_yields hd _ _).bind fun ho => ?_
      refine (whole_legible (value_readsOff ho true close inner)).bind fun h => ?_
      exact ⟨t :: inner ++ [close], by simp, .round (by simp [Token.isDelim, ht]) hclose h⟩
    · rename_i ht
      split
      · exact (ReadOff.of_lexeme ht rfl).trans (.of_lexeme rfl rfl)
      · trivial
    · rename_i ht
      split
      · split
        · rename_i hcall
          refine (callFrom_readOff hd _ _ (opensCall_cons hcall).1 _).mono fun h => ?_
          exact (ReadOff.of_lexeme ht rfl).trans h
        · trivial
      · trivial
    · rename_i ht
      refine (enclosed_counts t '[' rest).bind ?_
      rintro ⟨inner, close, after⟩ ⟨rfl, hclose, hcount⟩
      exact ⟨t :: inner ++ [close], by simp, .square (by simp [Token.isDelim, ht]) hclose hcount⟩
    · trivial

theorem signed_readsOff : ReadsOff false (signed deeper) := by
  have hprimary := primary_readsOff hd
  intro stop ts
  cases ts with
  | nil => exact hprimary stop []
  | cons t rest =>
    simp only [signed]
    split
    · rename_i ht
      refine (enter_yields hd _ _).bind fun ho => ?_
      exact (ho stop rest).bind fun h => .cons (Token.isBracket_of_isDelim ht rfl) h
    · split
      · rename_i ht
        refine (enter_yields hd _ _).bind fun ho => ?_
        exact (ho stop rest).mono fun h => .cons (Token.isBracket_of_isDelim ht rfl) h
      · exact hprimary stop _

end Brackets

theorem operand_readsOff (room : Room) : ReadsOff false (operand room) := by
  induction room using Room.induction with
  | step room ih =>
    rw [operand_eq]
    exact signed_readsOff (Room.below_all ih)

theorem below_readsOff (room : Room) : Deeper.All (ReadsOff false) (room.below operand) :=
  Room.below_all fun _ inner _ => operand_readsOff inner

section Guards

variable {operand : Rule Value} (ho : ReadsOff false operand)
include ho

section Tests

variable {deeper : Deeper (Rule Value)} (hd : Deeper.All (ReadsOff false) deeper)
include hd

theorem plainTest_readsOff (negated : Bool) :
    ReadsOff false (plainTest operand deeper negated) := by
  have hcomparison : ReadsOff false (plainTest.comparisonTest operand negated) := fun stop ts =>
    (comparison_readsOff ho stop ts).bind fun h => h
  intro stop ts
  cases ts with
  | nil => exact hcomparison stop []
  | cons t rest =>
    simp only [plainTest]
    split
    · rename_i ht
      refine (enclosed_counts t '(' rest).bind ?_
      rintro ⟨inner, close, after⟩ ⟨rfl, hclose, -⟩
      refine (enter_yields hd _ _).bind fun htest => ?_
      refine (whole_legible (htest close inner)).bind fun h => ?_
      exact ⟨t :: inner ++ [close], by simp, .round ht hclose h⟩
    · exact hcomparison stop _

theorem alternatives_readsOff : ReadsOff false (alternatives operand deeper) := by
  have htest : ReadsOff false (test operand deeper) := by
    intro stop ts
    cases ts with
    | nil => exact plainTest_readsOff ho hd false stop []
    | cons t rest =>
      simp only [test]
      split
      · rename_i ht
        refine (plainTest_readsOff ho hd true stop rest).mono fun h => ?_
        exact .cons (isBracket_of_isWord ht) h
      · exact plainTest_readsOff ho hd false stop _
  exact chained_readsOff (wordJoin_plain _ _) (chained_readsOff (wordJoin_plain _ _) htest)

end Tests

theorem enclosedTest_readsOff {nested : Rule Value} (hn : ReadsOff false nested) :
    ReadsOff false (enclosedTest operand nested) := by
  have hcomparison := comparison_readsOff ho
  intro stop ts
  cases ts with
  | nil => exact hcomparison stop []
  | cons t rest =>
    simp only [enclosedTest]
    split
    · exact hn stop _
    · split
      · refine (Yields.any _).bind ?_
        rintro ⟨inner, close, after⟩ -
        simp only
        by_cases hends : (after.isEmpty || startsWithWord "and" after ||
            startsWithWord "or" after) = true
        · rw [if_pos hends]
          exact hn stop _
        · rw [if_neg hends]
          exact hcomparison stop _
      · exact hcomparison stop _

omit ho

theorem tests_readsOff (room : Room) : ReadsOff false (tests room) := by
  induction room using Room.induction with
  | step room ih =>
    rw [tests_eq]
    refine alternatives_readsOff (operand_readsOff room) (Room.below_all fun o inner hinner => ?_)
    exact enclosedTest_readsOff (operand_readsOff inner) (ih o inner hinner)

theorem guard_legible (room : Room) (stop : Token) (ts : List Token) :
    Yields (fun _ => Legible false ts) (guard room stop ts) := by
  rw [guard]
  split
  · trivial
  · exact commaPieces_legible (fun stop ts => whole_legible (tests_readsOff room stop ts)) stop ts

end Guards

section Media

theorem isBracket_of_bareNumber? {t : Token} {text : String} (h : bareNumber? t = some text) :
    t.isBracket = false := by
  unfold bareNumber? at h
  split at h
  · exact Token.isBracket_of_lexeme ‹_› rfl
  · cases h

theorem ratio?_legible {ts : List Token} {v : Value} (h : ratio? ts = some v) :
    Legible false ts := by
  unfold ratio? at h
  split at h
  · rename_i first slash second
    cases hfirst : bareNumber? first with
    | none => simp [hfirst] at h
    | some a =>
      cases hsecond : bareNumber? second with
      | none => simp [hfirst, hsecond] at h
      | some b =>
        simp only [hfirst, hsecond, Option.bind_eq_bind, Option.bind_some] at h
        split at h
        · rename_i hslash
          refine .cons (isBracket_of_bareNumber? hfirst) ?_
          refine .cons (Token.isBracket_of_isDelim hslash rfl) ?_
          exact .single (isBracket_of_bareNumber? hsecond)
        · cases h
  · cases h

theorem featureValue_readsOff {operand : Rule Value} (ho : ReadsOff false operand) :
    ReadsOff false (featureValue operand) := by
  intro stop ts
  rw [featureValue]
  split
  · rename_i hratio
    exact .to_end (ratio?_legible hratio)
  · exact value_readsOff ho false stop ts

theorem featureBody_readsOff {operand : Rule Value} (ho : ReadsOff false operand) :
    ReadsOff false (featureBody operand) := by
  intro stop ts
  have hother : Yields (fun (_, rest) => ReadOff false ts rest)
      (do let (v, rest) ← value operand false stop ts; return (Value.paren v, rest)) :=
    (value_readsOff ho false stop ts).bind fun h => h
  cases ts with
  | nil => exact hother
  | cons t rest =>
    simp only [featureBody]
    split
    · rename_i name hname
      split
      · rename_i hcolon
        cases rest with
        | nil => cases hcolon
        | cons u rest =>
          have hname : ReadOff false (t :: u :: rest) (u :: rest) := .of_lexeme hname rfl
          split
          · trivial
          · refine (featureValue_readsOff ho stop _).bind fun h => ?_
            exact hname.trans (.cons (Token.isBracket_of_isDelim hcolon rfl) h)
      · split
        · rename_i hempty
          obtain rfl : rest = [] := List.isEmpty_iff.mp hempty
          exact .of_lexeme hname rfl
        · exact hother
    · exact hother

theorem feature_readOff (room : Room) {bracket : Token} (hbracket : bracket.isDelim '(' = true)
    (ts : List Token) :
    Yields (fun (_, rest) => ReadOff false (bracket :: ts) rest) (feature room bracket ts) := by
  refine (enclosed_counts bracket '(' ts).bind ?_
  rintro ⟨inner, close, after⟩ ⟨rfl, hclose, -⟩
  refine (enter_yields (below_readsOff room) _ _).bind fun ho => ?_
  refine (whole_legible (featureBody_readsOff ho close inner)).bind fun h => ?_
  exact ⟨bracket :: inner ++ [close], by simp, .round hbracket hclose h⟩

theorem mediaItem_readsOff (room : Room) : ReadsOff false (mediaItem room) := by
  have hprimary := primary_readsOff (below_readsOff room)
  intro stop ts
  cases ts with
  | nil => exact hprimary stop []
  | cons t rest =>
    simp only [mediaItem]
    split
    · rename_i ht
      exact feature_readOff room (by simp [Token.isDelim, ht]) rest
    · split
      · exact hprimary stop _
      · exact .of_lexeme ‹_› rfl
    · exact hprimary stop _

theorem mediaItems_legible (room : Room) (stop : Token) (ts : List Token) :
    Yields (fun _ => Legible false ts) (mediaItems room stop ts) := by
  induction hn : ts.length using Nat.strongRecOn generalizing ts with
  | ind n ih =>
    cases ts with
    | nil =>
      rw [mediaItems]
      exact .nil
    | cons t rest =>
      rw [mediaItems]
      refine ((mediaItem_reads Value.derives_grammatical room stop (t :: rest)).and
        (mediaItem_readsOff room stop (t :: rest))).bind ?_
      rintro ⟨v, after⟩ ⟨⟨-, hconsumed⟩, hafter⟩
      have hlength : after.length ≤ rest.length := Nat.le_of_lt_succ hconsumed.length_lt
      simp only [if_pos hlength]
      simp only [List.length_cons] at hn
      exact (ih _ (by omega) after rfl).map fun h => (hafter.trans (.to_end h)).legible

theorem mediaQueries_legible (room : Room) (stop : Token) (ts : List Token) :
    Yields (fun _ => Legible false ts) (mediaQueries room stop ts) := by
  refine commaPieces_legible (fun stop ts => ?_) stop ts
  refine (mediaItems_legible room stop ts).bind fun {vs} h => ?_
  cases vs with
  | nil => trivial
  | cons v vs => exact h

end Media

end StyleTally.Stylesheet.Grammar
