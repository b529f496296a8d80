import StyleTally.Proofs.Excerpt.Keys
import StyleTally.Proofs.Excerpt.Range
import StyleTally.Stylesheet.Grammar.Guard
import StyleTally.Stylesheet.Grammar.Media

/-!
# The keys of values

Values, guards and media queries that are read within a stylesheet leave fitting marks: each of
their keys is a number, a color or the name of one token, but for what stands in square brackets,
which is cut out with the brackets.
-/

namespace StyleTally.Stylesheet.Grammar

variable {all ts : List Token}

section Levels

variable {operand : Rule Value} (ho : Draws all (Value.Fit all) operand)
include ho

theorem product_draws (divides : Bool) : Draws all (Value.Fit all) (product operand divides) := by
  refine chained_draws ?_ ho
  intro stop ts join rest hjoin
  cases ts with
  | nil => cases hjoin
  | cons t ts =>
    simp only [productJoin] at hjoin
    split at hjoin
    · cases hjoin
      exact ⟨List.suffix_cons t _, .operation .multiply⟩
    · split at hjoin
      · cases hjoin
        exact ⟨List.suffix_cons t _, .operation .divide⟩
      · cases hjoin

theorem sum_draws (divides : Bool) : Draws all (Value.Fit all) (sum operand divides) := by
  refine chained_draws ?_ (product_draws ho divides)
  intro stop ts join rest hjoin
  cases ts with
  | nil => cases hjoin
  | cons t ts =>
    simp only [sumJoin] at hjoin
    split at hjoin
    · cases hjoin
    · split at hjoin
      · cases hjoin
        exact ⟨List.suffix_cons t _, .operation .add⟩
      · split at hjoin
        · cases hjoin
          exact ⟨List.suffix_cons t _, .operation .subtract⟩
        · cases hjoin

theorem shorthand_draws : Draws all (Value.Fit all) (shorthand operand) := by
  refine chained_draws ?_ (sum_draws ho false)
  intro stop ts join rest hjoin
  cases ts with
  | nil => cases hjoin
  | cons t ts =>
    simp only [slashJoin] at hjoin
    split at hjoin
    · cases hjoin
      exact ⟨List.suffix_cons t _, .shorthand⟩
    · cases hjoin

omit ho in
theorem comparisonOperator?_suffix {rest : List Token} {op : Operator}
    (h : comparisonOperator? ts = some (op, rest)) : rest <:+ ts := by
  match ts, h with
  | [t], h =>
    obtain ⟨op', -, heq⟩ := Option.map_eq_some_iff.mp h
    cases heq
    exact List.nil_suffix
  | t :: u :: ts, h =>
    rw [comparisonOperator?, Option.or_eq_some_iff] at h
    rcases h with h | ⟨-, h⟩
    · obtain ⟨op', -, heq⟩ := Option.map_eq_some_iff.mp h
      cases heq
      exact List.suffix_append [t, u] _
    · obtain ⟨op', -, heq⟩ := Option.map_eq_some_iff.mp h
      cases heq
      exact List.suffix_cons t _

theorem comparison_draws : Draws all (Value.Fit all) (comparison operand) := by
  have hsum := sum_draws ho true
  intro stop ts h
  refine (hsum stop ts h).bind ?_
  rintro ⟨left, rest⟩ ⟨hleft, hrest⟩
  simp only
  split
  · exact ⟨hleft, hrest⟩
  · rename_i op after hop
    refine (hsum stop after (hrest.suffix (comparisonOperator?_suffix hop))).bind ?_
    rintro ⟨right, rest⟩ ⟨hright, hrest⟩
    exact ⟨.operation op hleft hright, hrest⟩

end Levels

section Items

variable {item : Rule Value} (hi : Draws all (Value.Fit all) item)
include hi

theorem items_draws : Draws all (fun vs => ∀ v ∈ vs, v.Fit all) (items item) := by
  intro stop ts h
  induction hn : ts.length using Nat.strongRecOn generalizing ts with
  | ind n ih =>
    rw [items]
    split
    · exact ⟨by simp, h⟩
    · refine (hi stop ts h).bind ?_
      rintro ⟨v, rest⟩ ⟨hv, hrest⟩
      by_cases hlength : rest.length < ts.length
      · simp only [if_pos hlength]
        refine (ih _ (hn ▸ hlength) rest hrest rfl).map ?_
        rintro ⟨vs, after⟩ ⟨hvs, hafter⟩
        exact ⟨List.forall_mem_cons.mpr ⟨hv, hvs⟩, hafter⟩
      · simp only [if_neg hlength]
        exact ⟨by simpa using hv, hrest⟩

theorem listed_draws : Draws all (fun vs => ∀ v ∈ vs, v.Fit all) (listed item) := by
  intro stop ts h
  induction hn : ts.length using Nat.strongRecOn generalizing ts with
  | ind n ih =>
    rw [listed]
    refine (hi stop ts h).bind ?_
    rintro ⟨v, rest⟩ ⟨hv, hrest⟩
    cases rest with
    | nil => exact ⟨by simpa using hv, hrest⟩
    | cons t rest =>
      by_cases hcomma : (t.isDelim ',' && decide (rest.length < ts.length)) = true
      · have hlength : rest.length < ts.length := by simp_all
        simp only [if_pos hcomma]
        refine (ih _ (hn ▸ hlength) rest hrest.tail rfl).map ?_
        rintro ⟨vs, after⟩ ⟨hvs, hafter⟩
        exact ⟨List.forall_mem_cons.mpr ⟨hv, hvs⟩, hafter⟩
      · simp only [if_neg hcomma]
        exact ⟨by simpa using hv, hrest⟩

end Items

theorem fit_collect {several : List Value → Value} {vs : List Value}
    (hseveral : (∀ v ∈ vs, v.Fit all) → (several vs).Fit all) (h : ∀ v ∈ vs, v.Fit all) :
    (collect several vs).Fit all := by
  unfold collect
  split
  · exact h _ List.mem_cons_self
  · exact hseveral h

section Operand

variable {operand : Rule Value} (ho : Draws all (Value.Fit all) operand)
include ho

theorem expression_draws (divides : Bool) :
    Draws all (Value.Fit all) (expression operand divides) := by
  have hitem : Draws all (Value.Fit all)
      (if divides then comparison operand else shorthand operand) := by
    cases divides with
    | true => exact comparison_draws ho
    | false => exact shorthand_draws ho
  intro stop ts h
  refine (items_draws hitem stop ts h).bind ?_
  rintro ⟨vs, rest⟩ ⟨hvs, hrest⟩
  cases vs with
  | nil => trivial
  | cons v vs => exact ⟨fit_collect .expression hvs, hrest⟩

theorem value_draws (divides : Bool) : Draws all (Value.Fit all) (value operand divides) := by
  intro stop ts h
  refine (listed_draws (expression_draws ho divides) stop ts h).bind ?_
  rintro ⟨vs, rest⟩ ⟨hvs, hrest⟩
  exact ⟨fit_collect .expressionList hvs, hrest⟩

theorem functionArg_draws : Draws all (Value.Fit all) (functionArg operand) := by
  have hexpression := expression_draws ho true
  intro stop ts h
  match ts with
  | [] | [_] => exact hexpression stop _ h
  | t :: u :: rest =>
    simp only [functionArg]
    split
    · split
      · refine (hexpression stop rest h.tail.tail).bind ?_
        rintro ⟨v, after⟩ ⟨hv, hafter⟩
        exact ⟨.assignment hv, hafter⟩
      · exact hexpression stop _ h
    · exact hexpression stop _ h

theorem functionArgs_within (stop : Token) (h : Within all ts) :
    Yields (fun vs => ∀ v ∈ vs, v.Fit all) (functionArgs operand stop ts) := by
  rw [functionArgs]
  split
  · simp [Yields]
  · exact pieces_eachPiece_within (functionArg_draws ho).whole ',' stop h

end Operand

theorem fit_word {text : String} (h : '\n' ∉ text.toList) : (word text).Fit all := by
  unfold word
  extract_lets small
  split
  · exact .truth h
  · split
    · exact .truth h
    · split
      · exact .colorName h
      · exact .keyword (.inl h)

theorem fit_variableNamed {name : String} (h : '\n' ∉ name.toList) :
    (variableNamed name).Fit all := by
  unfold variableNamed
  split
  · rename_i cs hname
    rw [hname, List.mem_cons, not_or] at h
    exact .var (by simpa using h.2)
  · exact .var h

theorem fit_hash {text : String} (h : '\n' ∉ text.toList) :
    (((Color.ofHex? text).map Value.color).getD (.keyword text)).Fit all := by
  cases Color.ofHex? text with
  | none => exact .keyword (.inl h)
  | some c => exact .color c

/-- What stands in square brackets, with the brackets. -/
theorem fits_brackets {t close : Token} {inner after : List Token} (ht : t.isDelim '[')
    (h : Within all (t :: (inner ++ close :: after))) :
    Mark.Fits all ⟨.keywords, textOf (t :: inner ++ [close])⟩ := by
  refine .inr ⟨.brackets, t :: inner ++ [close], rfl, ht, ?_, rfl⟩
  have happend : t :: (inner ++ close :: after) = (t :: inner ++ [close]) ++ after := by simp
  exact (happend ▸ h).of_append_left

section Brackets

variable (hall : ∀ t ∈ all, t.lexeme.OneLine) {deeper : Deeper (Rule Value)}
  (hd : Deeper.All (Draws all (Value.Fit all)) deeper)
include hall hd

omit hall in
theorem callFrom_within (o : Opening) {name : String} (hname : '\n' ∉ name.toList) (bracket : Token)
    (h : Within all ts) :
    Yields (fun (v, rest) => v.Fit all ∧ Within all rest)
      (callFrom deeper o name bracket ts) := by
  refine (enclosed_within bracket '(' h).bind ?_
  rintro ⟨inner, close, after⟩ ⟨-, hinner, hafter⟩
  refine (enter_yields hd _ _).bind fun {operand} ho => ?_
  exact (functionArgs_within ho close hinner).bind fun hargs => ⟨.call hname hargs, hafter⟩

theorem primary_draws : Draws all (Value.Fit all) (primary deeper) := by
  intro stop ts h
  cases ts with
  | nil => trivial
  | cons t rest =>
    simp only [primary]
    split
    · rename_i hl
      exact ⟨.dimension _ (h.oneLine hall hl).2, h.tail⟩
    · exact ⟨.quoted _ _ _, h.tail⟩
    · exact ⟨.url _, h.tail⟩
    · exact ⟨.unicodeRange _, h.tail⟩
    · rename_i hl
      exact ⟨fit_variableNamed (h.oneLine hall hl), h.tail⟩
    · rename_i hl
      exact ⟨.var (h.oneLine hall hl), h.tail⟩
    · rename_i hl
      exact ⟨fit_hash (h.oneLine hall hl), h.tail⟩
    · rename_i hl
      split
      · split
        · exact callFrom_within hd _ (h.oneLine hall hl) _ h.tail.tail
        · exact ⟨fit_word (h.oneLine hall hl), h.tail⟩
      · exact ⟨fit_word (h.oneLine hall hl), h.tail⟩
    · refine (enclosed_within t '(' h.tail).bind ?_
      rintro ⟨inner, close, after⟩ ⟨-, hinner, hafter⟩
      refine (enter_yields hd _ _).bind fun {operand} ho => ?_
      exact ((value_draws ho true).whole close inner hinner).bind fun hv => ⟨.paren hv, hafter⟩
    · split
      · exact ⟨.quoted _ _ _, h.tail.tail⟩
      · trivial
    · split
      · split
        · exact callFrom_within hd _ (by decide) _ h.tail.tail
        · trivial
      · trivial
    · rename_i hl
      refine (enclosed_within t '[' h.tail).bind ?_
      rintro ⟨inner, close, after⟩ ⟨rfl, -, hafter⟩
      exact ⟨.keyword (fits_brackets (by simp [Token.isDelim, hl]) h), hafter⟩
    · trivial

theorem signed_draws : Draws all (Value.Fit all) (signed deeper) := by
  have hprimary := primary_draws hall hd
  intro stop ts h
  cases ts with
  | nil => exact hprimary stop [] h
  | cons t rest =>
    simp only [signed]
    split
    · refine (enter_yields hd _ _).bind fun {operand} ho => ?_
      refine (ho stop rest h.tail).bind ?_
      rintro ⟨v, after⟩ ⟨hv, hafter⟩
      exact ⟨.negative hv, hafter⟩
    · split
      · exact (enter_yields hd _ _).bind fun {operand} ho => ho stop rest h.tail
      · exact hprimary stop _ h

end Brackets

section Depth

variable (hall : ∀ t ∈ all, t.lexeme.OneLine)
include hall

theorem operand_draws (room : Room) : Draws all (Value.Fit all) (operand room) := by
  induction room using Room.induction with
  | step room ih =>
    rw [operand_eq]
    exact signed_draws hall (Room.below_all ih)

theorem below_draws (room : Room) : Deeper.All (Draws all (Value.Fit all)) (room.below operand) :=
  Room.below_all fun _ inner _ => operand_draws hall inner

end Depth

section Guards

section Tests

variable {operand : Rule Value} (ho : Draws all (Value.Fit all) operand)
  {deeper : Deeper (Rule Value)} (hd : Deeper.All (Draws all (Value.Fit all)) deeper)
include ho hd

theorem plainTest_draws (negated : Bool) :
    Draws all (Value.Fit all) (plainTest operand deeper negated) := by
  have hcomparison : Draws all (Value.Fit all) (plainTest.comparisonTest operand negated) := by
    intro stop ts h
    refine (comparison_draws ho stop ts h).bind ?_
    rintro ⟨v, rest⟩ ⟨hv, hrest⟩
    exact ⟨.condition hv, hrest⟩
  intro stop ts h
  cases ts with
  | nil => exact hcomparison stop [] h
  | cons t rest =>
    simp only [plainTest]
    split
    · refine (enclosed_within t '(' h.tail).bind ?_
      rintro ⟨inner, close, after⟩ ⟨-, hinner, hafter⟩
      refine (enter_yields hd _ _).bind fun {test} htest => ?_
      exact (htest.whole close inner hinner).bind fun hv => ⟨.condition hv, hafter⟩
    · exact hcomparison stop _ h

theorem test_draws : Draws all (Value.Fit all) (test operand deeper) := by
  intro stop ts h
  cases ts with
  | nil => exact plainTest_draws ho hd false stop [] h
  | cons t rest =>
    simp only [test]
    split
    · exact plainTest_draws ho hd true stop rest h.tail
    · exact plainTest_draws ho hd false stop _ h

omit ho hd in
theorem wordJoin_within (word : String) (op : Operator) :
    JoinsWithin (Value.Fit all) (wordJoin word op) := by
  intro stop ts join rest hjoin
  cases ts with
  | nil => cases hjoin
  | cons t ts =>
    simp only [wordJoin] at hjoin
    split at hjoin
    · cases hjoin
      exact ⟨List.suffix_cons t _, .operation op⟩
    · cases hjoin

theorem alternatives_draws : Draws all (Value.Fit all) (alternatives operand deeper) :=
  chained_draws (wordJoin_within "or" .either)
    (chained_draws (wordJoin_within "and" .both) (test_draws ho hd))

end Tests

theorem enclosedTest_draws {operand nested : Rule Value} (ho : Draws all (Value.Fit all) operand)
    (hn : Draws all (Value.Fit all) nested) :
    Draws all (Value.Fit all) (enclosedTest operand nested) := by
  have hcomparison := comparison_draws ho
  intro stop ts h
  cases ts with
  | nil => exact hcomparison stop [] h
  | cons t rest =>
    simp only [enclosedTest]
    split
    · exact hn stop _ h
    · split
      · refine (Yields.any _).bind ?_
        rintro ⟨inner, close, after⟩ -
        simp only
        -- What stands behind the brackets decides whether they enclose a test or a value.
        by_cases hends : (after.isEmpty || startsWithWord "and" after ||
            startsWithWord "or" after) = true
        · rw [if_pos hends]
          exact hn stop _ h
        · rw [if_neg hends]
          exact hcomparison stop _ h
      · exact hcomparison stop _ h

variable (hall : ∀ t ∈ all, t.lexeme.OneLine)
include hall

theorem tests_draws (room : Room) : Draws all (Value.Fit all) (tests room) := by
  induction room using Room.induction with
  | step room ih =>
    rw [tests_eq]
    refine alternatives_draws (operand_draws hall room) (Room.below_all fun o inner hinner => ?_)
    exact enclosedTest_draws (operand_draws hall inner) (ih o inner hinner)

theorem guard_within (room : Room) (stop : Token) (h : Within all ts) :
    Yields (fun vs => ∀ v ∈ vs, v.Fit all) (guard room stop ts) := by
  rw [guard]
  split
  · trivial
  · exact pieces_eachPiece_within (tests_draws hall room).whole ',' stop h

end Guards

section Media

variable (hall : ∀ t ∈ all, t.lexeme.OneLine)
include hall

theorem ratio?_fit {v : Value} (h : Within all ts) (hratio : ratio? ts = some v) : v.Fit all := by
  have hnumber {t : Token} {text : String} (ht : t ∈ all) (hbare : bareNumber? t = some text) :
      '\n' ∉ text.toList := by
    unfold bareNumber? at hbare
    split at hbare
    · rename_i hl
      split at hbare
      · cases hbare
        have hline := hall t ht
        rw [hl] at hline
        exact hline.1
      · cases hbare
    · cases hbare
  unfold ratio? at hratio
  split at hratio
  · rename_i first slash second
    obtain ⟨a, ha, hratio⟩ := Option.bind_eq_some_iff.mp hratio
    obtain ⟨b, hb, hratio⟩ := Option.bind_eq_some_iff.mp hratio
    split at hratio
    · cases hratio
      refine .ratio ?_
      simp [hnumber h.mem ha, hnumber h.tail.tail.mem hb]
    · cases hratio
  · cases hratio

theorem featureValue_draws {operand : Rule Value} (ho : Draws all (Value.Fit all) operand) :
    Draws all (Value.Fit all) (featureValue operand) := by
  intro stop ts h
  rw [featureValue]
  split
  · rename_i hratio
    exact ⟨ratio?_fit hall h hratio, List.nil_infix⟩
  · exact value_draws ho false stop ts h

theorem featureBody_draws {operand : Rule Value} (ho : Draws all (Value.Fit all) operand) :
    Draws all (Value.Fit all) (featureBody operand) := by
  intro stop ts h
  have hother : Yields (fun (v, rest) => Value.Fit all v ∧ Within all rest)
      (do let (v, rest) ← value operand false stop ts; return (Value.paren v, rest)) := by
    refine (value_draws ho false stop ts h).bind ?_
    rintro ⟨v, rest⟩ ⟨hv, hrest⟩
    exact ⟨.paren hv, hrest⟩
  cases ts with
  | nil => exact hother
  | cons t rest =>
    simp only [featureBody]
    split
    · rename_i hl
      split
      · split
        · trivial
        · refine (featureValue_draws hall ho stop _ (h.tail.drop 1)).bind ?_
          rintro ⟨v, after⟩ ⟨hv, hafter⟩
          exact ⟨.feature (h.oneLine hall hl) (by simpa using hv), hafter⟩
      · split
        · exact ⟨.feature (h.oneLine hall hl) (by simp), List.nil_infix⟩
        · exact hother
    · exact hother

theorem feature_within (room : Room) (bracket : Token) (h : Within all ts) :
    Yields (fun (v, rest) => v.Fit all ∧ Within all rest) (feature room bracket ts) := by
  refine (enclosed_within bracket '(' h).bind ?_
  rintro ⟨inner, close, after⟩ ⟨-, hinner, hafter⟩
  refine (enter_yields (below_draws hall room) _ _).bind fun {operand} ho => ?_
  exact ((featureBody_draws hall ho).whole close inner hinner).bind fun hv => ⟨hv, hafter⟩

theorem mediaItem_draws (room : Room) : Draws all (Value.Fit all) (mediaItem room) := by
  have hprimary := primary_draws hall (below_draws hall room)
  intro stop ts h
  cases ts with
  | nil => exact hprimary stop [] h
  | cons t rest =>
    simp only [mediaItem]
    split
    · exact feature_within hall room t h.tail
    · rename_i hl
      split
      · exact hprimary stop _ h
      · exact ⟨.keyword (.inl (h.oneLine hall hl)), h.tail⟩
    · exact hprimary stop _ h

theorem mediaItems_within (room : Room) (stop : Token) (h : Within all ts) :
    Yields (fun vs => ∀ v ∈ vs, v.Fit all) (mediaItems room stop ts) := by
  induction hn : ts.length using Nat.strongRecOn generalizing ts with
  | ind n ih =>
    cases ts with
    | nil =>
      rw [mediaItems]
      simp [Yields]
    | cons t rest =>
      rw [mediaItems]
      refine (mediaItem_draws hall room stop (t :: rest) h).bind ?_
      rintro ⟨v, after⟩ ⟨hv, hafter⟩
      simp only [List.length_cons] at hn
      by_cases hlength : after.length ≤ rest.length
      · simp only [if_pos hlength]
        exact (ih _ (by omega) hafter rfl).map fun hvs => List.forall_mem_cons.mpr ⟨hv, hvs⟩
      · simp only [if_neg hlength]
        exact List.forall_mem_cons.mpr ⟨hv, by simp⟩

theorem mediaQuery_within (room : Room) (stop : Token) (ts : List Token) (h : Within all ts) :
    Yields (Value.Fit all) (mediaQuery room stop ts) := by
  refine (mediaItems_within hall room stop h).bind fun {vs} hvs => ?_
  cases vs with
  | nil => trivial
  | cons v vs => exact fit_collect .expression hvs

theorem mediaQueries_within (room : Room) (stop : Token) (h : Within all ts) :
    Yields (fun vs => ∀ v ∈ vs, v.Fit all) (mediaQueries room stop ts) :=
  pieces_eachPiece_within (mediaQuery_within hall room) ',' stop h

end Media

end StyleTally.Stylesheet.Grammar
