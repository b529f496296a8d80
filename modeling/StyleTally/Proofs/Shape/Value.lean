import StyleTally.Proofs.Shape.Place
import StyleTally.Proofs.Shape.Range
import StyleTally.Stylesheet.Grammar.Guard
import StyleTally.Stylesheet.Grammar.Media

/-!
# The shape of values that are read

Each rule for values, guards and media queries gives a value of its own place in the grammar, and
all that the rules of the grammar keep holds of it.
-/

namespace StyleTally.Stylesheet.Grammar

open Value (Grammatical)

variable {P : Nat → Place → Value → Prop} (hP : Grammatical P) {d : Nat}

section Levels

variable {operand : Rule Value} (ho : Reads (P d .operand) operand)
include hP ho

theorem product_reads (divides : Bool) :
    Reads (P d (.product divides)) (product operand divides) := by
  refine chained_reads ?_ (ho.mono hP.product)
  intro stop ts join rest left hjoin hleft
  cases ts with
  | nil => cases hjoin
  | cons t ts =>
    simp only [productJoin] at hjoin
    split at hjoin
    · cases hjoin
      refine (ho stop rest).mono ?_
      rintro ⟨right, after⟩ ⟨hright, hafter⟩
      exact ⟨hP.multiply hleft hright, hafter.cons t⟩
    · split at hjoin
      · rename_i hdivides
        obtain ⟨rfl, -⟩ : divides = true ∧ t.isDelim '/' = true := by simpa using hdivides
        cases hjoin
        refine (ho stop rest).mono ?_
        rintro ⟨right, after⟩ ⟨hright, hafter⟩
        exact ⟨hP.divide hleft hright, hafter.cons t⟩
      · cases hjoin

theorem sum_reads (divides : Bool) : Reads (P d (.sum divides)) (sum operand divides) := by
  have hproduct := product_reads hP ho divides
  refine chained_reads ?_ (hproduct.mono hP.sum)
  intro stop ts join rest left hjoin hleft
  cases ts with
  | nil => cases hjoin
  | cons t ts =>
    simp only [sumJoin] at hjoin
    split at hjoin
    · cases hjoin
    · split at hjoin
      · cases hjoin
        refine (hproduct stop rest).mono ?_
        rintro ⟨right, after⟩ ⟨hright, hafter⟩
        exact ⟨hP.add hleft hright, hafter.cons t⟩
      · split at hjoin
        · cases hjoin
          refine (hproduct stop rest).mono ?_
          rintro ⟨right, after⟩ ⟨hright, hafter⟩
          exact ⟨hP.subtract hleft hright, hafter.cons t⟩
        · cases hjoin

theorem shorthand_reads : Reads (P d .shorthand) (shorthand operand) := by
  have hsum := sum_reads hP ho false
  refine chained_reads ?_ (hsum.mono hP.alone)
  intro stop ts join rest left hjoin hleft
  cases ts with
  | nil => cases hjoin
  | cons t ts =>
    simp only [slashJoin] at hjoin
    split at hjoin
    · cases hjoin
      refine (hsum stop rest).mono ?_
      rintro ⟨right, after⟩ ⟨hright, hafter⟩
      exact ⟨hP.shorthand hleft hright, hafter.cons t⟩
    · cases hjoin

end Levels

theorem compares_of_simple? {t : Token} {op : Operator} (h : simple? t = some op) :
    op.compares := by
  rw [simple?] at h
  split at h
  · cases h
    rfl
  · split at h
    · cases h
      rfl
    · split at h
      · cases h
        rfl
      · cases h

theorem compares_of_compoundOf? {t u : Token} {op : Operator} (h : compoundOf? t u = some op) :
    op.compares := by
  rw [compoundOf?] at h
  split at h
  · split at h
    · cases h
    · unfold compound? at h
      split at h <;> cases h <;> rfl
  · cases h

/-- A comparison is one of the six, and its tokens stand in front of the right operand. -/
theorem comparisonOperator?_spec {ts rest : List Token} {op : Operator}
    (h : comparisonOperator? ts = some (op, rest)) :
    op.compares ∧ ∃ signs, ts = signs ++ rest := by
  match ts, h with
  | [t], h =>
    obtain ⟨op', hop, heq⟩ := Option.map_eq_some_iff.mp h
    cases heq
    exact ⟨compares_of_simple? hop, [t], rfl⟩
  | t :: u :: ts, h =>
    rw [comparisonOperator?, Option.or_eq_some_iff] at h
    rcases h with h | ⟨-, h⟩
    · obtain ⟨op', hop, heq⟩ := Option.map_eq_some_iff.mp h
      cases heq
      exact ⟨compares_of_compoundOf? hop, [t, u], rfl⟩
    · obtain ⟨op', hop, heq⟩ := Option.map_eq_some_iff.mp h
      cases heq
      exact ⟨compares_of_simple? hop, [t], rfl⟩

include hP in
theorem comparison_reads {operand : Rule Value} (ho : Reads (P d .operand) operand) :
    Reads (P d .comparison) (comparison operand) := by
  have hsum := sum_reads hP ho true
  intro stop ts
  refine (hsum stop ts).bind ?_
  rintro ⟨left, rest⟩ ⟨hleft, hrest⟩
  simp only
  split
  · exact ⟨hP.comparison hleft, hrest⟩
  · rename_i op after hop
    obtain ⟨hcompares, signs, rfl⟩ := comparisonOperator?_spec hop
    refine (hsum stop after).bind ?_
    rintro ⟨right, rest⟩ ⟨hright, hright'⟩
    exact ⟨hP.compare hcompares hleft hright, hrest.trans (hright'.append signs)⟩

section Items

variable {item : Rule Value} {Q : Value → Prop} (hi : Reads Q item)
include hi

theorem items_yields (stop : Token) (ts : List Token) :
    Yields (fun (vs, rest) =>
        (∀ v ∈ vs, Q v) ∧ (vs = [] ∧ rest = ts ∨ Consumed ts rest))
      (items item stop ts) := by
  induction hn : ts.length using Nat.strongRecOn generalizing ts with
  | ind n ih =>
    rw [items]
    by_cases hend : (ts.isEmpty || startsWithDelim ',' ts) = true
    · rw [if_pos hend]
      exact ⟨by simp, .inl ⟨rfl, rfl⟩⟩
    · rw [if_neg hend]
      refine (hi stop ts).bind ?_
      rintro ⟨v, rest⟩ ⟨hv, hrest⟩
      have hlength := hrest.length_lt
      simp only [if_pos hlength]
      refine (ih _ (by omega) rest rfl).map ?_
      rintro ⟨vs, after⟩ ⟨hvs, hafter⟩
      refine ⟨List.forall_mem_cons.mpr ⟨hv, hvs⟩, .inr ?_⟩
      rcases hafter with ⟨-, rfl⟩ | hafter
      · exact hrest
      · exact hrest.trans hafter

theorem listed_yields (stop : Token) (ts : List Token) :
    Yields (fun (vs, rest) => vs ≠ [] ∧ (∀ v ∈ vs, Q v) ∧ Consumed ts rest)
      (listed item stop ts) := by
  induction hn : ts.length using Nat.strongRecOn generalizing ts with
  | ind n ih =>
    rw [listed]
    refine (hi stop ts).bind ?_
    rintro ⟨v, rest⟩ ⟨hv, hrest⟩
    have hlength := hrest.length_lt
    have hlast : Yields (fun (vs, rest) => vs ≠ [] ∧ (∀ v ∈ vs, Q v) ∧ Consumed ts rest)
        (.ok ([v], rest)) :=
      ⟨by simp, by simpa using hv, hrest⟩
    cases rest with
    | nil => exact hlast
    | cons t rest =>
      simp only [List.length_cons] at hlength
      by_cases hcomma : (t.isDelim ',' && decide (rest.length < ts.length)) = true
      · simp only [if_pos hcomma]
        refine (ih _ (by omega) rest rfl).map ?_
        rintro ⟨vs, after⟩ ⟨-, hvs, hafter⟩
        exact ⟨by simp, List.forall_mem_cons.mpr ⟨hv, hvs⟩, hrest.trans (hafter.cons t)⟩
      · simp only [if_neg hcomma]
        exact hlast

end Items

/-- Several values that were collected make a value of the wider place, and so does one alone. -/
theorem collect_of_forall {several : List Value → Value} {Q R : Value → Prop} {vs : List Value}
    (hone : ∀ {v}, Q v → R v)
    (hseveral : ∀ {vs}, 2 ≤ vs.length → (∀ v ∈ vs, Q v) → R (several vs))
    (hvs : vs ≠ []) (h : ∀ v ∈ vs, Q v) : R (collect several vs) := by
  match vs, hvs with
  | [v], _ => exact hone (h v (by simp))
  | v :: w :: vs, _ => exact hseveral (by simp) h

section Operand

variable {operand : Rule Value} (ho : Reads (P d .operand) operand)
include hP ho

theorem expression_reads (divides : Bool) :
    Reads (P d (.expression divides)) (expression operand divides) := by
  have hitem : Reads (P d (.item divides))
      (if divides then comparison operand else shorthand operand) := by
    cases divides with
    | true => exact comparison_reads hP ho
    | false => exact shorthand_reads hP ho
  intro stop ts
  refine (items_yields hitem stop ts).bind ?_
  rintro ⟨vs, rest⟩ ⟨hvs, hrest⟩
  cases vs with
  | nil => trivial
  | cons v vs =>
    refine ⟨collect_of_forall hP.expression hP.row (by simp) hvs, ?_⟩
    simpa using hrest

theorem value_reads (divides : Bool) : Reads (P d (.list divides)) (value operand divides) := by
  intro stop ts
  refine (listed_yields (expression_reads hP ho divides) stop ts).bind ?_
  rintro ⟨vs, rest⟩ ⟨hne, hvs, hrest⟩
  exact ⟨collect_of_forall hP.list hP.rows hne hvs, hrest⟩

theorem functionArg_reads : Reads (P d .argument) (functionArg operand) := by
  have hexpression := expression_reads hP ho true
  have hplain : Reads (P d .argument) (expression operand true) := hexpression.mono hP.argument
  intro stop ts
  match ts with
  | [] | [_] => exact hplain stop _
  | t :: u :: rest =>
    simp only [functionArg]
    split
    · split
      · refine (hexpression stop rest).bind ?_
        rintro ⟨v, after⟩ ⟨hv, hafter⟩
        exact ⟨hP.assignment hv, (hafter.cons u).cons t⟩
      · exact hplain stop _
    · exact hplain stop _

theorem functionArgs_yields (stop : Token) (ts : List Token) :
    Yields (fun vs => ∀ v ∈ vs, P d .argument v) (functionArgs operand stop ts) := by
  rw [functionArgs]
  split
  · simp [Yields]
  · exact (pieces_eachPiece_yields (whole_yields (functionArg_reads hP ho)) ',' stop ts).mono
      fun h => h.2.1

end Operand

theorem isAtom_word (text : String) : (word text).isAtom := by
  unfold word
  simp only
  split
  · rfl
  · split
    · rfl
    · split <;> rfl

theorem isAtom_variableNamed (name : String) : (variableNamed name).isAtom := by
  unfold variableNamed
  split <;> rfl

theorem isAtom_hash (s : String) :
    (((Color.ofHex? s).map Value.color).getD (.keyword s)).isAtom := by
  cases Color.ofHex? s <;> rfl

section Brackets

variable {deeper : Deeper (Rule Value)}
  (hd : Deeper.All (fun r => ∃ e, d = e + 1 ∧ Reads (P e .operand) r) deeper)
include hP hd

theorem callFrom_yields (o : Opening) (name : String) (bracket : Token) (ts : List Token) :
    Yields (fun (v, rest) => P d .operand v ∧ Consumed ts rest)
      (callFrom deeper o name bracket ts) := by
  refine (enclosed_consumed bracket '(' ts).bind ?_
  rintro ⟨inner, close, after⟩ hafter
  refine (enter_yields hd _ _).bind ?_
  rintro operand ⟨e, rfl, ho⟩
  exact (functionArgs_yields hP ho close inner).bind fun h => ⟨hP.call h, hafter⟩

theorem primary_reads : Reads (P d .operand) (primary deeper) := by
  intro stop ts
  cases ts with
  | nil => trivial
  | cons t rest =>
    have hread {v : Value} {l : Lexeme} (hv : v.isAtom) (ht : t.lexeme = l)
        (hl : l ≠ .delim ';' ∧ l ≠ .delim '}' := by simp) :
        Yields (fun (v, after) => P d .operand v ∧ Consumed (t :: rest) after)
          (.ok (v, rest)) :=
      ⟨hP.atom hv, .of_lexeme ht hl⟩
    simp only [primary]
    split
    · exact hread rfl ‹_›
    · exact hread rfl ‹_›
    · exact hread rfl ‹_›
    · exact hread rfl ‹_›
    · exact hread (isAtom_variableNamed _) ‹_›
    · exact hread rfl ‹_›
    · exact hread (isAtom_hash _) ‹_›
    · split
      · split
        · refine (callFrom_yields hP hd _ _ _ _).mono ?_
          rintro ⟨v, after⟩ ⟨hv, hafter⟩
          exact ⟨hv, (hafter.cons _).cons t⟩
        · exact hread (isAtom_word _) ‹_›
      · exact hread (isAtom_word _) ‹_›
    · refine (enclosed_consumed t '(' rest).bind ?_
      rintro ⟨inner, close, after⟩ hafter
      refine (enter_yields hd _ _).bind ?_
      rintro operand ⟨e, rfl, ho⟩
      refine (whole_yields (value_reads hP ho true) close inner).bind fun {v} hv => ?_
      exact ⟨hP.paren hv.1, hafter.cons t⟩
    · split
      · exact ⟨hP.atom rfl, (Consumed.of_lexeme rfl).cons t⟩
      · trivial
    · split
      · split
        · refine (callFrom_yields hP hd _ _ _ _).mono ?_
          rintro ⟨v, after⟩ ⟨hv, hafter⟩
          exact ⟨hv, (hafter.cons _).cons t⟩
        · trivial
      · trivial
    · refine (enclosed_consumed t '[' rest).bind ?_
      rintro ⟨inner, close, after⟩ hafter
      exact ⟨hP.atom rfl, hafter.cons t⟩
    · trivial

theorem signed_reads : Reads (P d .operand) (signed deeper) := by
  have hprimary := primary_reads hP hd
  intro stop ts
  cases ts with
  | nil => exact hprimary stop []
  | cons t rest =>
    simp only [signed]
    split
    · refine (enter_yields hd _ _).bind ?_
      rintro operand ⟨e, rfl, ho⟩
      refine (ho stop rest).bind ?_
      rintro ⟨v, after⟩ ⟨hv, hafter⟩
      exact ⟨hP.negative hv, hafter.cons t⟩
    · split
      · refine (enter_yields hd _ _).bind ?_
        rintro operand ⟨e, rfl, ho⟩
        refine (ho stop rest).mono ?_
        rintro ⟨v, after⟩ ⟨hv, hafter⟩
        exact ⟨hP.positive hv, hafter.cons t⟩
      · exact hprimary stop _

end Brackets

section Depth

include hP

theorem operand_reads (room : Room) : Reads (P room.levels .operand) (operand room) := by
  induction room using Room.induction with
  | step room ih =>
    rw [operand_eq]
    refine signed_reads hP (Room.below_all fun o inner hinner => ?_)
    exact ⟨inner.levels, (Room.opened_eq_ok hinner).1, ih o inner hinner⟩

theorem below_reads (room : Room) :
    Deeper.All (fun r => ∃ e, room.levels = e + 1 ∧ Reads (P e .operand) r) (room.below operand) :=
  Room.below_all fun _ inner hinner =>
    ⟨inner.levels, (Room.opened_eq_ok hinner).1, operand_reads hP inner⟩

end Depth

section Guards

section Tests

variable {operand : Rule Value} (ho : Reads (P d .operand) operand)
  {deeper : Deeper (Rule Value)}
  (hd : Deeper.All
    (fun r => ∃ e, d = e + 1 ∧ Reads (fun v => P e .comparison v ∨ P e .disjunction v) r) deeper)
include hP ho hd

theorem plainTest_reads (negated : Bool) :
    Reads (P d .condition) (plainTest operand deeper negated) := by
  have hcomparison : Reads (P d .condition)
      (plainTest.comparisonTest operand negated) := by
    intro stop ts
    refine (comparison_reads hP ho stop ts).bind ?_
    rintro ⟨v, rest⟩ ⟨hv, hrest⟩
    exact ⟨hP.condition hv, hrest⟩
  intro stop ts
  cases ts with
  | nil => exact hcomparison stop []
  | cons t rest =>
    simp only [plainTest]
    split
    · refine (enclosed_consumed t '(' rest).bind ?_
      rintro ⟨inner, close, after⟩ hafter
      refine (enter_yields hd _ _).bind ?_
      rintro test ⟨e, rfl, htest⟩
      refine (whole_yields htest close inner).bind fun {v} hv => ?_
      refine ⟨?_, hafter.cons t⟩
      rcases hv.1 with h | h
      · exact hP.enclosed h
      · exact hP.nested h
    · exact hcomparison stop _

theorem test_reads : Reads (P d .condition) (test operand deeper) := by
  intro stop ts
  cases ts with
  | nil => exact plainTest_reads hP ho hd false stop []
  | cons t rest =>
    simp only [test]
    split
    · refine (plainTest_reads hP ho hd true stop rest).mono ?_
      rintro ⟨v, after⟩ ⟨hv, hafter⟩
      exact ⟨hv, hafter.cons t⟩
    · exact plainTest_reads hP ho hd false stop _

omit hP ho hd in
theorem wordJoin_joining {word : String} {op : Operator} {Q R : Value → Prop} {rule : Rule Value}
    (hr : Reads R rule) (hop : ∀ {l r}, Q l → R r → Q (.operation op l r)) :
    Joining Q (wordJoin word op) rule := by
  intro stop ts join rest left hjoin hleft
  cases ts with
  | nil => cases hjoin
  | cons t ts =>
    simp only [wordJoin] at hjoin
    split at hjoin
    · cases hjoin
      refine (hr stop rest).mono ?_
      rintro ⟨right, after⟩ ⟨hright, hafter⟩
      exact ⟨hop hleft hright, hafter.cons t⟩
    · cases hjoin

theorem alternatives_reads : Reads (P d .disjunction) (alternatives operand deeper) := by
  have htest := test_reads hP ho hd
  have hboth : Reads (P d .conjunction) (chained (wordJoin "and" .both) (test operand deeper)) :=
    chained_reads (wordJoin_joining htest hP.both) (htest.mono hP.conjunction)
  exact chained_reads (wordJoin_joining hboth hP.either) (hboth.mono hP.disjunction)

end Tests

include hP

theorem enclosedTest_reads {operand nested : Rule Value} (ho : Reads (P d .operand) operand)
    (hn : Reads (P d .disjunction) nested) :
    Reads (fun v => P d .comparison v ∨ P d .disjunction v) (enclosedTest operand nested) := by
  have hnested := hn.mono fun {v} h => (Or.inr h : P d .comparison v ∨ P d .disjunction v)
  have hcomparison := (comparison_reads hP ho).mono fun {v} h =>
    (Or.inl h : P d .comparison v ∨ P d .disjunction v)
  intro stop ts
  cases ts with
  | nil => exact hcomparison stop []
  | cons t rest =>
    simp only [enclosedTest]
    split
    · exact hnested stop _
    · split
      · refine (Yields.any _).bind ?_
        rintro ⟨inner, close, after⟩ -
        simp only
        by_cases hends : (after.isEmpty || startsWithWord "and" after ||
            startsWithWord "or" after) = true
        · rw [if_pos hends]
          exact hnested stop _
        · rw [if_neg hends]
          exact hcomparison stop _
      · exact hcomparison stop _

theorem tests_reads (room : Room) : Reads (P room.levels .disjunction) (tests room) := by
  induction room using Room.induction with
  | step room ih =>
    rw [tests_eq]
    refine alternatives_reads hP (operand_reads hP room)
      (Room.below_all fun o inner hinner => ?_)
    exact ⟨inner.levels, (Room.opened_eq_ok hinner).1,
      enclosedTest_reads hP (operand_reads hP inner) (ih o inner hinner)⟩

theorem guard_yields (room : Room) (stop : Token) (ts : List Token) :
    Yields (Row (P room.levels .disjunction)) (guard room stop ts) := by
  rw [guard]
  split
  · trivial
  · exact (pieces_eachPiece_yields (whole_yields (tests_reads hP room)) ',' stop ts).mono
      fun h => ⟨h.1, h.2.1⟩

end Guards

section Media

theorem ratio?_spec {ts : List Token} {v : Value} (h : ratio? ts = some v) :
    ∃ text, v = .ratio text := by
  unfold ratio? at h
  split at h
  · rename_i first slash second
    cases hfirst : bareNumber? first with
    | none => simp [hfirst] at h
    | some a =>
      cases hsecond : bareNumber? second with
      | none => simp [hfirst, hsecond] at h
      | some b =>
        simp only [hfirst, hsecond, Option.bind_eq_bind, Option.bind_some] at h
        split at h
        · cases h
          exact ⟨_, rfl⟩
        · cases h
  · cases h

include hP

theorem featureValue_yields {operand : Rule Value} (ho : Reads (P d .operand) operand)
    (stop : Token) (ts : List Token) :
    Yields (fun (v, _) => P d .featureValue v) (featureValue operand stop ts) := by
  rw [featureValue]
  split
  · rename_i ratio hratio
    obtain ⟨text, rfl⟩ := ratio?_spec hratio
    exact hP.ratio
  · exact (value_reads hP ho false stop ts).mono fun h => hP.featureValue h.1

theorem featureBody_yields {operand : Rule Value} (ho : Reads (P d .operand) operand)
    (stop : Token) (ts : List Token) :
    Yields (fun (v, _) => P (d + 1) .mediaItem v) (featureBody operand stop ts) := by
  have hother : Yields (fun (v, _) => P (d + 1) .mediaItem v)
      (do let (v, rest) ← value operand false stop ts; return (.paren v, rest)) := by
    refine (value_reads hP ho false stop ts).bind ?_
    rintro ⟨v, rest⟩ ⟨hv, -⟩
    exact hP.mediaParen hv
  cases ts with
  | nil => exact hother
  | cons t rest =>
    simp only [featureBody]
    split
    · split
      · split
        · trivial
        · exact (featureValue_yields hP ho stop _).bind fun h => hP.feature (by simpa using h)
      · split
        · exact hP.feature (by simp)
        · exact hother
    · exact hother

theorem feature_yields (room : Room) (bracket : Token) (ts : List Token) :
    Yields (fun (v, rest) => P room.levels .mediaItem v ∧ Consumed ts rest)
      (feature room bracket ts) := by
  refine (enclosed_consumed bracket '(' ts).bind ?_
  rintro ⟨inner, close, after⟩ hafter
  refine (enter_yields (below_reads hP room) _ _).bind ?_
  rintro operand ⟨e, hlevels, ho⟩
  rw [hlevels]
  refine (whole_of_yields (featureBody_yields hP ho close inner)).bind fun {v} hv => ?_
  exact ⟨hv, hafter⟩

theorem mediaItem_reads (room : Room) : Reads (P room.levels .mediaItem) (mediaItem room) := by
  have hprimary : Reads (P room.levels .mediaItem) (primary (room.below operand)) :=
    (primary_reads hP (below_reads hP room)).mono hP.mediaOperand
  intro stop ts
  cases ts with
  | nil => exact hprimary stop []
  | cons t rest =>
    simp only [mediaItem]
    split
    · refine (feature_yields hP room t rest).mono ?_
      rintro ⟨v, after⟩ ⟨hv, hafter⟩
      exact ⟨hv, hafter.cons t⟩
    · split
      · exact hprimary stop _
      · exact ⟨hP.mediaOperand (hP.atom rfl), .of_lexeme ‹_›⟩
    · exact hprimary stop _

theorem mediaItems_yields (room : Room) (stop : Token) (ts : List Token) :
    Yields (fun vs => (∀ v ∈ vs, P room.levels .mediaItem v) ∧ (vs = [] ∧ ts = [] ∨ Consumed ts []))
      (mediaItems room stop ts) := by
  induction hn : ts.length using Nat.strongRecOn generalizing ts with
  | ind n ih =>
    cases ts with
    | nil =>
      rw [mediaItems]
      exact ⟨by simp, .inl ⟨rfl, rfl⟩⟩
    | cons t rest =>
      rw [mediaItems]
      refine (mediaItem_reads hP room stop (t :: rest)).bind ?_
      rintro ⟨v, after⟩ ⟨hv, hafter⟩
      have hlength : after.length ≤ rest.length := Nat.le_of_lt_succ hafter.length_lt
      simp only [if_pos hlength]
      simp only [List.length_cons] at hn
      refine (ih _ (by omega) after rfl).map fun {vs} hvs => ?_
      refine ⟨List.forall_mem_cons.mpr ⟨hv, hvs.1⟩, .inr ?_⟩
      rcases hvs.2 with ⟨-, rfl⟩ | hends
      · exact hafter
      · exact hafter.trans hends

theorem mediaQuery_yields (room : Room) (stop : Token) (ts : List Token) :
    Yields (fun v => P room.levels .mediaQuery v ∧ Consumed ts []) (mediaQuery room stop ts) := by
  refine (mediaItems_yields hP room stop ts).bind fun {vs} hvs => ?_
  cases vs with
  | nil => trivial
  | cons v vs =>
    refine ⟨collect_of_forall hP.mediaQuery hP.mediaRow (by simp) hvs.1, ?_⟩
    simpa using hvs.2

theorem mediaQueries_yields (room : Room) (stop : Token) (ts : List Token) :
    Yields (fun vs => Row (P room.levels .mediaQuery) vs ∧ Consumed ts [])
      (mediaQueries room stop ts) :=
  (pieces_eachPiece_yields (mediaQuery_yields hP room) ',' stop ts).mono
    fun h => ⟨⟨h.1, h.2.1⟩, h.2.2⟩

end Media

end StyleTally.Stylesheet.Grammar
