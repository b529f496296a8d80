import StyleTally.Proofs.Shape.Selector
import StyleTally.Stylesheet.Grammar.Statement

/-!
# The shape of statements

Statements as the grammar builds them, and that all which the rules of the grammar keep holds of what
the rules for statements, bodies and whole stylesheets give.
-/

namespace StyleTally.Stylesheet

open Value (Derives derives_grammatical)

namespace Statement

inductive Shaped : Statement → Prop
  | empty : Shaped .empty
  | declaration {name : String} {v? : Option Value} {important : Bool}
      (hv : ∀ v ∈ v?, Derives (.list false) v) : Shaped (.declaration name v? important)
  | definition {name : String} {v : Value} {important : Bool} (hv : Derives (.list false) v) :
      Shaped (.definition name v important)
  | ruleset {ss : List Selector} {guard : Option (List Value)} {body : List Statement}
      (hs : SelectorsShaped ss) (hg : ∀ vs ∈ guard, GuardShaped vs)
      (hb : ∀ s ∈ body, Shaped s) : Shaped (.ruleset ss guard body)
  | mixin {name : String} {ps : List Parameter} {guard : Option (List Value)}
      {body : List Statement} (hp : ∀ p ∈ ps, Parameter.Shaped p)
      (hg : ∀ vs ∈ guard, GuardShaped vs) (hb : ∀ s ∈ body, Shaped s) :
      Shaped (.mixin name ps guard body)
  | mixinCall {path : Selector} {args : Option Arguments} {important : Bool}
      (hs : Selector.Shaped path) (ha : ∀ a ∈ args, Arguments.Shaped a) :
      Shaped (.mixinCall path args important)
  | media {features : Option (List Value)} {body : List Statement}
      (hf : ∀ vs ∈ features, FeaturesShaped vs) (hb : ∀ s ∈ body, Shaped s) :
      Shaped (.media features body)
  | blockDirective {name params : String} {body : List Statement} (hb : ∀ s ∈ body, Shaped s) :
      Shaped (.blockDirective name params body)
  | directive {name : String} {v? : Option Value} (hv : ∀ v ∈ v?, Derives (.list false) v) :
      Shaped (.directive name v?)
  | block {name : Option String} {body : List Statement} (hb : ∀ s ∈ body, Shaped s) :
      Shaped (.block name body)
  | imported {path : Value} {features : Option (List Value)} {options : List String}
      (hp : Derives .operand path) (hf : ∀ vs ∈ features, FeaturesShaped vs) :
      Shaped (.imported path features options)
  | extend {ss : List Selector} {all : Bool} (hs : SelectorsShaped ss) : Shaped (.extend ss all)

/-- `P` is about values as in `Value.Grammatical`, and `S d` about the statements that are read with
so many levels of nesting left. The rules of the grammar keep it, and read bodies, parameters and
arguments with one level less. -/
structure Grammatical (P : Nat → Place → Value → Prop) (S : Nat → Statement → Prop) : Prop where
  values : Value.Grammatical P
  empty : ∀ {d}, S d .empty
  declaration : ∀ {d name v? important}, (∀ v ∈ v?, P d (.list false) v) →
    S d (.declaration name v? important)
  definition : ∀ {d name v important}, P d (.list false) v → S d (.definition name v important)
  ruleset : ∀ {d ss guard body}, SelectorsShaped ss →
    (∀ vs ∈ guard, Row (P (d + 1) .disjunction) vs) → (∀ s ∈ body, S d s) →
    S (d + 1) (.ruleset ss guard body)
  mixin : ∀ {d name ps guard body}, (∀ p ∈ ps, p.Holds (P d (.list false))) →
    (∀ vs ∈ guard, Row (P (d + 1) .disjunction) vs) → (∀ s ∈ body, S d s) →
    S (d + 1) (.mixin name ps guard body)
  mixinCall : ∀ {d path args important}, Selector.Shaped path →
    (∀ a ∈ args, ∃ e, d = e + 1 ∧ a.Hold (P e (.list false))) → S d (.mixinCall path args important)
  media : ∀ {d features body}, (∀ vs ∈ features, Row (P (d + 1) .mediaQuery) vs) →
    (∀ s ∈ body, S d s) → S (d + 1) (.media features body)
  blockDirective : ∀ {d name params body}, (∀ s ∈ body, S d s) →
    S (d + 1) (.blockDirective name params body)
  directive : ∀ {d name v?}, (∀ v ∈ v?, P d (.list false) v) → S d (.directive name v?)
  block : ∀ {d name body}, (∀ s ∈ body, S d s) → S (d + 1) (.block name body)
  imported : ∀ {d path features options}, P d .operand path →
    (∀ vs ∈ features, Row (P d .mediaQuery) vs) → S d (.imported path features options)
  extend : ∀ {d ss all}, SelectorsShaped ss → S d (.extend ss all)

theorem shaped_grammatical : Grammatical (fun _ => Derives) fun _ => Shaped where
  values := derives_grammatical
  empty := .empty
  declaration := .declaration
  definition := .definition
  ruleset := .ruleset
  mixin := .mixin
  mixinCall hs ha := .mixinCall hs fun a h => by
    obtain ⟨-, -, h⟩ := ha a h
    exact h
  media := .media
  blockDirective := .blockDirective
  directive := .directive
  block := .block
  imported := .imported
  extend := .extend

end Statement

namespace Grammar

variable {P : Nat → Place → Value → Prop} {S : Nat → Statement → Prop}

/-- A range read up to its mark of importance is read to its end. -/
theorem splitImportant_passed (stop : Token) (ts : List Token) :
    (splitImportant stop ts).2.2 = ts ∨ Passed ts [] := by
  unfold splitImportant
  split
  · rename_i u t front hrev
    split
    · rename_i hmark
      simp only [Bool.and_eq_true] at hmark
      have hts : ts = front.reverse ++ [t] ++ [u] := by
        rw [← List.reverse_reverse ts, hrev]
        simp
      have hlast : Consumed [u] [] := .single (isSeal_of_isWord hmark.2)
      rw [hts]
      exact .inr (.inr (hlast.append _))
    · exact .inl rfl
  · exact .inl rfl

/-- What is kept of the parameters and the guard of a mixin definition. -/
def SignatureHolds (P : Nat → Place → Value → Prop) (levels : Nat)
    (signature : List Parameter × Option (List Value)) : Prop :=
  (∃ e, levels = e + 1 ∧ ∀ p ∈ signature.1, p.Holds (P e (.list false))) ∧
    ∀ vs ∈ signature.2, Row (P levels .disjunction) vs

section Values

variable (hP : Value.Grammatical P)
include hP

theorem valueIfAny_yields (room : Room) (stop : Token) (ts : List Token) :
    Yields (fun v? => (∀ v ∈ v?, P room.levels (.list false) v) ∧ Passed ts [])
      (valueIfAny room stop ts) := by
  rw [valueIfAny]
  split
  · rename_i hempty
    obtain rfl : ts = [] := List.isEmpty_iff.mp hempty
    exact ⟨by simp, .refl []⟩
  · refine (whole_yields (value_reads hP (operand_reads hP room) false) stop ts).map ?_
    intro v hv
    exact ⟨by simpa using hv.1, .inr hv.2⟩

theorem declarationValue_yields (room : Room) (stop : Token) (ts : List Token) :
    Yields (fun (v?, _) => (∀ v ∈ v?, P room.levels (.list false) v) ∧ Passed ts [])
      (declarationValue room stop ts) := by
  have hsplit := splitImportant_passed stop ts
  rw [declarationValue]
  generalize splitImportant stop ts = p at hsplit
  obtain ⟨important, stop', us⟩ := p
  refine (valueIfAny_yields hP room stop' us).map fun {v?} hv => ⟨hv.1, ?_⟩
  rcases hsplit with rfl | hpassed
  · exact hv.2
  · exact hpassed

theorem mediaQueriesIfAny_yields (room : Room) (stop : Token) (ts : List Token) :
    Yields (fun vs? => (∀ vs ∈ vs?, Row (P room.levels .mediaQuery) vs) ∧ Passed ts [])
      (mediaQueriesIfAny room stop ts) := by
  rw [mediaQueriesIfAny]
  split
  · rename_i hempty
    obtain rfl : ts = [] := List.isEmpty_iff.mp hempty
    exact ⟨by simp, .refl []⟩
  · refine (mediaQueries_yields hP room stop ts).map fun {vs} hvs => ?_
    exact ⟨by simpa using hvs.1, .inr hvs.2⟩

theorem rulesetHead_yields (room : Room) (brace : Token) (front : List Token) :
    Yields (fun (ss, guard) =>
        SelectorsShaped ss ∧ ∀ vs ∈ guard, Row (P room.levels .disjunction) vs)
      (rulesetHead room brace front) := by
  unfold rulesetHead
  split
  · exact (selectors_yields brace front).map fun hs => ⟨hs, by simp⟩
  · refine (selectors_yields _ _).bind fun hs => ?_
    exact (guard_yields hP room brace _).bind fun hg => ⟨hs, by simpa using hg⟩

theorem signature?_yields (room : Room) (brace : Token) (front ts : List Token) (bracket : Token)
    (rest : List Token) :
    Yields (fun found => ∀ p ∈ found, SignatureHolds P room.levels p)
      (signature? room brace front ts bracket rest) := by
  refine (Yields.any _).bind ?_
  rintro ⟨inner, close, after⟩ -
  simp only
  split
  · simp [Yields, pure, Except.pure]
  · refine (enter_yields (below_reads hP room) _ _).bind ?_
    rintro operand ⟨e, hlevels, ho⟩
    refine (parameters_yields hP ho close inner).bind fun {ps} hps => ?_
    split
    · intro p hp
      cases hp
      exact ⟨⟨e, hlevels, hps⟩, by simp⟩
    · split
      · trivial
      · refine (guard_yields hP room brace _).bind fun {vs} hvs => ?_
        intro p hp
        cases hp
        exact ⟨⟨e, hlevels, hps⟩, by simpa using hvs⟩

theorem mixinHead?_yields (room : Room) (brace : Token) (front ts : List Token) :
    Yields (fun found => ∀ p ∈ found, SignatureHolds P room.levels p.2)
      (mixinHead? room brace front ts) := by
  unfold mixinHead?
  split
  · split
    · refine (signature?_yields hP room brace front ts _ _).map fun {found} h => ?_
      cases found with
      | none => simp
      | some p => simpa using h
    · simp [Yields]
  · simp [Yields]

end Values

section Ranges

variable (hS : Statement.Grammatical P S)
include hS

theorem mixinCall_yields (room : Room) (stop : Token) (ts : List Token) :
    Yields (fun s => S room.levels s ∧ Consumed ts []) (mixinCall room stop ts) := by
  refine (callPath_yields none true ts).bind ?_
  rintro ⟨path, rest⟩ ⟨hpath, -, hrest⟩
  refine (callArguments_yields hS.values room rest).bind ?_
  rintro ⟨args, after⟩ ⟨hargs, hafter⟩
  have hmark := dropImportant_passed after
  simp only
  generalize dropImportant after = p at hmark
  obtain ⟨important, last⟩ := p
  cases last with
  | cons t last => trivial
  | nil =>
    cases path with
    | nil => trivial
    | cons e path =>
      have hread := (hrest (by simp)).passed (hafter.trans hmark)
      exact ⟨hS.mixinCall ⟨by simp, hpath⟩ hargs, hread⟩

theorem declaration_yields (room : Room) (line : Nat) (stop : Token) (ts : List Token) :
    Yields (fun s => S room.levels s ∧ Consumed ts []) (declaration room line stop ts) := by
  have happend := cut_append [':'] 0 ts
  unfold declaration
  split
  · trivial
  · rename_i name colon rest hcut
    rw [hcut] at happend
    by_cases hcolon : colon.isDelim ':' = true
    · simp only [hcolon, Bool.not_true, Bool.false_eq_true, if_false]
      split
      · trivial
      · refine (declarationValue_yields hS.values room stop rest).bind ?_
        rintro ⟨v?, important⟩ ⟨hv, hrest⟩
        have hread : Consumed (colon :: rest) rest :=
          .single (isSeal_of_isDelim hcolon (by decide))
        refine ⟨hS.declaration hv, ?_⟩
        rw [← happend]
        exact (hread.passed hrest).append name
    · simp [hcolon, Yields]

theorem callOrDeclaration_yields (room : Room) (stop t : Token) (ts : List Token) :
    Yields (fun s => S room.levels s ∧ Consumed ts []) (callOrDeclaration room stop t ts) := by
  rw [callOrDeclaration]
  split
  · exact mixinCall_yields hS room stop ts
  · exact declaration_yields hS room t.line stop ts

end Ranges

section Statements

/-- A rule for bodies: it gives statements that are read with one level less, and reads at least one
token. -/
def Encloses (S : Nat → Statement → Prop) (levels : Nat) (body : Body) : Prop :=
  ∀ o stop ts, Yields (fun (ss, rest) =>
    (∃ e, levels = e + 1 ∧ ∀ s ∈ ss, S e s) ∧ rest <:+ ts.tail) (body o stop ts)

theorem tail_suffix_tail {tail ts : List Token} (h : tail <:+ ts) : tail.tail <:+ ts.tail := by
  obtain ⟨front, rfl⟩ := h
  cases front with
  | nil => exact List.suffix_refl _
  | cons t front => exact (List.tail_suffix tail).trans (List.suffix_append front tail)

theorem head_suffix (ts : List Token) : (head ts).2 <:+ ts :=
  ⟨(head ts).1, cut_append _ 0 ts⟩

theorem head_suffix_tail {ts : List Token} (h : (head ts).1 ≠ []) : (head ts).2 <:+ ts.tail := by
  have happend : (head ts).1 ++ (head ts).2 = ts := cut_append _ 0 ts
  obtain ⟨t, front, hfront⟩ := List.exists_cons_of_ne_nil h
  rw [hfront] at happend
  have htail : front ++ (head ts).2 = ts.tail := congrArg List.tail happend
  exact ⟨front, htail⟩

theorem endStatement_yields (ts : List Token) :
    Yields (fun rest => rest <:+ ts) (endStatement ts) := by
  unfold endStatement
  split
  · exact List.suffix_refl []
  · split
    · exact List.suffix_cons _ _
    · split
      · exact List.suffix_refl _
      · trivial

theorem extendBody?_suffix {t bracket : Token} {ts rest : List Token}
    (h : extendBody? (t :: ts) = some (bracket, rest)) : rest <:+ ts := by
  unfold extendBody? at h
  split at h
  · rename_i amp colon name bracket' rest' heq
    cases heq
    split at h
    · cases h
      exact ⟨[colon, name, bracket], rfl⟩
    · cases h
  · cases h

theorem importOptions_yields (ts : List Token) :
    Yields (fun (_, rest) => Passed ts rest) (importOptions ts) := by
  unfold importOptions
  split
  · rename_i t rest
    split
    · refine (enclosed_consumed t '(' rest).bind ?_
      rintro ⟨inner, close, after⟩ hafter
      exact .inr (hafter.cons t)
    · exact .refl _
  · exact .refl []

variable {room : Room} {body : Body}

/-- A statement is read, and then those behind it. -/
theorem statements_cons {s : Statement} (stop : Token) {t : Token} {rest after : List Token}
    (ht : t.isSeal = false)
    (h : statement room body stop t rest = .ok (s, after)) (hlength : after.length ≤ rest.length) :
    statements room body stop (t :: rest) =
      (statements room body stop after).map fun (more, rest) => (s :: more, rest) := by
  simp only [Token.isSeal, Bool.or_eq_false_iff] at ht
  rw [statements, if_neg (by simp [ht]), if_neg (by simp [ht]), h]
  simp only [bind, Except.bind, if_pos hlength]

theorem Encloses.suffix (hb : Encloses S room.levels body) (o : Opening) (stop : Token)
    (ts : List Token) :
    Yields (fun (ss, rest) => (∃ e, room.levels = e + 1 ∧ ∀ s ∈ ss, S e s) ∧ rest <:+ ts)
      (body o stop ts) :=
  (hb o stop ts).mono fun h => ⟨h.1, h.2.trans (List.tail_suffix ts)⟩

variable (hS : Statement.Grammatical P S)
include hS

theorem extend_yields (room : Room) (bracket : Token) (ts : List Token) :
    Yields (fun (s, rest) => S room.levels s ∧ rest <:+ ts) (extend bracket ts) := by
  refine (enclosed_consumed bracket '(' ts).bind ?_
  rintro ⟨inner, close, after⟩ hafter
  simp only
  refine (selectors_yields _ _).bind fun hs => ?_
  exact ⟨hS.extend hs, hafter.suffix.trans (List.tail_suffix ts)⟩

theorem unendedStatement_yields (room : Room) (stop t : Token) (ts : List Token) :
    Yields (fun (s, rest) => S room.levels s ∧ rest <:+ ts) (unendedStatement room stop t ts) := by
  unfold unendedStatement
  split
  · rename_i bracket rest hextend
    refine (extend_yields hS room bracket rest).mono fun {p} hp => ?_
    exact ⟨hp.1, hp.2.trans (extendBody?_suffix hextend)⟩
  · refine (callOrDeclaration_yields hS room _ t _).map fun {s} hs => ⟨hs.1, ?_⟩
    have hsuffix (h : (head (t :: ts)).1 ≠ []) : (head (t :: ts)).2 <:+ ts := head_suffix_tail h
    apply hsuffix
    intro hfront
    have hread : Consumed (head (t :: ts)).1 [] := hs.2
    rw [hfront] at hread
    exact absurd hread.length_lt (by simp)

theorem simpleStatement_yields (room : Room) (stop t : Token) (ts : List Token) :
    Yields (fun (s, rest) => S room.levels s ∧ rest <:+ ts) (simpleStatement room stop t ts) := by
  refine (unendedStatement_yields hS room stop t ts).bind ?_
  rintro ⟨s, tail⟩ ⟨hs, htail⟩
  exact (endStatement_yields tail).bind fun hrest => ⟨hs, hrest.trans htail⟩

theorem imported_yields (room : Room) (stop : Token) (ts : List Token) :
    Yields (fun (s, rest) => S room.levels s ∧ rest <:+ ts) (imported room stop ts) := by
  refine (importOptions_yields ts).bind ?_
  rintro ⟨options, us⟩ hus
  simp only
  split
  · trivial
  · refine (primary_reads hS.values (below_reads hS.values room) _ _).bind ?_
    rintro ⟨path, rest⟩ ⟨hpath, -⟩
    refine (mediaQueriesIfAny_yields hS.values room _ rest).bind fun {features} hf => ?_
    refine (endStatement_yields _).bind fun hrest => ⟨hS.imported hpath hf.1, ?_⟩
    exact (hrest.trans (head_suffix us)).trans hus.suffix

theorem blockCall_yields (room : Room) (name : String) (bracket : Token) (ts : List Token) :
    Yields (fun (s, rest) => S room.levels s ∧ rest <:+ ts) (blockCall room name bracket ts) := by
  refine (argumentsFrom_yields hS.values room bracket ts).bind ?_
  rintro ⟨args, after⟩ ⟨ha, hafter⟩
  refine (endStatement_yields after).bind fun hrest => ?_
  refine ⟨hS.mixinCall ⟨by simp, by simp [Element.Shaped, Part.Shaped]⟩ (by simpa using ha), ?_⟩
  exact (hrest.trans hafter.suffix).trans (List.tail_suffix ts)

variable (hb : Encloses S room.levels body)
include hb

theorem ruleset_yields (stop brace : Token) (front tail : List Token) :
    Yields (fun (s, rest) => S room.levels s ∧ rest <:+ tail.tail)
      (ruleset room body stop brace front tail) := by
  refine (rulesetHead_yields hS.values room brace front).bind ?_
  rintro ⟨ss, guard⟩ ⟨hs, hg⟩
  refine (hb _ stop tail).bind ?_
  rintro ⟨statements, rest⟩ ⟨⟨e, hlevels, hbody⟩, hrest⟩
  rw [hlevels] at hg ⊢
  exact ⟨hS.ruleset hs hg hbody, hrest⟩

/-- A statement with a body is read past the brace of the body. -/
theorem withBody_yields (stop brace : Token) {front tail ts : List Token} (hts : tail <:+ ts) :
    Yields (fun (s, rest) => S room.levels s ∧ rest <:+ ts.tail)
      (withBody room body stop brace front tail ts) := by
  have htail : tail.tail <:+ ts.tail := tail_suffix_tail hts
  rw [withBody]
  split
  · refine (hb _ stop ts).bind ?_
    rintro ⟨statements, rest⟩ ⟨⟨e, hlevels, hbody⟩, hrest⟩
    rw [hlevels]
    exact ⟨hS.block hbody, hrest⟩
  · refine (mixinHead?_yields hS.values room brace front ts).bind fun {found} hfound => ?_
    cases found with
    | none =>
      exact (ruleset_yields hS hb stop brace front tail).mono fun h => ⟨h.1, h.2.trans htail⟩
    | some p =>
      obtain ⟨name, ps, guard⟩ := p
      obtain ⟨⟨e, hlevels, hps⟩, hg⟩ := hfound _ rfl
      refine (hb _ stop tail).bind ?_
      rintro ⟨statements, rest⟩ ⟨⟨e', hlevels', hbody⟩, hrest⟩
      obtain rfl : e = e' := Nat.succ.inj (hlevels.symm.trans hlevels')
      rw [hlevels] at hg ⊢
      exact ⟨hS.mixin hps hg hbody, hrest.trans htail⟩

theorem media_yields (stop : Token) (ts : List Token) :
    Yields (fun (s, rest) => S room.levels s ∧ rest <:+ ts) (media room body stop ts) := by
  unfold media
  simp only
  split
  · trivial
  · refine (mediaQueriesIfAny_yields hS.values room _ _).bind fun {features} hf => ?_
    refine (hb.suffix _ stop _).bind ?_
    rintro ⟨statements, rest⟩ ⟨⟨e, hlevels, hbody⟩, hrest⟩
    rw [hlevels] at hf ⊢
    exact ⟨hS.media hf.1 hbody, hrest.trans (head_suffix ts)⟩

theorem definition_yields (name : String) (stop : Token) (ts : List Token) :
    Yields (fun (s, rest) => S room.levels s ∧ rest <:+ ts)
      (definition room body name stop ts) := by
  rw [definition]
  split
  · refine (hb.suffix _ stop ts).bind ?_
    rintro ⟨statements, rest⟩ ⟨⟨e, hlevels, hbody⟩, hrest⟩
    rw [hlevels]
    exact ⟨hS.block hbody, hrest⟩
  · refine (declarationValue_yields hS.values room _ _).bind ?_
    rintro ⟨v?, important⟩ ⟨hv, -⟩
    cases v? with
    | none => trivial
    | some v =>
      refine (endStatement_yields _).bind fun hrest => ?_
      exact ⟨hS.definition (hv v rfl), hrest.trans (head_suffix ts)⟩

theorem directive_yields (name : String) (stop : Token) (ts : List Token) :
    Yields (fun (s, rest) => S room.levels s ∧ rest <:+ ts) (directive room body name stop ts) := by
  unfold directive
  simp only
  split
  · refine (hb.suffix _ stop _).bind ?_
    rintro ⟨statements, rest⟩ ⟨⟨e, hlevels, hbody⟩, hrest⟩
    rw [hlevels]
    exact ⟨hS.blockDirective hbody, hrest.trans (head_suffix ts)⟩
  · refine (valueIfAny_yields hS.values room _ _).bind fun {v?} hv => ?_
    refine (endStatement_yields _).bind fun hrest => ?_
    exact ⟨hS.directive hv.1, hrest.trans (head_suffix ts)⟩

theorem atRule_yields (name : String) (stop : Token) (ts : List Token) :
    Yields (fun (s, rest) => S room.levels s ∧ rest <:+ ts) (atRule room body name stop ts) := by
  unfold atRule
  simp only
  split
  · exact media_yields hS hb stop ts
  · split
    · exact imported_yields hS room stop ts
    · split
      · exact directive_yields hS hb name stop []
      · rename_i t rest
        have hcons := List.suffix_cons t rest
        split
        · split
          · exact (definition_yields hS hb name stop rest).mono fun h => ⟨h.1, h.2.trans hcons⟩
          · exact directive_yields hS hb name stop _
        · split
          · exact (blockCall_yields hS room name t rest).mono fun h => ⟨h.1, h.2.trans hcons⟩
          · exact directive_yields hS hb name stop _

theorem statement_yields (stop t : Token) (rest : List Token) :
    Yields (fun (s, after) => S room.levels s ∧ after <:+ rest)
      (statement room body stop t rest) := by
  unfold statement
  split
  · exact atRule_yields hS hb _ stop rest
  · split
    · rename_i front brace after hhead
      split
      · have htail : brace :: after <:+ t :: rest := by
          have hsuffix := head_suffix (t :: rest)
          rwa [hhead] at hsuffix
        exact withBody_yields hS hb stop brace htail
      · exact simpleStatement_yields hS room stop t rest
    · exact simpleStatement_yields hS room stop t rest

theorem statements_yields (stop : Token) (ts : List Token) :
    Yields (fun (ss, rest) => (∀ s ∈ ss, S room.levels s) ∧ rest <:+ ts)
      (statements room body stop ts) := by
  induction hn : ts.length using Nat.strongRecOn generalizing ts with
  | ind n ih =>
    cases ts with
    | nil =>
      rw [statements]
      simp [Yields]
    | cons t rest =>
      have hcons := List.suffix_cons t rest
      rw [statements]
      simp only [List.length_cons] at hn
      split
      · exact ⟨by simp, List.suffix_refl _⟩
      · split
        · refine (ih _ (by omega) rest rfl).map ?_
          rintro ⟨ss, after⟩ ⟨hss, hafter⟩
          exact ⟨List.forall_mem_cons.mpr ⟨hS.empty, hss⟩, hafter.trans hcons⟩
        · refine (statement_yields hS hb stop t rest).bind ?_
          rintro ⟨s, after⟩ ⟨hs, hafter⟩
          have hlength := hafter.length_le
          simp only [if_pos hlength]
          refine (ih _ (by omega) after rfl).map ?_
          rintro ⟨ss, last⟩ ⟨hss, hlast⟩
          exact ⟨List.forall_mem_cons.mpr ⟨hs, hss⟩, (hlast.trans hafter).trans hcons⟩

end Statements

section Bodies

variable (hS : Statement.Grammatical P S)

theorem bodyWith_encloses {levels : Nat} {deeper : Deeper (Rule (List Statement))}
    (hd : Deeper.All (fun r => ∃ e, levels = e + 1 ∧ ∀ stop ts,
      Yields (fun (ss, rest) => (∀ s ∈ ss, S e s) ∧ rest <:+ ts) (r stop ts)) deeper) :
    Encloses S levels (bodyWith deeper) := by
  intro o stop ts
  cases ts with
  | nil => trivial
  | cons t rest =>
    simp only [bodyWith]
    split
    · trivial
    · refine (enter_yields hd _ _).bind ?_
      rintro read ⟨e, rfl, hread⟩
      refine (hread stop rest).bind ?_
      rintro ⟨inside, after⟩ ⟨hinside, hafter⟩
      cases after with
      | nil => trivial
      | cons u after => exact ⟨⟨e, rfl, hinside⟩, (List.suffix_cons u after).trans hafter⟩

include hS

theorem body_encloses (room : Room) : Encloses S room.levels (body room) := by
  induction room using Room.induction with
  | step room ih =>
    rw [body_eq]
    refine bodyWith_encloses (Room.below_all fun o inner hinner => ?_)
    exact ⟨inner.levels, (Room.opened_eq_ok hinner).1, statements_yields hS (ih o inner hinner)⟩

theorem sheet_yields (room : Room) (stop : Token) (ts : List Token) :
    Yields (fun sheet => ∀ s ∈ sheet, S room.levels s) (sheet room stop ts) := by
  refine (statements_yields hS (body_encloses hS room) stop ts).bind ?_
  rintro ⟨inner, rest⟩ ⟨hinner, -⟩
  cases rest with
  | nil => exact hinner
  | cons t rest => trivial

end Bodies

end Grammar

end StyleTally.Stylesheet
