import StyleTally.Proofs.Brackets.Statement
import StyleTally.Proofs.Excerpt.Selector
import StyleTally.Proofs.Shape.Statement
import StyleTally.Stylesheet.Parse

/-!
# The keys of statements

A statement fits if all marks that it leaves do, with and without the statements that count on
request only. The statements that are read within a stylesheet fit; the name of a declaration is
cut out of the stylesheet up to its colon.
-/

namespace StyleTally.Stylesheet

variable {all : List Token}

/-- A statement that leaves fitting marks only. -/
def Statement.Fit (all : List Token) (s : Statement) : Prop :=
  ∀ (statements : Bool), ∀ m ∈ Mark.ofStatement statements s, m.Fits all

theorem Mark.fits_tag {kind : String} (h : '\n' ∉ kind.toList) : (Mark.tag kind).Fits all := .inl h

theorem Mark.fits_ofStatements (statements : Bool) {ss : List Statement}
    (h : ∀ s ∈ ss, s.Fit all) : ∀ m ∈ Mark.ofStatements statements ss, m.Fits all := by
  induction ss with
  | nil => simp [Mark.ofStatements]
  | cons s ss ih =>
    obtain ⟨hs, hss⟩ := List.forall_mem_cons.mp h
    rw [Mark.ofStatements, List.forall_mem_append]
    exact ⟨hs statements, ih hss⟩

namespace Statement.Fit

variable {name : String} {v? : Option Value} {ss : List Statement} {important : Bool}

theorem of_node? {n? : Option Node} (h : ∀ n ∈ n?, n.Fit all) :
    ∀ m ∈ Mark.ofNodes [n?], m.Fits all := by
  refine Mark.fits_ofNodes.mpr fun n hn => h n ?_
  simpa [eq_comm] using hn

theorem of_node {n : Node} (h : n.Fit all) (statements : Bool) :
    ∀ m ∈ if statements then Mark.ofNodes [some n] else [], m.Fits all := by
  split
  · exact h
  · simp

theorem empty : Fit all .empty := fun _ => by simp [Mark.ofStatement]

theorem extend (selectors : List Selector) (every : Bool) : Fit all (.extend selectors every) :=
  fun _ => by simp [Mark.ofStatement]

theorem declaration (hname : Mark.Fits all ⟨.properties, name⟩) (hv : ∀ v ∈ v?, v.Fit all) :
    Fit all (.declaration name v? important) := by
  intro statements
  have hproperty : Node.Fit all (.property name) := .of_keyed rfl hname
  have hnode : Node.Fit all (.statement (.declaration name v? important)) := by
    refine .of_tagged rfl fun m hm => ?_
    rcases List.mem_cons.mp hm with heq | hm
    · cases heq
      exact hproperty
    · exact Node.Fit.value? hv m hm
  rw [Mark.ofStatement, List.forall_mem_append]
  exact ⟨hnode, by simpa using Mark.fits_tag (by decide)⟩

theorem mixinCall {path : Selector} {args : Option Arguments}
    (hpath : ∀ e ∈ path, Element.Fit all e) (hargs : ∀ a ∈ args, a.Fit all) :
    Fit all (.mixinCall path args important) := by
  intro statements
  have hnode : Node.Fit all (.statement (.mixinCall path args important)) := by
    refine .of_tagged rfl fun m hm => ?_
    rcases List.mem_cons.mp hm with heq | hm
    · obtain ⟨a, ha, rfl⟩ := Option.map_eq_some_iff.mp heq.symm
      exact .arguments (hargs a ha)
    · cases List.mem_singleton.mp hm
      exact .selector hpath
  rw [Mark.ofStatement, List.forall_mem_append]
  exact ⟨hnode, by simpa using Mark.fits_tag (by decide)⟩

theorem definition {v : Value} (hv : v.Fit all) : Fit all (.definition name v important) := by
  intro statements
  rw [Mark.ofStatement]
  exact of_node (.of_tagged rfl (by simpa using hv)) statements

theorem directive (hv : ∀ v ∈ v?, v.Fit all) : Fit all (.directive name v?) := by
  intro statements
  rw [Mark.ofStatement]
  exact of_node (.of_tagged rfl (Node.Fit.value? hv)) statements

theorem imported {path : Value} {queries : Option (List Value)} {options : List String}
    (hpath : path.Fit all) (hqueries : ∀ vs ∈ queries, ∀ v ∈ vs, v.Fit all) :
    Fit all (.imported path queries options) := by
  intro statements
  rw [Mark.ofStatement]
  refine of_node (.of_tagged rfl fun m hm => ?_) statements
  rcases List.mem_cons.mp hm with heq | hm
  · obtain ⟨vs, hvs, rfl⟩ := Option.map_eq_some_iff.mp heq.symm
    exact .features (hqueries vs hvs)
  · cases List.mem_singleton.mp hm
    exact hpath

theorem blockDirective {params : String} (hname : '\n' ∉ name.toList) (hss : ∀ s ∈ ss, s.Fit all) :
    Fit all (.blockDirective name params ss) := by
  intro statements
  rw [Mark.ofStatement, List.forall_mem_cons, List.forall_mem_cons]
  exact ⟨Mark.fits_tag (by decide), .inl hname, Mark.fits_ofStatements statements hss⟩

theorem block {name? : Option String} (hss : ∀ s ∈ ss, s.Fit all) : Fit all (.block name? ss) := by
  intro statements
  rw [Mark.ofStatement, List.forall_mem_cons]
  exact ⟨Mark.fits_tag (by decide), Mark.fits_ofStatements statements hss⟩

theorem media {queries : Option (List Value)} (hqueries : ∀ vs ∈ queries, ∀ v ∈ vs, v.Fit all)
    (hss : ∀ s ∈ ss, s.Fit all) : Fit all (.media queries ss) := by
  intro statements
  rw [Mark.ofStatement, List.cons_append, List.forall_mem_cons, List.forall_mem_append]
  refine ⟨Mark.fits_tag (by decide), of_node? ?_, Mark.fits_ofStatements statements hss⟩
  simpa using fun vs hvs => Node.Fit.features (hqueries vs hvs)

theorem mixin {params : List Parameter} {conditions : Option (List Value)}
    (hparams : ∀ p ∈ params, p.Fit all) (hconditions : ∀ vs ∈ conditions, ∀ v ∈ vs, v.Fit all)
    (hss : ∀ s ∈ ss, s.Fit all) : Fit all (.mixin name params conditions ss) := by
  intro statements
  rw [Mark.ofStatement, List.cons_append, List.cons_append, List.forall_mem_cons,
    List.forall_mem_append, List.forall_mem_append]
  refine ⟨Mark.fits_tag (by decide), ⟨of_node? ?_, Node.Fit.parameters hparams⟩,
    Mark.fits_ofStatements statements hss⟩
  simpa using fun vs hvs => Node.Fit.guard (hconditions vs hvs)

theorem ruleset {selectors : List Selector} {conditions : Option (List Value)}
    (hselectors : ∀ s ∈ selectors, ∀ e ∈ s, Element.Fit all e) (hss : ∀ s ∈ ss, s.Fit all) :
    Fit all (.ruleset selectors conditions ss) := by
  intro statements
  rw [Mark.ofStatement, List.cons_append, List.forall_mem_cons, List.forall_mem_append]
  exact ⟨Mark.fits_tag (by decide), Node.Fit.selectors hselectors, Mark.fits_ofStatements statements hss⟩

end Statement.Fit

namespace Grammar

variable {ts : List Token} (hall : ∀ t ∈ all, t.lexeme.OneLine)

theorem head_within (h : Within all ts) : Within all (head ts).1 ∧ Within all (head ts).2 :=
  h.of_cut _ _

theorem endStatement_within (h : Within all ts) :
    Yields (Within all) (endStatement ts) :=
  (endStatement_yields ts).mono fun hrest => h.suffix hrest

theorem splitImportant_within (stop : Token) (h : Within all ts) :
    Within all (splitImportant stop ts).2.2 := by
  unfold splitImportant
  split
  · rename_i u t front hrev
    split
    · have hts : ts = front.reverse ++ [t, u] := by
        rw [← List.reverse_reverse ts, hrev]
        simp
      rw [hts] at h
      exact h.of_append_left
    · exact h
  · exact h

theorem splitGuard_within {depth : Int} {before after : List Token} {w : Token} (h : Within all ts)
    (hsplit : splitGuard depth ts = some (before, w, after)) :
    Within all before ∧ Within all after := by
  obtain ⟨rfl, -⟩ := splitGuard_eq hsplit
  exact ⟨h.of_append_left, h.of_append_right.tail⟩

theorem importOptions_within (h : Within all ts) :
    Yields (fun (_, rest) => Within all rest) (importOptions ts) :=
  (importOptions_yields ts).mono fun hrest => h.suffix hrest.suffix

section Values

include hall

theorem valueIfAny_within (room : Room) (stop : Token) (h : Within all ts) :
    Yields (fun v? => ∀ v ∈ v?, Value.Fit all v) (valueIfAny room stop ts) := by
  rw [valueIfAny]
  split
  · simp [Yields]
  · refine ((value_draws (operand_draws hall room) false).whole stop ts h).map fun {v} hv => ?_
    simpa using hv

theorem declarationValue_within (room : Room) (stop : Token) (h : Within all ts) :
    Yields (fun (v?, _) => ∀ v ∈ v?, Value.Fit all v) (declarationValue room stop ts) := by
  have hsplit := splitImportant_within stop h
  rw [declarationValue]
  exact (valueIfAny_within hall room _ hsplit).map fun hv => hv

theorem mediaQueriesIfAny_within (room : Room) (stop : Token) (h : Within all ts) :
    Yields (fun vs? => ∀ vs ∈ vs?, ∀ v ∈ vs, Value.Fit all v)
      (mediaQueriesIfAny room stop ts) := by
  rw [mediaQueriesIfAny]
  split
  · simp [Yields]
  · refine (mediaQueries_within hall room stop h).map fun {vs} hvs => ?_
    simpa using hvs

theorem rulesetHead_within (room : Room) (brace : Token) (h : Within all ts) :
    Yields (fun (ss, _) => ∀ s ∈ ss, ∀ e ∈ s, Element.Fit all e) (rulesetHead room brace ts) := by
  unfold rulesetHead
  split
  · exact (selectors_within hall brace h).map fun hs => hs
  · rename_i hsplit
    refine (selectors_within hall _ (splitGuard_within h hsplit).1).bind fun hs => ?_
    exact (Yields.any _).bind fun _ => hs

/-- Parameters and a guard that fit. -/
def SignatureFits (all : List Token) (signature : List Parameter × Option (List Value)) : Prop :=
  (∀ p ∈ signature.1, p.Fit all) ∧ ∀ vs ∈ signature.2, ∀ v ∈ vs, v.Fit all

theorem signature?_within (room : Room) (brace bracket : Token) {front rest : List Token}
    (hfront : Within all front) (h : Within all rest) :
    Yields (fun found => ∀ p ∈ found, SignatureFits all p)
      (signature? room brace front ts bracket rest) := by
  refine (enclosed_within bracket '(' h).bind ?_
  rintro ⟨inner, close, after⟩ ⟨-, hinner, hafter⟩
  simp only
  split
  · simp [Yields, pure, Except.pure]
  · refine (enter_yields (below_draws hall room) _ _).bind fun {operand} ho => ?_
    refine (parameters_within ho close hinner).bind fun {ps} hps => ?_
    split
    · intro p hp
      cases hp
      exact ⟨hps, by simp⟩
    · split
      · trivial
      · refine (guard_within hall room brace (hfront.drop _)).bind fun {vs} hvs => ?_
        intro p hp
        cases hp
        exact ⟨hps, by simpa using hvs⟩

theorem mixinHead?_within (room : Room) (brace : Token) {front : List Token}
    (hfront : Within all front) (h : Within all ts) :
    Yields (fun found => ∀ p ∈ found, SignatureFits all p.2) (mixinHead? room brace front ts) := by
  unfold mixinHead?
  split
  · rename_i name bracket rest hname
    split
    · have hrest : Within all rest :=
        h.suffix ((List.suffix_cons bracket rest).trans
          ((mixinName?_consumed hname).suffix.trans (List.tail_suffix ts)))
      refine (signature?_within hall room brace bracket hfront hrest).map fun {found} hfound => ?_
      cases found with
      | none => simp
      | some p => simpa using hfound
    · simp [Yields]
  · simp [Yields]

theorem mixinCall_within (room : Room) (stop : Token) (h : Within all ts) :
    Yields (Statement.Fit all) (mixinCall room stop ts) := by
  refine (callPath_within hall none true h).bind ?_
  rintro ⟨path, rest⟩ ⟨hpath, hrest⟩
  refine (callArguments_within hall room hrest).bind ?_
  rintro ⟨args, after⟩ ⟨hargs, -⟩
  simp only
  generalize dropImportant after = p
  obtain ⟨important, last⟩ := p
  cases last with
  | cons t last => trivial
  | nil =>
    cases path with
    | nil => trivial
    | cons e path => exact .mixinCall hpath hargs

theorem declaration_within (room : Room) (line : Nat) (stop : Token) (h : Within all ts) :
    Yields (Statement.Fit all) (declaration room line stop ts) := by
  obtain ⟨hfront, hback⟩ := h.of_cut [':'] 0
  unfold declaration
  split
  · trivial
  · rename_i name colon rest hcut
    rw [hcut] at hfront hback
    split
    · trivial
    · split
      · trivial
      · refine (declarationValue_within hall room stop hback.tail).bind ?_
        rintro ⟨v?, important⟩ hv
        -- The name keeps the line ends between its tokens, and so it is an excerpt.
        exact .declaration (.inr ⟨.property, name, rfl, trivial, hfront, rfl⟩) hv

theorem callOrDeclaration_within (room : Room) (stop t : Token) (h : Within all ts) :
    Yields (Statement.Fit all) (callOrDeclaration room stop t ts) := by
  rw [callOrDeclaration]
  split
  · exact mixinCall_within hall room stop h
  · exact declaration_within hall room t.line stop h

end Values

section Statements

omit hall in
theorem extend_within (bracket : Token) (h : Within all ts) :
    Yields (fun (s, rest) => Statement.Fit all s ∧ Within all rest) (extend bracket ts) := by
  refine (enclosed_within bracket '(' h).bind ?_
  rintro ⟨inner, close, after⟩ ⟨-, -, hafter⟩
  simp only
  exact (Yields.any _).bind fun _ => ⟨.extend _ _, hafter⟩

include hall

theorem unendedStatement_within (room : Room) (stop : Token) {t : Token}
    (h : Within all (t :: ts)) :
    Yields (fun (s, rest) => Statement.Fit all s ∧ Within all rest)
      (unendedStatement room stop t ts) := by
  unfold unendedStatement
  split
  · rename_i bracket rest hextend
    exact extend_within bracket (h.tail.suffix (extendBody?_suffix hextend))
  · obtain ⟨hfront, htail⟩ := head_within h
    exact (callOrDeclaration_within hall room _ t hfront).map fun hs => ⟨hs, htail⟩

theorem simpleStatement_within (room : Room) (stop : Token) {t : Token} (h : Within all (t :: ts)) :
    Yields (fun (s, rest) => Statement.Fit all s ∧ Within all rest)
      (simpleStatement room stop t ts) := by
  refine (unendedStatement_within hall room stop h).bind ?_
  rintro ⟨s, tail⟩ ⟨hs, htail⟩
  exact (endStatement_within htail).bind fun hrest => ⟨hs, hrest⟩

theorem imported_draws (room : Room) : Draws all (Statement.Fit all) (imported room) := by
  intro stop ts h
  refine (importOptions_within h).bind ?_
  rintro ⟨options, us⟩ hus
  obtain ⟨hfront, htail⟩ := head_within hus
  simp only
  split
  · trivial
  · refine (primary_draws hall (below_draws hall room) _ _ hfront).bind ?_
    rintro ⟨path, rest⟩ ⟨hpath, hrest⟩
    refine (mediaQueriesIfAny_within hall room _ hrest).bind fun {queries} hqueries => ?_
    exact (endStatement_within htail).bind fun hrest => ⟨.imported hpath hqueries, hrest⟩

theorem blockCall_within (room : Room) {name : String} (hname : '\n' ∉ name.toList)
    (bracket : Token) (h : Within all ts) :
    Yields (fun (s, rest) => Statement.Fit all s ∧ Within all rest)
      (blockCall room name bracket ts) := by
  refine (argumentsFrom_within hall room bracket h).bind ?_
  rintro ⟨args, after⟩ ⟨hargs, hafter⟩
  refine (endStatement_within hafter).bind fun hrest => ⟨.mixinCall ?_ (by simpa using hargs), hrest⟩
  have hpart : Part.Fit all (.text ("@" ++ name)) := .inl (by simpa using hname)
  simpa using hpart

variable {room : Room} {body : Body}
  (hb : ∀ o, Draws all (fun ss => ∀ s ∈ ss, Statement.Fit all s) (body o))
include hb

theorem ruleset_within (stop brace : Token) {front tail : List Token} (hfront : Within all front)
    (htail : Within all tail) :
    Yields (fun (s, rest) => Statement.Fit all s ∧ Within all rest)
      (ruleset room body stop brace front tail) := by
  refine (rulesetHead_within hall room brace hfront).bind ?_
  rintro ⟨selectors, conditions⟩ hselectors
  refine (hb _ stop tail htail).bind ?_
  rintro ⟨ss, rest⟩ ⟨hss, hrest⟩
  exact ⟨.ruleset hselectors hss, hrest⟩

theorem withBody_within (stop brace : Token) {front tail : List Token} (hfront : Within all front)
    (htail : Within all tail) (h : Within all ts) :
    Yields (fun (s, rest) => Statement.Fit all s ∧ Within all rest)
      (withBody room body stop brace front tail ts) := by
  rw [withBody]
  split
  · refine (hb _ stop ts h).bind ?_
    rintro ⟨ss, rest⟩ ⟨hss, hrest⟩
    exact ⟨.block hss, hrest⟩
  · refine (mixinHead?_within hall room brace hfront h).bind fun {found} hfound => ?_
    cases found with
    | none => exact ruleset_within hall hb stop brace hfront htail
    | some p =>
      obtain ⟨name, params, conditions⟩ := p
      obtain ⟨hparams, hconditions⟩ := hfound _ rfl
      refine (hb _ stop tail htail).bind ?_
      rintro ⟨ss, rest⟩ ⟨hss, hrest⟩
      exact ⟨.mixin hparams hconditions hss, hrest⟩

theorem media_draws : Draws all (Statement.Fit all) (media room body) := by
  intro stop ts h
  obtain ⟨hfront, htail⟩ := head_within h
  unfold media
  simp only
  split
  · trivial
  · refine (mediaQueriesIfAny_within hall room _ hfront).bind fun {queries} hqueries => ?_
    refine (hb _ stop _ htail).bind ?_
    rintro ⟨ss, rest⟩ ⟨hss, hrest⟩
    exact ⟨.media hqueries hss, hrest⟩

theorem definition_draws (name : String) :
    Draws all (Statement.Fit all) (definition room body name) := by
  intro stop ts h
  obtain ⟨hfront, htail⟩ := head_within h
  rw [definition]
  split
  · refine (hb _ stop ts h).bind ?_
    rintro ⟨ss, rest⟩ ⟨hss, hrest⟩
    exact ⟨.block hss, hrest⟩
  · refine (declarationValue_within hall room _ hfront).bind ?_
    rintro ⟨v?, important⟩ hv
    cases v? with
    | none => trivial
    | some v => exact (endStatement_within htail).bind fun hrest => ⟨.definition (hv v rfl), hrest⟩

theorem directive_draws {name : String} (hname : '\n' ∉ name.toList) :
    Draws all (Statement.Fit all) (directive room body name) := by
  intro stop ts h
  obtain ⟨hfront, htail⟩ := head_within h
  unfold directive
  simp only
  split
  · refine (hb _ stop _ htail).bind ?_
    rintro ⟨ss, rest⟩ ⟨hss, hrest⟩
    exact ⟨.blockDirective (by simpa using hname) hss, hrest⟩
  · refine (valueIfAny_within hall room _ hfront).bind fun {v?} hv => ?_
    exact (endStatement_within htail).bind fun hrest => ⟨.directive hv, hrest⟩

theorem atRule_draws {name : String} (hname : '\n' ∉ name.toList) :
    Draws all (Statement.Fit all) (atRule room body name) := by
  have hdirective : Draws all (Statement.Fit all) (directive room body name) :=
    directive_draws hall hb hname
  intro stop ts h
  unfold atRule
  simp only
  split
  · exact media_draws hall hb stop ts h
  · split
    · exact imported_draws hall room stop ts h
    · split
      · exact hdirective stop [] h
      · split
        · split
          · exact definition_draws hall hb name stop _ h.tail
          · exact hdirective stop _ h
        · split
          · exact blockCall_within hall room hname _ h.tail
          · exact hdirective stop _ h

theorem statement_within (stop : Token) {t : Token} (h : Within all (t :: ts)) :
    Yields (fun (s, rest) => Statement.Fit all s ∧ Within all rest)
      (statement room body stop t ts) := by
  unfold statement
  split
  · rename_i hl
    exact atRule_draws hall hb (h.oneLine hall hl) stop ts h.tail
  · split
    · rename_i front brace after hhead
      obtain ⟨hfront, htail⟩ := head_within h
      rw [hhead] at hfront htail
      split
      · exact withBody_within hall hb stop brace hfront htail h
      · exact simpleStatement_within hall room stop h
    · exact simpleStatement_within hall room stop h

theorem statements_draws :
    Draws all (fun ss => ∀ s ∈ ss, Statement.Fit all s) (statements room body) := by
  intro stop ts h
  induction hn : ts.length using Nat.strongRecOn generalizing ts with
  | ind n ih =>
    cases ts with
    | nil =>
      rw [statements]
      exact ⟨by simp, h⟩
    | cons t rest =>
      rw [statements]
      simp only [List.length_cons] at hn
      split
      · exact ⟨by simp, h⟩
      · split
        · refine (ih _ (by omega) rest h.tail rfl).map ?_
          rintro ⟨ss, after⟩ ⟨hss, hafter⟩
          exact ⟨List.forall_mem_cons.mpr ⟨.empty, hss⟩, hafter⟩
        · refine (statement_within hall hb stop h).bind ?_
          rintro ⟨s, after⟩ ⟨hs, hafter⟩
          by_cases hlength : after.length ≤ rest.length
          · simp only [if_pos hlength]
            refine (ih _ (by omega) after hafter rfl).map ?_
            rintro ⟨ss, last⟩ ⟨hss, hlast⟩
            exact ⟨List.forall_mem_cons.mpr ⟨hs, hss⟩, hlast⟩
          · simp only [if_neg hlength]
            exact ⟨by simpa using hs, hafter⟩

end Statements

section Bodies

omit hall in
theorem bodyWith_draws {inner : Deeper (Rule (List Statement))}
    (hi : Deeper.All (Draws all fun ss => ∀ s ∈ ss, Statement.Fit all s) inner) (o : Opening) :
    Draws all (fun ss => ∀ s ∈ ss, Statement.Fit all s) (bodyWith inner o) := by
  intro stop ts h
  cases ts with
  | nil => trivial
  | cons t rest =>
    simp only [bodyWith]
    split
    · trivial
    · refine (enter_yields hi _ _).bind fun {read} hread => ?_
      refine (hread stop rest h.tail).bind ?_
      rintro ⟨inside, after⟩ ⟨hinside, hafter⟩
      cases after with
      | nil => trivial
      | cons u after => exact ⟨hinside, hafter.tail⟩

include hall

theorem body_draws (room : Room) (o : Opening) :
    Draws all (fun ss => ∀ s ∈ ss, Statement.Fit all s) (body room o) := by
  induction room using Room.induction generalizing o with
  | step room ih =>
    rw [body_eq]
    refine bodyWith_draws (Room.below_all fun o inner hinner => ?_) o
    exact statements_draws hall (ih o inner hinner)

theorem sheet_within (room : Room) (stop : Token) (h : Within all ts) :
    Yields (fun sheet => ∀ s ∈ sheet, Statement.Fit all s) (sheet room stop ts) := by
  refine (statements_draws hall (body_draws hall room) stop ts h).bind ?_
  rintro ⟨inner, rest⟩ ⟨hinner, -⟩
  cases rest with
  | nil => exact hinner
  | cons t rest => trivial

end Bodies

end Grammar

/-- Every mark that a parsed stylesheet leaves has a key on one line, or one that was cut from the
tokens of its source. -/
theorem fit_of_parse {limit : Int} {source : String} {sheet : Sheet}
    (h : parse limit source = .ok sheet) :
    ∃ ts, tokenize source = .ok ts ∧ ∀ s ∈ sheet, s.Fit ts := by
  rw [parse_eq_ok, parseAt_eq] at h
  cases htokens : tokenize source with
  | error e =>
    rw [htokens] at h
    cases h
  | ok ts =>
    have hne : ts ≠ [] := tokensFrom_ne_nil htokens
    have hwithin : Within ts (splitEnd ts).1 := ⟨[], [(splitEnd ts).2], splitEnd_eq hne⟩
    have hfit := Grammar.sheet_within (tokenize_oneLine htokens) ⟨limit.toNat, stackCalls⟩
      (splitEnd ts).2 hwithin
    rw [htokens] at h
    change Grammar.sheet _ _ _ = _ at h
    rw [h] at hfit
    exact ⟨ts, rfl, hfit⟩

end StyleTally.Stylesheet
