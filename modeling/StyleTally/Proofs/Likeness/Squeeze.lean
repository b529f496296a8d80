import StyleTally.Proofs.Lexer.Squeeze
import StyleTally.Proofs.Likeness.Statement
import StyleTally.Stylesheet.Parse

/-!
# Parsing with line feeds for gaps

Comments and blank space are one as good as the other: a stylesheet with a line feed in the place of
every gap parses to the same tree, but for the gaps within texts that are cut from the source, or is
refused for the same reason.
-/

namespace StyleTally.Stylesheet

/-- The token with a line feed for its gap. -/
def Token.squeeze (t : Token) : Token := { t with gap := t.squeezedGap }

/-- Two texts cut from the same tokens, one with their gaps and one with line feeds instead. -/
def Excerpt.Squeezed (ts : List Token) (kind : Excerpt) (s t : String) : Prop :=
  ∃ vs, vs ⊆ ts ∧ kind.Spans vs ∧ s = Grammar.textOf vs ∧ t = Grammar.textOf (vs.map Token.squeeze)

/-- Refusals that differ in nothing but the line. -/
inductive Refusal.SameReason : Refusal → Refusal → Prop
  | malformed (cause : Cause) (l m : Nat) : SameReason (.malformed cause l) (.malformed cause m)
  | beyondLimit (limit : Int) (l m : Nat) : SameReason (.beyondLimit limit l) (.beyondLimit limit m)
  | exhausted : SameReason .exhausted .exhausted

theorem spannedChars_squeeze {ts us : List Token} (h : List.Forall₂ Token.Squeezed ts us) :
    spannedChars (ts.map Token.squeeze) = spannedChars us := by
  cases h with
  | nil => rfl
  | @cons t u ts us ht hts =>
    have hrest : (ts.map Token.squeeze).flatMap (fun t => t.gap ++ t.text) =
        us.flatMap fun u => u.gap ++ u.text := by
      induction hts with
      | nil => rfl
      | cons ht _ ih =>
        obtain ⟨-, htext, hgap⟩ := ht
        rw [List.map_cons, List.flatMap_cons, List.flatMap_cons, ih, htext, hgap]
        rfl
    rw [List.map_cons, spannedChars, spannedChars, hrest, ht.2.1]
    rfl

/-- Tokens among the given ones, and the same tokens behind line feeds. -/
def Likeness.squeezed (ts : List Token) : Likeness where
  token t u := t ∈ ts ∧ t.Squeezed u
  line _ _ := True
  text := Excerpt.Squeezed ts
  lenient := False
  exhaustible := True
  lexeme_eq h := h.2.1.symm
  spaced_eq h := h.2.spaced_eq.symm
  line_of _ := True.intro
  text_of := by
    intro kind vs us hspans h
    have hmem : vs ⊆ ts := by
      clear hspans
      induction h with
      | nil => exact List.nil_subset ts
      | cons ht _ ih => exact List.cons_subset.mpr ⟨ht.1, ih⟩
    have hall : List.Forall₂ Token.Squeezed vs us := h.imp fun _ _ h => h.2
    refine ⟨vs, hmem, hspans, rfl, ?_⟩
    rw [Grammar.textOf, Grammar.textOf, spannedChars_squeeze hall]

theorem splitEnd_forall₂ {R : Token → Token → Prop} {ts us : List Token}
    (h : List.Forall₂ R ts us) (hts : ts ≠ []) :
    List.Forall₂ R (splitEnd ts).1 (splitEnd us).1 ∧ R (splitEnd ts).2 (splitEnd us).2 := by
  induction h with
  | nil => exact absurd rfl hts
  | @cons t u ts us ht hall ih =>
    cases hall with
    | nil => exact ⟨.nil, ht⟩
    | cons ht' hall' =>
      obtain ⟨hfront, hstop⟩ := ih (by simp)
      rw [splitEnd_cons t (by simp), splitEnd_cons u (by simp)]
      exact ⟨.cons ht hfront, hstop⟩

theorem tokens_squeezed {all ts us : List Token} (h : List.Forall₂ Token.Squeezed ts us)
    (hall : ts ⊆ all) : (Likeness.squeezed all).Tokens ts us := by
  induction h with
  | nil => exact .nil
  | cons ht _ ih =>
    obtain ⟨hmem, hrest⟩ := List.cons_subset.mp hall
    exact .cons ⟨hmem, ht⟩ (ih hrest)

theorem map_squeezed {ts us : List Token} (h : List.Forall₂ Token.Squeezed ts us) :
    us.map (fun u => (u.lexeme, u.spaced)) = ts.map fun t => (t.lexeme, t.spaced) := by
  induction h with
  | nil => rfl
  | cons ht _ ih => rw [List.map_cons, List.map_cons, ih, ht.1, ht.spaced_eq]

/-- Two parses that give trees alike but for gaps, or refuse for the same reason. -/
inductive SameParse (ts : List Token) : Except Refusal Sheet → Except Refusal Sheet → Prop
  | ok {sheet sheet' : Sheet} (h : Statement.LikeAll (Excerpt.Squeezed ts) sheet sheet') :
    SameParse ts (.ok sheet) (.ok sheet')
  | error {e e' : Refusal} (h : e.SameReason e') : SameParse ts (.error e) (.error e')

theorem parse_sameParse {source source' : String} {ts us : List Token}
    (hsource : tokenize source = .ok ts) (hsource' : tokenize source' = .ok us)
    (h : List.Forall₂ Token.Squeezed ts us) (hts : ts ≠ []) (limit : Int) :
    SameParse ts (parse limit source) (parse limit source') := by
  obtain ⟨hfront, hstop⟩ := splitEnd_forall₂ (tokens_squeezed h (List.Subset.refl ts)) hts
  have hlike := Likeness.sheet (.same trivial ⟨limit.toNat, stackCalls⟩) hstop hfront
  rw [parse, parse, parseOn, parseOn, parseAt_eq, parseAt_eq, hsource, hsource']
  change SameParse ts ((Grammar.sheet _ _ _).mapError _) ((Grammar.sheet _ _ _).mapError _)
  generalize Grammar.sheet _ _ (splitEnd ts).1 = x at hlike
  generalize Grammar.sheet _ _ (splitEnd us).1 = y at hlike
  cases hlike with
  | ok h => exact .ok h
  | malformed cause => exact .error (.malformed cause _ _)
  | tooDeep => exact .error (.beyondLimit limit _ _)
  | overflow _ => exact .error .exhausted
  | lenient h => exact h.elim

/-- A stylesheet with a line feed in the place of every gap has the same tokens as before, and at
every limit it parses to the same tree, but for the gaps in texts cut from it, or is refused for the
same reason. -/
theorem parse_squeezed {source : String} {ts : List Token} (h : tokenize source = .ok ts) :
    ∃ us, tokenize (squeezed ts) = .ok us ∧
      us.map (fun u => (u.lexeme, u.spaced)) = ts.map (fun t => (t.lexeme, t.spaced)) ∧
      ∀ limit, SameParse ts (parse limit source) (parse limit (squeezed ts)) := by
  obtain ⟨us, hus, hsqueezed⟩ := tokenize_squeezed h
  exact ⟨us, hus, map_squeezed hsqueezed, parse_sameParse h hus hsqueezed (tokensFrom_ne_nil h)⟩

/-- A ruleset with comments of both sorts. -/
theorem parse_squeezed_ruleset : ∃ ts us, tokenize "a/* */ b\x7bc:1//d\n\x7d" = .ok ts ∧
    squeezed ts = "a\nb\x7bc:1\n\x7d" ∧ tokenize (squeezed ts) = .ok us ∧
      us.map (fun u => (u.lexeme, u.spaced)) = ts.map (fun t => (t.lexeme, t.spaced)) ∧
      ∀ limit, SameParse ts (parse limit "a/* */ b\x7bc:1//d\n\x7d") (parse limit (squeezed ts)) := by
  have hsqueezed : (tokenize "a/* */ b\x7bc:1//d\n\x7d").toOption.map squeezed =
      some "a\nb\x7bc:1\n\x7d" := by
    decide +kernel
  cases htokens : tokenize "a/* */ b\x7bc:1//d\n\x7d" with
  | error e =>
    rw [htokens] at hsqueezed
    cases hsqueezed
  | ok ts =>
    rw [htokens] at hsqueezed
    obtain ⟨us, hus⟩ := parse_squeezed htokens
    exact ⟨ts, us, rfl, Option.some.inj hsqueezed, hus⟩

end StyleTally.Stylesheet
