import Mathlib.Data.List.Forall2
import StyleTally.Proofs.Lexer.Replace

/-!
# Gaps as line feeds

A text with a line feed in the place of every gap has the same tokens. A token depends on the
characters up to the next gap and on nothing in the gap or behind it, and what reads on over a line
feed reads on to the end of the text as well.
-/

namespace StyleTally.Stylesheet

open Text

/-- A text that is empty or opens with a line feed. -/
def Broken (cs : List Char) : Prop := ∀ z more, cs = z :: more → z = '\n'

/-- A line feed can take the place of any gap, and so can the end of the text. -/
theorem Loose.replaceable {loose broken : List Char} (hloose : Loose loose) (hbroken : Broken broken) :
    Replaceable loose broken := by
  refine ⟨hloose.halting, .inr fun z hz => ?_, ?_⟩
  · obtain ⟨more, rfl⟩ := List.head?_eq_some_iff.mp hz
    exact .inl (hbroken z more rfl)
  · cases broken with
    | nil => rfl
    | cons z more =>
      obtain rfl := hbroken z more rfl
      simp [interpolation?]

/-- Of the gap in front of it a lexeme takes only whether there is one. -/
theorem lexemeAt_spaced {gap gap' : List Char} (h : gap.isEmpty = gap'.isEmpty)
    (previous : Option Token) (c : Char) (cs : List Char) :
    lexemeAt previous gap c cs = lexemeAt previous gap' c cs := by
  simp only [lexemeAt, h]

namespace Token

/-- A line feed for a gap, and nothing where there is none. -/
def squeezedGap (t : Token) : List Char := if t.gap.isEmpty then [] else ['\n']

/-- A token and the same token behind a line feed instead of its gap, in some other place. -/
def Squeezed (t u : Token) : Prop := u.lexeme = t.lexeme ∧ u.text = t.text ∧ u.gap = t.squeezedGap

theorem isEmpty_squeezedGap (t : Token) : t.squeezedGap.isEmpty = t.gap.isEmpty := by
  unfold squeezedGap
  split <;> simp_all

theorem squeezedGap_broken (t : Token) : Broken t.squeezedGap := by
  intro z more h
  unfold squeezedGap at h
  split at h
  · cases h
  · cases h
    rfl

theorem Squeezed.spaced_eq {t u : Token} (h : Squeezed t u) : u.spaced = t.spaced := by
  rw [spaced, spaced, h.2.2, isEmpty_squeezedGap]

theorem Squeezed.sameContext {t u : Token} (h : Squeezed t u) : SameContext (some t) (some u) := by
  constructor
  · rw [Option.any_some, Option.any_some, h.2.1]
  · intro spaced
    rw [signBinds, signBinds, h.1]

end Token

/-- The text of tokens with a line feed for every gap. -/
def squeezedChars (ts : List Token) : List Char := ts.flatMap fun t => t.squeezedGap ++ t.text

/-- The stylesheet of tokens with a line feed for every gap. -/
def squeezed (ts : List Token) : String := String.ofList (squeezedChars ts)

section Tokens

variable {line start line' start' : Nat} {previous previous' : Option Token} {cs : List Char}
  {t : Token} {ts : List Token}

theorem gapFrom_squeezedGap (t : Token) {cs : List Char}
    (h : ∀ line, gapFrom line .blank cs = .ok ([], cs)) (line : Nat) :
    gapFrom line .blank (t.squeezedGap ++ cs) = .ok (t.squeezedGap, cs) := by
  unfold Token.squeezedGap
  split
  · exact h line
  · have hblank : isBlank '\n' = true := by decide
    have hslash (ds : List Char) (heq : '\n' = '/') : ¬ cs = ds := absurd heq (by decide)
    rw [List.singleton_append, gapFrom_blank (fun ds => hslash _) (fun ds => hslash _),
      if_pos hblank, h]
    rfl

/-- A token reads the same behind a line feed instead of its gap and in front of a line feed instead
of the next gap. -/
theorem nextToken_squeezed {glued loose broken : List Char}
    (h : nextToken line start previous cs = .ok (t, glued ++ loose)) (htext : t.text ≠ [])
    (hcontext : SameContext previous previous') (hloose : Loose loose) (hbroken : Broken broken)
    (line' start' : Nat) :
    ∃ u, nextToken line' start' previous' (t.squeezedGap ++ t.text ++ (glued ++ broken)) =
      .ok (u, glued ++ broken) ∧ t.Squeezed u := by
  obtain ⟨c, body, hcs, hgap, hlexeme⟩ := nextToken_cases h htext
  obtain ⟨hblank, hblock, hline⟩ := gapFrom_rest hgap
  have hreplace := hloose.replaceable hbroken
  have hlexeme' : lexemeAt previous' t.squeezedGap c (body ++ (glued ++ broken)) =
      .ok (t.lexeme, body.length) := by
    rw [← List.append_assoc] at hlexeme ⊢
    rw [← lexemeAt_congr hcontext, lexemeAt_spaced t.isEmpty_squeezedGap]
    exact lexemeAt_replaced hreplace hlexeme (by simp)
  have hsolid (line : Nat) : gapFrom line .blank (c :: (body ++ (glued ++ broken))) =
      .ok ([], c :: (body ++ (glued ++ broken))) := by
    rw [← List.append_assoc] at hblock hline ⊢
    rw [gapFrom_blank (hreplace.not_joined (by decide) (by decide) hblock)
      (hreplace.not_joined (by decide) (by decide) hline), hblank]
    rfl
  have hgap' := gapFrom_squeezedGap t hsolid line'
  rw [hcs]
  refine ⟨_, nextToken_of (by simpa using hgap') hlexeme', rfl, ?_, rfl⟩
  exact hcs.symm

/-- A text and the same text with line feeds for gaps agree up to the first gap. -/
theorem tokensFrom_glued (h : tokensFrom line start previous cs = .ok ts) :
    ∃ glued loose broken, cs = glued ++ loose ∧ squeezedChars ts = glued ++ broken ∧ Loose loose ∧
      Broken broken := by
  induction hn : cs.length using Nat.strongRecOn generalizing line start previous cs ts with
  | ind n ih =>
    obtain ⟨t, rest, hnext, hcases⟩ := tokensFrom_cases h
    obtain ⟨hcs, hend, -⟩ := nextToken_spec hnext
    have hloose := isGap_loose (nextToken_spelled hnext).1
    cases hcases with
    | inl hlast =>
      obtain ⟨htext, rfl⟩ := hlast
      refine ⟨[], t.gap, t.squeezedGap, ?_, ?_, hloose, t.squeezedGap_broken⟩
      · simp [hcs, htext, hend htext]
      · simp [squeezedChars, htext]
    | inr hmore =>
      obtain ⟨htext, hshorter, us, htail, rfl⟩ := hmore
      have hsqueezed : squeezedChars (t :: us) = t.squeezedGap ++ t.text ++ squeezedChars us := rfl
      by_cases hgap : t.gap = []
      · obtain ⟨glued, loose, broken, hrest, hus, hl, hb⟩ := ih _ (hn ▸ hshorter) htail rfl
        refine ⟨t.text ++ glued, loose, broken, ?_, ?_, hl, hb⟩
        · simp [hcs, hgap, hrest]
        · simp [hsqueezed, Token.squeezedGap, hgap, hus]
      · refine ⟨[], cs, squeezedChars (t :: us), rfl, rfl, ?_, ?_⟩
        · intro z more hz
          obtain ⟨d, gap, hd⟩ := List.exists_cons_of_ne_nil hgap
          rw [hcs, hd] at hz
          obtain ⟨rfl, -⟩ := List.cons.inj hz
          exact hloose d gap hd
        · intro z more hz
          rw [hsqueezed, Token.squeezedGap, if_neg (by simpa using hgap)] at hz
          exact (List.cons.inj hz).1.symm

theorem nextToken_end (h : nextToken line start previous cs = .ok (t, [])) (htext : t.text = [])
    (previous' : Option Token) (line' start' : Nat) :
    ∃ u, nextToken line' start' previous' t.squeezedGap = .ok (u, []) ∧ t.Squeezed u := by
  have hnil (line : Nat) : gapFrom line .blank [] = .ok ([], []) := rfl
  have hgap := gapFrom_squeezedGap t hnil line'
  have hlexeme := (nextToken_spelled h).2.2.mp htext
  rw [List.append_nil] at hgap
  refine ⟨⟨.endOfInput, t.squeezedGap, [], linesAfter line' t.squeezedGap,
    start' + t.squeezedGap.length⟩, ?_, hlexeme.symm, htext.symm, rfl⟩
  unfold nextToken
  rw [hgap]

/-- The tokens of a text are those of the text with line feeds for gaps. -/
theorem tokensFrom_squeezed (h : tokensFrom line start previous cs = .ok ts)
    (hcontext : SameContext previous previous') (line' start' : Nat) :
    ∃ us, tokensFrom line' start' previous' (squeezedChars ts) = .ok us ∧
      List.Forall₂ Token.Squeezed ts us := by
  induction hn : cs.length using Nat.strongRecOn
    generalizing line start previous cs ts line' start' previous' with
  | ind n ih =>
    obtain ⟨t, rest, hnext, hcases⟩ := tokensFrom_cases h
    cases hcases with
    | inl hlast =>
      obtain ⟨htext, rfl⟩ := hlast
      rw [(nextToken_spec hnext).2.1 htext] at hnext
      obtain ⟨u, hu, hsqueezed⟩ := nextToken_end hnext htext previous' line' start'
      refine ⟨[u], ?_, .cons hsqueezed .nil⟩
      have hchars : squeezedChars [t] = t.squeezedGap := by simp [squeezedChars, htext]
      have hempty : u.text = [] := hsqueezed.2.1.trans htext
      rw [hchars, tokensFrom_eq, hu]
      simp only [Except.bind, if_pos hempty]
    | inr hmore =>
      obtain ⟨htext, hshorter, us, htail, rfl⟩ := hmore
      obtain ⟨glued, loose, broken, rfl, hus, hloose, hbroken⟩ := tokensFrom_glued htail
      obtain ⟨u, hu, hsqueezed⟩ :=
        nextToken_squeezed hnext htext hcontext hloose hbroken line' start'
      obtain ⟨vs, hvs, hall⟩ := ih _ (hn ▸ hshorter) htail hsqueezed.sameContext
        (linesAfter u.line u.text) u.stop rfl
      refine ⟨u :: vs, ?_, .cons hsqueezed hall⟩
      have hchars : squeezedChars (t :: us) = t.squeezedGap ++ t.text ++ (glued ++ broken) := by
        rw [← hus]
        rfl
      have hnonempty : u.text ≠ [] := hsqueezed.2.1 ▸ htext
      rw [hchars, tokensFrom_eq, hu]
      simp only [Except.bind, if_neg hnonempty, ← hus, hvs]
      rfl

/-- A stylesheet reads as the same tokens with a line feed in the place of every gap. -/
theorem tokenize_squeezed {source : String} (h : tokenize source = .ok ts) :
    ∃ us, tokenize (squeezed ts) = .ok us ∧ List.Forall₂ Token.Squeezed ts us := by
  rw [tokenize, squeezed, String.toList_ofList]
  exact tokensFrom_squeezed h ⟨rfl, fun _ => rfl⟩ 1 0

end Tokens

end StyleTally.Stylesheet
