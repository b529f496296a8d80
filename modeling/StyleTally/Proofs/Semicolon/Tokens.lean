import StyleTally.Proofs.Lexer.Replace

/-!
# The tokens around a semicolon

A semicolon that is written behind a semicolon or a brace is one more token, and the tokens behind
it are those from before, one character further on. A semicolon that gives way to a space joins the
gap of the next token, if that is a closing brace or the end.
-/

namespace StyleTally.Stylesheet

open Text

/-- A stylesheet with a semicolon at an offset. -/
def withSemicolon (source : String) (n : Nat) : String :=
  String.ofList (source.toList.take n ++ ';' :: source.toList.drop n)

/-- A stylesheet with a space for the character at an offset. -/
def withSpace (source : String) (n : Nat) : String := String.ofList (source.toList.set n ' ')

section Gaps

variable {lead : List Char} {z : Char}

theorem IsLead.concat (h : IsLead lead) (hz : isBlank z = true) : IsLead (lead ++ [z]) := by
  induction h with
  | nil => exact .blank hz .nil
  | blank hc _ ih => exact .blank hc ih
  | block hbody _ ih =>
    rw [List.cons_append, List.cons_append, List.append_assoc]
    exact .block hbody ih
  | line hbody _ ih =>
    rw [List.cons_append, List.cons_append, List.append_assoc]
    exact .line hbody ih

end Gaps

section Tokens

variable {line start : Nat} {previous : Option Token} {cs after : List Char} {t : Token}
  {ts us : List Token} {z : Char}

/-- One semicolon more behind a semicolon or a brace. -/
theorem tokensFrom_semicolon (h : tokensFrom line start previous cs = .ok (t :: us))
    (ht : t.lexeme = .delim z) (hz : z = ';' ∨ z = '}' ∨ z = '{') :
    ∃ after, cs = t.gap ++ z :: after ∧ t.stop = start + t.gap.length + 1 ∧
      Replaceable cs (t.gap ++ z :: ';' :: after) ∧
      tokensFrom line start previous (t.gap ++ z :: ';' :: after) =
        .ok (t :: ⟨.delim ';', [], [';'], t.line, t.stop⟩ :: us.map (Token.moved 0 1)) := by
  obtain ⟨u, after, hnext, hcases⟩ := tokensFrom_cases h
  rcases hcases with ⟨htext, heq⟩ | ⟨htext, -, vs, htail, heq⟩
  · obtain ⟨rfl, -⟩ := List.cons.inj heq
    rw [nextToken_delim hnext ht] at htext
    cases htext
  · obtain ⟨rfl, rfl⟩ := List.cons.inj heq
    obtain ⟨rfl, hchars, -, hgap, hread⟩ := nextToken_bound hnext ht hz
    have hstop : Stop z := by rcases hz with rfl | rfl | rfl <;> decide
    have hstart := (nextToken_spec hnext).2.2.2
    refine ⟨after, rfl, by rw [Token.stop, hstart, hchars]; rfl, ?_, ?_⟩
    · apply (isGap_loose hgap).replaceable_bound hstop
      rcases hz with rfl | rfl | rfl <;> rfl
    · let semicolon : Token := ⟨.delim ';', [], [';'], t.line, t.stop⟩
      have hlines : linesAfter t.line t.text = t.line := by
        rw [hchars]
        rcases hz with rfl | rfl | rfl <;> rfl
      have hread' : gapFrom t.line .blank (';' :: after) = .ok ([], ';' :: ([] ++ after)) := rfl
      have hsemicolon : nextToken t.line t.stop (some t) (';' :: after) = .ok (semicolon, after) :=
        nextToken_of hread' (lexemeAt_bound (.inl rfl) _)
      have hfresh := sameContext_bound ht hchars hz
      have hfresh' : SameContext none (some semicolon) := sameContext_bound rfl rfl (.inl rfl)
      have hcontext : SameContext (some t) (some semicolon) :=
        ⟨hfresh.1.symm.trans hfresh'.1, fun s => (hfresh.2 s).symm.trans (hfresh'.2 s)⟩
      have hmoved := tokensFrom_moved 0 1 hcontext t.line t.stop after
      rw [hlines] at htail
      rw [htail] at hmoved
      have hrest : tokensFrom t.line t.stop (some t) (';' :: after) =
          .ok (semicolon :: us.map (Token.moved 0 1)) := by
        rw [tokensFrom_eq, hsemicolon]
        change (tokensFrom t.line (t.stop + 1) (some semicolon) after).map _ = _
        rw [Nat.add_zero] at hmoved
        rw [hmoved]
        rfl
      rw [tokensFrom_eq, hread]
      simp only [Except.bind, if_neg htext, hlines, hrest]
      rfl

/-- Behind a lead a closing brace, or the end, is the same token with the lead in its gap. -/
theorem nextToken_behind {lead : List Char} (hlead : IsLead lead)
    (h : nextToken (linesAfter line lead) (start + lead.length) previous cs = .ok (t, after))
    (ht : t.lexeme = .delim '}' ∨ t.lexeme = .endOfInput) (previous' : Option Token) :
    nextToken line start previous' (lead ++ cs) = .ok (t.behind lead, after) := by
  have hlines (gap : List Char) : linesAfter line (lead ++ gap) = linesAfter (linesAfter line lead) gap :=
    linesAfter_append line lead gap
  have hstart (gap : List Char) : start + (lead ++ gap).length = start + lead.length + gap.length := by
    rw [List.length_append]
    omega
  unfold nextToken at h ⊢
  rw [gapFrom_lead hlead]
  cases hgap : gapFrom (linesAfter line lead) .blank cs with
  | error e =>
    rw [hgap] at h
    cases h
  | ok p =>
    obtain ⟨gap, rest⟩ := p
    rw [hgap] at h
    rw [gapFrom.skip_ok]
    cases rest with
    | nil =>
      cases h
      simp only [hlines, hstart]
      rfl
    | cons c rest =>
      simp only at h ⊢
      cases hlexeme : lexemeAt previous gap c rest with
      | error cause =>
        rw [hlexeme] at h
        cases h
      | ok found =>
        obtain ⟨lexeme, n⟩ := found
        rw [hlexeme] at h
        cases h
        have hspelled := (lexemeAt_spelled hlexeme).2
        rcases ht with rfl | rfl
        · obtain ⟨rfl, rfl⟩ := lexemeAt_delim hlexeme
          simp only [lexemeAt_bound (.inr (.inl rfl)), hlines, hstart]
          rfl
        · cases hspelled

/-- A space for a semicolon in front of a closing brace or the end. -/
theorem tokensFrom_space {semicolon : Token}
    (h : tokensFrom line start previous cs = .ok (semicolon :: t :: us))
    (hsemicolon : semicolon.lexeme = .delim ';') (ht : t.lexeme = .delim '}' ∨ t.lexeme = .endOfInput) :
    ∃ after, cs = semicolon.gap ++ ';' :: after ∧ semicolon.start = start + semicolon.gap.length ∧
      Replaceable cs (semicolon.gap ++ ' ' :: after) ∧
      tokensFrom line start previous (semicolon.gap ++ ' ' :: after) =
        .ok (t.behind (semicolon.gap ++ [' ']) :: us) := by
  obtain ⟨u, after, hnext, hcases⟩ := tokensFrom_cases h
  rcases hcases with ⟨htext, heq⟩ | ⟨htext, -, vs, htail, heq⟩
  · cases heq
  · obtain ⟨rfl, rfl⟩ := List.cons.inj heq
    obtain ⟨rfl, hchars, hlead, hgap, -⟩ := nextToken_bound hnext hsemicolon (.inl rfl)
    obtain ⟨-, -, hline, hstart⟩ := nextToken_spec hnext
    refine ⟨after, rfl, hstart, ?_, ?_⟩
    · have hold : Halting (';' :: after) := by
        intro z hz
        cases hz
        exact stop_semicolon
      have hloose := isGap_loose hgap
      refine ⟨hloose.halting_append hold, ?_, hloose.no_interpolation (by simp [interpolation?])⟩
      cases hgaps : semicolon.gap with
      | nil => exact .inr fun z hz => .inr ⟨by cases hz; rfl, ';', rfl, by decide⟩
      | cons d gap => exact .inl rfl
    · have hlead' : IsLead (semicolon.gap ++ [' ']) := hlead.concat (by decide)
      obtain ⟨v, rest, hnext', hcases'⟩ := tokensFrom_cases htail
      have hv : v = t := by
        rcases hcases' with ⟨-, heq⟩ | ⟨-, -, ws, -, heq⟩
        · exact (List.cons.inj heq).1.symm
        · exact (List.cons.inj heq).1.symm
      obtain rfl := hv
      have hlines : linesAfter semicolon.line semicolon.text =
          linesAfter line (semicolon.gap ++ [' ']) := by
        rw [linesAfter_append, hchars, hline]
        rfl
      have hstop : semicolon.stop = start + (semicolon.gap ++ [' ']).length := by
        rw [Token.stop, hchars, hstart, List.length_append]
        simp only [List.length_singleton]
        omega
      rw [hlines, hstop] at hnext'
      have hbehind := nextToken_behind hlead' hnext' ht previous
      have hcontext : SameContext (some v) (some (v.behind (semicolon.gap ++ [' ']))) :=
        ⟨rfl, fun _ => rfl⟩
      have hsplit : semicolon.gap ++ ' ' :: after = semicolon.gap ++ [' '] ++ after := by simp
      have hsame : (v.behind (semicolon.gap ++ [' '])).text = v.text ∧
          (v.behind (semicolon.gap ++ [' '])).line = v.line ∧
          (v.behind (semicolon.gap ++ [' '])).stop = v.stop := ⟨rfl, rfl, rfl⟩
      rw [hsplit, tokensFrom_eq, hbehind]
      simp only [Except.bind, hsame, tokensFrom_congr hcontext]
      rcases hcases' with ⟨htext', heq⟩ | ⟨htext', -, ws, htail', heq⟩
      · obtain ⟨-, rfl⟩ := List.cons.inj heq
        rw [if_pos htext']
      · obtain ⟨-, rfl⟩ := List.cons.inj heq
        rw [if_neg htext', htail']
        rfl

end Tokens

section Sources

variable {source : String} {front us : List Token} {t : Token}

/-- The tokens of a stylesheet with one semicolon more. -/
theorem tokenize_withSemicolon {z : Char} (h : tokenize source = .ok (front ++ t :: us))
    (ht : t.lexeme = .delim z) (hz : z = ';' ∨ z = '}' ∨ z = '{') :
    tokenize (withSemicolon source t.stop) =
      .ok (front ++ t :: ⟨.delim ';', [], [';'], t.line, t.stop⟩ :: us.map (Token.moved 0 1)) := by
  obtain ⟨previous, old, hsource, hold, hnew⟩ := tokensFrom_replaced h (by simp)
  obtain ⟨after, rfl, hstop, hreplace, htokens⟩ := tokensFrom_semicolon hold ht hz
  have hchars : (withSemicolon source t.stop).toList =
      charsOf front ++ (t.gap ++ z :: ';' :: after) := by
    have hcut : source.toList = charsOf front ++ t.gap ++ [z] ++ after := by simp [hsource]
    have hlength : t.stop = (charsOf front ++ t.gap ++ [z]).length := by
      rw [hstop]
      simp only [List.length_append, List.length_singleton]
      omega
    rw [withSemicolon, String.toList_ofList, hcut, hlength, List.take_left, List.drop_left]
    simp
  rw [tokenize, hchars, hnew _ hreplace, htokens]
  rfl

/-- The tokens of a stylesheet with a space for a semicolon in front of a closing brace or the
end. -/
theorem tokenize_withSpace {semicolon : Token}
    (h : tokenize source = .ok (front ++ semicolon :: t :: us))
    (hsemicolon : semicolon.lexeme = .delim ';') (ht : t.lexeme = .delim '}' ∨ t.lexeme = .endOfInput) :
    tokenize (withSpace source semicolon.start) =
      .ok (front ++ t.behind (semicolon.gap ++ [' ']) :: us) := by
  obtain ⟨previous, old, hsource, hold, hnew⟩ := tokensFrom_replaced h (by simp)
  obtain ⟨after, rfl, hstart, hreplace, htokens⟩ := tokensFrom_space hold hsemicolon ht
  have hchars : (withSpace source semicolon.start).toList =
      charsOf front ++ (semicolon.gap ++ ' ' :: after) := by
    have hcut : source.toList = charsOf front ++ semicolon.gap ++ ';' :: after := by simp [hsource]
    have hlength : semicolon.start = (charsOf front ++ semicolon.gap).length := by
      rw [hstart, List.length_append]
      omega
    rw [withSpace, String.toList_ofList, hcut, hlength, List.set_append_right _ _ (Nat.le_refl _),
      Nat.sub_self, List.set_cons_zero, List.append_assoc]
  rw [tokenize, hchars, hnew _ hreplace, htokens]
  rfl

end Sources

end StyleTally.Stylesheet
