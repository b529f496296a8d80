import StyleTally.Proofs.Lexer.Runs

/-!
# The lexer by its first character

What each reader makes of the first characters of a text and leaves to the rest. A semicolon or a
brace is a token of its own wherever a token opens, and no other token is a single delimiter that is
not the character it opens with.
-/

namespace StyleTally.Stylesheet

open Text

section Runs

theorem escapedRun_cons {p : Char → Bool} {c : Char} (hc : c ≠ '\\') (cs : List Char) :
    escapedRun p (c :: cs) = if p c then escapedRun p cs + 1 else 0 := by
  rw [escapedRun.eq_def]
  split
  · rename_i heq
    cases heq
  · rename_i heq
    cases heq
    exact absurd rfl hc
  · rename_i heq
    cases heq
    rfl

end Runs

section Bodies

theorem stringBody?_cons {c : Char} (hc : c ≠ '\\') (quote : Char) (cs : List Char) :
    stringBody? quote (c :: cs) =
      if c == quote then some []
      else if c == '\n' && quote != '\x60' then none
      else (stringBody? quote cs).map (c :: ·) := by
  rw [stringBody?.eq_def]
  split
  · rename_i heq
    cases heq
  · rename_i heq
    cases heq
    exact absurd rfl hc
  · rename_i heq
    cases heq
    exact absurd rfl hc
  · rename_i heq
    cases heq
    rfl

/-- What is not the backslash of an escape, at the end of a text or before a character. -/
theorem ne_backslash {c : Char} {cs : List Char} (hlast : c = '\\' → cs = [] → False)
    (hescape : ∀ d ds, c = '\\' → cs = d :: ds → False) : c ≠ '\\' := by
  intro hc
  cases cs with
  | nil => exact hlast hc rfl
  | cons d ds => exact hescape d ds hc rfl

/-- The contents of a string do not depend on what follows the closing quote. -/
theorem stringBody?_append {quote : Char} {cs body : List Char}
    (h : stringBody? quote cs = some body) (more : List Char) :
    stringBody? quote (cs ++ more) = some body := by
  fun_induction stringBody? quote cs generalizing body with
  | case1 => cases h
  | case2 => cases h
  | case3 c cs ih =>
    obtain ⟨body', hbody, rfl⟩ := Option.map_eq_some_iff.mp h
    simp [stringBody?, ih hbody]
  | case4 c cs hlast hescape hquote =>
    cases h
    rw [List.cons_append, stringBody?_cons (ne_backslash hlast hescape), if_pos hquote]
  | case5 => cases h
  | case6 c cs hlast hescape hquote hline ih =>
    obtain ⟨body', hbody, rfl⟩ := Option.map_eq_some_iff.mp h
    rw [List.cons_append, stringBody?_cons (ne_backslash hlast hescape), if_neg hquote,
      if_neg hline, ih hbody]
    rfl

theorem urlBody?_cons_some {c : Char} (hc : c ≠ '\\') (quote : Char) (cs : List Char) :
    urlBody? (some quote) (c :: cs) =
      (urlBody? (if c == quote then none else some quote) cs).map (c :: ·) := by
  rw [urlBody?.eq_def]
  split <;> simp_all

theorem urlBody?_cons_none {c : Char} (hc : c ≠ '\\') (cs : List Char) :
    urlBody? none (c :: cs) =
      if c == ')' then some []
      else (urlBody? (if c == '"' || c == '\'' then some c else none) cs).map (c :: ·) := by
  rw [urlBody?.eq_def]
  split <;> simp_all

/-- The contents of a URL do not depend on what follows the closing parenthesis. -/
theorem urlBody?_append {open? : Option Char} {cs body : List Char}
    (h : urlBody? open? cs = some body) (more : List Char) :
    urlBody? open? (cs ++ more) = some body := by
  fun_induction urlBody? open? cs generalizing body with
  | case1 => cases h
  | case2 => cases h
  | case3 open? c cs ih =>
    obtain ⟨body', hbody, rfl⟩ := Option.map_eq_some_iff.mp h
    simp [urlBody?, ih hbody]
  | case4 quote c cs hlast hescape ih =>
    obtain ⟨body', hbody, rfl⟩ := Option.map_eq_some_iff.mp h
    rw [List.cons_append, urlBody?_cons_some (ne_backslash hlast hescape), ih hbody]
    rfl
  | case5 c cs hlast hescape hclose =>
    cases h
    rw [List.cons_append, urlBody?_cons_none (ne_backslash hlast hescape), if_pos hclose]
  | case6 c cs hlast hescape hclose ih =>
    obtain ⟨body', hbody, rfl⟩ := Option.map_eq_some_iff.mp h
    rw [List.cons_append, urlBody?_cons_none (ne_backslash hlast hescape), if_neg hclose,
      ih hbody]
    rfl

end Bodies

section Names

theorem undashedLength?_cons {c : Char} (hc : c ≠ '\\') (cs : List Char) :
    undashedLength? (c :: cs) =
      if isIdentStart c then some (1 + escapedRun isIdentChar cs) else none := by
  simp [undashedLength?, hc]

end Names

section Lexemes

variable {previous : Option Token} {gap : List Char}

theorem plainAt_bound {z : Char} (hz : z = ';' ∨ z = '}' ∨ z = '{') (spaced : Bool)
    (more : List Char) : plainAt previous spaced z more = (.delim z, 0) := by
  have hstop : Stop z := by
    rcases hz with rfl | rfl | rfl
    · exact stop_semicolon
    · exact stop_brace
    · exact stop_open
  have hrange : unicodeRangeLength? (z :: more) = none := hstop.unicodeRangeLength? [] more
  have hnumber : number? previous spaced (z :: more) = none := hstop.number? previous spaced [] more
  have hfilter : filterNameLength? (z :: more) = none := hstop.filterNameLength? [] more
  have hdots : opensWith [(· == '.'), (· == '.'), (· == '.')] (z :: more) = false :=
    hstop.opensDots [] more
  have hident : identLength? (z :: more) = none := by rcases hz with rfl | rfl | rfl <;> rfl
  have hword : wordAt z more = (.delim z, 0) := by
    simp [wordAt, hfilter, hident, hdots]
  simp only [plainAt, hrange, hnumber, hword]
  rcases hz with rfl | rfl | rfl <;> rfl

/-- A semicolon or a brace stands for itself, whatever follows it. -/
theorem lexemeAt_bound {z : Char} (hz : z = ';' ∨ z = '}' ∨ z = '{') (more : List Char) :
    lexemeAt previous gap z more = .ok (.delim z, 0) := by
  have hurl : opensUrl (z :: more) = false := by rcases hz with rfl | rfl | rfl <;> rfl
  simp only [lexemeAt, hurl, plainAt_bound hz]
  rcases hz with rfl | rfl | rfl <;> rfl

theorem nameFrom_append {n : Nat} {cs : List Char} (hn : n ≤ cs.length) (c : Char)
    (more : List Char) : nameFrom c (cs ++ more) n = nameFrom c cs n := by
  rw [nameFrom, nameFrom, List.take_append_of_le_length hn]

end Lexemes

section Gaps

theorem gapFrom_blockOpen (line : Nat) (cs : List Char) :
    gapFrom line .blank ('/' :: '*' :: cs) =
      gapFrom.skip ['/', '*'] (gapFrom line (.block line) cs) := rfl

theorem gapFrom_blockClose (line opened : Nat) (cs : List Char) :
    gapFrom line (.block opened) ('*' :: '/' :: cs) =
      gapFrom.skip ['*', '/'] (gapFrom line .blank cs) := rfl

theorem gapFrom_lineOpen (line : Nat) (cs : List Char) :
    gapFrom line .blank ('/' :: '/' :: cs) =
      gapFrom.skip ['/', '/'] (gapFrom line .untilLineEnd cs) := rfl

theorem gapFrom_untilLineEnd (line : Nat) (c : Char) (cs : List Char) :
    gapFrom line .untilLineEnd (c :: cs) =
      if c == '\n' then gapFrom.skip [c] (gapFrom (line + 1) .blank cs)
      else gapFrom.skip [c] (gapFrom line .untilLineEnd cs) := rfl

theorem gapFrom_blank {c : Char} {cs : List Char} (hblock : ∀ ds, c = '/' → cs = '*' :: ds → False)
    (hline : ∀ ds, c = '/' → cs = '/' :: ds → False) (line : Nat) :
    gapFrom line .blank (c :: cs) =
      if isBlank c then gapFrom.skip [c] (gapFrom (lineAfter line c) .blank cs)
      else .ok ([], c :: cs) := by
  rw [gapFrom.eq_def]
  split <;> simp_all

theorem gapFrom_block {c : Char} {cs : List Char} (hclose : ∀ ds, c = '*' → cs = '/' :: ds → False)
    (line opened : Nat) :
    gapFrom line (.block opened) (c :: cs) =
      gapFrom.skip [c] (gapFrom (lineAfter line c) (.block opened) cs) := by
  rw [gapFrom.eq_def]
  split <;> simp_all

theorem gapFrom.skip_ok (cs gap rest : List Char) :
    gapFrom.skip cs (.ok (gap, rest)) = .ok (cs ++ gap, rest) := rfl

end Gaps

section Tokens

variable {line start : Nat} {previous : Option Token} {cs rest : List Char} {t : Token}

theorem delim_of_wordAt {c d : Char} {n : Nat} (h : wordAt c cs = (.delim d, n)) :
    d = c ∧ n = 0 := by
  unfold wordAt at h
  split at h
  · cases h
  · split at h
    · cases h
    · cases h
      exact ⟨rfl, rfl⟩

theorem delim_of_hashAt {c d : Char} {n : Nat} (h : hashAt c cs = (.delim d, n)) :
    d = c ∧ n = 0 := by
  unfold hashAt at h
  simp only at h
  split at h
  · cases h
  · cases h
    exact ⟨rfl, rfl⟩

theorem not_delim_of_interpolation? {d : Char} {n : Nat} :
    interpolation? cs ≠ some (.delim d, n) := by
  unfold interpolation?
  split
  · simp only
    split <;> simp
  · simp

theorem not_delim_of_atKeyword? {d : Char} {n : Nat} : atKeyword? cs ≠ some (.delim d, n) := by
  unfold atKeyword?
  simp only
  split <;> simp

theorem not_delim_of_number? {spaced : Bool} {d : Char} {n : Nat} :
    number? previous spaced cs ≠ some (.delim d, n) := by
  unfold number?
  cases NumberText.read? cs with
  | none => simp
  | some x =>
    simp only [Option.bind_eq_bind, Option.bind_some]
    split <;> simp

theorem delim_of_plainAt {spaced : Bool} {c d : Char} {n : Nat}
    (h : plainAt previous spaced c cs = (.delim d, n)) : d = c ∧ n = 0 := by
  unfold plainAt at h
  split at h
  · cases h
  · split at h
    · cases hfirst : interpolation? cs with
      | some p =>
        rw [hfirst, Option.getD_some] at h
        exact absurd (h ▸ hfirst) not_delim_of_interpolation?
      | none =>
        rw [hfirst, Option.getD_none] at h
        cases hsecond : atKeyword? cs with
        | some p =>
          rw [hsecond, Option.getD_some] at h
          exact absurd (h ▸ hsecond) not_delim_of_atKeyword?
        | none =>
          rw [hsecond] at h
          cases h
          exact ⟨rfl, rfl⟩
    · split at h
      · rename_i hnumber
        exact absurd (h ▸ hnumber) not_delim_of_number?
      · split at h
        · exact delim_of_hashAt h
        · exact delim_of_wordAt h

/-- A token that is a single delimiter is the character that it opens with. -/
theorem lexemeAt_delim {gap : List Char} {c d : Char} {n : Nat}
    (h : lexemeAt previous gap c cs = .ok (.delim d, n)) : d = c ∧ n = 0 := by
  unfold lexemeAt at h
  simp only at h
  split at h
  · unfold quotedAt at h
    split at h <;> cases h
  · split at h
    · unfold urlAt at h
      split at h <;> cases h
    · exact delim_of_plainAt (Except.ok.inj h)

theorem nextToken_delim {c : Char} (h : nextToken line start previous cs = .ok (t, rest))
    (ht : t.lexeme = .delim c) : t.text = [c] := by
  unfold nextToken at h
  split at h
  · cases h
  · cases h
    cases ht
  · split at h
    · cases h
    · rename_i gap d cs' hgap lexeme extra hlexeme
      simp only [Except.ok.injEq, Prod.mk.injEq] at h
      obtain ⟨rfl, -⟩ := h
      simp only at ht
      subst ht
      obtain ⟨rfl, rfl⟩ := lexemeAt_delim hlexeme
      rfl

theorem tokensFrom_eq (line start : Nat) (previous : Option Token) (cs : List Char) :
    tokensFrom line start previous cs =
      (nextToken line start previous cs).bind fun (t, rest) =>
        if t.text = [] then .ok [t]
        else (tokensFrom (linesAfter t.line t.text) t.stop (some t) rest).map (t :: ·) := by
  rw [tokensFrom]
  split
  · rename_i h
    rw [h]
    rfl
  · rename_i h
    rw [h]
    simp only [Except.bind, dite_eq_ite]

/-- The first token of a text is the end of the input, or the tokens of the rest follow it. -/
theorem tokensFrom_cases {ts : List Token} (h : tokensFrom line start previous cs = .ok ts) :
    ∃ u rest, nextToken line start previous cs = .ok (u, rest) ∧
      ((u.text = [] ∧ ts = [u]) ∨ (u.text ≠ [] ∧ rest.length < cs.length ∧
        ∃ us, tokensFrom (linesAfter u.line u.text) u.stop (some u) rest = .ok us ∧ ts = u :: us)) := by
  rw [tokensFrom_eq] at h
  cases hnext : nextToken line start previous cs with
  | error e =>
    rw [hnext] at h
    cases h
  | ok p =>
    obtain ⟨u, rest⟩ := p
    refine ⟨u, rest, rfl, ?_⟩
    rw [hnext] at h
    simp only [Except.bind] at h
    by_cases htext : u.text = []
    · rw [if_pos htext] at h
      cases h
      exact .inl ⟨htext, rfl⟩
    · rw [if_neg htext] at h
      have hlength : rest.length < cs.length := by
        have hpos := List.length_pos_iff.mpr htext
        rw [(nextToken_spec hnext).1]
        simp only [List.length_append]
        omega
      cases htail : tokensFrom (linesAfter u.line u.text) u.stop (some u) rest with
      | error e =>
        rw [htail] at h
        cases h
      | ok us =>
        rw [htail] at h
        cases h
        exact .inr ⟨htext, hlength, us, rfl, rfl⟩

theorem tokensFrom_ne_nil {ts : List Token} (h : tokensFrom line start previous cs = .ok ts) :
    ts ≠ [] := by
  obtain ⟨u, rest, -, hcases⟩ := tokensFrom_cases h
  rcases hcases with ⟨-, rfl⟩ | ⟨-, -, us, -, rfl⟩
  · simp
  · simp

/-- The text of a delimiter among the tokens is the character. -/
theorem text_of_delim {ts : List Token} {c : Char}
    (h : tokensFrom line start previous cs = .ok ts) (ht : t ∈ ts) (hc : t.lexeme = .delim c) :
    t.text = [c] := by
  induction hn : cs.length using Nat.strongRecOn generalizing line start previous cs ts with
  | ind n ih =>
    obtain ⟨u, rest, hnext, hcases⟩ := tokensFrom_cases h
    rcases hcases with ⟨-, rfl⟩ | ⟨-, hlength, us, htail, rfl⟩
    · obtain rfl : t = u := by simpa using ht
      exact nextToken_delim hnext hc
    · rw [hn] at hlength
      rcases List.mem_cons.mp ht with rfl | ht
      · exact nextToken_delim hnext hc
      · exact ih _ hlength htail ht rfl

theorem linesAfter_append (line : Nat) (cs ds : List Char) :
    linesAfter line (cs ++ ds) = linesAfter (linesAfter line cs) ds :=
  List.foldl_append

theorem linesAfter_eq (line : Nat) (cs : List Char) : linesAfter line cs = line + cs.count '\n' := by
  induction cs generalizing line with
  | nil => rfl
  | cons c cs ih =>
    have hcons : linesAfter line (c :: cs) = linesAfter (lineAfter line c) cs := rfl
    rw [hcons, ih, List.count_cons, lineAfter]
    split <;> omega

end Tokens

end StyleTally.Stylesheet
