import StyleTally.Proofs.Lexer.Equations

/-!
# How gaps and tokens are spelled

A gap is blank space and whole comments. The text of a token is its value with the signs of its kind
around it, and the closing quote of a string is the first one that no backslash escapes.
-/

namespace StyleTally.Stylesheet

open NumberText Text

/-- Blank characters and whole comments, one after the other, in front of a text. A block comment
ends where it first can, and a line comment at a line feed or with the text. -/
inductive IsGap (rest : List Char) : List Char → Prop
  | nil : IsGap rest []
  | blank {c : Char} {gap : List Char} (hc : isBlank c) (h : IsGap rest gap) : IsGap rest (c :: gap)
  | block {body gap : List Char} (hbody : ¬ ['*', '/'] <:+: body) (h : IsGap rest gap) :
    IsGap rest ('/' :: '*' :: (body ++ '*' :: '/' :: gap))
  | line {body gap : List Char} (hbody : '\n' ∉ body)
    (hend : gap ++ rest = [] ∨ ∃ more, gap ++ rest = '\n' :: more) (h : IsGap rest gap) :
    IsGap rest ('/' :: '/' :: (body ++ gap))

/-- What is skipped in front of a text from a place outside or inside a comment. -/
def Skipping.Skips (rest gap : List Char) : Skipping → Prop
  | .blank => IsGap rest gap
  | .block _ => ∃ body more, gap = body ++ '*' :: '/' :: more ∧ ¬ ['*', '/'] <:+: body ∧ IsGap rest more
  | .untilLineEnd => ∃ body more, gap = body ++ more ∧ '\n' ∉ body ∧
      (more ++ rest = [] ∨ ∃ ds, more ++ rest = '\n' :: ds) ∧ IsGap rest more

theorem not_infix_cons {c : Char} {body : List Char}
    (hopen : ∀ ds, c = '*' → body = '/' :: ds → False) (hbody : ¬ ['*', '/'] <:+: body) :
    ¬ ['*', '/'] <:+: c :: body := by
  intro h
  cases List.infix_cons_iff.mp h with
  | inl hpre =>
    obtain ⟨ds, hds⟩ := hpre
    obtain ⟨hc, hrest⟩ := List.cons.inj hds
    exact hopen ds hc.symm hrest.symm
  | inr hinfix => exact hbody hinfix

/-- What the reader skips is a gap in front of the text that remains. -/
theorem gapFrom_skips {line : Nat} {mode : Skipping} {cs gap rest : List Char}
    (h : gapFrom line mode cs = .ok (gap, rest)) : mode.Skips rest gap := by
  fun_induction gapFrom line mode cs generalizing gap rest with
  | case1 line cs ih =>
    obtain ⟨front, hfront, rfl⟩ := gapFrom.skip_eq_ok h
    obtain ⟨body, more, rfl, hbody, hmore⟩ := ih hfront
    exact .block hbody hmore
  | case2 line cs ih =>
    obtain ⟨front, hfront, rfl⟩ := gapFrom.skip_eq_ok h
    obtain ⟨body, more, rfl, hbody, hend, hmore⟩ := ih hfront
    have hline := hmore.line hbody hend
    exact hline
  | case3 line c cs _ _ hblank ih =>
    obtain ⟨front, hfront, rfl⟩ := gapFrom.skip_eq_ok h
    exact .blank hblank (ih hfront)
  | case4 line c cs =>
    cases h
    exact .nil
  | case5 line opened cs ih =>
    obtain ⟨front, hfront, rfl⟩ := gapFrom.skip_eq_ok h
    exact ⟨[], front, rfl, by simp, ih hfront⟩
  | case6 line opened c cs hclose ih =>
    obtain ⟨front, hfront, rfl⟩ := gapFrom.skip_eq_ok h
    obtain ⟨body, more, rfl, hbody, hmore⟩ := ih hfront
    have hcs := gapFrom_append hfront
    have hopen (ds : List Char) (hc : c = '*') (hds : body = '/' :: ds) : False := by
      rw [hds] at hcs
      exact hclose _ hc hcs.symm
    exact ⟨c :: body, more, rfl, not_infix_cons hopen hbody, hmore⟩
  | case7 => cases h
  | case8 line c cs hnewline ih =>
    obtain ⟨front, hfront, rfl⟩ := gapFrom.skip_eq_ok h
    obtain rfl : c = '\n' := by simpa using hnewline
    exact ⟨[], '\n' :: front, rfl, by simp, .inr ⟨front ++ rest, rfl⟩, .blank (by decide) (ih hfront)⟩
  | case9 line c cs hnewline ih =>
    obtain ⟨front, hfront, rfl⟩ := gapFrom.skip_eq_ok h
    obtain ⟨body, more, rfl, hbody, hend, hmore⟩ := ih hfront
    have hc : '\n' ≠ c := fun heq => hnewline (by simp [← heq])
    exact ⟨c :: body, more, rfl, by simp [hc, hbody], hend, hmore⟩
  | case10 line mode hmode =>
    cases h
    cases mode with
    | blank => exact .nil
    | block opened => exact (hmode opened rfl).elim
    | untilLineEnd => exact ⟨[], [], rfl, by simp, .inl rfl, .nil⟩

/-- No quote in the contents of a string stands outside an escape, which is a backslash and one
character of any kind, and no escape is cut off at the end. -/
inductive Unquoted (quote : Char) : List Char → Prop
  | nil : Unquoted quote []
  | escape {c : Char} {cs : List Char} (h : Unquoted quote cs) : Unquoted quote ('\\' :: c :: cs)
  | plain {c : Char} {cs : List Char} (hquote : c ≠ quote) (hescape : c ≠ '\\') (h : Unquoted quote cs) :
    Unquoted quote (c :: cs)

/-- Whether a text is how a lexeme is spelled. -/
def Lexeme.Spelled (text : List Char) : Lexeme → Prop
  | .ident value | .hash value | .number value _ _ | .unicodeRange value => text = value.toList
  | .delim c => text = [c]
  | .ellipsis => text = ['.', '.', '.']
  | .atKeyword name => text = '@' :: name.toList
  | .interpolation name => text = '@' :: '{' :: name.toList ++ ['}']
  | .quoted value quote => text = quote :: value.toList ++ [quote] ∧ Unquoted quote value.toList
  | .url value => ∃ opening body, text = opening ++ body ++ [')'] ∧
      opening.map Char.toLower = ['u', 'r', 'l', '('] ∧ value = String.ofList (trimChars body)
  | .endOfInput => text = []

/-- A lexeme that a character and so many characters of the text behind it spell. -/
def Lexeme.SpelledAt (c : Char) (cs : List Char) : Lexeme × Nat → Prop
  | (lexeme, n) => n ≤ cs.length ∧ lexeme.Spelled (c :: cs.take n)

section Lengths

variable {cs : List Char} {n : Nat}

theorem escapedRun_le (p : Char → Bool) (cs : List Char) : escapedRun p cs ≤ cs.length := by
  fun_induction escapedRun p cs with
  | case1 => exact Nat.le_refl _
  | case2 => exact Nat.zero_le _
  | case3 c cs hc ih =>
    simp only [List.length_cons]
    omega
  | case4 c cs hescape hc ih =>
    simp only [List.length_cons]
    omega
  | case5 => exact Nat.zero_le _

theorem undashedLength?_le (h : undashedLength? cs = some n) : n ≤ cs.length := by
  unfold undashedLength? at h
  split at h
  · rename_i c rest
    have hle := escapedRun_le isIdentChar rest
    split at h
    · cases h
    · cases h
      simp only [List.length_cons]
      omega
  · rename_i c rest _
    have hle := escapedRun_le isIdentChar rest
    split at h
    · cases h
      rw [List.length_cons]
      omega
    · cases h
  · cases h

theorem identLength?_le (h : identLength? cs = some n) : n ≤ cs.length := by
  have hdashes := (List.takeWhile_prefix (l := cs) (· == '-')).length_le
  rw [identLength?] at h
  split at h
  · cases h
  · obtain ⟨k, hk, rfl⟩ := Option.map_eq_some_iff.mp h
    have hle := undashedLength?_le hk
    rw [List.length_drop] at hle
    omega

theorem filterNameLength?_le (h : filterNameLength? cs = some n) : n ≤ cs.length := by
  have hrun := (List.takeWhile_prefix (l := cs.drop 7) fun c => isWordChar c || c == '.').length_le
  rw [filterNameLength?] at h
  split at h
  · rename_i hopens
    cases h
    rw [Bool.and_eq_true] at hopens
    have hlength : 7 ≤ cs.length := length_of_opensWith hopens.1
    rw [List.length_drop] at hrun
    omega
  · cases h

theorem unicodeRangeLength?_le (h : unicodeRangeLength? cs = some n) : n ≤ cs.length := by
  unfold unicodeRangeLength? at h
  split at h
  · rename_i u cs
    extract_lets digits first at h
    have hfirst := (List.takeWhile_prefix (l := cs) fun c => isHexDigit c || c == '?').length_le
    split at h
    · split at h
      · rename_i rest hrest
        have hlast := (List.takeWhile_prefix (l := rest) isHexDigit).length_le
        have hlength := congrArg List.length hrest
        simp only [List.length_drop, List.length_cons] at hlength ⊢
        obtain rfl := Option.some.inj h
        split
        · omega
        · omega
      · obtain rfl := Option.some.inj h
        simp only [List.length_cons]
        omega
    · cases h
  · cases h

end Lengths

section Spelling

variable {c quote : Char} {cs : List Char} {lexeme : Lexeme} {n : Nat}

theorem stringBody?_spelled {body : List Char} (h : stringBody? quote cs = some body) :
    (∃ rest, cs = body ++ quote :: rest) ∧ Unquoted quote body := by
  fun_induction stringBody? quote cs generalizing body with
  | case1 => cases h
  | case2 => cases h
  | case3 c cs ih =>
    obtain ⟨body, hbody, rfl⟩ := Option.map_eq_some_iff.mp h
    obtain ⟨⟨rest, rfl⟩, hunquoted⟩ := ih hbody
    exact ⟨⟨rest, rfl⟩, .escape hunquoted⟩
  | case4 c cs hlast hescape hquote =>
    cases h
    obtain rfl : c = quote := by simpa using hquote
    exact ⟨⟨cs, rfl⟩, .nil⟩
  | case5 => cases h
  | case6 c cs hlast hescape hquote hline ih =>
    obtain ⟨body, hbody, rfl⟩ := Option.map_eq_some_iff.mp h
    obtain ⟨⟨rest, rfl⟩, hunquoted⟩ := ih hbody
    exact ⟨⟨rest, rfl⟩, .plain (by simpa using hquote) (ne_backslash hlast hescape) hunquoted⟩

theorem urlBody?_spelled {open? : Option Char} {body : List Char}
    (h : urlBody? open? cs = some body) : ∃ rest, cs = body ++ ')' :: rest := by
  fun_induction urlBody? open? cs generalizing body with
  | case1 => cases h
  | case2 => cases h
  | case3 open? c cs ih | case4 quote c cs hlast hescape ih | case6 c cs hlast hescape hclose ih =>
    obtain ⟨body, hbody, rfl⟩ := Option.map_eq_some_iff.mp h
    obtain ⟨rest, rfl⟩ := ih hbody
    exact ⟨rest, rfl⟩
  | case5 c cs hlast hescape hclose =>
    cases h
    obtain rfl : c = ')' := by simpa using hclose
    exact ⟨cs, rfl⟩

theorem quotedAt_spelled (h : quotedAt c cs = .ok (lexeme, n)) :
    Lexeme.SpelledAt c cs (lexeme, n) := by
  rw [quotedAt] at h
  split at h
  · cases h
  · rename_i body hbody
    cases h
    obtain ⟨⟨rest, rfl⟩, hunquoted⟩ := stringBody?_spelled hbody
    have htake : (body ++ c :: rest).take (body.length + 1) = body ++ [c] := by
      rw [List.take_length_add_append]
      rfl
    refine ⟨?_, by simp [htake], by simpa using hunquoted⟩
    rw [List.length_append, List.length_cons]
    omega

theorem map_of_opensUrl (h : opensUrl (c :: cs)) :
    (c :: cs.take 3).map Char.toLower = ['u', 'r', 'l', '('] := by
  match cs, h with
  | [], h | [d], h | [d, e], h => simp [opensUrl, opensWith] at h
  | d :: e :: f :: cs, h =>
    obtain ⟨hu, hr, hl, rfl⟩ : c.toLower = 'u' ∧ d.toLower = 'r' ∧ e.toLower = 'l' ∧ f = '(' := by
      simpa [opensUrl, opensWith, isLetter] using h
    simp [hu, hr, hl]

theorem urlAt_spelled (hopen : opensUrl (c :: cs)) (h : urlAt cs = .ok (lexeme, n)) :
    Lexeme.SpelledAt c cs (lexeme, n) := by
  rw [urlAt] at h
  split at h
  · cases h
  · rename_i body hbody
    cases h
    obtain ⟨rest, hrest⟩ := urlBody?_spelled hbody
    have hlength := congrArg List.length hrest
    simp only [List.length_drop, List.length_append, List.length_cons] at hlength
    have htake : cs.take (body.length + 4) = cs.take 3 ++ (body ++ [')']) := by
      rw [Nat.add_comm, show 4 + body.length = 3 + (body.length + 1) by omega, List.take_add, hrest,
        List.take_length_add_append]
      rfl
    exact ⟨by omega, c :: cs.take 3, body, by simp [htake], map_of_opensUrl hopen, by simp⟩

theorem interpolation?_spelled (h : interpolation? cs = some (lexeme, n)) :
    Lexeme.SpelledAt '@' cs (lexeme, n) := by
  rw [interpolation?.eq_def] at h
  split at h
  · rename_i cs
    extract_lets name at h
    split at h
    · rename_i hname hrest
      cases h
      have hpre : name ++ ['}'] <+: cs := append_isPrefix (List.takeWhile_prefix _) ⟨_, hrest.symm⟩
      have hlength := hpre.length_le
      have htake := List.prefix_iff_eq_take.mp hpre
      rw [List.length_append, List.length_singleton] at hlength htake
      have htext : ('{' :: cs).take (name.length + 2) = '{' :: (name ++ ['}']) := by
        rw [htake]
        rfl
      refine ⟨?_, by simp [Lexeme.Spelled, htext]⟩
      rw [List.length_cons]
      omega
    · cases h
  · cases h

theorem atKeyword?_spelled (h : atKeyword? cs = some (lexeme, n)) :
    Lexeme.SpelledAt '@' cs (lexeme, n) := by
  unfold atKeyword? at h
  extract_lets at? name at h
  split at h
  · cases h
  · cases h
    have hpre : at? ++ name <+: cs :=
      append_isPrefix ((List.take_prefix ..).trans (List.takeWhile_prefix _)) (List.takeWhile_prefix _)
    have hlength := hpre.length_le
    have htake := List.prefix_iff_eq_take.mp hpre
    rw [List.length_append] at hlength htake
    exact ⟨hlength, by simp [Lexeme.Spelled, ← htake]⟩

theorem number?_spelled {previous : Option Token} {spaced : Bool}
    (h : number? previous spaced (c :: cs) = some (lexeme, n)) :
    Lexeme.SpelledAt c cs (lexeme, n) := by
  obtain ⟨number, hread, hnumber⟩ := Option.bind_eq_some_iff.mp h
  split at hnumber
  · cases hnumber
    obtain ⟨hpre, hne⟩ := read?_isPrefix hread
    have hle := hpre.length_le
    have htake := List.prefix_iff_eq_take.mp hpre
    have hlength : number.text.length = number.text.length - 1 + 1 := by
      have hpos := List.length_pos_iff.mpr hne
      omega
    rw [hlength, List.take_succ_cons] at htake
    rw [hlength, List.length_cons] at hle
    exact ⟨by omega, by simpa [Lexeme.Spelled] using htake.symm⟩
  · cases hnumber

theorem hashAt_spelled : Lexeme.SpelledAt c cs (hashAt c cs) := by
  rw [hashAt]
  split
  · exact ⟨escapedRun_le isNameChar cs, by simp [Lexeme.Spelled, nameFrom]⟩
  · exact ⟨Nat.zero_le _, by simp [Lexeme.Spelled]⟩

theorem dots_spelled (h : opensWith [(· == '.'), (· == '.'), (· == '.')] (c :: cs)) :
    Lexeme.SpelledAt c cs (.ellipsis, 2) := by
  match cs, h with
  | [], h => simp [opensWith] at h
  | [d], h => simp [opensWith] at h
  | d :: e :: cs, h =>
    obtain ⟨rfl, rfl, rfl⟩ : c = '.' ∧ d = '.' ∧ e = '.' := by simpa [opensWith] using h
    exact ⟨by simp, rfl⟩

theorem wordAt_spelled : Lexeme.SpelledAt c cs (wordAt c cs) := by
  rw [wordAt]
  split
  · rename_i n hn
    have hle : n ≤ (c :: cs).length := by
      cases Option.or_eq_some_iff.mp hn with
      | inl hfilter => exact filterNameLength?_le hfilter
      | inr hident => exact identLength?_le hident.2
    rw [List.length_cons] at hle
    exact ⟨by omega, by simp [Lexeme.Spelled, nameFrom]⟩
  · split
    · rename_i hopens
      exact dots_spelled hopens
    · exact ⟨Nat.zero_le _, by simp [Lexeme.Spelled]⟩

theorem plainAt_spelled {previous : Option Token} {spaced : Bool} :
    Lexeme.SpelledAt c cs (plainAt previous spaced c cs) := by
  unfold plainAt
  split
  · rename_i n hn
    have hle := unicodeRangeLength?_le hn
    rw [List.length_cons] at hle
    exact ⟨by omega, by simp [Lexeme.Spelled, nameFrom]⟩
  · split
    · rename_i hat
      obtain rfl : c = '@' := by simpa using hat
      cases hinterpolation : interpolation? cs with
      | some p => exact interpolation?_spelled hinterpolation
      | none =>
        cases hkeyword : atKeyword? cs with
        | some p => exact atKeyword?_spelled hkeyword
        | none => exact ⟨Nat.zero_le _, by simp [Lexeme.Spelled]⟩
    · split
      · rename_i found hfound
        exact number?_spelled hfound
      · split
        · exact hashAt_spelled
        · exact wordAt_spelled

/-- A lexeme is spelled by the text it is read from. -/
theorem lexemeAt_spelled {previous : Option Token} {gap : List Char}
    (h : lexemeAt previous gap c cs = .ok (lexeme, n)) : Lexeme.SpelledAt c cs (lexeme, n) := by
  unfold lexemeAt at h
  extract_lets spaced joined at h
  split at h
  · exact quotedAt_spelled h
  · split at h
    · rename_i hurl
      rw [Bool.and_eq_true] at hurl
      exact urlAt_spelled hurl.1 h
    · rw [← Except.ok.inj h]
      exact plainAt_spelled

end Spelling

/-- The next token stands behind a gap and is spelled by its text. -/
theorem nextToken_spelled {line start : Nat} {previous : Option Token} {cs rest : List Char}
    {t : Token} (h : nextToken line start previous cs = .ok (t, rest)) :
    IsGap (t.text ++ rest) t.gap ∧ t.lexeme.Spelled t.text ∧
      (t.text = [] ↔ t.lexeme = .endOfInput) := by
  unfold nextToken at h
  split at h
  · cases h
  · rename_i hgap
    cases h
    exact ⟨gapFrom_skips hgap, rfl, by simp⟩
  · rename_i gap c cs hgap
    split at h
    · cases h
    · rename_i lexeme extra hlexeme
      cases h
      have hskips : IsGap (c :: cs) gap := gapFrom_skips hgap
      have hspelled := (lexemeAt_spelled hlexeme).2
      have hnonempty : lexeme ≠ .endOfInput := by
        rintro rfl
        cases hspelled
      exact ⟨by simpa using hskips, hspelled, by simp [hnonempty]⟩

end StyleTally.Stylesheet
