import StyleTally.Proofs.Lead.Tokens
import StyleTally.Proofs.Lexer.Spelling

/-!
# Replacing what follows a token

A token that ends in front of a text may depend on the text only through its first character.
Another text can take its place there if it opens as the text does, or with a blank that goes on
with nothing in front of it.
-/

namespace StyleTally.Stylesheet

open Text

/-- A text that is empty or opens with a stop. -/
def Halting (cs : List Char) : Prop := ∀ z ∈ cs.head?, Stop z

/-- A text that is empty or opens as a gap does. -/
def Loose (cs : List Char) : Prop := ∀ z more, cs = z :: more → isBlank z ∨ z = '/'

/-- The new text can take the place of the old one behind any token that ends there. A backslash in
front makes an escape of a space, so the old text may not open with a line feed then. -/
structure Replaceable (old new : List Char) : Prop where
  halting : Halting old
  head : new.head? = old.head? ∨ ∀ z ∈ new.head?, z = '\n' ∨ z = ' ' ∧ ∃ x ∈ old.head?, x ≠ '\n'
  interpolation : interpolation? new = none

section Halting

/-- What no stop lets depend on the text behind it does not depend on a text that halts. -/
theorem Halting.eq {α : Type} {f : List Char → α}
    (hf : ∀ {z : Char}, Stop z → ∀ cs more, f (cs ++ z :: more) = f cs) {more : List Char}
    (h : Halting more) (cs : List Char) : f (cs ++ more) = f cs := by
  cases more with
  | nil => rw [List.append_nil]
  | cons z more => exact hf (h z rfl) cs more

theorem Loose.halting {cs : List Char} (h : Loose cs) : Halting cs := by
  intro z hz
  obtain ⟨more, rfl⟩ := List.head?_eq_some_iff.mp hz
  rcases h z more rfl with hblank | rfl
  · exact stop_blank hblank
  · exact stop_slash

theorem Loose.halting_append {gap more : List Char} (h : Loose gap) (hmore : Halting more) :
    Halting (gap ++ more) := by
  cases gap with
  | nil => exact hmore
  | cons d gap => exact h.halting

/-- No gap opens a variable in braces. -/
theorem Loose.no_interpolation {gap more : List Char} (h : Loose gap)
    (hmore : interpolation? more = none) : interpolation? (gap ++ more) = none := by
  cases gap with
  | nil => exact hmore
  | cons d gap =>
    have hd : d ≠ '{' := by
      rintro rfl
      rcases h '{' gap rfl with hblank | hslash
      · exact absurd hblank (by decide)
      · exact absurd hslash (by decide)
    simp [interpolation?, hd]

end Halting

namespace Replaceable

variable {old new : List Char} {p : Char → Bool} {z : Char}

/-- A test that neither a line feed nor a space passes is not passed where the old text fails it. -/
theorem fails (h : Replaceable old new) (hline : p '\n' = false) (hspace : p ' ' = false)
    (hold : ∀ x ∈ old.head?, p x = false) : ∀ z ∈ new.head?, p z = false := by
  intro z hz
  rcases h.head with heq | hblank
  · exact hold z (heq ▸ hz)
  · rcases hblank z hz with rfl | ⟨rfl, -⟩
    · exact hline
    · exact hspace

/-- What a backslash in front makes an escape of. -/
theorem escape (h : Replaceable old new) (hz : z ∈ new.head?) (hline : z ≠ '\n') :
    ∃ x ∈ old.head?, x ≠ '\n' := by
  rcases h.head with heq | hblank
  · exact ⟨z, heq ▸ hz, hline⟩
  · rcases hblank z hz with rfl | ⟨-, hx⟩
    · exact absurd rfl hline
    · exact hx

theorem halting_new (h : Replaceable old new) : Halting new := by
  intro z hz
  rcases h.head with heq | hblank
  · exact h.halting z (heq ▸ hz)
  · rcases hblank z hz with rfl | ⟨rfl, -⟩
    · exact stop_blank (by decide)
    · exact stop_blank (by decide)

/-- What is no blank opens the new text only if it opens the old one. -/
theorem opens (h : Replaceable old new) {more : List Char} (hline : z ≠ '\n') (hspace : z ≠ ' ')
    (hnew : new = z :: more) : ∃ rest, old = z :: rest := by
  have hz : new.head? = some z := by rw [hnew, List.head?_cons]
  rcases h.head with heq | hblank
  · exact List.head?_eq_some_iff.mp (heq ▸ hz)
  · rcases hblank z hz with rfl | ⟨rfl, -⟩
    · exact absurd rfl hline
    · exact absurd rfl hspace

/-- Two characters that do not stand side by side do not either after the change. -/
theorem not_joined (h : Replaceable old new) {a b c : Char} {cs : List Char} (hline : b ≠ '\n')
    (hspace : b ≠ ' ') (hne : ∀ ds, c = a → cs ++ old = b :: ds → False) :
    ∀ ds, c = a → cs ++ new = b :: ds → False := by
  intro ds hc heq
  cases cs with
  | nil =>
    obtain ⟨rest, hold⟩ := h.opens hline hspace heq
    exact hne rest hc hold
  | cons d cs =>
    obtain ⟨rfl, -⟩ := List.cons.inj heq
    exact hne _ hc rfl

end Replaceable

section Escapes

variable {p : Char → Bool} {cs more old new : List Char}

theorem ne_backslash_of {c : Char} (hback : p '\\' = false) (hc : p c = true) : c ≠ '\\' := by
  rintro rfl
  rw [hback] at hc
  cases hc

/-- A run that fits in a text in front of another is the run of the text alone. -/
theorem escapedRun_of_le (hback : p '\\' = false) (h : escapedRun p (cs ++ more) ≤ cs.length) :
    escapedRun p (cs ++ more) = escapedRun p cs := by
  fun_induction escapedRun p cs with
  | case1 => simpa using h
  | case2 c cs hc => simp [escapedRun, hc]
  | case3 c cs hc ih =>
    simp only [List.cons_append, escapedRun, hc, Bool.false_eq_true, if_false,
      List.length_cons] at h ⊢
    rw [ih (by omega)]
  | case4 c cs hescape hc ih =>
    have hne := ne_backslash_of hback hc
    rw [List.cons_append, escapedRun_cons hne, if_pos hc, List.length_cons] at h
    rw [List.cons_append, escapedRun_cons hne, if_pos hc, ih (by omega)]
  | case5 c cs hescape hc =>
    by_cases hne : c = '\\'
    · subst hne
      cases cs with
      | cons d cs => exact (hescape d cs rfl rfl).elim
      | nil =>
        cases more with
        | nil => simp [escapedRun, hback]
        | cons d more =>
          by_cases hd : d = '\n'
          · simp [escapedRun, hd]
          · simp [escapedRun, hd] at h
    · rw [List.cons_append, escapedRun_cons hne, if_neg hc]

/-- A run that does not reach over the old text does not reach over the new one. -/
theorem Replaceable.escapedRun_le (h : Replaceable old new) (hback : p '\\' = false)
    (hline : p '\n' = false) (hspace : p ' ' = false) (hle : escapedRun p (cs ++ old) ≤ cs.length) :
    escapedRun p (cs ++ new) ≤ cs.length := by
  fun_induction escapedRun p cs with
  | case1 =>
    have hold : ∀ x ∈ old.head?, p x = false := by
      intro x hx
      obtain ⟨rest, rfl⟩ := List.head?_eq_some_iff.mp hx
      rw [List.nil_append, escapedRun_cons ((h.halting x hx).ne (by decide)), List.length_nil] at hle
      cases hp : p x with
      | false => rfl
      | true =>
        rw [hp, if_pos rfl] at hle
        omega
    cases new with
    | nil => exact Nat.le_refl _
    | cons z more =>
      have hz : p z = false := h.fails hline hspace hold z rfl
      rw [List.nil_append, escapedRun_cons ((h.halting_new z rfl).ne (by decide)), hz]
      exact Nat.le_refl _
  | case2 c cs hc => simp [escapedRun, hc]
  | case3 c cs hc ih =>
    simp only [List.cons_append, escapedRun, hc, Bool.false_eq_true, if_false,
      List.length_cons] at hle ⊢
    have hrest := ih (by omega)
    omega
  | case4 c cs hescape hc ih =>
    have hne := ne_backslash_of hback hc
    rw [List.cons_append, escapedRun_cons hne, if_pos hc, List.length_cons] at hle ⊢
    have hrest := ih (by omega)
    omega
  | case5 c cs hescape hc =>
    by_cases hne : c = '\\'
    · subst hne
      cases cs with
      | cons d cs => exact (hescape d cs rfl rfl).elim
      | nil =>
        cases new with
        | nil => simp [escapedRun, hback]
        | cons z more =>
          by_cases hz : z = '\n'
          · simp [escapedRun, hz]
          · obtain ⟨x, hx, hnewline⟩ := h.escape rfl hz
            obtain ⟨rest, rfl⟩ := List.head?_eq_some_iff.mp hx
            simp [escapedRun, hnewline] at hle
    · rw [List.cons_append, escapedRun_cons hne, if_neg hc]
      exact Nat.zero_le _

end Escapes

section Names

variable {cs more old new : List Char} {n : Nat}

theorem not_escape_isIdentChar : isIdentChar '\\' = false := by decide

theorem not_escape_isNameChar : isNameChar '\\' = false := by decide

theorem undashedLength?_pos (h : undashedLength? cs = some n) : 0 < n := by
  unfold undashedLength? at h
  split at h
  · split at h
    · cases h
    · cases h
      omega
  · split at h
    · cases h
      omega
    · cases h
  · cases h

/-- A name that fits in a text in front of another is the name that the text alone opens with. -/
theorem undashedLength?_of_le
    (h : ∀ n, undashedLength? (cs ++ more) = some n → n ≤ cs.length) :
    undashedLength? (cs ++ more) = undashedLength? cs := by
  cases cs with
  | nil =>
    cases hmore : undashedLength? ([] ++ more) with
    | none => rfl
    | some n =>
      have hpos := undashedLength?_pos hmore
      have hle := h n hmore
      rw [List.length_nil] at hle
      omega
  | cons c cs =>
    by_cases hc : c = '\\'
    · subst hc
      cases cs with
      | nil =>
        cases more with
        | nil => rfl
        | cons d more =>
          by_cases hd : d = '\n'
          · simp [undashedLength?, hd, isIdentStart]
          · have hle := h (2 + escapedRun isIdentChar more) (by simp [undashedLength?, hd])
            rw [List.length_singleton] at hle
            omega
      | cons d cs =>
        by_cases hd : d = '\n'
        · simp [undashedLength?, hd]
        · simp only [List.cons_append, undashedLength?, beq_iff_eq, hd, if_false, Option.some.injEq,
            forall_eq', List.length_cons] at h ⊢
          rw [escapedRun_of_le not_escape_isIdentChar (by omega)]
    · rw [List.cons_append, undashedLength?_cons hc] at h
      rw [List.cons_append, undashedLength?_cons hc, undashedLength?_cons hc]
      by_cases hstart : isIdentStart c
      · simp only [if_pos hstart, Option.some.injEq, forall_eq', List.length_cons] at h ⊢
        rw [escapedRun_of_le not_escape_isIdentChar (by omega)]
      · rw [if_neg hstart, if_neg hstart]

theorem Replaceable.undashedLength?_le (h : Replaceable old new)
    (hle : ∀ n, undashedLength? (cs ++ old) = some n → n ≤ cs.length) :
    ∀ n, undashedLength? (cs ++ new) = some n → n ≤ cs.length := by
  have hrun (cs : List Char) (hle : escapedRun isIdentChar (cs ++ old) ≤ cs.length) :
      escapedRun isIdentChar (cs ++ new) ≤ cs.length :=
    h.escapedRun_le not_escape_isIdentChar (by decide) (by decide) hle
  intro n hn
  cases cs with
  | nil =>
    have hold : ∀ x ∈ old.head?, isIdentStart x = false := by
      intro x hx
      obtain ⟨rest, rfl⟩ := List.head?_eq_some_iff.mp hx
      cases hstart : isIdentStart x with
      | false => rfl
      | true =>
        have hfits := hle (1 + escapedRun isIdentChar rest) (by
          rw [List.nil_append, undashedLength?_cons ((h.halting x hx).ne (by decide)), if_pos hstart])
        rw [List.length_nil] at hfits
        omega
    cases new with
    | nil => cases hn
    | cons z more =>
      have hz : isIdentStart z = false := h.fails (by decide) (by decide) hold z rfl
      rw [List.nil_append, undashedLength?_cons ((h.halting_new z rfl).ne (by decide)), hz] at hn
      cases hn
  | cons c cs =>
    by_cases hc : c = '\\'
    · subst hc
      cases cs with
      | nil =>
        cases new with
        | nil => cases hn
        | cons z more =>
          by_cases hz : z = '\n'
          · simp [undashedLength?, hz] at hn
          · obtain ⟨x, hx, hnewline⟩ := h.escape rfl hz
            obtain ⟨rest, rfl⟩ := List.head?_eq_some_iff.mp hx
            have hfits := hle (2 + escapedRun isIdentChar rest) (by simp [undashedLength?, hnewline])
            rw [List.length_singleton] at hfits
            omega
      | cons d cs =>
        by_cases hd : d = '\n'
        · simp [undashedLength?, hd] at hn
        · simp only [List.cons_append, undashedLength?, beq_iff_eq, hd, if_false, Option.some.injEq,
            forall_eq', List.length_cons] at hle hn ⊢
          have hrest := hrun cs (by omega)
          omega
    · rw [List.cons_append, undashedLength?_cons hc] at hle hn
      by_cases hstart : isIdentStart c
      · simp only [if_pos hstart, Option.some.injEq, forall_eq', List.length_cons] at hle hn ⊢
        have hrest := hrun cs (by omega)
        omega
      · rw [if_neg hstart] at hn
        cases hn

theorem dash_ends {z : Char} (hz : Stop z) : Ends (· == '-') z := by
  simp [Ends, hz.ne_dash]

/-- An identifier is its dashes and a name, which is read behind the dashes. -/
theorem Halting.identLength? (h : Halting more) (cs : List Char) :
    identLength? (cs ++ more) =
      if 2 < (cs.takeWhile (· == '-')).length then none
      else (undashedLength? (cs.drop (cs.takeWhile (· == '-')).length ++ more)).map
        ((cs.takeWhile (· == '-')).length + ·) := by
  have hdashes := h.eq (fun hz => takeWhile_stop (dash_ends hz)) cs
  have hpre := List.takeWhile_prefix (l := cs) (· == '-')
  simp only [Stylesheet.identLength?, hdashes, drop_prefix_append hpre]

theorem Replaceable.identLength? (h : Replaceable old new)
    (hle : ∀ n, identLength? (cs ++ old) = some n → n ≤ cs.length) :
    Stylesheet.identLength? (cs ++ old) = Stylesheet.identLength? cs ∧
      Stylesheet.identLength? (cs ++ new) = Stylesheet.identLength? cs := by
  have halone : Stylesheet.identLength? cs = _ := List.append_nil cs ▸ Halting.identLength? (by simp [Halting]) cs
  rw [h.halting.identLength?] at hle ⊢
  rw [h.halting_new.identLength?, halone, List.append_nil]
  by_cases hmany : 2 < (cs.takeWhile (· == '-')).length
  · simp only [if_pos hmany, and_self]
  · simp only [if_neg hmany, Option.map_eq_some_iff] at hle ⊢
    have hfits : ∀ n, undashedLength? (cs.drop (cs.takeWhile (· == '-')).length ++ old) = some n →
        n ≤ (cs.drop (cs.takeWhile (· == '-')).length).length := by
      intro n hn
      have htotal := hle _ ⟨n, hn, rfl⟩
      rw [List.length_drop]
      omega
    rw [undashedLength?_of_le hfits, undashedLength?_of_le (h.undashedLength?_le hfits)]
    exact ⟨rfl, rfl⟩

theorem two_le_of_interpolation? {found : Lexeme × Nat} (h : interpolation? cs = some found) :
    2 ≤ found.2 := by
  rw [interpolation?.eq_def] at h
  split at h
  · extract_lets name at h
    split at h
    · cases h
      exact Nat.le_add_left _ _
    · cases h
  · cases h

/-- A variable in braces is its brace, its name and the brace behind the name. -/
theorem Halting.interpolation? (h : Halting more) (cs : List Char) :
    interpolation? ('{' :: (cs ++ more)) =
      if cs.takeWhile isNameChar ≠ [] ∧
          (cs.drop (cs.takeWhile isNameChar).length ++ more).head? = some '}' then
        some (.interpolation (String.ofList (cs.takeWhile isNameChar)), (cs.takeWhile isNameChar).length + 2)
      else none := by
  have hname := h.eq (fun hz => takeWhile_stop hz.name) cs
  have hpre := List.takeWhile_prefix (l := cs) isNameChar
  simp only [Stylesheet.interpolation?, hname, drop_prefix_append hpre]
  split
  · rename_i heq hbrace
    rw [hbrace, if_pos ⟨by simp [heq], rfl⟩]
  · rename_i hnot
    rw [if_neg]
    rintro ⟨hne, hhead⟩
    obtain ⟨e, name, heq⟩ := List.exists_cons_of_ne_nil hne
    obtain ⟨rest, hrest⟩ := List.head?_eq_some_iff.mp hhead
    exact hnot e name rest heq hrest

theorem Replaceable.interpolation?_eq (h : Replaceable old new)
    (hle : ∀ found, interpolation? (cs ++ old) = some found → found.2 ≤ cs.length) :
    interpolation? (cs ++ new) = interpolation? (cs ++ old) := by
  cases cs with
  | nil =>
    cases hold : interpolation? ([] ++ old) with
    | none => exact h.interpolation
    | some found =>
      have hfits := hle found hold
      have hlong := two_le_of_interpolation? hold
      rw [List.length_nil] at hfits
      omega
  | cons c cs =>
    by_cases hc : c = '{'
    · subst hc
      rw [List.cons_append, h.halting.interpolation?] at hle
      rw [List.cons_append, List.cons_append, h.halting.interpolation?, h.halting_new.interpolation?]
      generalize cs.takeWhile isNameChar = name at hle ⊢
      cases hrest : cs.drop name.length with
      | cons d rest => rfl
      | nil =>
        -- The name reaches to the end, so a brace behind it would be read over.
        have hlength := List.drop_eq_nil_iff.mp hrest
        have hold : ¬ (name ≠ [] ∧ ([] ++ old).head? = some '}') := by
          intro hbrace
          rw [hrest, if_pos hbrace] at hle
          have hfits := hle _ rfl
          simp only [List.length_cons] at hfits
          omega
        have hnew : ¬ (name ≠ [] ∧ ([] ++ new).head? = some '}') := by
          rintro ⟨hne, hhead⟩
          obtain ⟨ds, hds⟩ := List.head?_eq_some_iff.mp hhead
          obtain ⟨rest, rfl⟩ := h.opens (by decide) (by decide) hds
          exact hold ⟨hne, rfl⟩
        rw [if_neg hold, if_neg hnew]
    · simp [interpolation?, hc]

end Names

section Bodies

variable {quote : Char} {cs body : List Char}

/-- The contents of a string are found without anything behind its closing quote. -/
theorem stringBody?_tight (h : stringBody? quote cs = some body) :
    stringBody? quote (body ++ [quote]) = some body := by
  fun_induction stringBody? quote cs generalizing body with
  | case1 => cases h
  | case2 => cases h
  | case3 c cs ih =>
    obtain ⟨body, hbody, rfl⟩ := Option.map_eq_some_iff.mp h
    simp [stringBody?, ih hbody]
  | case4 c cs hlast hescape hquote =>
    cases h
    obtain rfl : c = quote := by simpa using hquote
    rw [List.nil_append, stringBody?_cons (ne_backslash hlast hescape), if_pos hquote]
  | case5 => cases h
  | case6 c cs hlast hescape hquote hline ih =>
    obtain ⟨body, hbody, rfl⟩ := Option.map_eq_some_iff.mp h
    rw [List.cons_append, stringBody?_cons (ne_backslash hlast hescape), if_neg hquote,
      if_neg hline, ih hbody]
    rfl

/-- The contents of a URL are found without anything behind its closing parenthesis. -/
theorem urlBody?_tight {open? : Option Char} (h : urlBody? open? cs = some body) :
    urlBody? open? (body ++ [')']) = some body := by
  fun_induction urlBody? open? cs generalizing body with
  | case1 => cases h
  | case2 => cases h
  | case3 open? c cs ih =>
    obtain ⟨body, hbody, rfl⟩ := Option.map_eq_some_iff.mp h
    simp [urlBody?, ih hbody]
  | case4 quote c cs hlast hescape ih =>
    obtain ⟨body, hbody, rfl⟩ := Option.map_eq_some_iff.mp h
    rw [List.cons_append, urlBody?_cons_some (ne_backslash hlast hescape), ih hbody]
    rfl
  | case5 c cs hlast hescape hclose =>
    cases h
    rw [List.nil_append, urlBody?_cons_none (by decide)]
    rfl
  | case6 c cs hlast hescape hclose ih =>
    obtain ⟨body, hbody, rfl⟩ := Option.map_eq_some_iff.mp h
    rw [List.cons_append, urlBody?_cons_none (ne_backslash hlast hescape), if_neg hclose,
      ih hbody]
    rfl

/-- A text that goes on behind the front part of another has the front part itself in front. -/
theorem exists_append_of_le {front rest cs more : List Char} (h : cs ++ more = front ++ rest)
    (hle : front.length ≤ cs.length) : ∃ back, cs = front ++ back := by
  have hpre : front <+: cs :=
    List.prefix_of_prefix_length_le ⟨rest, h.symm⟩ (List.prefix_append cs more) hle
  obtain ⟨back, hback⟩ := hpre
  exact ⟨back, hback.symm⟩

end Bodies

section Lexemes

variable {previous : Option Token} {c : Char} {cs old new : List Char} {lexeme : Lexeme} {n : Nat}

theorem quotedAt_replaced (h : quotedAt c (cs ++ old) = .ok (lexeme, n)) (hn : n ≤ cs.length) :
    quotedAt c (cs ++ new) = .ok (lexeme, n) := by
  unfold quotedAt at h
  cases hbody : stringBody? c (cs ++ old) with
  | none =>
    rw [hbody] at h
    cases h
  | some body =>
    rw [hbody] at h
    cases h
    obtain ⟨⟨rest, hrest⟩, -⟩ := stringBody?_spelled hbody
    have htight := stringBody?_tight hbody
    have happend : cs ++ old = body ++ [c] ++ rest := by
      rw [hrest]
      simp
    obtain ⟨back, rfl⟩ := exists_append_of_le happend (by simpa using hn)
    unfold quotedAt
    rw [List.append_assoc, stringBody?_append htight]

theorem urlAt_replaced (h : urlAt (cs ++ old) = .ok (lexeme, n)) (hn : n ≤ cs.length) :
    urlAt (cs ++ new) = .ok (lexeme, n) := by
  unfold urlAt at h
  cases hbody : urlBody? none ((cs ++ old).drop 3) with
  | none =>
    rw [hbody] at h
    cases h
  | some body =>
    rw [hbody] at h
    cases h
    have hdrop (more : List Char) : (cs ++ more).drop 3 = cs.drop 3 ++ more :=
      List.drop_append_of_le_length (by omega)
    obtain ⟨rest, hrest⟩ := urlBody?_spelled hbody
    have htight := urlBody?_tight hbody
    have hle : (body ++ [')']).length ≤ (cs.drop 3).length := by
      rw [List.length_append, List.length_singleton, List.length_drop]
      omega
    rw [hdrop] at hrest
    have happend : cs.drop 3 ++ old = body ++ [')'] ++ rest := by
      rw [hrest]
      simp
    obtain ⟨back, hback⟩ := exists_append_of_le happend hle
    unfold urlAt
    rw [hdrop, hback, List.append_assoc, urlBody?_append htight]

theorem hashAt_replaced (hreplace : Replaceable old new) (h : hashAt c (cs ++ old) = (lexeme, n))
    (hn : n ≤ cs.length) : hashAt c (cs ++ new) = (lexeme, n) := by
  have hle : escapedRun isNameChar (cs ++ old) ≤ cs.length := by
    rw [hashAt] at h
    split at h
    · cases h
      exact hn
    · omega
  have hle' := hreplace.escapedRun_le not_escape_isNameChar (by decide) (by decide) hle
  have hsame : escapedRun isNameChar (cs ++ new) = escapedRun isNameChar (cs ++ old) := by
    rw [escapedRun_of_le not_escape_isNameChar hle', escapedRun_of_le not_escape_isNameChar hle]
  rw [← h, hashAt, hashAt, hsame, nameFrom_append hle, nameFrom_append hle]

theorem wordAt_replaced (hreplace : Replaceable old new) (h : wordAt c (cs ++ old) = (lexeme, n))
    (hn : n ≤ cs.length) : wordAt c (cs ++ new) = (lexeme, n) := by
  have hdots {more : List Char} (hmore : Halting more) := hmore.eq Stop.opensDots (c :: cs)
  have hfilter {more : List Char} (hmore : Halting more) := hmore.eq Stop.filterNameLength? (c :: cs)
  unfold wordAt at h ⊢
  rw [← List.cons_append, hfilter hreplace.halting, hdots hreplace.halting] at h
  rw [← List.cons_append, hfilter hreplace.halting_new, hdots hreplace.halting_new]
  cases hname : filterNameLength? (c :: cs) with
  | some k =>
    simp only [hname, Option.some_or] at h ⊢
    cases h
    rw [nameFrom_append hn, nameFrom_append hn]
  | none =>
    simp only [hname, Option.none_or] at h ⊢
    have hfits (k : Nat) (hk : identLength? (c :: cs ++ old) = some k) : k ≤ (c :: cs).length := by
      rw [hk] at h
      cases h
      rw [List.length_cons]
      omega
    obtain ⟨hold, hnew⟩ := hreplace.identLength? hfits
    rw [hold] at h
    rw [hnew]
    cases hident : identLength? (c :: cs) with
    | none =>
      rw [hident] at h
      exact h
    | some k =>
      rw [hident] at h
      cases h
      simp only [nameFrom_append hn]

theorem plainAt_replaced {spaced : Bool} (hreplace : Replaceable old new)
    (h : plainAt previous spaced c (cs ++ old) = (lexeme, n)) (hn : n ≤ cs.length) :
    plainAt previous spaced c (cs ++ new) = (lexeme, n) := by
  have hrange {more : List Char} (hmore : Halting more) := hmore.eq Stop.unicodeRangeLength? (c :: cs)
  have hkeyword {more : List Char} (hmore : Halting more) := hmore.eq Stop.atKeyword? cs
  have hnumber {more : List Char} (hmore : Halting more) :=
    hmore.eq (fun hz => hz.number? previous spaced) (c :: cs)
  unfold plainAt at h ⊢
  rw [← List.cons_append, hrange hreplace.halting, hkeyword hreplace.halting,
    hnumber hreplace.halting] at h
  rw [← List.cons_append, hrange hreplace.halting_new, hkeyword hreplace.halting_new,
    hnumber hreplace.halting_new]
  cases hlength : unicodeRangeLength? (c :: cs) with
  | some k =>
    simp only [hlength] at h ⊢
    cases h
    rw [nameFrom_append hn, nameFrom_append hn]
  | none =>
    simp only [hlength] at h ⊢
    by_cases hat : c == '@'
    · simp only [if_pos hat] at h ⊢
      have hfits (found : Lexeme × Nat) (hfound : interpolation? (cs ++ old) = some found) :
          found.2 ≤ cs.length := by
        rw [hfound, Option.getD_some] at h
        rw [h]
        exact hn
      rwa [hreplace.interpolation?_eq hfits]
    · simp only [if_neg hat] at h ⊢
      cases hfound : number? previous spaced (c :: cs) with
      | some found => simpa only [hfound] using h
      | none =>
        simp only [hfound] at h ⊢
        by_cases hhash : c == '#'
        · simp only [if_pos hhash] at h ⊢
          exact hashAt_replaced hreplace h hn
        · simp only [if_neg hhash] at h ⊢
          exact wordAt_replaced hreplace h hn

/-- A lexeme that ends in front of the old text reads the same in front of the new one. -/
theorem lexemeAt_replaced {gap : List Char} (hreplace : Replaceable old new)
    (h : lexemeAt previous gap c (cs ++ old) = .ok (lexeme, n)) (hn : n ≤ cs.length) :
    lexemeAt previous gap c (cs ++ new) = .ok (lexeme, n) := by
  have hurl {more : List Char} (hmore : Halting more) := hmore.eq Stop.opensUrl (c :: cs)
  unfold lexemeAt at h ⊢
  rw [← List.cons_append, hurl hreplace.halting] at h
  rw [← List.cons_append, hurl hreplace.halting_new]
  simp only at h ⊢
  split at h
  · rename_i hquote
    rw [if_pos hquote]
    exact quotedAt_replaced h hn
  · rename_i hquote
    rw [if_neg hquote]
    split at h
    · rename_i hopen
      rw [if_pos hopen]
      exact urlAt_replaced h hn
    · rename_i hopen
      rw [if_neg hopen, plainAt_replaced hreplace (Except.ok.inj h) hn]

end Lexemes

section Gaps

variable {line : Nat} {mode : Skipping} {c : Char} {cs gap rest : List Char}

/-- What remains behind a gap opens no gap. -/
theorem gapFrom_rest (h : gapFrom line mode cs = .ok (gap, c :: rest)) :
    isBlank c = false ∧ (∀ ds, c = '/' → rest = '*' :: ds → False) ∧
      ∀ ds, c = '/' → rest = '/' :: ds → False := by
  fun_induction gapFrom line mode cs generalizing gap with
  | case1 _ cs ih | case2 _ cs ih | case3 _ d cs _ _ _ ih | case5 _ _ cs ih | case6 _ _ d cs _ ih
  | case8 _ d cs _ ih | case9 _ d cs _ ih =>
    obtain ⟨front, hfront, rfl⟩ := gapFrom.skip_eq_ok h
    exact ih hfront
  | case4 line d cs hblock hline hblank =>
    cases h
    exact ⟨by simpa using hblank, hblock, hline⟩
  | case7 => cases h
  | case10 => cases h

theorem isGap_loose (h : IsGap rest gap) : Loose gap := by
  intro z more hgap
  cases h with
  | nil => cases hgap
  | blank hc =>
    cases hgap
    exact .inl hc
  | block | line =>
    cases hgap
    exact .inr rfl

/-- A gap in front of what opens no gap is a lead: its last comment has ended. -/
theorem isLead_of_isGap (hc : isBlank c = false) (h : IsGap (c :: rest) gap) : IsLead gap := by
  induction h with
  | nil => exact .nil
  | blank hblank _ ih => exact .blank hblank ih
  | block hbody _ ih => exact .block hbody ih
  | @line body gap hbody hend hgap ih =>
    rcases hend with hend | ⟨more, hmore⟩
    · simp at hend
    · cases gap with
      | nil =>
        obtain ⟨rfl, -⟩ := List.cons.inj hmore
        exact absurd hc (by decide)
      | cons d gap =>
        obtain ⟨rfl, -⟩ := List.cons.inj hmore
        cases hgap with
        | blank _ hgap =>
          cases ih with
          | blank _ ih => exact .line hbody ih

end Gaps

section Tokens

variable {line start : Nat} {previous : Option Token} {cs old new : List Char} {t : Token}
  {ts : List Token}

/-- How the next token comes about when it is not the end of the input. -/
theorem nextToken_cases {rest : List Char} (h : nextToken line start previous cs = .ok (t, rest))
    (htext : t.text ≠ []) :
    ∃ c body, t.text = c :: body ∧ gapFrom line .blank cs = .ok (t.gap, c :: (body ++ rest)) ∧
      lexemeAt previous t.gap c (body ++ rest) = .ok (t.lexeme, body.length) := by
  unfold nextToken at h
  split at h
  · cases h
  · cases h
    exact absurd rfl htext
  · rename_i gap c cs' hgap
    split at h
    · cases h
    · rename_i lexeme n hlexeme
      cases h
      have hle := (lexemeAt_spelled hlexeme).1
      refine ⟨c, cs'.take n, rfl, ?_, ?_⟩
      · rwa [List.take_append_drop]
      · rwa [List.take_append_drop, List.length_take_of_le hle]

theorem nextToken_of {rest gap : List Char} {c : Char} {body : List Char} {lexeme : Lexeme}
    (hgap : gapFrom line .blank cs = .ok (gap, c :: (body ++ rest)))
    (hlexeme : lexemeAt previous gap c (body ++ rest) = .ok (lexeme, body.length)) :
    nextToken line start previous cs =
      .ok (⟨lexeme, gap, c :: body, linesAfter line gap, start + gap.length⟩, rest) := by
  unfold nextToken
  rw [hgap]
  simp only [hlexeme, List.take_left, List.drop_left]

theorem gapFrom_replaced {gap : List Char} {c : Char} {text : List Char}
    (hreplace : Replaceable old new)
    (h : gapFrom line .blank text = .ok (gap, c :: (cs ++ old))) :
    gapFrom line .blank (gap ++ c :: (cs ++ new)) = .ok (gap, c :: (cs ++ new)) := by
  have hgap : IsGap (c :: (cs ++ old)) gap := gapFrom_skips h
  obtain ⟨hblank, hblock, hline⟩ := gapFrom_rest h
  rw [gapFrom_lead (isLead_of_isGap hblank hgap),
    gapFrom_blank (hreplace.not_joined (by decide) (by decide) hblock)
      (hreplace.not_joined (by decide) (by decide) hline),
    hblank, if_neg (by decide), gapFrom.skip_ok, List.append_nil]

/-- A token that ends in front of the old text reads the same in front of the new one. -/
theorem nextToken_replaced {text : List Char} (hreplace : Replaceable old new)
    (h : nextToken line start previous text = .ok (t, cs ++ old)) (htext : t.text ≠ []) :
    nextToken line start previous (t.gap ++ t.text ++ (cs ++ new)) = .ok (t, cs ++ new) := by
  obtain ⟨c, body, hcs, hgap, hlexeme⟩ := nextToken_cases h htext
  obtain ⟨-, -, hline, hstart⟩ := nextToken_spec h
  rw [← List.append_assoc] at hgap hlexeme
  have hgap' := gapFrom_replaced hreplace hgap
  have hlexeme' := lexemeAt_replaced hreplace hlexeme (by simp)
  rw [List.append_assoc] at hgap' hlexeme'
  have hsame : t = ⟨t.lexeme, t.gap, c :: body, linesAfter line t.gap, start + t.gap.length⟩ := by
    rw [← hcs, ← hline, ← hstart]
  rw [hcs, List.append_assoc, List.cons_append, nextToken_of hgap' hlexeme', ← hsame]

/-- The text of tokens, with what stands in front of each. -/
def charsOf (ts : List Token) : List Char := ts.flatMap fun t => t.gap ++ t.text

theorem charsOf_cons (t : Token) (ts : List Token) :
    charsOf (t :: ts) = t.gap ++ t.text ++ charsOf ts := rfl

theorem charsOf_append (ts us : List Token) : charsOf (ts ++ us) = charsOf ts ++ charsOf us := by
  simp [charsOf]

/-- Tokens that end in front of the old text read the same in front of the new one. -/
theorem tokensFrom_replaced {us : List Token} (h : tokensFrom line start previous cs = .ok (ts ++ us))
    (hus : us ≠ []) : ∃ previous' old, cs = charsOf ts ++ old ∧
      tokensFrom (linesAfter line (charsOf ts)) (start + (charsOf ts).length) previous' old = .ok us ∧
      ∀ new, Replaceable old new → tokensFrom line start previous (charsOf ts ++ new) =
        (tokensFrom (linesAfter line (charsOf ts)) (start + (charsOf ts).length) previous' new).map
          (ts ++ ·) := by
  induction ts generalizing line start previous cs with
  | nil =>
    refine ⟨previous, cs, rfl, h, fun new _ => ?_⟩
    change tokensFrom line start previous new = (tokensFrom line start previous new).map id
    cases tokensFrom line start previous new <;> rfl
  | cons t ts ih =>
    obtain ⟨u, rest, hnext, hcases⟩ := tokensFrom_cases h
    rcases hcases with ⟨-, hlast⟩ | ⟨htext, -, vs, htail, hvs⟩
    · have hlength := List.length_pos_iff.mpr hus
      have hone := congrArg List.length hlast
      simp only [List.cons_append, List.length_cons, List.length_append, List.length_nil] at hone
      omega
    · obtain ⟨rfl, rfl⟩ := List.cons.inj hvs
      obtain ⟨previous', old, rfl, hold, hnew⟩ := ih htail
      obtain ⟨hcs, -, hline, hstart⟩ := nextToken_spec hnext
      have hstop : t.stop + (charsOf ts).length = start + (charsOf (t :: ts)).length := by
        rw [Token.stop, hstart, charsOf_cons, List.length_append, List.length_append]
        omega
      have hlines : linesAfter (linesAfter t.line t.text) (charsOf ts) =
          linesAfter line (charsOf (t :: ts)) := by
        rw [hline, charsOf_cons, linesAfter_append, linesAfter_append]
      rw [hstop, hlines] at hold hnew
      refine ⟨previous', old, ?_, hold, fun new hreplace => ?_⟩
      · simp only [hcs, charsOf_cons, List.append_assoc]
      · have hchars : charsOf (t :: ts) ++ new = t.gap ++ t.text ++ (charsOf ts ++ new) := by
          simp only [charsOf_cons, List.append_assoc]
        rw [hchars, tokensFrom_eq, nextToken_replaced hreplace hnext htext]
        simp only [Except.bind, if_neg htext, hnew new hreplace]
        generalize tokensFrom _ _ previous' new = x
        cases x <;> rfl

/-- What stands behind a semicolon or a brace may change, if it makes no variable of the brace. -/
theorem Loose.replaceable_bound {gap more more' : List Char} {z : Char} (h : Loose gap) (hz : Stop z)
    (hbrace : interpolation? (z :: more') = none) :
    Replaceable (gap ++ z :: more) (gap ++ z :: more') := by
  refine ⟨h.halting_append ?_, .inl ?_, h.no_interpolation hbrace⟩
  · intro x hx
    cases hx
    exact hz
  · cases gap <;> rfl

/-- How a semicolon or a brace is read, and that nothing behind it matters. -/
theorem nextToken_bound (h : nextToken line start previous cs = .ok (t, after))
    (ht : t.lexeme = .delim z) (hz : z = ';' ∨ z = '}' ∨ z = '{') :
    cs = t.gap ++ z :: after ∧ t.text = [z] ∧ IsLead t.gap ∧ IsGap (z :: after) t.gap ∧
      ∀ more, nextToken line start previous (t.gap ++ z :: more) = .ok (t, more) := by
  have htext : t.text = [z] := nextToken_delim h ht
  obtain ⟨hcs, -, hline, hstart⟩ := nextToken_spec h
  have hgap := (nextToken_spelled h).1
  rw [htext] at hcs hgap
  have hblank : isBlank z = false := by rcases hz with rfl | rfl | rfl <;> decide
  have hslash : z ≠ '/' := by rcases hz with rfl | rfl | rfl <;> decide
  have hlead : IsLead t.gap := isLead_of_isGap hblank hgap
  refine ⟨by simpa using hcs, htext, hlead, hgap, fun more => ?_⟩
  have hread : gapFrom line .blank (t.gap ++ z :: more) = .ok (t.gap, z :: ([] ++ more)) := by
    rw [gapFrom_lead hlead, gapFrom_blank (fun _ hc => absurd hc hslash) (fun _ hc => absurd hc hslash),
      hblank, if_neg (by decide), gapFrom.skip_ok, List.append_nil, List.nil_append]
  have hsame : t = ⟨.delim z, t.gap, [z], linesAfter line t.gap, start + t.gap.length⟩ := by
    rw [← htext, ← ht, ← hline, ← hstart]
  have hnext : nextToken line start previous (t.gap ++ z :: more) =
      .ok (⟨.delim z, t.gap, [z], linesAfter line t.gap, start + t.gap.length⟩, more) :=
    nextToken_of hread (lexemeAt_bound hz _)
  rw [hnext, ← hsame]

/-- A text that ends with a semicolon or a closing brace reads the same in front of another text, and
the tokens of the other text follow. -/
theorem tokensFrom_append {last : Token} {z : Char}
    (h : tokensFrom line start previous cs = .ok (ts ++ [t, last])) (ht : t.lexeme = .delim z)
    (hz : z = ';' ∨ z = '}') (hstop : t.stop = start + cs.length) (more : List Char) :
    tokensFrom line start previous (cs ++ more) =
      (tokensFrom (linesAfter line cs) t.stop (some t) more).map (ts ++ [t] ++ ·) := by
  obtain ⟨previous', old, rfl, hold, hnew⟩ := tokensFrom_replaced h (by simp)
  obtain ⟨u, after, hnext, hcases⟩ := tokensFrom_cases hold
  obtain rfl : u = t := by
    rcases hcases with ⟨-, heq⟩ | ⟨-, -, us, -, heq⟩
    · cases heq
    · exact (List.cons.inj heq).1.symm
  obtain ⟨rfl, htext, -, hgap, hread⟩ := nextToken_bound hnext ht (hz.imp_right .inl)
  obtain ⟨-, -, hline, hstart⟩ := nextToken_spec hnext
  -- Nothing is left behind the token.
  obtain rfl : after = [] := by
    rw [Token.stop, hstart, htext] at hstop
    simp only [List.length_append, List.length_cons, List.length_nil] at hstop
    exact List.eq_nil_of_length_eq_zero (by omega)
  have hreplace : Replaceable (u.gap ++ [z]) (u.gap ++ z :: more) := by
    rcases hz with rfl | rfl
    · exact (isGap_loose hgap).replaceable_bound stop_semicolon (by simp [interpolation?])
    · exact (isGap_loose hgap).replaceable_bound stop_brace (by simp [interpolation?])
  have hlines : linesAfter u.line u.text = linesAfter line (charsOf ts ++ (u.gap ++ [z])) := by
    rw [hline, htext, linesAfter_append, linesAfter_append]
  have hsplit : charsOf ts ++ (u.gap ++ [z]) ++ more = charsOf ts ++ (u.gap ++ z :: more) := by simp
  have hne : u.text ≠ [] := by simp [htext]
  rw [hsplit, hnew _ hreplace, tokensFrom_eq, hread more]
  simp only [Except.bind, if_neg hne, hlines]
  generalize tokensFrom _ _ (some u) more = x
  cases x <;> simp [Except.map]

end Tokens

end StyleTally.Stylesheet
