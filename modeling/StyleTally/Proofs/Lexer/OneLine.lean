import StyleTally.Proofs.Lexer.Spelling

/-!
# Names on one line

No name and no number runs past the end of a line: a line feed belongs to no run of characters, and
a backslash does not escape it. Strings, URLs and gaps are the only parts of a text that may hold
one.
-/

namespace StyleTally.Stylesheet

open Text

/-- What the lexeme is called by stands on one line. -/
def Lexeme.OneLine : Lexeme → Prop
  | ident s | atKeyword s | interpolation s | hash s => '\n' ∉ s.toList
  | number s _ unit => '\n' ∉ s.toList ∧ '\n' ∉ unit.toList
  | _ => True

variable {c : Char} {cs : List Char} {n : Nat} {lexeme : Lexeme} {previous : Option Token}

theorem stop_feed : Stop '\n' := by decide

theorem isIdentChar_feed : isIdentChar '\n' = false := by decide

section Runs

variable {p : Char → Bool}

theorem feed_not_mem_takeWhile (hp : p '\n' = false) (cs : List Char) : '\n' ∉ cs.takeWhile p := by
  intro hmem
  have hpass := List.all_eq_true.mp List.all_takeWhile _ hmem
  simp [hp] at hpass

theorem feed_not_mem_escapedRun (hp : p '\n' = false) (cs : List Char) :
    '\n' ∉ cs.take (escapedRun p cs) := by
  fun_induction escapedRun p cs with
  | case1 => simp
  | case2 => simp
  | case3 c cs hc ih =>
    have hfeed : '\n' ≠ c := by
      rintro rfl
      exact hc rfl
    simpa [List.take_succ_cons, hfeed] using ih
  | case4 c cs _ hc ih =>
    have hfeed : '\n' ≠ c := by
      rintro rfl
      simp [hp] at hc
    simpa [List.take_succ_cons, hfeed] using ih
  | case5 => simp

theorem opensWith_take {ps : List (Char → Bool)} (hps : ∀ p ∈ ps, p '\n' = false)
    (h : opensWith ps cs) : '\n' ∉ cs.take ps.length := by
  induction ps generalizing cs with
  | nil => simp
  | cons p ps ih =>
    obtain ⟨hp, hrest⟩ := List.forall_mem_cons.mp hps
    cases cs with
    | nil => simp
    | cons c cs =>
      rw [opensWith, Bool.and_eq_true] at h
      have hfeed : '\n' ≠ c := by
        rintro rfl
        simp [hp] at h
      simpa [List.take_succ_cons, hfeed] using ih hrest h.2

end Runs

section Names

/-- A part of a text from its front that stands on one line. -/
def FrontOnLine (n : Nat) (cs : List Char) : Prop := 0 < n ∧ '\n' ∉ cs.take n

theorem FrontOnLine.add {m : Nat} (hm : '\n' ∉ cs.take m) (h : FrontOnLine n (cs.drop m)) :
    FrontOnLine (m + n) cs := by
  refine ⟨by have := h.1; omega, ?_⟩
  rw [List.take_add, List.mem_append, not_or]
  exact ⟨hm, h.2⟩

theorem FrontOnLine.name (h : FrontOnLine n (c :: cs)) : '\n' ∉ (nameFrom c cs (n - 1)).toList := by
  obtain ⟨hpos, hfront⟩ := h
  have hn : n = n - 1 + 1 := by omega
  rw [hn, List.take_succ_cons] at hfront
  simpa [nameFrom] using hfront

theorem undashedLength?_onLine (h : undashedLength? cs = some n) : FrontOnLine n cs := by
  unfold undashedLength? at h
  split at h
  · rename_i c rest
    split at h
    · cases h
    · rename_i hc
      cases h
      have hfeed : '\n' ≠ c := by
        rintro rfl
        exact hc rfl
      refine ⟨by omega, ?_⟩
      rw [Nat.add_comm, List.take_succ_cons, List.take_succ_cons]
      simp [hfeed, feed_not_mem_escapedRun isIdentChar_feed rest]
  · rename_i c rest _
    split at h
    · rename_i hc
      cases h
      have hfeed : '\n' ≠ c := by
        rintro rfl
        exact absurd hc (by decide)
      refine ⟨by omega, ?_⟩
      rw [Nat.add_comm, List.take_succ_cons]
      simp [hfeed, feed_not_mem_escapedRun isIdentChar_feed rest]
    · cases h
  · cases h

theorem identLength?_onLine (h : identLength? cs = some n) : FrontOnLine n cs := by
  rw [identLength?] at h
  split at h
  · cases h
  · obtain ⟨k, hk, rfl⟩ := Option.map_eq_some_iff.mp h
    refine .add ?_ (undashedLength?_onLine hk)
    rw [← List.prefix_iff_eq_take.mp (List.takeWhile_prefix _)]
    exact feed_not_mem_takeWhile (by decide) cs

theorem filterNameLength?_onLine (h : filterNameLength? cs = some n) : FrontOnLine n cs := by
  rw [filterNameLength?] at h
  split at h
  · rename_i hmark
    rw [Bool.and_eq_true, decide_eq_true_eq] at hmark
    cases h
    refine .add ?_ ⟨hmark.2, ?_⟩
    · exact opensWith_take stop_feed.filter hmark.1
    · rw [← List.prefix_iff_eq_take.mp (List.takeWhile_prefix _)]
      exact feed_not_mem_takeWhile (by decide) _
  · cases h

theorem interpolation?_oneLine (h : interpolation? cs = some (lexeme, n)) : lexeme.OneLine := by
  rw [interpolation?.eq_def] at h
  split at h
  · simp only at h
    split at h
    · cases h
      rw [Lexeme.OneLine, String.toList_ofList]
      exact feed_not_mem_takeWhile stop_feed.name _
    · cases h
  · cases h

theorem atKeyword?_oneLine (h : atKeyword? cs = some (lexeme, n)) : lexeme.OneLine := by
  unfold atKeyword? at h
  extract_lets at? name at h
  split at h
  · cases h
  · cases h
    have hsign : '\n' ∉ at? := fun hmem =>
      feed_not_mem_takeWhile (by decide) cs ((List.take_prefix ..).subset hmem)
    rw [Lexeme.OneLine, String.toList_ofList, List.mem_append, not_or]
    exact ⟨hsign, feed_not_mem_takeWhile stop_feed.name _⟩

theorem hashAt_oneLine (cs : List Char) : (hashAt '#' cs).1.OneLine := by
  rw [hashAt]
  split
  · simp [Lexeme.OneLine, nameFrom, feed_not_mem_escapedRun stop_feed.name]
  · trivial

theorem wordAt_oneLine (c : Char) (cs : List Char) : (wordAt c cs).1.OneLine := by
  rw [wordAt]
  split
  · rename_i n hn
    rcases Option.or_eq_some_iff.mp hn with hfilter | ⟨-, hident⟩
    · exact (filterNameLength?_onLine hfilter).name
    · exact (identLength?_onLine hident).name
  · split <;> trivial

end Names

section Numbers

namespace NumberText

theorem feed_not_mem_readExponent (cs : List Char) : '\n' ∉ readExponent cs := by
  cases cs with
  | nil => simp [readExponent]
  | cons e cs =>
    have hsign : '\n' ∉ (cs.takeWhile fun c => c == '+' || c == '-').take 1 := fun hmem =>
      feed_not_mem_takeWhile (by decide) cs ((List.take_prefix ..).subset hmem)
    simp only [readExponent]
    split
    · rename_i he
      have hfeed : '\n' ≠ e := by
        rintro rfl
        simp at he
      simp only [List.cons_append, List.mem_cons, List.mem_append, not_or]
      exact ⟨hfeed, hsign, feed_not_mem_takeWhile stop_feed.digit _⟩
    · exact List.not_mem_nil

theorem feed_not_mem_readUnit (cs : List Char) : '\n' ∉ readUnit cs := by
  have hword : '\n' ∉ unitWord cs := by
    unfold unitWord
    split
    · decide
    · exact feed_not_mem_takeWhile stop_feed.alpha _
  rw [readUnit]
  split
  · split
    · rename_i c _ _ hhex
      have hfeed : '\n' ≠ c := by
        rintro rfl
        simp [stop_feed.hex] at hhex
      simp [hword, hfeed]
    · exact hword
  · exact hword

theorem feed_not_mem_readPlaces (cs : List Char) : '\n' ∉ readPlaces cs := by
  unfold readPlaces
  split
  · exact feed_not_mem_takeWhile stop_feed.digit _
  · simp

theorem read?_oneLine {number : NumberText} (h : read? cs = some number) :
    '\n' ∉ number.text ∧ '\n' ∉ number.unit := by
  unfold read? at h
  extract_lets sign cs₁ whole cs₂ places cs₃ exponent at h
  split at h
  · cases h
  · obtain rfl := Option.some.inj h
    have hsign : '\n' ∉ sign := fun hmem =>
      feed_not_mem_takeWhile (by decide) cs ((List.take_prefix ..).subset hmem)
    have hwhole : '\n' ∉ whole := feed_not_mem_takeWhile stop_feed.digit _
    have hplaces : '\n' ∉ places := feed_not_mem_readPlaces _
    have hpoint : '\n' ∉ if places.isEmpty then [] else '.' :: places := by
      split <;> simp [hplaces]
    have hexponent : '\n' ∉ exponent := feed_not_mem_readExponent _
    have hunit := feed_not_mem_readUnit (cs₃.drop exponent.length)
    refine ⟨?_, hunit⟩
    simp only [text, List.mem_append, not_or]
    exact ⟨⟨⟨⟨hsign, hwhole⟩, hpoint⟩, hexponent⟩, hunit⟩

end NumberText

theorem number?_oneLine {spaced : Bool} (h : number? previous spaced cs = some (lexeme, n)) :
    lexeme.OneLine := by
  obtain ⟨number, hread, hnumber⟩ := Option.bind_eq_some_iff.mp h
  split at hnumber
  · cases hnumber
    simpa [Lexeme.OneLine] using NumberText.read?_oneLine hread
  · cases hnumber

end Numbers

theorem plainAt_oneLine (previous : Option Token) (spaced : Bool) (c : Char) (cs : List Char) :
    (plainAt previous spaced c cs).1.OneLine := by
  unfold plainAt
  split
  · trivial
  · split
    · cases hinterpolation : interpolation? cs with
      | some found => exact interpolation?_oneLine hinterpolation
      | none =>
        cases hkeyword : atKeyword? cs with
        | some found => exact atKeyword?_oneLine hkeyword
        | none => trivial
    · split
      · rename_i found hfound
        exact number?_oneLine hfound
      · split
        · rename_i hhash
          obtain rfl : c = '#' := by simpa using hhash
          exact hashAt_oneLine cs
        · exact wordAt_oneLine c cs

theorem lexemeAt_oneLine {gap : List Char} (h : lexemeAt previous gap c cs = .ok (lexeme, n)) :
    lexeme.OneLine := by
  unfold lexemeAt at h
  extract_lets spaced joined at h
  split at h
  · unfold quotedAt at h
    split at h <;> cases h
    trivial
  · split at h
    · unfold urlAt at h
      split at h <;> cases h
      trivial
    · have hplain := plainAt_oneLine previous spaced c cs
      rwa [Except.ok.inj h] at hplain

theorem nextToken_oneLine {line start : Nat} {rest : List Char} {t : Token}
    (h : nextToken line start previous cs = .ok (t, rest)) : t.lexeme.OneLine := by
  unfold nextToken at h
  split at h
  · cases h
  · cases h
    trivial
  · split at h
    · cases h
    · rename_i hlexeme
      cases h
      exact lexemeAt_oneLine hlexeme

theorem tokensFrom_oneLine {line start : Nat} {ts : List Token}
    (h : tokensFrom line start previous cs = .ok ts) : ∀ t ∈ ts, t.lexeme.OneLine := by
  induction hn : cs.length using Nat.strongRecOn generalizing line start previous cs ts with
  | ind n ih =>
    obtain ⟨u, rest, hnext, hcases⟩ := tokensFrom_cases h
    have hu := nextToken_oneLine hnext
    rcases hcases with ⟨-, rfl⟩ | ⟨-, hlength, us, hus, rfl⟩
    · simpa using hu
    · exact List.forall_mem_cons.mpr ⟨hu, ih _ (hn ▸ hlength) hus rfl⟩

/-- The names and numbers of a stylesheet stand on one line each. -/
theorem tokenize_oneLine {source : String} {ts : List Token} (h : tokenize source = .ok ts) :
    ∀ t ∈ ts, t.lexeme.OneLine :=
  tokensFrom_oneLine h

end StyleTally.Stylesheet
