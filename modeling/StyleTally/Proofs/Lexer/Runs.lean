import StyleTally.Stylesheet.Lexer

/-!
# The runs of names and numbers

Names and numbers are put together from runs of characters, each in front of what the runs before it
leave. No run reaches over certain characters, which are called stops here: what follows a stop does
not matter to the runs in front of it.
-/

namespace StyleTally.Stylesheet

open Text

section Numbers

open NumberText

theorem append_isPrefix {front back cs : List Char} (hfront : front <+: cs)
    (hback : back <+: cs.drop front.length) : front ++ back <+: cs := by
  obtain ⟨rest, rfl⟩ := hfront
  rw [List.drop_left] at hback
  exact (List.prefix_append_right_inj front).mpr hback

theorem sign_isPrefix (cs : List Char) :
    (cs.takeWhile fun c => c == '+' || c == '-').take 1 <+: cs :=
  (List.take_prefix ..).trans (List.takeWhile_prefix _)

theorem readPlaces_isPrefix (cs : List Char) :
    (if (readPlaces cs).isEmpty then [] else '.' :: readPlaces cs) <+: cs := by
  split
  · exact List.nil_prefix
  · rename_i hplaces
    unfold readPlaces at hplaces ⊢
    split
    · exact List.cons_prefix_cons.mpr ⟨rfl, List.takeWhile_prefix _⟩
    · simp at hplaces

theorem readExponent_isPrefix (cs : List Char) : readExponent cs <+: cs := by
  cases cs with
  | nil => exact List.prefix_rfl
  | cons e cs =>
    rw [readExponent]
    split
    · have hdigits := append_isPrefix (sign_isPrefix cs) (List.takeWhile_prefix isDecimalDigit)
      exact List.cons_prefix_cons.mpr ⟨rfl, hdigits⟩
    · exact List.nil_prefix

theorem unitWord_isPrefix (cs : List Char) : unitWord cs <+: cs := by
  unfold unitWord
  split
  · exact ⟨_, rfl⟩
  · exact List.takeWhile_prefix _

theorem readUnit_isPrefix (cs : List Char) : readUnit cs <+: cs := by
  have hword : unitWord cs ++ cs.drop (unitWord cs).length = cs :=
    List.prefix_iff_eq_append.mp (unitWord_isPrefix cs)
  rw [readUnit]
  split
  · rename_i c rest heq
    split
    · refine ⟨rest, ?_⟩
      rw [heq] at hword
      simpa using hword
    · exact unitWord_isPrefix cs
  · exact unitWord_isPrefix cs

/-- A number is written as its text, and the text is not empty. -/
theorem read?_isPrefix {cs : List Char} {n : NumberText} (h : read? cs = some n) :
    n.text <+: cs ∧ n.text ≠ [] := by
  unfold read? at h
  extract_lets sign cs₁ whole cs₂ places cs₃ exponent at h
  split at h
  · cases h
  · rename_i hdigits
    obtain rfl := Option.some.inj h
    let point := if places.isEmpty then [] else '.' :: places
    have hpoint : cs₂.drop point.length = cs₃ := by
      by_cases hplaces : places.isEmpty
      · simp [cs₃, point, hplaces]
      · simp [cs₃, point, hplaces]
    -- Each part stands in front of the text that the ones before it leave.
    have hunit : exponent ++ readUnit (cs₃.drop exponent.length) <+: cs₃ :=
      append_isPrefix (readExponent_isPrefix cs₃) (readUnit_isPrefix _)
    have hfraction : point ++ (exponent ++ readUnit (cs₃.drop exponent.length)) <+: cs₂ :=
      append_isPrefix (readPlaces_isPrefix cs₂) (by rwa [hpoint])
    have hwhole := append_isPrefix (List.takeWhile_prefix isDecimalDigit) hfraction
    have hsign := append_isPrefix (sign_isPrefix cs) hwhole
    constructor
    · simpa only [text, List.append_assoc] using hsign
    · intro hnil
      simp only [text, List.append_eq_nil_iff] at hnil
      obtain ⟨⟨⟨⟨-, hwhole⟩, hplaces⟩, -⟩, -⟩ := hnil
      split at hplaces
      · simp_all
      · cases hplaces

end Numbers

/-- A character that belongs to no run of a name or a number and to no mark of several characters. -/
structure Stop (z : Char) : Prop where
  name : isNameChar z = false
  digit : isDecimalDigit z = false
  hex : isHexDigit z = false
  alpha : z.isAlpha = false
  letter : ∀ small ∈ ['u', 'r', 'l'], isLetter small z = false
  filter : ∀ p ∈ filterMark, p z = false
  mark : z ∉ ['+', '.', '%', '\\', '@', '?', '(']

instance (z : Char) : Decidable (Stop z) :=
  decidable_of_iff
    (isNameChar z = false ∧ isDecimalDigit z = false ∧ isHexDigit z = false ∧ z.isAlpha = false ∧
      ['u', 'r', 'l'].all (fun small => !isLetter small z) = true ∧
      filterMark.all (fun p => !p z) = true ∧ z ∉ ['+', '.', '%', '\\', '@', '?', '('])
    ⟨fun ⟨h₁, h₂, h₃, h₄, h₅, h₆, h₇⟩ =>
        ⟨h₁, h₂, h₃, h₄, by simpa using h₅, by simpa using h₆, h₇⟩,
      fun ⟨h₁, h₂, h₃, h₄, h₅, h₆, h₇⟩ =>
        ⟨h₁, h₂, h₃, h₄, by simpa using h₅, by simpa using h₆, h₇⟩⟩

theorem stop_slash : Stop '/' := by decide

theorem stop_semicolon : Stop ';' := by decide

theorem stop_brace : Stop '}' := by decide

theorem stop_open : Stop '{' := by decide

/-- The code points of blank characters. -/
def blankCodes : List Nat :=
  [9, 10, 11, 12, 13, 28, 29, 30, 31, 32, 0x85, 0xA0, 0x1680, 0x2000, 0x2001, 0x2002, 0x2003,
   0x2004, 0x2005, 0x2006, 0x2007, 0x2008, 0x2009, 0x200A, 0x2028, 0x2029, 0x202F, 0x205F, 0x3000]

theorem toNat_mem_blankCodes {c : Char} (h : isBlank c) : c.toNat ∈ blankCodes := by
  simp only [isBlank, Bool.or_eq_true, Bool.and_eq_true, decide_eq_true_eq, beq_iff_eq] at h
  simp only [blankCodes, List.mem_cons, List.not_mem_nil, or_false]
  omega

theorem stop_blank {z : Char} (h : isBlank z) : Stop z := by
  have hall : ∀ n ∈ blankCodes, Stop (Char.ofNat n) := by decide +kernel
  have hz := hall _ (toNat_mem_blankCodes h)
  rwa [Char.ofNat_toNat] at hz

/-- A run of such characters ends where `z` stands. -/
def Ends (p : Char → Bool) (z : Char) : Prop := p z = false

section Runs

variable {p : Char → Bool} {z : Char}

theorem takeWhile_stop (hp : Ends p z) (cs more : List Char) :
    (cs ++ z :: more).takeWhile p = cs.takeWhile p := by
  induction cs with
  | nil => simp [show p z = false from hp]
  | cons c cs ih => simp only [List.cons_append, List.takeWhile_cons, ih]

/-- What a prefix of a text leaves of it, in front of another text. -/
theorem drop_prefix_append {front cs : List Char} (h : front <+: cs) (more : List Char) :
    (cs ++ more).drop front.length = cs.drop front.length ++ more :=
  List.drop_append_of_le_length h.length_le

theorem opensWith_stop {ps : List (Char → Bool)} (hps : ∀ p ∈ ps, Ends p z)
    (cs more : List Char) : opensWith ps (cs ++ z :: more) = opensWith ps cs := by
  induction ps generalizing cs with
  | nil => simp [opensWith]
  | cons p ps ih =>
    cases cs with
    | nil => simp [opensWith, show p z = false from hps p List.mem_cons_self]
    | cons c cs => simp [opensWith, ih fun p hp => hps p (List.mem_cons_of_mem _ hp)]

theorem length_of_opensWith {ps : List (Char → Bool)} {cs : List Char} (h : opensWith ps cs) :
    ps.length ≤ cs.length := by
  induction ps generalizing cs with
  | nil => exact Nat.zero_le _
  | cons p ps ih =>
    cases cs with
    | nil => cases h
    | cons c cs =>
      rw [opensWith, Bool.and_eq_true] at h
      exact Nat.succ_le_succ (ih h.2)

end Runs

namespace Stop

variable {z : Char} (hz : Stop z)
include hz

theorem ne {c : Char} (hc : c ∈ ['+', '.', '%', '\\', '@', '?', '(']) : z ≠ c := by
  rintro rfl
  exact hz.mark hc

theorem ne_dash : z ≠ '-' := by
  rintro rfl
  exact absurd hz.name (by decide)

theorem sign : Ends (fun c => c == '+' || c == '-') z := by
  simp [Ends, hz.ne_dash, hz.ne (c := '+') (by decide)]

theorem readPlaces (cs more : List Char) :
    NumberText.readPlaces (cs ++ z :: more) = NumberText.readPlaces cs := by
  cases cs with
  | nil => simp [NumberText.readPlaces, hz.ne (c := '.') (by decide)]
  | cons c cs =>
    by_cases hc : c = '.'
    · subst hc
      exact takeWhile_stop hz.digit cs more
    · simp [NumberText.readPlaces, hc]

theorem readExponent (cs more : List Char) :
    NumberText.readExponent (cs ++ z :: more) = NumberText.readExponent cs := by
  cases cs with
  | nil =>
    have he (e : Char) (halpha : e.isAlpha = true) : z ≠ e := by
      rintro rfl
      simp [hz.alpha] at halpha
    simp [NumberText.readExponent, he 'e' (by decide), he 'E' (by decide)]
  | cons e cs =>
    simp only [List.cons_append, NumberText.readExponent, takeWhile_stop hz.sign,
      drop_prefix_append (sign_isPrefix cs), takeWhile_stop hz.digit]

theorem unitWord (cs more : List Char) :
    NumberText.unitWord (cs ++ z :: more) = NumberText.unitWord cs := by
  cases cs with
  | nil => simp [NumberText.unitWord, hz.ne (c := '%') (by decide), hz.alpha]
  | cons c cs =>
    by_cases hc : c = '%'
    · subst hc
      rfl
    · have hword (cs : List Char) :
          NumberText.unitWord (c :: cs) = (c :: cs).takeWhile Char.isAlpha := by
        simp [NumberText.unitWord, hc]
      rw [List.cons_append, hword, hword, ← List.cons_append, takeWhile_stop hz.alpha]

theorem readUnit (cs more : List Char) :
    NumberText.readUnit (cs ++ z :: more) = NumberText.readUnit cs := by
  rw [NumberText.readUnit, NumberText.readUnit, hz.unitWord,
    drop_prefix_append (unitWord_isPrefix cs)]
  generalize cs.drop (NumberText.unitWord cs).length = rest
  match rest with
  | [] => simp [hz.ne (c := '\\') (by decide)]
  | [c] =>
    by_cases hc : c = '\\'
    · subst hc
      simp [hz.hex]
    · simp [hc]
  | c :: d :: rest =>
    by_cases hc : c = '\\'
    · subst hc
      rfl
    · simp [hc]

theorem read? (cs more : List Char) :
    NumberText.read? (cs ++ z :: more) = NumberText.read? cs := by
  have hplaces (cs : List Char) :
      (if (NumberText.readPlaces cs).isEmpty then cs ++ z :: more
        else (cs ++ z :: more).drop ((NumberText.readPlaces cs).length + 1)) =
        (if (NumberText.readPlaces cs).isEmpty then cs
          else cs.drop ((NumberText.readPlaces cs).length + 1)) ++ z :: more := by
    have hpoint := drop_prefix_append (readPlaces_isPrefix cs) (z :: more)
    split
    · rfl
    · rename_i hne
      simpa [hne] using hpoint
  unfold NumberText.read?
  simp only [takeWhile_stop hz.sign, drop_prefix_append (sign_isPrefix cs), takeWhile_stop hz.digit,
    drop_prefix_append (List.takeWhile_prefix isDecimalDigit), hz.readPlaces, hplaces,
    hz.readExponent, drop_prefix_append (readExponent_isPrefix _), hz.readUnit]

theorem opensUrl (cs more : List Char) : opensUrl (cs ++ z :: more) = opensUrl cs := by
  apply opensWith_stop
  simp [Ends, hz.letter, hz.ne (c := '(') (by decide)]

theorem opensDots (cs more : List Char) :
    opensWith [(· == '.'), (· == '.'), (· == '.')] (cs ++ z :: more) =
      opensWith [(· == '.'), (· == '.'), (· == '.')] cs := by
  apply opensWith_stop
  simp [Ends, hz.ne (c := '.') (by decide)]

theorem filterNameLength? (cs more : List Char) :
    filterNameLength? (cs ++ z :: more) = filterNameLength? cs := by
  have hrun : Ends (fun c => isWordChar c || c == '.') z := by
    have hword : isWordChar z = false := by
      have hname := hz.name
      rw [isNameChar, Bool.or_eq_false_iff] at hname
      exact hname.1
    simp [Ends, hword, hz.ne (c := '.') (by decide)]
  unfold Stylesheet.filterNameLength?
  rw [opensWith_stop hz.filter]
  by_cases hopens : opensWith filterMark cs
  · have hdrop : (cs ++ z :: more).drop 7 = cs.drop 7 ++ z :: more :=
      List.drop_append_of_le_length (length_of_opensWith hopens)
    simp only [hdrop, takeWhile_stop hrun]
  · simp [hopens]

theorem unicodeRangeLength? (cs more : List Char) :
    unicodeRangeLength? (cs ++ z :: more) = unicodeRangeLength? cs := by
  have hdigit : Ends (fun c => isHexDigit c || c == '?') z := by
    simp [Ends, hz.hex, hz.ne (c := '?') (by decide)]
  match cs with
  | [] =>
    have hu := hz.letter 'u' (by decide)
    have hsmall : z ≠ 'u' := by
      rintro rfl
      exact absurd hu (by decide)
    have hcapital : z ≠ 'U' := by
      rintro rfl
      exact absurd hu (by decide)
    cases more with
    | nil => rfl
    | cons c more =>
      by_cases hc : c = '+'
      · subst hc
        simp [Stylesheet.unicodeRangeLength?, hsmall, hcapital]
      · simp [Stylesheet.unicodeRangeLength?, hc]
  | [u] => simp [Stylesheet.unicodeRangeLength?, hz.ne (c := '+') (by decide)]
  | u :: c :: cs =>
    by_cases hc : c = '+'
    · subst hc
      have hfirst : (cs.takeWhile fun c => isHexDigit c || c == '?').take 6 <+: cs :=
        (List.take_prefix ..).trans (List.takeWhile_prefix _)
      have hdrop := drop_prefix_append hfirst (z :: more)
      rw [List.length_take, Nat.min_comm] at hdrop
      simp only [List.cons_append, Stylesheet.unicodeRangeLength?, takeWhile_stop hdigit, hdrop]
      generalize cs.drop _ = rest
      cases rest with
      | nil => simp [hz.ne_dash]
      | cons d rest =>
        by_cases hd : d = '-'
        · subst hd
          simp [takeWhile_stop hz.hex]
        · simp [hd]
    · simp [Stylesheet.unicodeRangeLength?, hc]

theorem atKeyword? (cs more : List Char) :
    atKeyword? (cs ++ z :: more) = atKeyword? cs := by
  have hat : Ends (· == '@') z := by
    simp [Ends, hz.ne (c := '@') (by decide)]
  have hsecond : (cs.takeWhile (· == '@')).take 1 <+: cs :=
    (List.take_prefix ..).trans (List.takeWhile_prefix _)
  unfold Stylesheet.atKeyword?
  simp only [takeWhile_stop hat, drop_prefix_append hsecond, takeWhile_stop hz.name]

theorem number? (previous : Option Token) (spaced : Bool) (cs more : List Char) :
    number? previous spaced (cs ++ z :: more) = number? previous spaced cs := by
  rw [Stylesheet.number?, Stylesheet.number?, hz.read?]

end Stop

end StyleTally.Stylesheet
