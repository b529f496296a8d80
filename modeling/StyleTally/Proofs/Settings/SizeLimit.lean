import StyleTally.Proofs.Decimal.Exact
import StyleTally.Proofs.Settings.Validity
import StyleTally.Settings.Use

/-!
# Size limits

The size that accepted settings give is a number of mebibytes above zero, or no number at all. As a
limit it is its whole bytes. There are three gaps: what is no number gives no limit, neither does a
double whose bytes are beyond the doubles, and less than one byte gives a limit of zero.
-/

namespace StyleTally

open Binary64

/-- The sizes above zero, what is no number and the infinite one among them, and the limits that they
give. -/
inductive Sized : Datum → Except UseFault Int → Prop
  | whole (n : Int) : 0 < n → Sized (.integer n) (.ok (n * 2 ^ 20))
  | flag : Sized (.flag true) (.ok (2 ^ 20))
  | nan : Sized (.real .nan) (.error .notANumber)
  | infinite : Sized (.real (.infinite false)) (.error .infinite)
  | beyond (x : Binary64) (v : ℚ) : x.toRat? = some v → 2 ^ 1024 ≤ v * 2 ^ 20 →
      Sized (.real x) (.error .infinite)
  | within (x : Binary64) (v : ℚ) : x.toRat? = some v → 0 < v → v * 2 ^ 20 < 2 ^ 1024 →
      Sized (.real x) (.ok ⌊v * 2 ^ 20⌋)

/-- A size of one byte or more. The bytes of a double are in the range of the doubles. -/
def Datum.IsUsableSize : Datum → Prop
  | .integer n => 0 < n
  | .flag b => b = true
  | .real x => ∃ v, x.toRat? = some v ∧ 1 ≤ v * 2 ^ 20 ∧ v * 2 ^ 20 < 2 ^ 1024
  | _ => False

/-- Settings that are made of a table, by a caller or from what is loaded. -/
def Settings.IsAccepted (s : Settings) : Prop :=
  (∃ t, Settings.ofTable t = .ok s) ∨ ∃ i : Inputs, i.load = .ok s

/-- A rule for numbers above zero accepts what is no number. -/
theorem SettingRule.isWithin_positive_real_iff {x : Binary64} :
    IsWithin ⟨0, true⟩ (.real x) ↔
      x = .nan ∨ x = .infinite false ∨ ∃ v, x.toRat? = some v ∧ 0 < v := by
  have hzero : (Binary64.ofInt 0).toRat? = some 0 := by
    change some ((0 : Nat) * 2 ^ minExponent : ℚ) = some 0
    rw [Nat.cast_zero, zero_mul]
  cases x with
  | nan => exact iff_of_true rfl (.inl rfl)
  | infinite negative =>
    cases negative with
    | false => exact iff_of_true rfl (.inr (.inl rfl))
    | true => exact iff_of_false (by rintro ⟨⟩) (by simp [toRat?])
  | finite negative m e =>
    obtain ⟨v, hv⟩ : ∃ v, (finite negative m e).toRat? = some v := ⟨_, rfl⟩
    have hbroken : Bound.isBroken? ⟨0, true⟩ (.real (finite negative m e)) =
        some (!(Binary64.ofInt 0).lt (finite negative m e)) := rfl
    rw [IsWithin, hbroken, Option.some.injEq, Bool.not_eq_false', lt_eq_true_iff hzero hv, hv]
    simp

/-- A size gives one limit. -/
theorem Sized.unique {d : Datum} {limit limit' : Except UseFault Int} (h : Sized d limit)
    (h' : Sized d limit') : limit = limit' := by
  cases h with
  | whole n hn =>
    cases h'
    rfl
  | flag =>
    cases h'
    rfl
  | nan =>
    cases h' with
    | nan => rfl
    | beyond _ _ hw => cases hw
    | within _ _ hw => cases hw
  | infinite =>
    cases h' with
    | infinite => rfl
    | beyond => rfl
    | within _ _ hw => cases hw
  | beyond x v hv hbeyond =>
    cases h' with
    | nan => cases hv
    | infinite => rfl
    | beyond => rfl
    | within _ w hw _ hless =>
      cases hv.symm.trans hw
      exact absurd hless (not_lt.mpr hbeyond)
  | within x v hv _ hless =>
    cases h' with
    | nan => cases hv
    | infinite => cases hv
    | beyond _ w hw hbeyond =>
      cases hv.symm.trans hw
      exact absurd hless (not_lt.mpr hbeyond)
    | within _ w hw =>
      cases hv.symm.trans hw
      rfl

theorem Sized.isUsable_iff {d : Datum} {limit : Except UseFault Int} (h : Sized d limit) :
    (∃ n, 0 < n ∧ limit = .ok n) ↔ d.IsUsableSize := by
  cases h with
  | whole n hn => exact iff_of_true ⟨_, by positivity, rfl⟩ hn
  | flag => exact iff_of_true ⟨_, by norm_num, rfl⟩ rfl
  | nan => simp [Datum.IsUsableSize, toRat?]
  | infinite => simp [Datum.IsUsableSize, toRat?]
  | beyond x v hv hbeyond =>
    refine iff_of_false (by simp) ?_
    rintro ⟨w, hw, -, hless⟩
    cases hv.symm.trans hw
    exact absurd hless (not_lt.mpr hbeyond)
  | within x v hv hpos hless =>
    have hfloor : 0 < ⌊v * 2 ^ 20⌋ ↔ 1 ≤ v * 2 ^ 20 := by
      rw [Int.floor_pos]
    constructor
    · rintro ⟨n, hn, heq⟩
      cases heq
      exact ⟨v, hv, hfloor.mp hn, hless⟩
    · rintro ⟨w, hw, hone, -⟩
      cases hv.symm.trans hw
      exact ⟨_, hfloor.mpr hone, rfl⟩

namespace Settings

variable {s : Settings}

theorem IsAccepted.valid (h : s.IsAccepted) : s.Valid := by
  obtain ⟨t, ht⟩ | ⟨i, hi⟩ := h
  · exact valid_of_ofTable ht
  · obtain ⟨hsound, hmissing⟩ := Inputs.sound_of_load hi
    rw [Inputs.load_of_sound hsound, hmissing] at hi
    obtain ⟨s', hs', hvalid⟩ | ⟨fault, hfault, -⟩ | ⟨kind, hkind⟩ := ofMerged_cases i.merged
    · cases hi.symm.trans hs'
      exact hvalid
    · cases hi.symm.trans hfault
    · cases hi.symm.trans hkind

/-- Mebibytes are multiplied by `2^10` twice. -/
theorem sizeLimit_of_real {x : Binary64} (hsize : s.get .maxFileSize = .real x) :
    s.sizeLimit =
      match (x.scale (2 ^ 10) 1).scale (2 ^ 10) 1 with
      | .nan => .error .notANumber
      | .infinite _ => .error .infinite
      | bytes => .ok (bytes.truncate?.getD 0) := by
  rw [sizeLimit, hsize]
  rfl

/-- Neither product is rounded. -/
theorem sized_of_toRat? {x : Binary64} {v : ℚ} (hsize : s.get .maxFileSize = .real x)
    (hx : x.IsDouble) (hv : x.toRat? = some v) (hpos : 0 < v) : Sized (.real x) s.sizeLimit := by
  have hkib : (0 : ℚ) < v * 2 ^ 10 := by positivity
  have hbytes : v * 2 ^ 10 * 2 ^ 10 = v * 2 ^ 20 := by rw [mul_assoc, ← pow_add]
  rw [sizeLimit_of_real hsize]
  rcases scale_exact (j := 10) hx hv hpos with ⟨hbeyond, hscale⟩ | ⟨-, hdouble, hscaled⟩
  · rw [hscale]
    refine .beyond x v hv (hbeyond.trans ?_)
    rw [← hbytes]
    exact le_mul_of_one_le_right hkib.le (by norm_num)
  · rcases scale_exact (j := 10) hdouble hscaled hkib with
      ⟨hbeyond, hscale⟩ | ⟨hless, -, hproduct⟩
    · rw [hscale]
      exact .beyond x v hv (hbytes ▸ hbeyond)
    · rw [hbytes] at hless hproduct
      have htruncate := truncate?_eq_floor hproduct (by positivity)
      obtain ⟨m, e, heq, -, -⟩ := eq_finite_of_toRat?_pos hproduct (by positivity)
      rw [heq] at htruncate ⊢
      simp only [htruncate, Option.getD_some]
      exact .within x v hv hpos hless

theorem sized_of_isAccepted (h : s.IsAccepted)
    (hdouble : ∀ x, s.get .maxFileSize = .real x → x.IsDouble) :
    Sized (s.get .maxFileSize) s.sizeLimit := by
  have hrule : SettingRule.IsWithin ⟨0, true⟩ (s.get .maxFileSize) := h.valid .maxFileSize _ rfl
  cases hsize : s.get .maxFileSize with
  | integer n =>
    rw [hsize] at hrule
    have hlimit : s.sizeLimit = .ok (n * 2 ^ 20) := by
      rw [sizeLimit, hsize, show n * 2 ^ 20 = n * 1024 * 1024 by ring]
    have hpos : 0 < n := by simpa [SettingRule.IsWithin, Bound.isBroken?] using hrule
    exact hlimit ▸ .whole n hpos
  | flag b =>
    rw [hsize] at hrule
    have hlimit : s.sizeLimit = .ok (if b then 1024 * 1024 else 0) := by rw [sizeLimit, hsize]
    cases b with
    | false => cases hrule
    | true => exact hlimit ▸ .flag
  | real x =>
    rw [hsize] at hrule
    obtain rfl | rfl | ⟨v, hv, hpos⟩ := SettingRule.isWithin_positive_real_iff.mp hrule
    · exact sizeLimit_of_real hsize ▸ .nan
    · exact sizeLimit_of_real hsize ▸ .infinite
    · exact sized_of_toRat? hsize (hdouble x hsize) hv hpos
  | nothing | text _ | moment _ _ | list _ | table _ =>
    rw [hsize] at hrule
    cases hrule

/-- The limit of accepted settings is the whole bytes of their size, which may be any double. It is
above zero for sizes from one byte on whose bytes are in the range, and for no others. -/
theorem sizeLimit_usable_iff {s : Settings} (h : s.IsAccepted)
    (hdouble : ∀ x, s.get .maxFileSize = .real x → x.IsDouble) :
    Sized (s.get .maxFileSize) s.sizeLimit ∧
      ((∃ n, 0 < n ∧ s.sizeLimit = .ok n) ↔ (s.get .maxFileSize).IsUsableSize) :=
  ⟨sized_of_isAccepted h hdouble, (sized_of_isAccepted h hdouble).isUsable_iff⟩

section Samples

/-- The defaults but for a size. -/
def withSize (x : Binary64) : Settings := standard.set .maxFileSize (.real x)

theorem ofTable_withSize {x : Binary64}
    (h : x = .nan ∨ x = .infinite false ∨ ∃ v, x.toRat? = some v ∧ 0 < v) :
    ofTable [(Setting.maxFileSize.name, .real x)] = .ok (withSize x) := by
  have hstandard : ofTable [] = .ok standard := by
    have hcheck : (values []).check = .ok () := check_eq_ok_iff.mpr standard_valid
    rw [ofTable_eq, hcheck]
    rfl
  have hkeeps : ∀ rule, Setting.maxFileSize.rule? = some rule → rule.Keeps (.real x) := by
    rintro rule ⟨⟩
    exact SettingRule.isWithin_positive_real_iff.mpr h
  have haccepted := ofTable_put hstandard hkeeps
  rwa [DataTable.put] at haccepted

/-- Two and a half mebibytes. -/
theorem sizeLimit_usable_iff_fraction :
    let s := withSize (finite false 5 (-1))
    s.IsAccepted ∧ (∀ x, s.get .maxFileSize = .real x → x.IsDouble) ∧
      ∃ n, 0 < n ∧ s.sizeLimit = .ok n := by
  intro s
  have haccepted : s.IsAccepted :=
    .inl ⟨_, ofTable_withSize (.inr (.inr ⟨_, rfl, by norm_num⟩))⟩
  have hdouble : ∀ x, s.get .maxFileSize = .real x → x.IsDouble := by
    rintro x ⟨⟩
    exact ⟨by decide, by decide, by decide⟩
  refine ⟨haccepted, hdouble, (sizeLimit_usable_iff haccepted hdouble).2.mpr ?_⟩
  have hrange : (2 : ℚ) ^ 22 ≤ 2 ^ 1024 := pow_le_pow_right₀ (by norm_num) (by norm_num)
  refine ⟨_, rfl, by norm_num, lt_of_lt_of_le ?_ hrange⟩
  norm_num

theorem sized_withSize {x : Binary64} {v : ℚ} (hx : x.IsDouble) (hv : x.toRat? = some v)
    (hpos : 0 < v) : Sized (.real x) (withSize x).sizeLimit :=
  sized_of_toRat? rfl hx hv hpos

theorem sizeLimit_great : (withSize (finite false (2 ^ 52) 952)).sizeLimit = .error .infinite := by
  have hpos : (0 : ℚ) < (2 ^ 52 : Nat) * 2 ^ (952 : Int) := mul_pos (by norm_num) (two_zpow_pos _)
  have hbytes : ((2 ^ 52 : Nat) * 2 ^ (952 : Int) * 2 ^ 20 : ℚ) = 2 ^ 1024 := by
    rw [Nat.cast_pow, Nat.cast_ofNat, ← Nat.cast_ofNat (n := 952), zpow_natCast, ← pow_add,
      ← pow_add]
  have hsized := sized_withSize (x := finite false (2 ^ 52) 952)
    ⟨by decide, by decide, by decide⟩ rfl hpos
  exact hsized.unique (.beyond _ _ rfl hbytes.ge)

theorem sizeLimit_least : (withSize (finite false 1 (-1074))).sizeLimit = .ok 0 := by
  have hpos : (0 : ℚ) < (1 : Nat) * 2 ^ (-1074 : Int) := mul_pos (by norm_num) (two_zpow_pos _)
  have hbytes : ((1 : Nat) * 2 ^ (-1074 : Int) * 2 ^ 20 : ℚ) < 1 := by
    rw [Nat.cast_one, one_mul, ← zpow_natCast, ← two_zpow_add]
    exact zpow_lt_one_of_neg₀ (by norm_num) (by norm_num)
  have hsized := sized_withSize (x := finite false 1 (-1074))
    ⟨by decide, by decide, by decide⟩ rfl hpos
  have hfloor : ⌊((1 : Nat) * 2 ^ (-1074 : Int) * 2 ^ 20 : ℚ)⌋ = 0 :=
    Int.floor_eq_zero_iff.mpr ⟨by positivity, hbytes⟩
  rw [← hfloor]
  exact hsized.unique (.within _ _ rfl hpos (hbytes.trans_le (one_le_pow₀ (by norm_num))))

/-- What is no number is accepted and gives no limit, no more than the infinite size and a finite one
beyond the range do. The least double gives a limit of zero. -/
theorem sizeLimit_unusable :
    let sizes := [nan, infinite false, finite false (2 ^ 52) 952, finite false 1 (-1074)]
    (∀ x ∈ sizes, x.IsDouble ∧ ofTable [(Setting.maxFileSize.name, .real x)] = .ok (withSize x) ∧
      ¬∃ n, 0 < n ∧ (withSize x).sizeLimit = .ok n) ∧
    sizes.map (fun x => (withSize x).sizeLimit) =
      [.error .notANumber, .error .infinite, .error .infinite, .ok 0] := by
  intro sizes
  have hnan : (withSize nan).sizeLimit = .error .notANumber := rfl
  have hinfinite : (withSize (infinite false)).sizeLimit = .error .infinite := rfl
  simp only [sizes, List.map_cons, List.map_nil, List.forall_mem_cons, List.not_mem_nil, hnan,
    hinfinite, sizeLimit_great, sizeLimit_least]
  refine ⟨⟨⟨trivial, ofTable_withSize (.inl rfl), by simp⟩,
    ⟨trivial, ofTable_withSize (.inr (.inl rfl)), by simp⟩,
    ⟨⟨by decide, by decide, by decide⟩, ofTable_withSize ?_, by simp⟩,
    ⟨⟨by decide, by decide, by decide⟩, ofTable_withSize ?_, by simp⟩, by simp⟩, trivial⟩
  · exact .inr (.inr ⟨_, rfl, mul_pos (by norm_num) (two_zpow_pos _)⟩)
  · exact .inr (.inr ⟨_, rfl, mul_pos (by norm_num) (two_zpow_pos _)⟩)

end Samples

end Settings

end StyleTally
