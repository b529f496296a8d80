import Mathlib.Tactic.IntervalCases
import StyleTally.Proofs.Report.Document
import StyleTally.Stylesheet.Color

/-!
# The text of a color

A color in hexadecimal has three channels of one byte and an alpha of whole hundredths. The text that
is drawn of it depends on these alone and gives all of them back: an opaque color is read back from
its text as a color again, and any other has its channels and its alpha written out between commas.
-/

namespace StyleTally.Stylesheet.Color

open Text

/-- The hexadecimal digits, small letters and capitals. -/
def hexDigits : List Char := "0123456789abcdefABCDEF".toList

/-- `#` and three, four, six or eight hexadecimal digits. -/
def IsHexText (s : String) : Prop :=
  ∃ ds, s.toList = '#' :: ds ∧ ds.length ∈ [3, 4, 6, 8] ∧ ∀ d ∈ ds, d ∈ hexDigits

theorem isHexDigit_iff (c : Char) : isHexDigit c = true ↔ c ∈ hexDigits := by
  constructor
  · intro h
    simp only [isHexDigit, Char.isDigit, Bool.or_eq_true, Bool.and_eq_true, decide_eq_true_eq,
      Char.le_def, ge_iff_le, UInt32.le_iff_toNat_le] at h
    rw [← Char.ofNat_toNat c]
    change ((48 ≤ c.toNat ∧ c.toNat ≤ 57) ∨ 97 ≤ c.toNat ∧ c.toNat ≤ 102) ∨
      65 ≤ c.toNat ∧ c.toNat ≤ 70 at h
    generalize c.toNat = n at h
    rcases h with (⟨hlow, hhigh⟩ | ⟨hlow, hhigh⟩) | ⟨hlow, hhigh⟩ <;>
      interval_cases n <;> decide
  · have hall : hexDigits.all isHexDigit = true := by decide
    exact List.all_eq_true.mp hall c

theorem hexValue_lt {c : Char} (h : c ∈ hexDigits) : hexValue c < 16 := by
  have hall : hexDigits.all (hexValue · < 16) = true := by decide
  exact of_decide_eq_true (List.all_eq_true.mp hall c h)

section Alpha

/-- The alpha of so many hundredths. -/
def hundredths (k : Nat) : Binary64 := .ofRatio false k 100

/-- A byte stands for the hundredths that are nearest to its share. -/
theorem alphaOfByte_eq {n : Nat} (hn : n < 256) :
    alphaOfByte n = hundredths (roundHalfEven (n * 100) 255) := by
  have hall : ∀ n < 256, alphaOfByte n = hundredths (roundHalfEven (n * 100) 255) := by
    decide +kernel
  exact hall n hn

theorem exists_hundredths {n : Nat} (hn : n < 256) : ∃ k ≤ 100, alphaOfByte n = hundredths k := by
  refine ⟨_, ?_, alphaOfByte_eq hn⟩
  rw [roundHalfEven]
  split
  · omega
  · split <;> omega

theorem hundredths_lt_one {k : Nat} (hk : k ≤ 100) :
    (hundredths k).lt (.ofNat 1) = true ↔ hundredths k ≠ .ofNat 1 := by
  have hall : ∀ k < 101, (hundredths k).lt (.ofNat 1) = true ↔ hundredths k ≠ .ofNat 1 := by
    decide +kernel
  exact hall k (by omega)

/-- The text of an alpha is read as the alpha. -/
theorem readNumber_hundredths {k : Nat} (hk : k ≤ 100) :
    (Decimal.readNumber (Decimal.plain (hundredths k))).toOption = some (hundredths k) := by
  have hall : ∀ k < 101,
      (Decimal.readNumber (Decimal.plain (hundredths k))).toOption = some (hundredths k) := by
    decide +kernel
  exact hall k (by omega)

end Alpha

/-- What a text in hexadecimal gives. -/
structure Sound (c : Color) : Prop where
  red : ∃ n < 256, c.red = (n : Nat)
  green : ∃ n < 256, c.green = (n : Nat)
  blue : ∃ n < 256, c.blue = (n : Nat)
  alpha : ∃ k ≤ 100, c.alpha = hundredths k

section Reading

theorem sound_of_digits {r r' g g' b b' : Char} {source : String} {alpha : Binary64}
    (h : ∀ d ∈ [r, r', g, g', b, b'], d ∈ hexDigits) (halpha : ∃ k ≤ 100, alpha = hundredths k) :
    Sound ⟨16 * hexValue r + hexValue r', 16 * hexValue g + hexValue g',
      16 * hexValue b + hexValue b', alpha, source⟩ := by
  have hpair {d d' : Char} (hd : d ∈ hexDigits) (hd' : d' ∈ hexDigits) :
      ∃ n < 256, (16 * hexValue d + hexValue d' : Int) = (n : Nat) := by
    have := hexValue_lt hd
    have := hexValue_lt hd'
    exact ⟨16 * hexValue d + hexValue d', by omega, by push_cast; rfl⟩
  exact ⟨hpair (h r (by simp)) (h r' (by simp)), hpair (h g (by simp)) (h g' (by simp)),
    hpair (h b (by simp)) (h b' (by simp)), halpha⟩

theorem all_isHexDigit_iff (ds : List Char) :
    ds.all isHexDigit = true ↔ ∀ d ∈ ds, d ∈ hexDigits := by
  simp only [List.all_eq_true, isHexDigit_iff]

theorem hundredths_hundred : Binary64.ofNat 1 = hundredths 100 := rfl

/-- A digit alone stands for itself twice. -/
theorem double_eq (c : Char) : (17 * hexValue c : Nat) = 16 * hexValue c + hexValue c := by omega

/-- A text gives a color if it is one in hexadecimal, and then a sound one. -/
theorem ofHex?_cases (s : String) :
    (IsHexText s ∧ ∃ c, ofHex? s = some c ∧ c.Sound) ∨ ¬IsHexText s ∧ ofHex? s = none := by
  have hfull : ∃ k ≤ 100, Binary64.ofNat 1 = hundredths k := ⟨100, Nat.le_refl _, hundredths_hundred⟩
  have hbyte {d d' : Char} (hd : d ∈ hexDigits) (hd' : d' ∈ hexDigits) :
      ∃ k ≤ 100, alphaOfByte (16 * hexValue d + hexValue d') = hundredths k := by
    have := hexValue_lt hd
    have := hexValue_lt hd'
    exact exists_hundredths (by omega)
  unfold ofHex?
  split
  · rename_i ds hs
    by_cases hall : ds.all isHexDigit = true
    · have hds := (all_isHexDigit_iff ds).mp hall
      rw [if_neg (by simp [hall])]
      simp only [double_eq]
      split
      · rename_i r g b
        refine .inl ⟨⟨_, hs, by simp, hds⟩, _, rfl, ?_⟩
        simp only [List.forall_mem_cons] at hds
        exact sound_of_digits (by simp [hds]) hfull
      · rename_i r g b a
        refine .inl ⟨⟨_, hs, by simp, hds⟩, _, rfl, ?_⟩
        simp only [List.forall_mem_cons] at hds
        exact sound_of_digits (by simp [hds]) (hbyte hds.2.2.2.1 hds.2.2.2.1)
      · rename_i r r' g g' b b'
        refine .inl ⟨⟨_, hs, by simp, hds⟩, _, rfl, ?_⟩
        exact sound_of_digits hds hfull
      · rename_i r r' g g' b b' a a'
        refine .inl ⟨⟨_, hs, by simp, hds⟩, _, rfl, ?_⟩
        simp only [List.forall_mem_cons] at hds
        exact sound_of_digits (by simp [hds]) (hbyte (by simp [hds]) (by simp [hds]))
      · rename_i h3 h4 h6 h8
        refine .inr ⟨?_, rfl⟩
        rintro ⟨ds', hs', hlength, -⟩
        obtain rfl : ds = ds' := by simpa [hs] using hs'
        match ds, hlength with
        | [_, _, _], _ => exact h3 _ _ _ rfl
        | [_, _, _, _], _ => exact h4 _ _ _ _ rfl
        | [_, _, _, _, _, _], _ => exact h6 _ _ _ _ _ _ rfl
        | [_, _, _, _, _, _, _, _], _ => exact h8 _ _ _ _ _ _ _ _ rfl
    · rw [if_pos (by simpa using hall)]
      refine .inr ⟨?_, rfl⟩
      rintro ⟨ds', hs', -, hds⟩
      obtain rfl : ds = ds' := by simpa [hs] using hs'
      exact hall ((all_isHexDigit_iff ds).mpr hds)
  · rename_i hs
    refine .inr ⟨?_, rfl⟩
    rintro ⟨ds, hs', -⟩
    exact hs ds hs'

end Reading

section Rendering

theorem digitChar_injective {d e : Nat} (hd : d < 16) (he : e < 16)
    (h : d.digitChar = e.digitChar) : d = e := by
  have hvalue := congrArg hexValue h
  rwa [(Json.hexValue_digitChar hd).2, (Json.hexValue_digitChar he).2] at hvalue

/-- A channel of one byte has two digits. -/
theorem channelChars_eq {n : Nat} (hn : n < 256) :
    channelChars (n : Nat) = [(n / 16).digitChar, (n % 16).digitChar] := by
  rw [channelChars, if_neg (by omega), hexPadded, padLeft, Int.natAbs_natCast]
  by_cases h : n < 16
  · rw [Nat.toDigits_of_lt_base h, Nat.div_eq_of_lt h, Nat.mod_eq_of_lt h]
    rfl
  · rw [Nat.toDigits_of_base_le (by decide) (by omega), Nat.toDigits_of_lt_base (by omega)]
    rfl

theorem ofHex?_short {r g b : Nat} (hr : r < 16) (hg : g < 16) (hb : b < 16) :
    ofHex? (String.ofList ['#', r.digitChar, g.digitChar, b.digitChar]) =
      some ⟨(17 * r : Nat), (17 * g : Nat), (17 * b : Nat), .ofNat 1,
        String.ofList ['#', r.digitChar, g.digitChar, b.digitChar]⟩ := by
  obtain ⟨hr, hr'⟩ := Json.hexValue_digitChar hr
  obtain ⟨hg, hg'⟩ := Json.hexValue_digitChar hg
  obtain ⟨hb, hb'⟩ := Json.hexValue_digitChar hb
  simp [ofHex?, hr, hr', hg, hg', hb, hb']

theorem ofHex?_long {r r' g g' b b' : Nat} (hr : r < 16) (hr' : r' < 16) (hg : g < 16)
    (hg' : g' < 16) (hb : b < 16) (hb' : b' < 16) :
    ofHex? (String.ofList ['#', r.digitChar, r'.digitChar, g.digitChar, g'.digitChar,
        b.digitChar, b'.digitChar]) =
      some ⟨(16 * r + r' : Nat), (16 * g + g' : Nat), (16 * b + b' : Nat), .ofNat 1,
        String.ofList ['#', r.digitChar, r'.digitChar, g.digitChar, g'.digitChar,
          b.digitChar, b'.digitChar]⟩ := by
  obtain ⟨hr, hrv⟩ := Json.hexValue_digitChar hr
  obtain ⟨hr', hrv'⟩ := Json.hexValue_digitChar hr'
  obtain ⟨hg, hgv⟩ := Json.hexValue_digitChar hg
  obtain ⟨hg', hgv'⟩ := Json.hexValue_digitChar hg'
  obtain ⟨hb, hbv⟩ := Json.hexValue_digitChar hb
  obtain ⟨hb', hbv'⟩ := Json.hexValue_digitChar hb'
  simp [ofHex?, hr, hr', hg, hg', hb, hb', hrv, hrv', hgv, hgv', hbv, hbv']

theorem not_lt_one : (Binary64.ofNat 1).lt (.ofNat 1) = false := rfl

/-- The text of an opaque color is in hexadecimal and is read as the color. -/
theorem ofHex?_render {c : Color} (hc : c.Sound) (hfull : c.alpha = .ofNat 1) :
    ofHex? c.render = some { c with source := c.render } := by
  obtain ⟨red, green, blue, alpha, source⟩ := c
  obtain ⟨⟨r, hr, hred⟩, ⟨g, hg, hgreen⟩, ⟨b, hb, hblue⟩, -⟩ := hc
  simp only at hfull hred hgreen hblue
  subst hfull hred hgreen hblue
  simp only [render, not_lt_one, Bool.false_eq_true, if_false, channelsText, channelChars_eq hr,
    channelChars_eq hg, channelChars_eq hb, List.cons_append, List.nil_append]
  split
  · rename_i hdouble
    simp only [Bool.and_eq_true, beq_iff_eq] at hdouble
    obtain ⟨⟨hr', hg'⟩, hb'⟩ := hdouble
    have hr' := digitChar_injective (by omega) (by omega) hr'
    have hg' := digitChar_injective (by omega) (by omega) hg'
    have hb' := digitChar_injective (by omega) (by omega) hb'
    rw [ofHex?_short (by omega) (by omega) (by omega)]
    congr <;> omega
  · rw [ofHex?_long (by omega) (by omega) (by omega) (by omega) (by omega) (by omega)]
    congr <;> omega

/-- Texts are cut at the first comma in one way only. -/
theorem comma_inj {as as' bs bs' : List Char} (has : ',' ∉ as) (has' : ',' ∉ as')
    (h : as ++ ',' :: bs = as' ++ ',' :: bs') : as = as' ∧ bs = bs' := by
  have hnot {cs : List Char} (hcs : ',' ∉ cs) : ∀ c ∈ cs, (decide (c ≠ ',')) = true := by
    intro c hc
    exact decide_eq_true fun hcomma => hcs (hcomma ▸ hc)
  have hfront := congrArg (List.takeWhile fun c => decide (c ≠ ',')) h
  have hback := congrArg (List.dropWhile fun c => decide (c ≠ ',')) h
  rw [List.takeWhile_append_of_pos (hnot has), List.takeWhile_append_of_pos (hnot has')] at hfront
  rw [List.dropWhile_append_of_pos (hnot has), List.dropWhile_append_of_pos (hnot has')] at hback
  exact ⟨by simpa using hfront, by simpa using hback⟩

theorem toList_render {c : Color} (h : c.alpha.lt (.ofNat 1) = true) :
    c.render.toList = "rgba(".toList ++ ((decimal c.red).toList ++ ',' ::
      ((decimal c.green).toList ++ ',' :: ((decimal c.blue).toList ++ ',' ::
        ((Decimal.plain c.alpha).toList ++ [')'])))) := by
  rw [render, if_pos h]
  simp only [String.toList_append, List.append_assoc]
  rfl

/-- A color that is not opaque has the text of no other color that is not. -/
theorem eq_of_render {c d : Color} (hc : c.Sound) (hd : d.Sound)
    (hlt : c.alpha.lt (.ofNat 1) = true) (hlt' : d.alpha.lt (.ofNat 1) = true)
    (h : c.render = d.render) :
    c.red = d.red ∧ c.green = d.green ∧ c.blue = d.blue ∧ c.alpha = d.alpha := by
  have hcomma (n : Int) : ',' ∉ (decimal n).toList := Json.not_mem_decimal (by decide) (by decide) n
  have hchannel {m n : Int} {bs bs' : List Char}
      (heq : (decimal m).toList ++ ',' :: bs = (decimal n).toList ++ ',' :: bs') :
      m = n ∧ bs = bs' := by
    obtain ⟨hfront, hback⟩ := comma_inj (hcomma m) (hcomma n) heq
    exact ⟨decimal_injective (String.toList_inj.mp hfront), hback⟩
  have hlists := congrArg String.toList h
  rw [toList_render hlt, toList_render hlt', List.append_right_inj] at hlists
  obtain ⟨hred, hrest⟩ := hchannel hlists
  obtain ⟨hgreen, hrest⟩ := hchannel hrest
  obtain ⟨hblue, hrest⟩ := hchannel hrest
  have hplain := String.toList_inj.mp ((List.append_left_inj _).mp hrest)
  obtain ⟨k, hk, halpha⟩ := hc.alpha
  obtain ⟨l, hl, halpha'⟩ := hd.alpha
  have hread := readNumber_hundredths hk
  rw [← halpha, hplain, halpha', readNumber_hundredths hl] at hread
  exact ⟨hred, hgreen, hblue, by rw [halpha']; exact (Option.some.inj hread).symm⟩

/-- Colors of equal channels and alpha have one text. -/
theorem render_congr {c d : Color}
    (h : c.red = d.red ∧ c.green = d.green ∧ c.blue = d.blue ∧ c.alpha = d.alpha) :
    c.render = d.render := by
  obtain ⟨hred, hgreen, hblue, halpha⟩ := h
  simp only [render, channelsText, hred, hgreen, hblue, halpha]

/-- The text of a color that is not opaque gives no color. -/
theorem ofHex?_render_of_lt {c : Color} (h : c.alpha.lt (.ofNat 1) = true) :
    ofHex? c.render = none := by
  rcases ofHex?_cases c.render with ⟨⟨ds, hds, -⟩, -⟩ | ⟨-, hnone⟩
  · rw [toList_render h] at hds
    cases hds
  · exact hnone

theorem Sound.lt_one_iff {c : Color} (hc : c.Sound) :
    c.alpha.lt (.ofNat 1) = true ↔ c.alpha ≠ .ofNat 1 := by
  obtain ⟨k, hk, halpha⟩ := hc.alpha
  rw [halpha]
  exact hundredths_lt_one hk

theorem render_eq_iff {c d : Color} (hc : c.Sound) (hd : d.Sound) :
    c.render = d.render ↔
      c.red = d.red ∧ c.green = d.green ∧ c.blue = d.blue ∧ c.alpha = d.alpha := by
  refine ⟨fun h => ?_, render_congr⟩
  by_cases hfull : c.alpha = .ofNat 1
  · have hread := ofHex?_render hc hfull
    by_cases hfull' : d.alpha = .ofNat 1
    · have hread' := ofHex?_render hd hfull'
      rw [h, hread'] at hread
      have heq := Option.some.inj hread
      simp only [Color.mk.injEq] at heq
      obtain ⟨hred, hgreen, hblue, halpha, -⟩ := heq
      exact ⟨hred.symm, hgreen.symm, hblue.symm, halpha.symm⟩
    · rw [h, ofHex?_render_of_lt (hd.lt_one_iff.mpr hfull')] at hread
      cases hread
  · have hlt := hc.lt_one_iff.mpr hfull
    by_cases hfull' : d.alpha = .ofNat 1
    · have hread' := ofHex?_render hd hfull'
      rw [← h, ofHex?_render_of_lt hlt] at hread'
      cases hread'
    · exact eq_of_render hc hd hlt (hd.lt_one_iff.mpr hfull') h

end Rendering

theorem sound_of_ofHex? {s : String} {c : Color} (h : ofHex? s = some c) : c.Sound := by
  rcases ofHex?_cases s with ⟨-, d, hd, hsound⟩ | ⟨-, hnone⟩
  · rw [h] at hd
    cases hd
    exact hsound
  · rw [h] at hnone
    cases hnone

theorem isSome_ofHex?_iff (s : String) : (ofHex? s).isSome ↔ IsHexText s := by
  rcases ofHex?_cases s with ⟨hs, c, hc, -⟩ | ⟨hs, hnone⟩
  · simp [hs, hc]
  · simp [hs, hnone]

/-- Hexadecimal texts give colors and no others do. Two colors have one text exactly if they are
equal, and the text of an opaque color stands for the color and for itself. -/
theorem hex_canonical :
    (∀ s, (ofHex? s).isSome ↔ IsHexText s) ∧
      (∀ s t c d, ofHex? s = some c → ofHex? t = some d →
        (c.render = d.render ↔
          c.red = d.red ∧ c.green = d.green ∧ c.blue = d.blue ∧ c.alpha = d.alpha)) ∧
      ∀ s c, ofHex? s = some c → c.alpha = .ofNat 1 →
        ∃ d, ofHex? c.render = some d ∧ d.red = c.red ∧ d.green = c.green ∧ d.blue = c.blue ∧
          d.alpha = .ofNat 1 ∧ d.render = c.render := by
  refine ⟨isSome_ofHex?_iff, fun s t c d hc hd => ?_, fun s c hc hfull => ?_⟩
  · exact render_eq_iff (sound_of_ofHex? hc) (sound_of_ofHex? hd)
  · exact ⟨_, ofHex?_render (sound_of_ofHex? hc) hfull, rfl, rfl, rfl, hfull, rfl⟩

/-- A short text and a long one of the same opaque color, whose last byte falls short of opaque by
less than a hundredth. -/
theorem hex_canonical_rounded :
    ∃ c d, ofHex? "#F00" = some c ∧ ofHex? "#ff0000fe" = some d ∧ c.render = d.render ∧
      d.alpha = .ofNat 1 ∧ ∃ e, ofHex? d.render = some e ∧ e.render = "#f00" := by
  obtain ⟨-, hiff, hfull⟩ := hex_canonical
  have hc : ofHex? "#F00" = some ⟨255, 0, 0, .ofNat 1, "#F00"⟩ := rfl
  have hd : ofHex? "#ff0000fe" = some ⟨255, 0, 0, .ofNat 1, "#ff0000fe"⟩ := rfl
  have hrender : render ⟨255, 0, 0, .ofNat 1, "#ff0000fe"⟩ = "#f00" := rfl
  obtain ⟨e, he, -, -, -, -, hsame⟩ := hfull _ _ hd rfl
  exact ⟨_, _, hc, hd, (hiff _ _ _ _ hc hd).mpr ⟨rfl, rfl, rfl, rfl⟩, rfl, e, he,
    hsame.trans hrender⟩

end StyleTally.Stylesheet.Color
