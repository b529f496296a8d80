import StyleTally.Proofs.Settings.Validity
import StyleTally.Proofs.Text.Parts
import StyleTally.Settings.Options

/-!
# Suffixes of extension options

Extension options are cut at their commas, and every part of which anything is left becomes a suffix.
Suffixes are in a normal form: a point comes first, no comma is in them, and they do not end in blank
space. Texts in that form are their own suffixes, so to name suffixes again changes nothing, and the
settings accept them.
-/

namespace StyleTally

namespace Options

variable {part : List Char} {s : String} {extensions found : List String}

/-- What is left of a part without the blank space around it and the stars in front. -/
def leftOver (part : List Char) : List Char := (Text.trimChars part).dropWhile (· == '*')

/-- Nothing but stars, with blank space around them. -/
def IsIdle (part : List Char) : Prop :=
  ∃ front stars back, part = front ++ stars ++ back ∧ (∀ c ∈ front, Text.isBlank c = true) ∧
    (∀ c ∈ stars, c = '*') ∧ ∀ c ∈ back, Text.isBlank c = true

/-- The form of the suffixes that options name. -/
structure IsNormal (s : String) : Prop where
  first : s.toList.head? = some '.'
  comma : ',' ∉ s.toList
  last : ∀ c ∈ s.toList.getLast?, Text.isBlank c = false

section Parts

theorem leftOver_suffix (part : List Char) : leftOver part <:+ Text.trimChars part :=
  List.dropWhile_suffix _

theorem suffix?_eq (part : List Char) :
    suffix? part =
      if leftOver part = [] then .none
      else some (String.ofList
        (if (leftOver part).head? = some '.' then leftOver part else '.' :: leftOver part)) := by
  rw [suffix?, leftOver]
  cases (Text.trimChars part).dropWhile (· == '*') with
  | nil => rfl
  | cons c cs => simp

theorem suffix?_eq_none_iff : suffix? part = .none ↔ leftOver part = [] := by
  rw [suffix?_eq]
  split <;> simp_all

theorem isBlank_getLast?_leftOver {c : Char} (h : (leftOver part).getLast? = some c) :
    Text.isBlank c = false := by
  obtain ⟨front, hfront⟩ := leftOver_suffix part
  have hlast : (Text.trimChars part).getLast? = some c := by
    rw [← hfront, List.getLast?_append, h]
    rfl
  exact Text.isBlank_getLast?_trimChars hlast

theorem isNormal_of_suffix? (hcomma : ',' ∉ part) (h : suffix? part = some s) : IsNormal s := by
  have hcomma : ',' ∉ leftOver part := fun hmem =>
    hcomma (Text.mem_of_mem_trimChars ((leftOver_suffix part).subset hmem))
  have hlast (c : Char) (hc : c ∈ (leftOver part).getLast?) : Text.isBlank c = false :=
    isBlank_getLast?_leftOver hc
  rw [suffix?_eq] at h
  split at h
  · cases h
  · rename_i hne
    obtain rfl := Option.some.inj h
    obtain ⟨c, cs, hleft⟩ := List.exists_cons_of_ne_nil hne
    rw [hleft] at hcomma hlast ⊢
    by_cases hpoint : c = '.'
    · constructor <;> simp_all
    · constructor <;> simp_all

theorem IsNormal.leftOver_eq (h : IsNormal s) : leftOver s.toList = s.toList := by
  have hfirst : ∀ c ∈ s.toList.head?, Text.isBlank c = false := by
    rw [h.first]
    rintro c ⟨⟩
    decide
  have hnone : ∀ c ∈ ([] : List Char), Text.isBlank c = true := by simp
  have htrim : Text.trimChars s.toList = s.toList := by
    simpa using Text.trimChars_between hnone hnone hfirst h.last
  rw [leftOver, htrim]
  obtain ⟨cs, hcs⟩ := List.head?_eq_some_iff.mp h.first
  rw [hcs]
  exact List.dropWhile_cons_of_neg (by decide)

/-- A text in normal form is the suffix that it names. -/
theorem IsNormal.suffix?_eq (h : IsNormal s) : suffix? s.toList = some s := by
  have hne : s.toList ≠ [] := by
    intro hnil
    have hfirst := h.first
    rw [hnil] at hfirst
    cases hfirst
  rw [Options.suffix?_eq, h.leftOver_eq, if_neg hne, if_pos h.first, String.ofList_toList]

theorem leftOver_eq_nil_iff : leftOver part = [] ↔ IsIdle part := by
  rw [leftOver, List.dropWhile_eq_nil_iff]
  constructor
  · intro hstars
    obtain ⟨front, back, hpart, hfront, hback⟩ := Text.exists_trimChars part
    exact ⟨front, Text.trimChars part, back, hpart, hfront, fun c hc => by simpa using hstars c hc,
      hback⟩
  · rintro ⟨front, stars, back, hpart, hfront, hstars, hback⟩
    have hstar : ∀ c ∈ stars, Text.isBlank c = false := by
      intro c hc
      rw [hstars c hc]
      decide
    have htrim : Text.trimChars part = stars := by
      rw [hpart]
      exact Text.trimChars_between hfront hback (fun c hc => hstar c (List.mem_of_mem_head? hc))
        fun c hc => hstar c (List.mem_of_mem_getLast? hc)
    rw [htrim]
    simpa using hstars

end Parts

section Lists

theorem isNormal_of_mem_suffixes (h : s ∈ suffixes extensions) : IsNormal s := by
  simp only [suffixes, List.mem_flatMap, List.mem_filterMap] at h
  obtain ⟨ext, -, part, hpart, hs⟩ := h
  exact isNormal_of_suffix? (Text.not_mem_of_mem_splitChars hpart) hs

/-- Texts in normal form are the suffixes that they name, in their order. -/
theorem suffixes_of_isNormal (h : ∀ s ∈ found, IsNormal s) : suffixes found = found := by
  induction found with
  | nil => rfl
  | cons s found ih =>
    obtain ⟨hs, hfound⟩ := List.forall_mem_cons.mp h
    have hrest := ih hfound
    simp only [suffixes] at hrest ⊢
    rw [List.flatMap_cons, hrest, Text.splitChars_of_not_mem hs.comma,
      List.filterMap_cons_some hs.suffix?_eq]
    rfl

theorem suffixes_eq_nil_iff :
    suffixes extensions = [] ↔
      ∀ ext ∈ extensions, ∀ part ∈ Text.splitChars ',' ext.toList, leftOver part = [] := by
  simp only [suffixes, List.flatMap_eq_nil_iff, List.filterMap_eq_nil_iff, suffix?_eq_none_iff]

theorem suffixes?_eq_some_iff : suffixes? extensions = some found ↔
    found ≠ [] ∧ suffixes extensions = found := by
  rw [suffixes?]
  cases suffixes extensions with
  | nil => simp +contextual [eq_comm]
  | cons s rest =>
    simp only [List.isEmpty_cons, Bool.false_eq_true, if_false, Option.some.injEq]
    constructor
    · rintro rfl
      exact ⟨List.cons_ne_nil s rest, rfl⟩
    · exact And.right

theorem suffixes?_eq_none_iff : suffixes? extensions = .none ↔ suffixes extensions = [] := by
  rw [suffixes?]
  cases suffixes extensions <;> simp

end Lists

theorem IsNormal.ne_empty (h : IsNormal s) : s ≠ "" := by
  rintro rfl
  cases h.first

theorem IsNormal.startsWith (h : IsNormal s) : Text.startsWith s "." = true := by
  obtain ⟨cs, hcs⟩ := List.head?_eq_some_iff.mp h.first
  rw [Text.startsWith, hcs]
  rfl

/-- The suffixes that options name are suffixes without commas, which any settings accept and which
name themselves again. None are named where nothing is left of any part between commas: only stars,
with blank space around them. -/
theorem suffixes?_settled (extensions : List String) :
    (∀ found, suffixes? extensions = some found →
      found ≠ [] ∧
      (∀ s ∈ found, s ≠ "" ∧ Text.startsWith s "." = true ∧ ',' ∉ s.toList) ∧
      (∀ t s, Settings.ofTable t = .ok s →
        Settings.ofTable (t.put Setting.extensions.name (.list (found.map .text))) =
          .ok (s.set .extensions (.list (found.map .text)))) ∧
      suffixes? found = some found) ∧
    (suffixes? extensions = .none ↔
      ∀ ext ∈ extensions, ∀ part ∈ Text.splitChars ',' ext.toList, leftOver part = []) ∧
    ∀ part, leftOver part = [] ↔ IsIdle part := by
  refine ⟨fun found h => ?_, suffixes?_eq_none_iff.trans suffixes_eq_nil_iff,
    fun part => leftOver_eq_nil_iff⟩
  obtain ⟨hne, hfound⟩ := suffixes?_eq_some_iff.mp h
  have hnormal : ∀ s ∈ found, IsNormal s := fun s hs => isNormal_of_mem_suffixes (hfound ▸ hs)
  refine ⟨hne, fun s hs => ?_, fun t s hs => Settings.ofTable_put hs ?_,
    suffixes?_eq_some_iff.mpr ⟨hne, suffixes_of_isNormal hnormal⟩⟩
  · exact ⟨(hnormal s hs).ne_empty, (hnormal s hs).startsWith, (hnormal s hs).comma⟩
  · rintro rule ⟨⟩
    refine ⟨found.map .text, rfl, fun d hd => ?_⟩
    obtain ⟨s, hs, rfl⟩ := List.mem_map.mp hd
    exact ⟨s, rfl, (hnormal s hs).startsWith⟩

/-- A star in front of a blank: the blank that it leaves stays behind the point. -/
theorem suffixes?_settled_blank :
    suffixes? [" *.less,* x", "** "] = some [".less", ". x"] ∧
      suffixes? [".less", ". x"] = some [".less", ". x"] := by
  have hfound : suffixes? [" *.less,* x", "** "] = some [".less", ". x"] := rfl
  exact ⟨hfound, ((suffixes?_settled _).1 _ hfound).2.2.2⟩

end Options

end StyleTally
