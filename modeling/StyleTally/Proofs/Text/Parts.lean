import Mathlib.Data.List.DropRight
import StyleTally.Text.Trim

/-!
# Parts of a text

What is between separators holds none, and a text without one is its own only part. Trimming takes
blank space off both ends and nothing else.
-/

namespace StyleTally.Text

section Splitting

variable {separator : Char} {cs line : List Char}

theorem splitChars_append (h : separator ∉ cs) (ds : List Char) :
    splitChars separator (cs ++ separator :: ds) = cs :: splitChars separator ds := by
  induction cs with
  | nil => simp [splitChars]
  | cons c cs ih =>
    rw [List.mem_cons, not_or] at h
    have hc : (c == separator) = false := beq_eq_false_iff_ne.mpr (Ne.symm h.1)
    rw [List.cons_append, splitChars, hc, ih h.2]
    rfl

theorem splitChars_of_not_mem (h : separator ∉ cs) : splitChars separator cs = [cs] := by
  induction cs with
  | nil => rfl
  | cons c cs ih =>
    rw [List.mem_cons, not_or] at h
    have hc : (c == separator) = false := beq_eq_false_iff_ne.mpr (Ne.symm h.1)
    rw [splitChars, hc, ih h.2]
    rfl

theorem not_mem_of_mem_splitChars (h : line ∈ splitChars separator cs) : separator ∉ line := by
  induction cs generalizing line with
  | nil => simp_all [splitChars]
  | cons c cs ih =>
    rw [splitChars] at h
    split at h
    · rcases List.mem_cons.mp h with rfl | h
      · exact List.not_mem_nil
      · exact ih h
    · rename_i hc
      have hne : separator ≠ c := fun heq => hc (beq_iff_eq.mpr heq.symm)
      split at h
      · simp_all
      · rename_i part parts hparts
        rw [hparts] at ih
        rcases List.mem_cons.mp h with rfl | h
        · rw [List.mem_cons, not_or]
          exact ⟨hne, ih List.mem_cons_self⟩
        · exact ih (List.mem_cons_of_mem part h)

end Splitting

section Trimming

variable {cs : List Char} {c : Char}

theorem dropEndWhile_eq (p : Char → Bool) (cs : List Char) : dropEndWhile p cs = cs.rdropWhile p :=
  rfl

/-- A text is what is left of it between blank space. -/
theorem exists_trimChars (cs : List Char) :
    ∃ front back, cs = front ++ trimChars cs ++ back ∧ (∀ c ∈ front, isBlank c = true) ∧
      ∀ c ∈ back, isBlank c = true := by
  refine ⟨cs.takeWhile isBlank, (cs.dropWhile isBlank).rtakeWhile isBlank, ?_, ?_, ?_⟩
  · rw [List.append_assoc, trimChars, dropEndWhile_eq, List.rdropWhile_append_rtakeWhile,
      List.takeWhile_append_dropWhile]
  · exact fun c => List.mem_takeWhile_imp
  · exact fun c => List.mem_rtakeWhile_imp

theorem mem_of_mem_trimChars (h : c ∈ trimChars cs) : c ∈ cs := by
  obtain ⟨front, back, hcs, -, -⟩ := exists_trimChars cs
  rw [hcs]
  simp [h]

theorem isBlank_getLast?_trimChars (h : (trimChars cs).getLast? = some c) : isBlank c = false := by
  have hne : trimChars cs ≠ [] := by
    intro hnil
    rw [hnil] at h
    cases h
  obtain rfl : (trimChars cs).getLast hne = c := by
    rwa [List.getLast?_eq_some_getLast hne, Option.some.injEq] at h
  exact eq_false_of_ne_true (List.rdropWhile_last_not _ _ hne)

/-- What is left between blank space is the text whose two ends are not blank. -/
theorem trimChars_between {front back : List Char} (hfront : ∀ c ∈ front, isBlank c = true)
    (hback : ∀ c ∈ back, isBlank c = true) (hfirst : ∀ c ∈ cs.head?, isBlank c = false)
    (hlast : ∀ c ∈ cs.getLast?, isBlank c = false) : trimChars (front ++ cs ++ back) = cs := by
  rw [trimChars, List.append_assoc, List.dropWhile_append_of_pos hfront, dropEndWhile_eq]
  cases cs with
  | nil =>
    have hdrop : back.dropWhile isBlank = [] := List.dropWhile_eq_nil_iff.mpr hback
    rw [List.nil_append, hdrop, List.rdropWhile_nil]
  | cons c cs =>
    have hdrop : (c :: cs ++ back).dropWhile isBlank = c :: cs ++ back :=
      List.dropWhile_cons_of_neg (by simpa using hfirst c rfl)
    have hend : (c :: cs ++ back).rdropWhile isBlank = (c :: cs).rdropWhile isBlank := by
      have hreverse : ∀ c ∈ back.reverse, isBlank c = true := by simpa using hback
      rw [List.rdropWhile, List.reverse_append, List.dropWhile_append_of_pos hreverse]
      rfl
    rw [hdrop, hend, List.rdropWhile_eq_self_iff]
    intro hne
    simpa using hlast _ (List.getLast?_eq_some_getLast hne)

end Trimming

end StyleTally.Text
