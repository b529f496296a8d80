import StyleTally.Proofs.Lexer.Tiling

/-!
# Lines of tokens and faults

Each token of a text stands on a line of the text, and a fault that keeps the text from being read
as tokens is one of a line of it.
-/

namespace StyleTally.Stylesheet

variable {source : String} {cs : List Char} {line first : Nat} {fault : Fault}

/-- The fault has a line, and it is one of those from a first to a last. -/
def Fault.Between (fault : Fault) (first last : Nat) : Prop :=
  ∃ line, fault.line? = some line ∧ first ≤ line ∧ line ≤ last

theorem gapFrom.skip_eq_error {r : Except Fault (List Char × List Char)}
    (h : gapFrom.skip cs r = .error fault) : r = .error fault := by
  cases r with
  | error e =>
    cases h
    rfl
  | ok p => cases h

theorem le_lineAfter (line : Nat) (c : Char) : line ≤ lineAfter line c := by
  rw [lineAfter]
  split <;> omega

theorem lineAfter_add_count (line : Nat) (c : Char) (cs : List Char) :
    lineAfter line c + cs.count '\n' = line + (c :: cs).count '\n' := by
  rw [lineAfter, List.count_cons]
  split <;> omega

/-- A comment that does not end is a fault of the line it opens on. -/
theorem gapFrom_line {mode : Skipping} (h : gapFrom line mode cs = .error fault)
    (hfirst : first ≤ line)
    (hmode : ∀ opened, mode = .block opened → first ≤ opened ∧ opened ≤ line) :
    fault.Between first (line + cs.count '\n') := by
  fun_induction gapFrom line mode cs with
  | case1 line cs ih =>
    have hopened :
        ∀ opened, Skipping.block line = .block opened → first ≤ opened ∧ opened ≤ line := by
      rintro _ ⟨⟩
      exact ⟨hfirst, Nat.le_refl line⟩
    simpa using ih (gapFrom.skip_eq_error h) hfirst hopened
  | case2 line cs ih => simpa using ih (gapFrom.skip_eq_error h) hfirst (by simp)
  | case3 line c cs _ _ _ ih =>
    rw [← lineAfter_add_count]
    exact ih (gapFrom.skip_eq_error h) (Nat.le_trans hfirst (le_lineAfter line c)) (by simp)
  | case4 => cases h
  | case5 line opened cs ih => simpa using ih (gapFrom.skip_eq_error h) hfirst (by simp)
  | case6 line opened c cs _ ih =>
    rw [← lineAfter_add_count]
    have hle := le_lineAfter line c
    refine ih (gapFrom.skip_eq_error h) (Nat.le_trans hfirst hle) ?_
    rintro _ ⟨⟩
    exact ⟨(hmode opened rfl).1, Nat.le_trans (hmode opened rfl).2 hle⟩
  | case7 line opened =>
    cases h
    exact ⟨opened, rfl, hmode opened rfl⟩
  | case8 line c cs hfeed ih =>
    obtain ⟨faulty, hat, hfirst', hlast⟩ := ih (gapFrom.skip_eq_error h) (by omega) (by simp)
    refine ⟨faulty, hat, hfirst', ?_⟩
    rw [List.count_cons, if_pos hfeed]
    omega
  | case9 line c cs hfeed ih =>
    rw [List.count_cons, if_neg hfeed]
    exact ih (gapFrom.skip_eq_error h) hfirst (by simp)
  | case10 => cases h

theorem nextToken_line {start : Nat} {previous : Option Token}
    (h : nextToken line start previous cs = .error fault) :
    fault.Between line (line + cs.count '\n') := by
  unfold nextToken at h
  split at h
  · rename_i hgap
    cases h
    exact gapFrom_line hgap (Nat.le_refl line) (by simp)
  · cases h
  · rename_i gap c rest hgap
    split at h
    · cases h
      refine ⟨_, rfl, ?_⟩
      rw [← gapFrom_append hgap, List.count_append, linesAfter_eq]
      omega
    · cases h

theorem tokensFrom_line {start : Nat} {previous : Option Token}
    (h : tokensFrom line start previous cs = .error fault) :
    fault.Between line (line + cs.count '\n') := by
  fun_induction tokensFrom line start previous cs with
  | case1 line start previous cs e hnext =>
    cases h
    exact nextToken_line hnext
  | case2 => cases h
  | case3 line start previous cs t rest hnext htext ih =>
    obtain ⟨hcs, -, hline, -⟩ := nextToken_spec hnext
    have hrest : tokensFrom (linesAfter t.line t.text) t.stop (some t) rest = .error fault := by
      generalize tokensFrom (linesAfter t.line t.text) t.stop (some t) rest = r at h
      cases r with
      | error e =>
        cases h
        rfl
      | ok ts => cases h
    obtain ⟨faulty, hfaulty, hfirst, hlast⟩ := ih hrest
    refine ⟨faulty, hfaulty, ?_⟩
    simp only [hcs, hline, linesAfter_eq, List.count_append] at hfirst hlast ⊢
    omega

/-- A text that cannot be read as tokens has its fault on one of its lines. -/
theorem tokenize_line (h : tokenize source = .error fault) :
    fault.Between 1 (1 + source.toList.count '\n') :=
  tokensFrom_line h

theorem Tiled.line_le {ts : List Token} (h : Tiled source ts) {t : Token} (ht : t ∈ ts) :
    1 ≤ t.line ∧ t.line ≤ 1 + source.toList.count '\n' := by
  obtain ⟨front, back, hts⟩ := List.append_of_mem ht
  have hcount := (List.take_sublist t.start source.toList).count_le '\n'
  rw [(h.tile front t back hts).line_eq]
  omega

end StyleTally.Stylesheet
