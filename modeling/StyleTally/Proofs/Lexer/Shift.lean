import StyleTally.Proofs.Lexer.Equations

/-!
# Reading tokens further on

The tokens of a text that starts further down and further on are the same tokens, moved. What stands
before the text counts only as far as it may join a first name or bind a first sign.
-/

namespace StyleTally.Stylesheet

/-- The token so many lines further down and so many characters further on. -/
def Token.moved (down on : Nat) (t : Token) : Token :=
  { t with line := t.line + down, start := t.start + on }

@[simp] theorem Token.moved_text (down on : Nat) (t : Token) : (t.moved down on).text = t.text := rfl

@[simp] theorem Token.moved_line (down on : Nat) (t : Token) :
    (t.moved down on).line = t.line + down := rfl

@[simp] theorem Token.moved_stop (down on : Nat) (t : Token) :
    (t.moved down on).stop = t.stop + on := by
  simp only [Token.stop, Token.moved]
  omega

/-- Tokens that differ at most in where they stand. -/
def Token.Alike (t u : Token) : Prop := t.lexeme = u.lexeme ∧ t.gap = u.gap ∧ t.text = u.text

theorem Token.moved_alike (down on : Nat) (t : Token) : (t.moved down on).Alike t := ⟨rfl, rfl, rfl⟩

/-- The fault so many lines further down. -/
def Fault.moved (down : Nat) : Fault → Fault
  | .malformed cause line => .malformed cause (line + down)
  | .tooDeep line => .tooDeep (line + down)
  | .overflow => .overflow

def Skipping.moved (down : Nat) : Skipping → Skipping
  | .blank => .blank
  | .block opened => .block (opened + down)
  | .untilLineEnd => .untilLineEnd

/-- Two tokens, or none, after which the next token reads the same. -/
def SameContext (previous previous' : Option Token) : Prop :=
  (previous.any fun t => t.text.getLast?.any isNameChar) =
      (previous'.any fun t => t.text.getLast?.any isNameChar) ∧
    ∀ spaced, signBinds previous spaced = signBinds previous' spaced

/-- After a semicolon or a brace a token reads as at the start. -/
theorem sameContext_bound {t : Token} {c : Char} (ht : t.lexeme = .delim c) (htext : t.text = [c])
    (hc : c = ';' ∨ c = '}' ∨ c = '{') : SameContext none (some t) := by
  constructor
  · rw [Option.any_some, htext]
    rcases hc with rfl | rfl | rfl <;> decide
  · intro spaced
    rw [signBinds, signBinds, ht]
    rcases hc with rfl | rfl | rfl <;> rfl

section Shift

variable {down on : Nat}

theorem lineAfter_add (line : Nat) (c : Char) :
    lineAfter (line + down) c = lineAfter line c + down := by
  unfold lineAfter
  split
  · omega
  · rfl

theorem linesAfter_add (line : Nat) (cs : List Char) :
    linesAfter (line + down) cs = linesAfter line cs + down := by
  induction cs generalizing line with
  | nil => rfl
  | cons c cs ih =>
    have hcons (line : Nat) : linesAfter line (c :: cs) = linesAfter (lineAfter line c) cs := rfl
    rw [hcons, hcons, lineAfter_add, ih]

theorem gapFrom.skip_mapError (f : Fault → Fault) (cs : List Char)
    (r : Except Fault (List Char × List Char)) :
    gapFrom.skip cs (r.mapError f) = (gapFrom.skip cs r).mapError f := by
  cases r <;> rfl

theorem gapFrom_moved (line : Nat) (mode : Skipping) (cs : List Char) :
    gapFrom (line + down) (mode.moved down) cs =
      (gapFrom line mode cs).mapError (Fault.moved down) := by
  fun_induction gapFrom line mode cs with
  | case1 line cs ih =>
    rw [Skipping.moved, gapFrom_blockOpen, ← gapFrom.skip_mapError, ← ih]
    rfl
  | case2 line cs ih =>
    rw [Skipping.moved, gapFrom_lineOpen, ← gapFrom.skip_mapError, ← ih]
    rfl
  | case3 line c cs hblock hline hblank ih =>
    rw [Skipping.moved, gapFrom_blank hblock hline, if_pos hblank, ← gapFrom.skip_mapError, ← ih,
      lineAfter_add]
    rfl
  | case4 line c cs hblock hline hblank =>
    rw [Skipping.moved, gapFrom_blank hblock hline, if_neg hblank]
    rfl
  | case5 line opened cs ih =>
    rw [Skipping.moved, gapFrom_blockClose, ← gapFrom.skip_mapError, ← ih]
    rfl
  | case6 line opened c cs hclose ih =>
    rw [Skipping.moved, gapFrom_block hclose, ← gapFrom.skip_mapError, ← ih, lineAfter_add]
    rfl
  | case7 => rfl
  | case8 line c cs hnewline ih =>
    rw [Skipping.moved, gapFrom_untilLineEnd, if_pos hnewline, ← gapFrom.skip_mapError, ← ih]
    congr 2
    omega
  | case9 line c cs hnewline ih =>
    rw [Skipping.moved, gapFrom_untilLineEnd, if_neg hnewline, ← gapFrom.skip_mapError, ← ih]
    rfl
  | case10 line mode hmode =>
    cases mode with
    | blank | untilLineEnd => rfl
    | block opened => exact (hmode opened rfl).elim

theorem lexemeAt_congr {previous previous' : Option Token} (h : SameContext previous previous')
    (gap : List Char) (c : Char) (cs : List Char) :
    lexemeAt previous gap c cs = lexemeAt previous' gap c cs := by
  have hplain (spaced : Bool) : plainAt previous spaced c cs = plainAt previous' spaced c cs := by
    simp only [plainAt, number?, h.2]
  simp only [lexemeAt, hplain, h.1]

theorem mapError_ok {α : Type} (f : Fault → Fault) (a : α) :
    (Except.ok a : Except Fault α).mapError f = .ok a := rfl

theorem nextToken_moved {previous previous' : Option Token} (h : SameContext previous previous')
    (line start : Nat) (cs : List Char) :
    nextToken (line + down) (start + on) previous' cs =
      ((nextToken line start previous cs).mapError (Fault.moved down)).map
        fun (t, rest) => (t.moved down on, rest) := by
  have hgap : gapFrom (line + down) .blank cs =
      (gapFrom line .blank cs).mapError (Fault.moved down) := gapFrom_moved line .blank cs
  have hstart (n : Nat) : start + on + n = start + n + on := by omega
  unfold nextToken
  rw [hgap]
  cases gapFrom line .blank cs with
  | error e => rfl
  | ok p =>
    obtain ⟨gap, rest⟩ := p
    cases rest with
    | nil =>
      simp only [mapError_ok, linesAfter_add, hstart]
      rfl
    | cons c cs =>
      simp only [mapError_ok, linesAfter_add, hstart, lexemeAt_congr h]
      cases lexemeAt previous' gap c cs with
      | error cause => rfl
      | ok q => rfl

theorem sameContext_moved (down on : Nat) (t : Token) :
    SameContext (some t) (some (t.moved down on)) :=
  ⟨rfl, fun _ => rfl⟩

variable (down on) in
/-- The tokens of a text that is read further down and further on. -/
theorem tokensFrom_moved {previous previous' : Option Token} (h : SameContext previous previous')
    (line start : Nat) (cs : List Char) :
    tokensFrom (line + down) (start + on) previous' cs =
      ((tokensFrom line start previous cs).mapError (Fault.moved down)).map
        (List.map (Token.moved down on)) := by
  induction hn : cs.length using Nat.strongRecOn generalizing line start previous previous' cs with
  | ind n ih =>
    rw [tokensFrom_eq, tokensFrom_eq line, nextToken_moved h]
    cases hnext : nextToken line start previous cs with
    | error e => rfl
    | ok p =>
      obtain ⟨t, rest⟩ := p
      simp only [mapError_ok, Except.map, Except.bind]
      by_cases htext : t.text = []
      · have htext' : (t.moved down on).text = [] := htext
        rw [if_pos htext, if_pos htext']
        rfl
      · have hcs := (nextToken_spec hnext).1
        have hpos := List.length_pos_iff.mpr htext
        have hlength : rest.length < n := by
          rw [← hn, hcs]
          simp only [List.length_append]
          omega
        have htail := ih _ hlength (sameContext_moved down on t) (linesAfter t.line t.text) t.stop
          rest rfl
        have htext' : (t.moved down on).text ≠ [] := htext
        rw [if_neg htext, if_neg htext', Token.moved_line, Token.moved_stop, Token.moved_text,
          linesAfter_add, htail]
        generalize tokensFrom _ _ _ rest = x
        cases x <;> rfl

end Shift

end StyleTally.Stylesheet
