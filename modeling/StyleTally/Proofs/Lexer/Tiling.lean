import StyleTally.Proofs.Lexer.Spelling

/-!
# Tokens tile a text

The tokens of a text lie in it one after the other, the gap of each between it and the one before,
up to the end of the text. No character is lost and none is read twice.
-/

namespace StyleTally.Stylesheet

/-- The characters of a text from one offset up to another. -/
def slice (source : List Char) (start stop : Nat) : List Char := (source.take stop).drop start

/-- Where the last of some tokens stops, or the given offset if there is none. -/
def reached (covered : Nat) (ts : List Token) : Nat := (ts.getLast?.map Token.stop).getD covered

/-- A token in its place in a text of which the tokens before it cover so many characters. -/
structure Tile (source : List Char) (covered : Nat) (t : Token) : Prop where
  covered_le : covered ≤ t.start
  stop_le : t.stop ≤ source.length
  gap_eq : t.gap = slice source covered t.start
  text_eq : t.text = slice source t.start t.stop
  isGap : IsGap (source.drop t.start) t.gap
  spaced_iff : t.spaced = true ↔ covered < t.start
  line_eq : t.line = 1 + (source.take t.start).count '\n'
  spelled : t.lexeme.Spelled t.text

/-- Tokens that tile a text from some offset on. -/
inductive Tiling (source : List Char) : Nat → List Token → Prop
  | last {covered : Nat} {stop : Token} (htile : Tile source covered stop)
    (hend : stop.lexeme = .endOfInput) (hstart : stop.start = source.length) :
    Tiling source covered [stop]
  | cons {covered : Nat} {t : Token} {ts : List Token} (htile : Tile source covered t)
    (hmore : t.lexeme ≠ .endOfInput) (htext : t.text ≠ []) (hts : Tiling source t.stop ts) :
    Tiling source covered (t :: ts)

theorem slice_append (front cs back : List Char) :
    slice (front ++ cs ++ back) front.length (front ++ cs).length = cs := by
  rw [slice, List.take_left, List.drop_left]

/-- A token that is cut off the front of what remains of a text has its place in the text. -/
theorem nextToken_tile {front cs rest : List Char} {previous : Option Token} {t : Token}
    (h : nextToken (1 + front.count '\n') front.length previous cs = .ok (t, rest)) :
    Tile (front ++ cs) front.length t ∧ t.start = (front ++ t.gap).length := by
  obtain ⟨hcs, -, hline, hstart⟩ := nextToken_spec h
  obtain ⟨hgap, hspelled, -⟩ := nextToken_spelled h
  have hlength : t.start = (front ++ t.gap).length := by
    rw [hstart, List.length_append]
  have hstop : t.stop = (front ++ t.gap ++ t.text).length := by
    rw [Token.stop, hlength, ← List.length_append]
  have hsource : front ++ cs = front ++ t.gap ++ t.text ++ rest := by
    rw [hcs]
    simp only [List.append_assoc]
  have hbehind : (front ++ cs).drop t.start = t.text ++ rest := by
    rw [hsource, List.append_assoc, hlength, List.drop_left]
  have hbefore : (front ++ cs).take t.start = front ++ t.gap := by
    rw [hsource, List.append_assoc, hlength, List.take_left]
  refine ⟨?_, hlength⟩
  constructor
  · omega
  · rw [hstop, hsource]
    exact (List.prefix_append _ rest).length_le
  · rw [hlength, hsource, List.append_assoc]
    exact (slice_append front t.gap (t.text ++ rest)).symm
  · rw [hlength, hstop, hsource]
    exact (slice_append (front ++ t.gap) t.text rest).symm
  · rwa [hbehind]
  · cases hgap : t.gap with
    | nil => simp [Token.spaced, hgap, hstart]
    | cons c gap => simp [Token.spaced, hgap, hstart]
  · rw [hbefore, hline, linesAfter_eq, List.count_append, Nat.add_assoc]
  · exact hspelled

/-- The tokens that are read from what remains of a text tile the rest of it. -/
theorem tokensFrom_tiling {front cs : List Char} {previous : Option Token} {ts : List Token}
    (h : tokensFrom (1 + front.count '\n') front.length previous cs = .ok ts) :
    Tiling (front ++ cs) front.length ts := by
  induction hn : cs.length using Nat.strongRecOn generalizing front previous cs ts with
  | ind n ih =>
    obtain ⟨t, rest, hnext, hcases⟩ := tokensFrom_cases h
    obtain ⟨hcs, hend, hline, hstart⟩ := nextToken_spec hnext
    obtain ⟨-, -, hlexeme⟩ := nextToken_spelled hnext
    obtain ⟨htile, hlength⟩ := nextToken_tile hnext
    cases hcases with
    | inl hlast =>
      obtain ⟨htext, rfl⟩ := hlast
      apply Tiling.last htile (hlexeme.mp htext)
      rw [hlength, hcs, htext, hend htext]
      simp
    | inr hmore =>
      obtain ⟨htext, hshorter, us, htail, rfl⟩ := hmore
      apply Tiling.cons htile (fun heq => htext (hlexeme.mpr heq)) htext
      have hstop : t.stop = (front ++ t.gap ++ t.text).length := by
        rw [Token.stop, hlength, ← List.length_append]
      have hlines : linesAfter t.line t.text = 1 + (front ++ t.gap ++ t.text).count '\n' := by
        rw [hline, linesAfter_eq, linesAfter_eq, List.count_append, List.count_append]
        omega
      rw [hlines, hstop] at htail
      have hrest := ih _ (hn ▸ hshorter) htail rfl
      rw [← hstop] at hrest
      rw [hcs]
      simpa only [List.append_assoc] using hrest

section Tiling

variable {source : List Char} {covered : Nat} {ts : List Token}

theorem Tiling.last_eq (h : Tiling source covered ts) :
    ∃ front stop, ts = front ++ [stop] ∧ stop.lexeme = .endOfInput ∧ stop.start = source.length ∧
      stop.text = [] ∧ ∀ t ∈ front, t.lexeme ≠ .endOfInput ∧ t.start < t.stop := by
  induction h with
  | @last covered stop htile hend hstart =>
    have htext := htile.spelled
    rw [hend] at htext
    exact ⟨[], stop, rfl, hend, hstart, htext, by simp⟩
  | @cons covered t ts htile hmore htext _ ih =>
    obtain ⟨front, stop, rfl, hend, hstart, hempty, hfront⟩ := ih
    have hspan : t.start < t.stop := by
      have hpos := List.length_pos_iff.mpr htext
      rw [Token.stop]
      omega
    refine ⟨t :: front, stop, rfl, hend, hstart, hempty, ?_⟩
    intro u hu
    cases List.mem_cons.mp hu with
    | inl heq => exact heq ▸ ⟨hmore, hspan⟩
    | inr hmem => exact hfront u hmem

theorem Tiling.covered_le (h : Tiling source covered ts) {t : Token} (ht : t ∈ ts) :
    covered ≤ t.start := by
  induction h with
  | last htile =>
    obtain rfl := List.mem_singleton.mp ht
    exact htile.covered_le
  | @cons covered u ts htile _ _ _ ih =>
    have hu := htile.covered_le
    cases List.mem_cons.mp ht with
    | inl heq => exact heq ▸ hu
    | inr hmem =>
      have hlater := ih hmem
      rw [Token.stop] at hlater
      omega

theorem Tiling.pairwise (h : Tiling source covered ts) :
    ts.Pairwise fun t u => t.stop ≤ u.start := by
  induction h with
  | last => exact List.pairwise_singleton _ _
  | cons _ _ _ hts ih => exact List.pairwise_cons.mpr ⟨fun u hu => hts.covered_le hu, ih⟩

theorem reached_cons (covered : Nat) (t : Token) (ts : List Token) :
    reached covered (t :: ts) = reached t.stop ts := by
  rw [reached, reached, List.getLast?_cons]
  cases ts.getLast? <;> rfl

theorem Tiling.tile (h : Tiling source covered ts) {front back : List Token} {t : Token}
    (hts : ts = front ++ t :: back) : Tile source (reached covered front) t := by
  induction h generalizing front with
  | last htile =>
    cases front with
    | nil =>
      obtain ⟨rfl, -⟩ := List.cons.inj hts
      exact htile
    | cons u front =>
      have hlength := congrArg List.length hts
      simp at hlength
  | cons htile _ _ _ ih =>
    cases front with
    | nil =>
      obtain ⟨rfl, -⟩ := List.cons.inj hts
      exact htile
    | cons u front =>
      obtain ⟨rfl, htail⟩ := List.cons.inj hts
      rw [reached_cons]
      exact ih htail

end Tiling

/-- Tokens that end in the one token without a text, while all others span some text, each behind
the last, and each in its place. -/
structure Tiled (source : String) (ts : List Token) : Prop where
  last_eq : ∃ front stop, ts = front ++ [stop] ∧ stop.lexeme = .endOfInput ∧
    stop.start = source.toList.length ∧ stop.text = [] ∧
    ∀ t ∈ front, t.lexeme ≠ .endOfInput ∧ t.start < t.stop
  pairwise : ts.Pairwise fun t u => t.stop ≤ u.start
  tile : ∀ front t back, ts = front ++ t :: back → Tile source.toList (reached 0 front) t

/-- The tokens of a stylesheet tile it. -/
theorem tokenize_tiled {source : String} {ts : List Token} (h : tokenize source = .ok ts) :
    Tiled source ts := by
  have htiling : Tiling source.toList 0 ts := @tokensFrom_tiling [] _ _ _ h
  exact ⟨htiling.last_eq, htiling.pairwise, fun _ _ _ hts => htiling.tile hts⟩

/-- A name, a string and a number between comments and blank space. -/
theorem tokenize_tiled_sample : ∃ ts, tokenize "/* a */x '\\'' // b\n.5em" = .ok ts ∧
    ts.length = 4 ∧ Tiled "/* a */x '\\'' // b\n.5em" ts := by
  have hlength : (tokenize "/* a */x '\\'' // b\n.5em").toOption.map List.length = some 4 := by
    decide +kernel
  cases htokens : tokenize "/* a */x '\\'' // b\n.5em" with
  | error e =>
    rw [htokens] at hlength
    cases hlength
  | ok ts =>
    rw [htokens] at hlength
    exact ⟨ts, rfl, Option.some.inj hlength, tokenize_tiled htokens⟩

end StyleTally.Stylesheet
