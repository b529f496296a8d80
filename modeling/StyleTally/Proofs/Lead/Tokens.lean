import StyleTally.Proofs.Lexer.Shift

/-!
# Tokens behind a lead

A lead is a row of blank characters, complete block comments and ended line comments. The tokens of
a text behind a lead are those of the text, further down and further on, with the lead in the gap of
the first.
-/

namespace StyleTally.Stylesheet

open Text

/-- Blank characters and complete comments. -/
inductive IsLead : List Char → Prop
  | nil : IsLead []
  | blank {c : Char} {lead : List Char} (hc : isBlank c) (h : IsLead lead) : IsLead (c :: lead)
  | block {body lead : List Char} (hbody : ¬ ['*', '/'] <:+: body) (h : IsLead lead) :
      IsLead ('/' :: '*' :: (body ++ '*' :: '/' :: lead))
  | line {body lead : List Char} (hbody : '\n' ∉ body) (h : IsLead lead) :
      IsLead ('/' :: '/' :: (body ++ '\n' :: lead))

/-- The token with more in front of its gap. -/
def Token.behind (lead : List Char) (t : Token) : Token := { t with gap := lead ++ t.gap }

/-- Tokens with more in front of the first. -/
def tokensBehind (lead : List Char) : List Token → List Token
  | [] => []
  | t :: ts => t.behind lead :: ts

section Gap

variable {line : Nat} {cs : List Char}

theorem gapFrom.skip_skip (front back : List Char) (r : Except Fault (List Char × List Char)) :
    gapFrom.skip front (gapFrom.skip back r) = gapFrom.skip (front ++ back) r := by
  cases r with
  | error e => rfl
  | ok p => simp [gapFrom.skip, Except.map]

theorem gapFrom.skip_nil (r : Except Fault (List Char × List Char)) : gapFrom.skip [] r = r := by
  cases r <;> rfl

theorem linesAfter_cons (line : Nat) (c : Char) (cs : List Char) :
    linesAfter line (c :: cs) = linesAfter (lineAfter line c) cs := rfl

theorem gapFrom_blockBody {opened : Nat} {body : List Char} (hbody : ¬ ['*', '/'] <:+: body) :
    gapFrom line (.block opened) (body ++ '*' :: '/' :: cs) =
      gapFrom.skip (body ++ ['*', '/']) (gapFrom (linesAfter line body) .blank cs) := by
  induction body generalizing line with
  | nil => exact gapFrom_blockClose line opened cs
  | cons c body ih =>
    have hrest : ¬ ['*', '/'] <:+: body := fun h => hbody (h.trans (List.suffix_cons c body).isInfix)
    have hclose (ds : List Char) (hc : c = '*') (hds : body ++ '*' :: '/' :: cs = '/' :: ds) : False := by
      subst hc
      cases body with
      | nil => cases hds
      | cons d body =>
        rw [List.cons_append, List.cons.injEq] at hds
        obtain ⟨rfl, -⟩ := hds
        exact hbody ⟨[], body, rfl⟩
    rw [List.cons_append, gapFrom_block hclose, ih hrest, gapFrom.skip_skip, linesAfter_cons]
    rfl

theorem gapFrom_lineBody {body : List Char} (hbody : '\n' ∉ body) :
    gapFrom line .untilLineEnd (body ++ '\n' :: cs) =
      gapFrom.skip (body ++ ['\n']) (gapFrom (line + 1) .blank cs) := by
  induction body with
  | nil =>
    rw [List.nil_append, gapFrom_untilLineEnd]
    rfl
  | cons c body ih =>
    obtain ⟨hc, hrest⟩ := List.ne_and_not_mem_of_not_mem_cons hbody
    have hchar : ¬ (c == '\n') = true := by simpa using Ne.symm hc
    rw [List.cons_append, gapFrom_untilLineEnd, if_neg hchar, ih hrest, gapFrom.skip_skip]
    rfl

theorem linesAfter_of_not_mem {body : List Char} (hbody : '\n' ∉ body) (line : Nat) :
    linesAfter line body = line := by
  rw [linesAfter_eq, List.count_eq_zero.mpr hbody, Nat.add_zero]

/-- The gap behind a lead starts with the lead. -/
theorem gapFrom_lead {lead : List Char} (h : IsLead lead) (line : Nat) (cs : List Char) :
    gapFrom line .blank (lead ++ cs) =
      gapFrom.skip lead (gapFrom (linesAfter line lead) .blank cs) := by
  induction h generalizing line with
  | nil => rw [gapFrom.skip_nil]; rfl
  | @blank c lead hc h ih =>
    have hslash : c ≠ '/' := by
      rintro rfl
      exact absurd hc (by decide)
    rw [List.cons_append, gapFrom_blank (fun _ h => absurd h hslash) (fun _ h => absurd h hslash),
      if_pos hc, ih, gapFrom.skip_skip, linesAfter_cons]
    rfl
  | @block body lead hbody h ih =>
    have hlines : linesAfter line ('/' :: '*' :: (body ++ '*' :: '/' :: lead)) =
        linesAfter (linesAfter line body) lead := by
      have hopen : linesAfter line ('/' :: '*' :: (body ++ '*' :: '/' :: lead)) =
          linesAfter line (body ++ '*' :: '/' :: lead) := rfl
      rw [hopen, linesAfter_append]
      rfl
    rw [hlines, List.cons_append, List.cons_append, List.append_assoc, gapFrom_blockOpen]
    rw [List.cons_append, List.cons_append, gapFrom_blockBody hbody, ih, gapFrom.skip_skip,
      gapFrom.skip_skip]
    simp
  | @line body lead hbody h ih =>
    have hlines : linesAfter line ('/' :: '/' :: (body ++ '\n' :: lead)) =
        linesAfter (line + 1) lead := by
      have hopen : linesAfter line ('/' :: '/' :: (body ++ '\n' :: lead)) =
          linesAfter line (body ++ '\n' :: lead) := rfl
      rw [hopen, linesAfter_append, linesAfter_of_not_mem hbody]
      rfl
    rw [hlines, List.cons_append, List.cons_append, List.append_assoc, gapFrom_lineOpen,
      List.cons_append, gapFrom_lineBody hbody, ih, gapFrom.skip_skip, gapFrom.skip_skip]
    simp

end Gap

/-- Before the first token its gap tells nothing. -/
theorem lexemeAt_first (gap gap' : List Char) (c : Char) (cs : List Char) :
    lexemeAt none gap c cs = lexemeAt none gap' c cs := by
  have hplain (spaced spaced' : Bool) : plainAt none spaced c cs = plainAt none spaced' c cs := rfl
  simp only [lexemeAt, Option.any_none, Bool.and_false, hplain (!gap.isEmpty) (!gap'.isEmpty)]

theorem nextToken_lead {lead : List Char} (h : IsLead lead) (line start : Nat) (cs : List Char) :
    nextToken line start none (lead ++ cs) =
      (nextToken (linesAfter line lead) (start + lead.length) none cs).map
        fun (t, rest) => (t.behind lead, rest) := by
  unfold nextToken
  rw [gapFrom_lead h]
  cases gapFrom (linesAfter line lead) .blank cs with
  | error e => rfl
  | ok p =>
    obtain ⟨gap, rest⟩ := p
    have hlines : linesAfter line (lead ++ gap) = linesAfter (linesAfter line lead) gap :=
      linesAfter_append line lead gap
    have hstart : start + (lead ++ gap).length = start + lead.length + gap.length := by
      rw [List.length_append]
      omega
    cases rest with
    | nil =>
      simp only [gapFrom.skip, Except.map, hlines, hstart]
      rfl
    | cons c cs =>
      simp only [gapFrom.skip, Except.map, hlines, hstart, lexemeAt_first (lead ++ gap) gap]
      cases lexemeAt none gap c cs <;> rfl

theorem tokensFrom_congr {previous previous' : Option Token} (h : SameContext previous previous')
    (line start : Nat) (cs : List Char) :
    tokensFrom line start previous' cs = tokensFrom line start previous cs := by
  have hmoved := tokensFrom_moved 0 0 h line start cs
  have htokens : Token.moved 0 0 = id := rfl
  have hfaults : Fault.moved 0 = id := by
    funext e
    cases e <;> rfl
  rw [htokens, hfaults, List.map_id_fun] at hmoved
  rw [Nat.add_zero, Nat.add_zero] at hmoved
  rw [hmoved]
  cases tokensFrom line start previous cs <;> rfl

theorem tokensFrom_lead {lead : List Char} (h : IsLead lead) (line start : Nat) (cs : List Char) :
    tokensFrom line start none (lead ++ cs) =
      (tokensFrom (linesAfter line lead) (start + lead.length) none cs).map (tokensBehind lead) := by
  rw [tokensFrom_eq, tokensFrom_eq (linesAfter line lead), nextToken_lead h]
  cases nextToken (linesAfter line lead) (start + lead.length) none cs with
  | error e => rfl
  | ok p =>
    obtain ⟨t, rest⟩ := p
    have hcontext : SameContext (some t) (some (t.behind lead)) := ⟨rfl, fun _ => rfl⟩
    have hrest := tokensFrom_congr hcontext (linesAfter t.line t.text) t.stop rest
    have hbehind : (t.behind lead).text = t.text ∧ (t.behind lead).line = t.line ∧
        (t.behind lead).stop = t.stop := ⟨rfl, rfl, rfl⟩
    simp only [Except.map, Except.bind, hbehind, hrest]
    split
    · rfl
    · cases tokensFrom (linesAfter t.line t.text) t.stop (some t) rest <;> rfl

/-- The tokens of a stylesheet behind a lead. -/
theorem tokenize_lead {lead : String} (h : IsLead lead.toList) (source : String) :
    tokenize (lead ++ source) =
      ((tokenize source).mapError (Fault.moved (lead.toList.count '\n'))).map fun ts =>
        tokensBehind lead.toList (ts.map (Token.moved (lead.toList.count '\n') lead.toList.length)) := by
  have hcontext : SameContext none none := ⟨rfl, fun _ => rfl⟩
  have hmoved := tokensFrom_moved (lead.toList.count '\n') lead.toList.length hcontext 1 0
    source.toList
  rw [tokenize, tokenize, String.toList_append, tokensFrom_lead h, linesAfter_eq, hmoved]
  cases (tokensFrom 1 0 none source.toList).mapError (Fault.moved (lead.toList.count '\n')) <;> rfl

end StyleTally.Stylesheet
