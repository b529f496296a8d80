import StyleTally.Proofs.Concatenation.Sheet
import StyleTally.Proofs.Lead.Statement

/-!
# Stylesheets behind a lead

Blank space and comments in front of a stylesheet change nothing but the lines of its faults. There
is one exception, a ruleset in front of everything else that opens with the word `when`: behind a
lead the word opens a guard that has no selector.
-/

namespace StyleTally.Stylesheet

/-- Whether a stylesheet opens, without a gap, with the word `when` in front of a body. -/
def opensWithGuard (source : String) : Bool :=
  match (tokenize source).map splitEnd with
  | .ok (t :: ts, _) =>
    t.isWord "when" && !t.spaced && startsWithDelim '\x7b' (Grammar.head (t :: ts)).2
  | _ => false

theorem tokensBehind_map_moved (lead : List Char) (down on : Nat) (ts : List Token) :
    tokensBehind lead (ts.map (Token.moved down on)) =
      (tokensBehind lead ts).map (Token.moved down on) := by
  cases ts <;> rfl

theorem sheet_nil (room : Room) (stop : Token) : Grammar.sheet room stop [] = .ok [] := by
  rw [Grammar.sheet, Grammar.statements]
  rfl

theorem sheet_tokensBehind {lead source : String} {ts : List Token}
    (htokens : tokenize source = .ok ts) (h : lead = "" ∨ opensWithGuard source = false)
    (room : Room) :
    Grammar.sheet room (splitEnd (tokensBehind lead.toList ts)).2
        (splitEnd (tokensBehind lead.toList ts)).1 =
      Grammar.sheet room (splitEnd ts).2 (splitEnd ts).1 := by
  cases ts with
  | nil => rfl
  | cons t ts =>
    by_cases hts : ts = []
    · subst hts
      exact (sheet_nil room _).trans (sheet_nil room t).symm
    · have hopens : t.isWord "when" = true → t.spaced = false →
          startsWithDelim '\x7b' (Grammar.head (t :: (splitEnd ts).1)).2 = true →
          lead.toList = [] := by
        intro hword hspaced hbrace
        rcases h with rfl | h
        · rfl
        · rw [opensWithGuard, htokens] at h
          simp only [Except.map, splitEnd_cons t hts, hword, hspaced, hbrace] at h
          cases h
      rw [tokensBehind, splitEnd_cons _ hts, splitEnd_cons t hts]
      exact Grammar.sheet_behind _ _ _ room hopens

theorem parseAt_lead {lead source : String} (hlead : IsLead lead.toList)
    (h : lead = "" ∨ opensWithGuard source = false) (room : Room) :
    parseAt room (lead ++ source) =
      (parseAt room source).mapError (Fault.moved (newlines lead)) := by
  rw [parseAt_eq, parseAt_eq, tokenize_lead hlead]
  cases htokens : tokenize source with
  | error e => rfl
  | ok ts =>
    have hne : tokensBehind lead.toList ts ≠ [] := by
      cases ts with
      | nil => exact absurd rfl (tokensFrom_ne_nil htokens)
      | cons t ts => exact List.cons_ne_nil _ _
    simp only [mapError_ok, Except.map, Except.bind, tokensBehind_map_moved, splitEnd_map _ hne,
      sheet_moved, sheet_tokensBehind htokens h]
    rfl

/-- Behind a lead a stylesheet parses to the same statements, or fails for the same cause as many
lines further down as the lead has. -/
theorem parse_lead {lead source : String} (hlead : IsLead lead.toList)
    (h : lead = "" ∨ opensWithGuard source = false) (limit : Int) :
    parse limit (lead ++ source) = (parse limit source).mapError (Refusal.moved (newlines lead)) := by
  rw [parse, parse, parseOn, parseOn, parseAt_lead hlead h]
  cases parseAt ⟨limit.toNat, stackCalls⟩ source with
  | ok sheet => rfl
  | error e => exact congrArg Except.error (Refusal.ofFault_moved limit _ e)

/-- The exception is one for every lead: the guard has no selector. -/
theorem parse_guard_lead {lead source : String} (hlead : IsLead lead.toList) (hne : lead ≠ "")
    (h : opensWithGuard source = true) (limit : Int) :
    ∃ line, parse limit (lead ++ source) = .error (.malformed .missingSelector line) := by
  cases htokens : tokenize source with
  | error e =>
    rw [opensWithGuard, htokens] at h
    cases h
  | ok ts =>
    cases ts with
    | nil => exact absurd rfl (tokensFrom_ne_nil htokens)
    | cons t ts =>
      by_cases hts : ts = []
      · subst hts
        rw [opensWithGuard, htokens] at h
        cases h
      · rw [opensWithGuard, htokens] at h
        simp only [Except.map, splitEnd_cons t hts, Bool.and_eq_true] at h
        obtain ⟨⟨hword, -⟩, hbrace⟩ := h
        rw [← Grammar.startsWithDelim_head_behind lead.toList] at hbrace
        have hspaced : (t.behind lead.toList).spaced = true := by
          simp [Token.spaced, Token.behind, hne]
        have hsheet (room : Room) := Grammar.sheet_when (splitEnd ts).2 (splitEnd ts).1 room
          (t := t.behind lead.toList) hword hspaced hbrace
        have hne : tokensBehind lead.toList (t :: ts) ≠ [] := List.cons_ne_nil _ _
        refine ⟨t.line + newlines lead, ?_⟩
        rw [parse, parseOn, parseAt_eq, tokenize_lead hlead, htokens]
        simp only [mapError_ok, Except.map, Except.bind, tokensBehind_map_moved, splitEnd_map _ hne,
          sheet_moved]
        rw [tokensBehind, splitEnd_cons _ hts, hsheet]
        rfl

theorem isLead_comment : IsLead "/* a */\n".toList :=
  @IsLead.block [' ', 'a', ' '] ['\n'] (by decide) (.blank (by decide) .nil)

theorem parse_lead_comment : opensWithGuard "a\n\x7b\x7d" = false ∧
    ∃ sheet, parse 64 "a\n\x7b\x7d" = .ok sheet ∧
      parse 64 ("/* a */\n" ++ "a\n\x7b\x7d") = .ok sheet ∧
      parse 64 ("/* a */\n" ++ "\x7d") = .error (.malformed (.unexpected (.text "\x7d")) 2) := by
  have hopens : opensWithGuard "a\n\x7b\x7d" = false ∧ opensWithGuard "\x7d" = false := by
    decide +kernel
  obtain ⟨sheet, hsheet⟩ : ∃ sheet, parse 64 "a\n\x7b\x7d" = .ok sheet :=
    parse_of_isSome (by decide +kernel)
  have hclose : parse 64 "\x7d" = .error (.malformed (.unexpected (.text "\x7d")) 1) :=
    parse_of_map_eq_error (by decide +kernel)
  refine ⟨hopens.1, sheet, hsheet, ?_, ?_⟩
  · rw [parse_lead isLead_comment (.inr hopens.1), hsheet]
    rfl
  · rw [parse_lead isLead_comment (.inr hopens.2), hclose]
    rfl

/-- A type selector `when` in front of everything else is one only without a gap. -/
theorem parse_spaced_when : (∃ sheet, parse 64 "when\x7b\x7d" = .ok sheet) ∧
    parse 64 (" " ++ "when\x7b\x7d") = .error (.malformed .missingSelector 1) :=
  ⟨parse_of_isSome (by decide +kernel), parse_of_map_eq_error (by decide +kernel)⟩

end StyleTally.Stylesheet
