import StyleTally.Proofs.Cursor.Sheet
import StyleTally.Proofs.Nesting.Limit

/-!
# What parsing comes to

A text is parsed by position, with every look at a token checked, to what it is parsed to by ranges:
to a stylesheet, or to a fault on one of its lines, or to the overflow of a stack that is too small
for its nesting. No other outcome of a move is left.
-/

namespace StyleTally.Stylesheet

namespace Tape

/-- The tape of a text, which is read with so much room for nesting. -/
def parseAt (room : Room) (source : String) : Except Halt Sheet :=
  match h : tokenize source with
  | .error fault => .error (.refused fault)
  | .ok ts => sheet ⟨source, ts, tokenize_tiled h⟩ room

/-- Parses a text by position within a limit on nesting, on a stack that holds so many calls. -/
def parseOn (calls : Nat) (limit : Int) (source : String) : Except Halt Sheet :=
  parseAt ⟨limit.toNat, calls⟩ source

/-- By position a text is parsed to what it is parsed to by ranges. -/
theorem parseAt_cases (room : Room) (source : String) :
    (∃ sheet, Stylesheet.parseAt room source = .ok sheet ∧ parseAt room source = .ok sheet) ∨
      ∃ fault, Stylesheet.parseAt room source = .error fault ∧
        parseAt room source = .error (.refused fault) ∧
        (fault.Between 1 (1 + source.toList.count '\n') ∨ fault = .overflow) := by
  unfold parseAt
  split
  · rename_i fault htokens
    refine .inr ⟨fault, ?_, rfl, .inl (tokenize_line htokens)⟩
    rw [parseAt_eq, htokens]
    rfl
  · rename_i ts htokens
    have hranges : Stylesheet.parseAt room source =
        Grammar.sheet room (splitEnd ts).2 (splitEnd ts).1 := by
      rw [parseAt_eq, htokens]
      rfl
    have htiled := tokenize_tiled htokens
    have hsim := sheet_sim ⟨source, ts, htiled⟩ room
    rw [hranges]
    generalize Grammar.sheet room (splitEnd ts).2 (splitEnd ts).1 = x at hsim
    generalize sheet ⟨source, ts, htiled⟩ room = y at hsim
    cases hsim with
    | ok heq =>
      subst heq
      exact .inl ⟨_, rfl, rfl⟩
    | @refused fault hline =>
      refine .inr ⟨fault, rfl, rfl, ?_⟩
      cases fault with
      | overflow => exact .inr rfl
      | malformed _ line | tooDeep line =>
        obtain ⟨t, ht, rfl⟩ := hline line rfl
        exact .inl ⟨t.line, rfl, htiled.line_le ht⟩

/-- Within a limit a text is parsed to a stylesheet, or refused on one of its lines for its form or
for the limit. So it is by position: no look at a token is out of range, every operator is found,
and no pass of a loop reads nothing. It is refused without a line only where the stack is too small,
and then it nests too deep for every limit up to this one whose levels the stack holds, at ten calls
a level; so never where the stack holds the levels of the limit itself. -/
theorem parse_settles (calls : Nat) (limit : Int) (source : String) :
    (∃ sheet, Stylesheet.parseOn calls limit source = .ok sheet ∧
        parseOn calls limit source = .ok sheet) ∨
      ∃ fault, Stylesheet.parseOn calls limit source = .error (.ofFault limit fault) ∧
        parseOn calls limit source = .error (.refused fault) ∧
        (fault.Between 1 (1 + source.toList.count '\n') ∨
          fault = .overflow ∧ ∀ l : Int, l ≤ limit → 10 * l ≤ calls →
            ∃ line, Stylesheet.parseOn calls l source = .error (.beyondLimit l line)) := by
  rcases parseAt_cases ⟨limit.toNat, calls⟩ source with
    ⟨sheet, hranges, hposition⟩ | ⟨fault, hranges, hposition, hfault⟩
  · refine .inl ⟨sheet, ?_, hposition⟩
    rw [Stylesheet.parseOn, hranges]
    rfl
  · have hrefused : Stylesheet.parseOn calls limit source = .error (.ofFault limit fault) := by
      rw [Stylesheet.parseOn, hranges]
      rfl
    refine .inr ⟨fault, hrefused, hposition, hfault.imp_right ?_⟩
    rintro rfl
    exact ⟨rfl, fun l hl hcalls => beyondLimit_of_exhausted hrefused hl hcalls⟩

/-- A mixin definition whose parenthesis closes behind the brace: its guard would start beyond the
tokens in front of the brace, and is refused on the line of the brace. -/
theorem parse_settles_beyond :
    parse 300 ".a([\n\x7b]) when \x7b\x7d" = .error (.malformed (.unexpected .endOfInput) 2) ∧
      parseOn stackCalls 300 ".a([\n\x7b]) when \x7b\x7d" =
        .error (.refused (.malformed (.unexpected .endOfInput) 2)) := by
  have hparse : parse 300 ".a([\n\x7b]) when \x7b\x7d" =
      .error (.malformed (.unexpected .endOfInput) 2) := parse_of_map_eq_error (by decide +kernel)
  refine ⟨hparse, ?_⟩
  rcases parse_settles stackCalls 300 ".a([\n\x7b]) when \x7b\x7d" with
    ⟨sheet, hsheet, -⟩ | ⟨fault, hrefusal, hfault, -⟩
  · rw [parse, hsheet] at hparse
    cases hparse
  · rw [parse, hrefusal] at hparse
    cases fault with
    | malformed cause line =>
      obtain ⟨rfl, rfl⟩ := Refusal.malformed.inj (Except.error.inj hparse)
      exact hfault
    | tooDeep | overflow => cases hparse

/-- A value in 130 parentheses. -/
def crowded : String :=
  "a \x7b x: " ++ String.ofList (List.replicate 130 '(') ++ "1" ++
    String.ofList (List.replicate 130 ')') ++ "; \x7d"

/-- A limit of 300 admits so many parentheses, but the stack is too small for them, and that fault
has no line. -/
theorem parse_crowded : parse 300 crowded = .error .exhausted ∧
    ∀ fault, Refusal.ofFault 300 fault = .exhausted → fault.line? = none := by
  have hparse : parse 300 crowded = .error .exhausted := parse_of_map_eq_error (by decide +kernel)
  refine ⟨hparse, fun fault hfault => ?_⟩
  cases fault with
  | malformed | tooDeep => cases hfault
  | overflow => rfl

end Tape

end StyleTally.Stylesheet
