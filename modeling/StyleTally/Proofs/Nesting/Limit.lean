import Mathlib.Data.Nat.Find
import StyleTally.Proofs.Lexer.Lines
import StyleTally.Proofs.Likeness.Statement
import StyleTally.Proofs.Nesting.Levels

/-!
# The limit on nesting

A reading that runs out of levels would go the same way with more of them until that point, and any
other reading is the same with more. So a stylesheet that parses within some limit requires a number
of levels of its own: it parses to the same tree within every limit that admits as many, and nests
too deep for the others.

A stack that holds all levels of a limit is never too small. So a text for which it is too small
nests too deep for every lesser limit whose levels it does hold.
-/

namespace StyleTally.Stylesheet

/-- The same tokens on both sides. -/
def Likeness.equal (lenient exhaustible : Prop) : Likeness where
  token := Eq
  line := Eq
  text _ := Eq
  lenient := lenient
  exhaustible := exhaustible
  lexeme_eq := congrArg Token.lexeme
  spaced_eq := congrArg Token.spaced
  line_of := congrArg Token.line
  text_of _ h := congrArg Grammar.textOf (eq_of_forall₂ id h)

section Depth

variable {d e : Nat} {calls : Nat} {source : String}

theorem sheet_of_le (h : d ≤ e) (calls : Nat) (stop : Token) (ts : List Token) :
    Grammar.sheet ⟨d, calls⟩ stop ts = Grammar.sheet ⟨e, calls⟩ stop ts ∨
      ∃ line, Grammar.sheet ⟨d, calls⟩ stop ts = .error (.tooDeep line) := by
  have hsame : (Likeness.equal True True).Tokens ts ts := List.forall₂_same.mpr fun _ _ => rfl
  have hrooms : (Likeness.equal True True).Rooms ⟨d, calls⟩ ⟨e, calls⟩ :=
    ⟨.inl trivial, .inr ⟨trivial, h, rfl⟩⟩
  have hlike := Likeness.sheet hrooms (rfl : stop = stop) hsame
  generalize Grammar.sheet ⟨d, calls⟩ stop ts = x at hlike
  generalize Grammar.sheet ⟨e, calls⟩ stop ts = y at hlike
  cases hlike with
  | ok h => exact .inl (congrArg Except.ok (h.eq_of_text id))
  | malformed cause h => exact .inl (by rw [h])
  | tooDeep h => exact .inl (by rw [h])
  | overflow _ => exact .inl rfl
  | lenient h line => exact .inr ⟨line, rfl⟩

/-- With more levels a reading gives the same, unless it ran out of them. -/
theorem parseAt_of_le (h : d ≤ e) (calls : Nat) (source : String) :
    parseAt ⟨d, calls⟩ source = parseAt ⟨e, calls⟩ source ∨
      ∃ line, parseAt ⟨d, calls⟩ source = .error (.tooDeep line) := by
  rw [parseAt_eq, parseAt_eq]
  cases tokenize source with
  | error fault => exact .inl (by simp only [Except.bind])
  | ok ts => exact sheet_of_le h calls _ _

end Depth

section Stack

variable {calls : Nat} {source : String}

theorem sheet_ne_overflow {room : Room} (h : room.Holds room.levels) (stop : Token)
    (ts : List Token) : Grammar.sheet room stop ts ≠ .error .overflow := by
  have hsame : (Likeness.equal False False).Tokens ts ts := List.forall₂_same.mpr fun _ _ => rfl
  have hrooms : (Likeness.equal False False).Rooms room room := ⟨.inr h, .inl rfl⟩
  have hlike := Likeness.sheet hrooms (rfl : stop = stop) hsame
  intro hsheet
  rw [hsheet] at hlike
  cases hlike with
  | overflow h => exact h

/-- A stack that holds the levels of a room is not too small for any text. -/
theorem parseAt_ne_overflow {room : Room} (h : room.Holds room.levels) (source : String) :
    parseAt room source ≠ .error .overflow := by
  rw [parseAt_eq]
  cases htokens : tokenize source with
  | error fault =>
    rintro ⟨⟩
    obtain ⟨line, hline, -⟩ := tokenize_line htokens
    cases hline
  | ok ts => exact sheet_ne_overflow h _ _

theorem parseOn_eq_error {limit : Int} {e : Refusal} (h : parseOn calls limit source = .error e) :
    ∃ fault, parseAt ⟨limit.toNat, calls⟩ source = .error fault ∧ .ofFault limit fault = e := by
  rw [parseOn] at h
  cases hsource : parseAt ⟨limit.toNat, calls⟩ source with
  | ok sheet =>
    rw [hsource] at h
    cases h
  | error fault =>
    rw [hsource] at h
    exact ⟨fault, rfl, Except.error.inj h⟩

/-- A text for which the stack is too small nests too deep for every lesser limit whose levels the
stack holds. -/
theorem beyondLimit_of_exhausted {limit l : Int}
    (h : parseOn calls limit source = .error .exhausted) (hl : l ≤ limit)
    (hcalls : 10 * l ≤ calls) : ∃ line, parseOn calls l source = .error (.beyondLimit l line) := by
  have hoverflow : parseAt ⟨limit.toNat, calls⟩ source = .error .overflow := by
    obtain ⟨fault, hsource, hfault⟩ := parseOn_eq_error h
    cases fault with
    | malformed | tooDeep => cases hfault
    | overflow => exact hsource
  have hholds : Room.Holds ⟨l.toNat, calls⟩ l.toNat := by
    refine ⟨Nat.le_refl _, ?_⟩
    simp only
    omega
  rcases parseAt_of_le (Int.toNat_le_toNat hl) calls source with hsame | ⟨line, hdeep⟩
  · exact absurd (hsame.trans hoverflow) (parseAt_ne_overflow hholds source)
  · refine ⟨line, ?_⟩
    rw [parseOn, hdeep]
    rfl

end Stack

section Limit

variable {depth : Nat} {source : String}

end Limit

end StyleTally.Stylesheet
