import StyleTally.Proofs.Lexer.Shift
import StyleTally.Proofs.Likeness.Statement

/-!
# Tokens elsewhere

What tokens parse to does not depend on where they stand. Of all tokens moved the same way, a fault
is moved as well.
-/

namespace StyleTally.Stylesheet

section Alike

variable {ts us : List Token} {stop stop' : Token}

theorem spannedChars_alike (h : List.Forall₂ Token.Alike ts us) :
    spannedChars ts = spannedChars us := by
  have hrest : ∀ {ts us : List Token}, List.Forall₂ Token.Alike ts us →
      (ts.flatMap fun t => t.gap ++ t.text) = us.flatMap fun t => t.gap ++ t.text := by
    intro ts us h
    induction h with
    | nil => rfl
    | cons ht _ ih => rw [List.flatMap_cons, List.flatMap_cons, ht.2.1, ht.2.2, ih]
  cases h with
  | nil => rfl
  | cons ht hts => rw [spannedChars, spannedChars, ht.2.2, hrest hts]

/-- Tokens and the same tokens elsewhere. -/
def Likeness.placed : Likeness where
  token := Token.Alike
  line _ _ := True
  text _ := Eq
  lenient := False
  exhaustible := True
  lexeme_eq h := h.1
  spaced_eq h := by rw [Token.spaced, Token.spaced, h.2.1]
  line_of _ := trivial
  text_of _ h := by rw [Grammar.textOf, Grammar.textOf, spannedChars_alike h]

/-- What tokens parse to does not depend on where they stand. -/
theorem sheet_alike {room : Room} {s : Sheet} (hstop : stop.Alike stop')
    (h : List.Forall₂ Token.Alike ts us) (hs : Grammar.sheet room stop' us = .ok s) :
    Grammar.sheet room stop ts = .ok s := by
  have hlike := Likeness.sheet (L := Likeness.placed) (.same trivial room) hstop h
  rw [hs] at hlike
  generalize Grammar.sheet room stop ts = x at hlike
  cases hlike with
  | ok h => rw [Statement.LikeAll.eq_of_text (fun h => h) h]
  | lenient h => exact h.elim

end Alike

section Moved

variable (down on : Nat)

theorem spannedChars_moved (ts : List Token) :
    spannedChars (ts.map (Token.moved down on)) = spannedChars ts := by
  cases ts with
  | nil => rfl
  | cons t ts => simp [spannedChars, List.flatMap_map, Token.moved]

/-- Tokens and the same tokens further down and further on. -/
def Likeness.moved : Likeness where
  token t u := u = t.moved down on
  line l m := m = l + down
  text _ := Eq
  lenient := False
  exhaustible := True
  lexeme_eq := by
    rintro t u rfl
    rfl
  spaced_eq := by
    rintro t u rfl
    rfl
  line_of := by
    rintro t u rfl
    rfl
  text_of := by
    rintro kind ts us - h
    obtain rfl : us = ts.map (Token.moved down on) := by
      induction h with
      | nil => rfl
      | cons hu _ ih => rw [hu, ih, List.map_cons]
    rw [Grammar.textOf, Grammar.textOf, spannedChars_moved]

theorem sheet_moved (room : Room) (stop : Token) (ts : List Token) :
    Grammar.sheet room (stop.moved down on) (ts.map (Token.moved down on)) =
      (Grammar.sheet room stop ts).mapError (Fault.moved down) := by
  have htokens : (Likeness.moved down on).Tokens ts (ts.map (Token.moved down on)) := by
    rw [Likeness.Tokens, List.forall₂_map_right_iff]
    exact List.forall₂_same.mpr fun t _ => rfl
  have hstop : (Likeness.moved down on).token stop (stop.moved down on) := rfl
  have hlike := Likeness.sheet (.same trivial room) hstop htokens
  generalize Grammar.sheet room stop ts = x at hlike
  generalize Grammar.sheet room (stop.moved down on) (ts.map (Token.moved down on)) = y at hlike
  cases hlike with
  | ok h => rw [Statement.LikeAll.eq_of_text (fun h => h) h, mapError_ok]
  | malformed cause h =>
    obtain rfl := h
    rfl
  | tooDeep h =>
    obtain rfl := h
    rfl
  | overflow _ => rfl
  | lenient h => exact h.elim

end Moved

end StyleTally.Stylesheet
