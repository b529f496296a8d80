import StyleTally.Proofs.Brackets.Statement
import StyleTally.Stylesheet.Parse

/-!
# Brackets of stylesheets

The statements of a stylesheet that parses have a legible text, so its tokens are well nested but
for what was passed over unread. What was passed over need not be: a pseudo-class may hold brackets
that do not fit.
-/

namespace StyleTally.Stylesheet

namespace Grammar

section Statements

/-- A rule for bodies, which reads a body in its braces. -/
def ReadsBody (body : Body) : Prop :=
  ∀ o stop ts, Yields (fun (_, rest) => ∃ used, ts = used ++ rest ∧ Enclosed used) (body o stop ts)

variable {room : Room} {body : Body} (hb : ReadsBody body)
include hb

/-- A body behind its head. -/
theorem body_read {α : Type} (a : List Statement → α) {front : List Token}
    (hfront : LegibleHead front) (o : Opening) (stop : Token) (ts : List Token) :
    Yields (fun (_, rest) => StatementRead (front ++ ts) rest)
      (do let (ss, rest) ← body o stop ts; return (a ss, rest)) := by
  refine (hb o stop ts).bind ?_
  rintro ⟨ss, rest⟩ ⟨used, rfl, hused⟩
  exact .of_block hfront hused rest

theorem withBody_read (stop brace : Token) {front tail ts : List Token}
    (hts : ts = front ++ tail) :
    Yields (fun (_, rest) => StatementRead ts rest)
      (withBody room body stop brace front tail ts) := by
  rw [withBody]
  split
  · rename_i hempty
    exact body_read hb _ (Legible.nil.head) _ stop ts
  · refine (mixinHead?_legible room brace hts).bind fun {found} hfound => ?_
    subst hts
    cases found with
    | none =>
      refine (rulesetHead_legible room brace front).bind ?_
      rintro ⟨ss, guard⟩ hhead
      exact body_read hb _ hhead _ stop tail
    | some p =>
      obtain ⟨name, ps, guard⟩ := p
      exact body_read hb _ (hfound rfl).head _ stop tail

theorem media_read (stop : Token) {t : Token} (ht : t.isBracket = false) (ts : List Token) :
    Yields (fun (_, rest) => StatementRead (t :: ts) rest) (media room body stop ts) := by
  unfold media
  cases hhead : head ts with
  | mk front tail =>
    obtain ⟨rfl, -⟩ := head_unread hhead
    simp only
    split
    · trivial
    · refine (mediaQueriesIfAny_legible room _ front).bind fun h => ?_
      exact body_read hb _ (Legible.cons ht h).head _ stop tail

theorem definition_read (name : String) (stop : Token) {t colon : Token} (ht : t.isBracket = false)
    (hcolon : colon.isDelim ':' = true) (ts : List Token) :
    Yields (fun (_, rest) => StatementRead (t :: colon :: ts) rest)
      (definition room body name stop ts) := by
  have hcolon : colon.isBracket = false := Token.isBracket_of_isDelim hcolon rfl
  rw [definition]
  split
  · exact body_read hb _ (Legible.cons ht (.single hcolon)).head _ stop ts
  · cases hhead : head ts with
    | mk front tail =>
      obtain ⟨rfl, -⟩ := head_unread hhead
      simp only
      refine (declarationValue_legible room _ front).bind ?_
      rintro ⟨v?, important⟩ h
      cases v? with
      | none => trivial
      | some v =>
        exact (endStatement_read (Legible.cons ht (.cons hcolon h)).simple).bind fun h => h

theorem directive_read (name : String) (stop : Token) {t : Token} (ht : t.opensPrelude = true)
    (hplain : t.isBracket = false) (ts : List Token) :
    Yields (fun (_, rest) => StatementRead (t :: ts) rest)
      (directive room body name stop ts) := by
  unfold directive
  cases hhead : head ts with
  | mk front tail =>
    obtain ⟨rfl, last, hunread⟩ := head_unread hhead
    simp only
    split
    · exact body_read hb _ (.prelude ht hunread) _ stop tail
    · refine (valueIfAny_legible room _ front).bind fun h => ?_
      exact (endStatement_read (Legible.cons hplain h).simple).bind fun h => h

theorem atRule_read {name : String} {t : Token} (ht : t.lexeme = .atKeyword name) (stop : Token)
    (ts : List Token) :
    Yields (fun (_, rest) => StatementRead (t :: ts) rest) (atRule room body name stop ts) := by
  have hplain : t.isBracket = false := Token.isBracket_of_lexeme ht rfl
  unfold atRule
  simp only
  split
  · exact media_read hb stop hplain ts
  · rename_i hmedia
    split
    · rename_i himport
      exact imported_read room stop (by simp [Token.opensImport, ht, hmedia, himport]) ts
    · rename_i himport
      have hprelude : t.opensPrelude = true := by
        simp [Token.opensPrelude, ht, hmedia, himport]
      have hdirective (us : List Token) : Yields (fun (_, rest) => StatementRead (t :: us) rest)
          (directive room body name stop us) := directive_read hb name stop hprelude hplain us
      split
      · exact hdirective []
      · rename_i u rest
        split
        · rename_i hcolon
          split
          · exact definition_read hb name stop hplain hcolon rest
          · exact hdirective _
        · split
          · rename_i hcall
            simp only [Bool.and_eq_true] at hcall
            exact blockCall_read room name hplain hcall.1 rest
          · exact hdirective _

theorem statement_read (stop t : Token) (rest : List Token) :
    Yields (fun (_, after) => StatementRead (t :: rest) after)
      (statement room body stop t rest) := by
  unfold statement
  split
  · exact atRule_read hb ‹_› stop rest
  · rename_i hat
    split
    · rename_i front brace after hhead
      split
      · obtain ⟨hts, -⟩ := head_unread hhead
        exact withBody_read hb stop brace hts
      · exact simpleStatement_read room stop t rest hat
    · exact simpleStatement_read room stop t rest hat

/-- Statements are read up to a closing brace or the end. -/
def StatementsRead (ts rest : List Token) : Prop :=
  (∃ used, ts = used ++ rest ∧ LegibleBody used) ∧
    (rest = [] ∨ startsWithDelim '}' rest = true)

omit hb in
theorem statements_end {room : Room} {body : Body} {stop : Token}
    {rest : List Token} (h : rest = [] ∨ startsWithDelim '}' rest = true) :
    statements room body stop rest = .ok ([], rest) := by
  cases rest with
  | nil => rw [statements]
  | cons t rest =>
    have ht : t.isDelim '}' = true := by simpa [startsWithDelim] using h
    rw [statements, if_pos ht]

theorem statements_read (hsuffix : ∀ stop t rest,
      Yields (fun (_, after) => after <:+ rest) (statement room body stop t rest))
    (stop : Token) (ts : List Token) :
    Yields (fun (_, rest) => StatementsRead ts rest) (statements room body stop ts) := by
  induction hn : ts.length using Nat.strongRecOn generalizing ts with
  | ind n ih =>
    cases ts with
    | nil =>
      rw [statements]
      exact ⟨⟨[], rfl, .nil⟩, .inl rfl⟩
    | cons t rest =>
      rw [statements]
      simp only [List.length_cons] at hn
      split
      · rename_i ht
        exact ⟨⟨[], rfl, .nil⟩, .inr ht⟩
      · split
        · rename_i ht
          refine (ih _ (by omega) rest rfl).map ?_
          rintro ⟨ss, after⟩ ⟨⟨used, rfl, hused⟩, hend⟩
          exact ⟨⟨t :: used, rfl, .semicolon ht hused⟩, hend⟩
        · refine ((hsuffix stop t rest).and (statement_read hb stop t rest)).bind ?_
          rintro ⟨s, after⟩ ⟨hafter, hread⟩
          have hlength := hafter.length_le
          simp only [if_pos hlength]
          rcases hread with ⟨used, hts, hmore⟩ | ⟨used, hts, hsimple, hend⟩
          · refine (ih _ (by omega) after rfl).map ?_
            rintro ⟨ss, last⟩ ⟨⟨more, rfl, hlegible⟩, hend⟩
            exact ⟨⟨used ++ more, by simp [hts], hmore more hlegible⟩, hend⟩
          · rw [statements_end hend]
            have hlast : LegibleBody (used ++ []) := .simple hsimple (.inl rfl) .nil
            exact ⟨⟨used ++ [], by simp [hts], hlast⟩, hend⟩

end Statements

section Bodies

open Statement (shaped_grammatical)

theorem statement_suffix (room : Room) (stop t : Token) (rest : List Token) :
    Yields (fun (_, after) => after <:+ rest) (statement room (body room) stop t rest) :=
  (statement_yields shaped_grammatical (body_encloses shaped_grammatical room) stop t rest).mono
    fun h => h.2

theorem body_readsBody (room : Room) : ReadsBody (body room) := by
  have hwith {deeper : Deeper (Rule (List Statement))} (hd : Deeper.All (fun r => ∀ stop ts,
      Yields (fun (_, rest) => StatementsRead ts rest) (r stop ts)) deeper) :
    ReadsBody (bodyWith deeper) := by
    intro o stop ts
    cases ts with
    | nil => trivial
    | cons t rest =>
      simp only [bodyWith]
      split
      · trivial
      · rename_i ht
        have ht : t.isDelim '{' = true := by simpa using ht
        refine (enter_yields hd _ _).bind fun {read} hread => ?_
        refine (hread stop rest).bind ?_
        rintro ⟨inside, after⟩ ⟨⟨used, rfl, hused⟩, hend⟩
        cases after with
        | nil => trivial
        | cons u after =>
          have hu : u.isDelim '}' = true := by simpa [startsWithDelim] using hend
          exact ⟨t :: used ++ [u], by simp, t, used, u, rfl, ht, hused, hu⟩
  induction room using Room.induction with
  | step room ih =>
    rw [body_eq]
    refine hwith (Room.below_all fun o inner hinner => ?_)
    exact statements_read (ih o inner hinner) (statement_suffix inner)

theorem sheet_legible (room : Room) (stop : Token) (ts : List Token) :
    Yields (fun _ => LegibleBody ts) (sheet room stop ts) := by
  refine (statements_read (body_readsBody room) (statement_suffix room) stop ts).bind ?_
  rintro ⟨inner, rest⟩ ⟨⟨used, rfl, hused⟩, -⟩
  cases rest with
  | nil =>
    rw [List.append_nil]
    exact hused
  | cons t rest => trivial

end Bodies

end Grammar

/-- The tokens of a stylesheet that parses are well nested once the text is left out that the
grammar passes over unread. -/
theorem parse_wellNested {limit : Int} {source : String} {sheet : Sheet}
    (h : parse limit source = .ok sheet) :
    ∃ ts vs, tokenize source = .ok ts ∧ AbridgedBody (splitEnd ts).1 vs ∧ WellNested vs := by
  have hparse := parse_eq_ok.mp h
  rw [parseAt_eq] at hparse
  cases htokens : tokenize source with
  | error e =>
    rw [htokens] at hparse
    cases hparse
  | ok ts =>
    rw [htokens] at hparse
    obtain ⟨vs, hvs, hv⟩ := (Grammar.sheet_legible _ _ _).of_ok hparse
    exact ⟨ts, vs, rfl, hvs, hv.wellNested⟩

/-- The argument of a pseudo-class is passed over: its brackets need not fit. -/
theorem parse_wellNested_pseudo :
    ∃ sheet, parse 64 "a:not([)) \x7b\x7d" = .ok sheet ∧
      ∃ ts vs, tokenize "a:not([)) \x7b\x7d" = .ok ts ∧ AbridgedBody (splitEnd ts).1 vs ∧
        WellNested vs := by
  have hparses : (parse 64 "a:not([)) \x7b\x7d").toOption.isSome = true := by decide +kernel
  obtain ⟨sheet, hsheet⟩ := parse_of_isSome hparses
  exact ⟨sheet, hsheet, parse_wellNested hsheet⟩

/-- The tokens of a stylesheet that parses are not all well nested. -/
theorem parse_mixed_brackets :
    ¬∀ (limit : Int) (source : String) (sheet : Sheet) (ts : List Token),
      parse limit source = .ok sheet → tokenize source = .ok ts → WellNested ts := by
  intro h
  have hparses : (parse 64 "a:not([)) \x7b\x7d").toOption.isSome = true := by decide +kernel
  have hmixed : (tokenize "a:not([)) \x7b\x7d").toOption.all (decide <| WellNested ·) = false := by
    decide +kernel
  obtain ⟨sheet, hsheet⟩ := parse_of_isSome hparses
  cases htokens : tokenize "a:not([)) \x7b\x7d" with
  | error e =>
    rw [htokens] at hmixed
    cases hmixed
  | ok ts =>
    rw [htokens] at hmixed
    have hnested := h 64 _ sheet ts hsheet htokens
    simp [Except.toOption, hnested] at hmixed

end StyleTally.Stylesheet
