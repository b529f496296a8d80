import StyleTally.Proofs.Concatenation.Statement
import StyleTally.Proofs.Semicolon.Statement

/-!
# Spots where statements are read

Statements are read one behind the other, and those of a body behind its brace. Other statements can
stand at such a spot, up to the end of the body: what is read in front of the spot and behind the
body stays as it is.
-/

namespace StyleTally.Stylesheet.Grammar

open Statement (shaped_grammatical)

/-- No statement opens here: the tokens are at an end, or a closing brace comes first. -/
def Closes (ts : List Token) : Prop := ts = [] ∨ startsWithDelim '}' ts = true

theorem Closes.endsLike {tail tail' : List Token} (h : Closes tail') : EndsLike tail tail' := by
  rcases h with h | h
  · exact .inl h
  · exact .inr (.inl h)

section Closing

variable {room : Room} {body : Body} {ts after : List Token}

theorem endStatement_closes (h : Closes ts) : endStatement ts = .ok ts := by
  cases ts with
  | nil => rfl
  | cons t ts =>
    have ht : t.isDelim '}' = true := h.resolve_left (by simp)
    have hnot : t.isDelim ';' = false := by
      simp only [Token.isDelim, beq_iff_eq] at ht
      simp [Token.isDelim, ht]
    simp only [endStatement, hnot, ht, if_true, Bool.false_eq_true, if_false]

theorem endStatement_cases (h : endStatement ts = .ok after) :
    Closes ts ∧ after = ts ∨ ∃ semicolon, ts = semicolon :: after ∧ semicolon.isDelim ';' = true := by
  cases ts with
  | nil =>
    cases h
    exact .inl ⟨.inl rfl, rfl⟩
  | cons t ts =>
    simp only [endStatement] at h
    split at h
    · rename_i ht
      cases h
      exact .inr ⟨t, rfl, ht⟩
    · split at h
      · rename_i ht
        cases h
        exact .inl ⟨.inr ht, rfl⟩
      · cases h

theorem statements_closes (stop : Token) (h : Closes ts) :
    statements room body stop ts = .ok ([], ts) := by
  cases ts with
  | nil => rw [statements]
  | cons t ts =>
    have ht : t.isDelim '}' = true := h.resolve_left (by simp)
    rw [statements, if_pos ht]

theorem statements_semicolon (stop : Token) {semicolon : Token}
    (h : semicolon.isDelim ';' = true) : statements room body stop (semicolon :: ts) =
      (statements room body stop ts).map fun (more, rest) => (.empty :: more, rest) := by
  have hnot : semicolon.isDelim '}' = false := by
    simp only [Token.isDelim, beq_iff_eq] at h
    simp [Token.isDelim, h]
  rw [statements, if_neg (by simp [hnot]), if_pos h]

end Closing

section Stable

variable {room : Room} {body : Body} {stop t : Token}
  {ts rest after : List Token} {s : Statement} {ss : List Statement}

/-- A rule for bodies reads each up to its closing brace, whatever stands behind that. -/
def StableBody (body : Rule (List Statement)) : Prop :=
  ∀ {stop brace inner ss after}, body stop (brace :: inner) = .ok (ss, after) →
    ∃ used close, inner = used ++ close :: after ∧ close.isDelim '}' = true ∧
      ∀ stop' after', body stop' (brace :: (used ++ close :: after')) = .ok (ss, after')

/-- A statement is read from its own tokens, and what stands behind them matters only if the last of
them does not end it. -/
theorem statement_stable (hb : ∀ o, StableBody (body o)) (ht : t.isSeal = false)
    (h : statement room body stop t rest = .ok (s, after)) :
    ∃ used, rest = used ++ after ∧ (Sealed (t :: used) ∨ Closes after) ∧
      ∀ stop' after', Sealed (t :: used) ∨ Closes after' →
        statement room body stop' t (used ++ after') = .ok (s, after') := by
  suffices hfrom : ∃ used, t :: rest = used ++ after ∧ used ≠ [] ∧ (Sealed used ∨ Closes after) ∧
      ∀ stop' after', Sealed used ∨ Closes after' →
        statementFrom room body stop' (used ++ after') = .ok (s, after') by
    obtain ⟨used, hused, hne, hfollow, hread⟩ := hfrom
    cases used with
    | nil => exact absurd rfl hne
    | cons u used =>
      simp only [List.cons_append, List.cons.injEq] at hused
      obtain ⟨rfl, rfl⟩ := hused
      exact ⟨used, rfl, hfollow, hread⟩
  cases statement_formed ht h with
  | @opening before brace inner frame ss hts hbrace hopens hbody hs =>
    obtain ⟨used, close, rfl, hclose, hstable⟩ := hb _ hbody
    have hsealed : Sealed (before ++ brace :: (used ++ [close])) :=
      ⟨before ++ brace :: used, close, by simp, by simp [Token.isSeal, hclose]⟩
    refine ⟨_, by simpa using hts, hsealed.ne_nil, .inl hsealed, fun stop' after' _ => ?_⟩
    rw [List.append_assoc, List.cons_append, List.append_assoc, List.singleton_append,
      hopens, hstable stop' after', hs]
    rfl
  | @ended used tail hts hpassed hends hend =>
    have hne : used ≠ [] := by
      rintro rfl
      obtain rfl : t :: rest = tail := hts
      simp only [Token.isSeal, Bool.or_eq_false_iff] at ht
      simp [endStatement, ht] at hend
    rcases endStatement_cases hend with ⟨hcloses, rfl⟩ | ⟨semicolon, rfl, hsemicolon⟩
    · refine ⟨used, hts, hne, .inr hcloses, fun stop' after' hfollow => ?_⟩
      have hunsealed : ¬ Sealed used := by
        rcases hpassed with heq | ⟨front, last, heq, hlast⟩
        · exact absurd (List.append_left_eq_self.mp (hts.symm.trans heq.symm)) hne
        · have happend : used ++ after = (front ++ [last]) ++ after := by
            rw [← hts, heq, List.append_assoc, List.singleton_append]
          obtain rfl := List.append_cancel_right happend
          intro hsealed
          rw [hsealed.isSeal_of_getLast? List.getLast?_concat] at hlast
          cases hlast
      have hcloses' := hfollow.resolve_left hunsealed
      rw [hends body stop' after' hcloses'.endsLike, endStatement_closes hcloses']
      rfl
    · have hsealed : Sealed (used ++ [semicolon]) :=
        ⟨used, semicolon, rfl, by simp [Token.isSeal, hsemicolon]⟩
      refine ⟨_, by simpa using hts, hsealed.ne_nil, .inl hsealed, fun stop' after' _ => ?_⟩
      have hsame : EndsLike (semicolon :: after) (semicolon :: after') :=
        .inr (.inr ⟨hsemicolon, hsemicolon⟩)
      rw [List.append_assoc, List.singleton_append, hends body stop' _ hsame]
      simp only [endStatement, hsemicolon, if_true]
      rfl

theorem body_eq_ok {o : Opening} {brace : Token} {inner : List Token} :
    Grammar.body room o stop (brace :: inner) = .ok (ss, after) ↔
      brace.isDelim '{' = true ∧ ∃ inside, room.opened o = .ok inside ∧ ∃ close,
        statements inside (Grammar.body inside) stop inner = .ok (ss, close :: after) := by
  rw [Grammar.body_eq, bodyWith]
  cases hbrace : brace.isDelim '{' with
  | false => simp
  | true =>
    simp only [Bool.not_true, Bool.false_eq_true, if_false, enter, Room.below, bind, Except.bind,
      true_and]
    cases room.opened o with
    | error shortage => cases shortage <;> simp [Except.map]
    | ok inside =>
      simp only [Except.map, Except.ok.injEq, exists_eq_left']
      cases statements inside (Grammar.body inside) stop inner with
      | error e => simp
      | ok p =>
        obtain ⟨inside, rest⟩ := p
        cases rest with
        | nil => simp [throw, throwThe, MonadExceptOf.throw]
        | cons close rest => simp [pure, Except.pure]

/-- Statements are read from their own tokens, up to where no other opens. -/
theorem statements_stable (hb : ∀ o, StableBody (body o))
    (h : statements room body stop ts = .ok (ss, rest)) :
    ∃ used, ts = used ++ rest ∧ Closes rest ∧
      ∀ stop' rest', Closes rest' →
        statements room body stop' (used ++ rest') = .ok (ss, rest') := by
  induction hn : ts.length using Nat.strongRecOn generalizing ts ss with
  | ind n ih =>
    cases ts with
    | nil =>
      rw [statements] at h
      cases h
      exact ⟨[], rfl, .inl rfl, fun stop' rest' hrest' => statements_closes stop' hrest'⟩
    | cons t ts =>
      simp only [List.length_cons] at hn
      by_cases hclose : t.isDelim '}' = true
      · rw [statements, if_pos hclose] at h
        cases h
        exact ⟨[], rfl, .inr hclose, fun stop' rest' hrest' => statements_closes stop' hrest'⟩
      · by_cases hend : t.isDelim ';' = true
        · rw [statements_semicolon stop hend] at h
          obtain ⟨⟨more, last⟩, hmore, heq⟩ := exists_of_map h
          cases heq
          obtain ⟨used, rfl, hcloses, hread⟩ := ih _ (by omega) hmore rfl
          refine ⟨t :: used, rfl, hcloses, fun stop' rest' hrest' => ?_⟩
          rw [List.cons_append, statements_semicolon stop' hend, hread stop' rest' hrest']
          rfl
        · have ht : t.isSeal = false := by simp [Token.isSeal, hclose, hend]
          cases hstatement : statement room body stop t ts with
          | error e =>
            rw [statements, if_neg hclose, if_neg hend, hstatement] at h
            cases h
          | ok p =>
            obtain ⟨s, after⟩ := p
            obtain ⟨used, rfl, hfollow, hread⟩ := statement_stable hb ht hstatement
            have hlength : after.length ≤ (used ++ after).length := by simp
            rw [statements_cons stop ht hstatement hlength] at h
            obtain ⟨⟨more, last⟩, hmore, heq⟩ := exists_of_map h
            cases heq
            obtain ⟨used', rfl, hcloses, hread'⟩ := ih after.length (by omega) hmore rfl
            refine ⟨t :: (used ++ used'), by simp, hcloses, fun stop' rest' hrest' => ?_⟩
            have hbehind : Sealed (t :: used) ∨ Closes (used' ++ rest') := by
              refine hfollow.imp_right fun hafter => ?_
              -- No statement opens behind this one, so none is read there.
              rw [statements_closes stop hafter] at hmore
              obtain rfl : used' = [] :=
                List.append_left_eq_self.mp (congrArg Prod.snd (Except.ok.inj hmore))
              exact hrest'
            have hlength' : (used' ++ rest').length ≤ (used ++ (used' ++ rest')).length := by simp
            rw [List.cons_append, List.append_assoc,
              statements_cons stop' ht (hread stop' _ hbehind) hlength', hread' stop' rest' hrest']
            rfl

theorem body_stable (room : Room) (o : Opening) : StableBody (Grammar.body room o) := by
  induction room using Room.induction generalizing o with
  | step room ih =>
    intro stop brace inner ss after h
    obtain ⟨hbrace, inside, hopened, close, hinner⟩ := body_eq_ok.mp h
    obtain ⟨used, rfl, hcloses, hread⟩ := statements_stable (ih o inside hopened) hinner
    have hclose : close.isDelim '}' = true := hcloses.resolve_left (by simp)
    refine ⟨used, close, rfl, hclose, fun stop' after' => ?_⟩
    exact body_eq_ok.mpr ⟨hbrace, inside, hopened, close, hread stop' _ (.inr hclose)⟩

end Stable

/-- Where the rule for statements, with the room `d` for nesting, reads `front` before `us`, it
comes to `us`, and reads statements from there with the room `e`. -/
inductive Comes (stop : Token) :
    (d : Room) → (front : List Token) → (e : Room) → (us : List Token) → Prop
  | here {d : Room} {us : List Token} : Comes stop d [] d us
  | stray {d e : Room} {t : Token} {front us : List Token} (ht : t.isDelim ';' = true)
      (h : Comes stop d front e us) : Comes stop d (t :: front) e us
  | past {d e : Room} {t : Token} {used front us : List Token} {s : Statement}
      (ht : t.isSeal = false) (hsealed : Sealed (t :: used))
      (hread : statement d (body d) stop t (used ++ (front ++ us)) = .ok (s, front ++ us))
      (h : Comes stop d front e us) : Comes stop d (t :: (used ++ front)) e us
  | inside {d inner e : Room} {before front us : List Token} {brace : Token} {frame : Frame}
      (hbefore : ∀ t ∈ before.head?, t.isSeal = false) (hbrace : brace.isDelim '{' = true)
      (hopens : Opens (statementFrom d) before brace frame)
      (hopened : d.opened frame.opening = .ok inner)
      (h : Comes stop inner front e us) : Comes stop d (before ++ brace :: front) e us

/-- At an end, or at a closing brace in front of the same tokens. -/
inductive ClosesAlike : List Token → List Token → Prop
  | nil : ClosesAlike [] []
  | brace {t u : Token} {ts : List Token} (ht : t.isDelim '}' = true) (hu : u.isDelim '}' = true) :
      ClosesAlike (t :: ts) (u :: ts)

theorem Closes.alike {ts : List Token} (h : Closes ts) : ClosesAlike ts ts := by
  cases ts with
  | nil => exact .nil
  | cons t ts =>
    have ht : t.isDelim '}' = true := h.resolve_left (by simp)
    exact .brace ht ht

theorem ClosesAlike.closes {ts us : List Token} (h : ClosesAlike ts us) : Closes ts ∧ Closes us := by
  cases h with
  | nil => exact ⟨.inl rfl, .inl rfl⟩
  | brace ht hu => exact ⟨.inr ht, .inr hu⟩

/-- A relation of statements that is kept by what stands in front of them and around them. -/
structure Congruent (R : List Statement → List Statement → Prop) : Prop where
  cons : ∀ (s : Statement) {ss ss' : List Statement}, R ss ss' → R (s :: ss) (s :: ss')
  around : ∀ (frame : Frame) {ss ss' : List Statement} (more : List Statement), R ss ss' →
    R (frame.around ss :: more) (frame.around ss' :: more)

section Spots

variable {d inside e : Room} {stop stop' : Token} {ts us us' front after rest : List Token}
  {s : Statement} {ss : List Statement}

theorem statements_from (stop : Token) (hts : ∀ t ∈ ts.head?, t.isSeal = false)
    (h : statementFrom d (body d) stop ts = .ok (s, after)) :
    statements d (body d) stop ts =
      (statements d (body d) stop after).map fun (more, rest) => (s :: more, rest) := by
  cases ts with
  | nil => cases h
  | cons t ts =>
    have hsuffix :=
      ((statement_yields shaped_grammatical (body_encloses shaped_grammatical d) stop t ts).of_ok h).2
    exact statements_cons stop (hts t rfl) h hsuffix.length_le

theorem exists_of_statements (hts : ∀ t ∈ ts.head?, t.isSeal = false) (hne : ts ≠ [])
    (h : statements d (body d) stop ts = .ok (ss, rest)) :
    ∃ s after more, statementFrom d (body d) stop ts = .ok (s, after) ∧
      statements d (body d) stop after = .ok (more, rest) ∧ ss = s :: more := by
  cases hread : statementFrom d (body d) stop ts with
  | error fault =>
    cases ts with
    | nil => exact absurd rfl hne
    | cons t ts =>
      have ht := hts t rfl
      simp only [Token.isSeal, Bool.or_eq_false_iff] at ht
      have hread : statement d (body d) stop t ts = .error fault := hread
      rw [statements, if_neg (by simp [ht]), if_neg (by simp [ht]), hread] at h
      cases h
  | ok p =>
    obtain ⟨s, after⟩ := p
    rw [statements_from stop hts hread] at h
    obtain ⟨⟨more, last⟩, hmore, heq⟩ := exists_of_map h
    cases heq
    exact ⟨s, after, more, rfl, hmore, rfl⟩

/-- Where a statement opens a body, the statements are that one, with those that are read inside,
and those behind it. -/
theorem statements_opened {before : List Token} {brace : Token} {frame : Frame}
    (hbefore : ∀ t ∈ before.head?, t.isSeal = false) (hbrace : brace.isDelim '{' = true)
    (hopens : Opens (statementFrom d) before brace frame)
    (hopened : d.opened frame.opening = .ok inside) (stop : Token) :
    statements d (body d) stop (before ++ brace :: ts) = .ok (ss, rest) ↔
      ∃ inner close after more,
        statements inside (body inside) stop ts = .ok (inner, close :: after) ∧
        statements d (body d) stop after = .ok (more, rest) ∧
        ss = frame.around inner :: more := by
  have hfirst : ∀ t ∈ (before ++ brace :: ts).head?, t.isSeal = false := by
    cases before with
    | nil => simpa using isSeal_of_isDelim hbrace (by decide)
    | cons t before => exact hbefore
  constructor
  · intro h
    obtain ⟨s, after, more, hstatement, hmore, rfl⟩ := exists_of_statements hfirst (by simp) h
    rw [hopens] at hstatement
    obtain ⟨⟨inner, behind⟩, hbody, heq⟩ := exists_of_map hstatement
    cases heq
    obtain ⟨-, inside', hopened', close, hinner⟩ := body_eq_ok.mp hbody
    obtain rfl := Except.ok.inj (hopened.symm.trans hopened')
    exact ⟨inner, close, after, more, hinner, hmore, rfl⟩
  · rintro ⟨inner, close, after, more, hinner, hmore, rfl⟩
    have hstatement : statementFrom d (body d) stop (before ++ brace :: ts) =
        .ok (frame.around inner, after) := by
      rw [hopens, body_eq_ok.mpr ⟨hbrace, inside, hopened, close, hinner⟩]
      rfl
    rw [statements_from stop hfirst hstatement, hmore]
    rfl

/-- What is read at a spot can be replaced there, by what closes alike. -/
theorem Comes.statements {R : List Statement → List Statement → Prop} (hR : Congruent R)
    (h : Comes stop d front e us)
    (hus : ∀ {more last}, Grammar.statements e (body e) stop us = .ok (more, last) →
      ∃ more' last', Grammar.statements e (body e) stop' us' = .ok (more', last') ∧ R more more' ∧
        ClosesAlike last last')
    (hread : Grammar.statements d (body d) stop (front ++ us) = .ok (ss, rest)) :
    ∃ ss' rest', Grammar.statements d (body d) stop' (front ++ us') = .ok (ss', rest') ∧ R ss ss' ∧
      ClosesAlike rest rest' := by
  induction h generalizing ss rest with
  | here => exact hus hread
  | @stray d e t front us ht h ih =>
    rw [List.cons_append, statements_semicolon stop ht] at hread
    obtain ⟨⟨more, last⟩, hmore, heq⟩ := exists_of_map hread
    cases heq
    obtain ⟨ss', rest', hread', hss, hrest⟩ := ih hus hmore
    refine ⟨.empty :: ss', rest', ?_, hR.cons _ hss, hrest⟩
    rw [List.cons_append, statements_semicolon stop' ht, hread']
    rfl
  | @past d e t used front us s ht hsealed hstatement h ih =>
    have hfirst (more : List Token) : ∀ u ∈ (t :: more).head?, u.isSeal = false := by simpa using ht
    rw [List.cons_append, List.append_assoc, statements_from stop (hfirst _) hstatement] at hread
    obtain ⟨⟨more, last⟩, hmore, heq⟩ := exists_of_map hread
    cases heq
    obtain ⟨ss', rest', hread', hss, hrest⟩ := ih hus hmore
    obtain ⟨used', hused, -, hstable⟩ := statement_stable (body_stable d) ht hstatement
    obtain rfl := List.append_cancel_right hused
    have hstatement' := hstable stop' (front ++ us') (.inl hsealed)
    refine ⟨s :: ss', rest', ?_, hR.cons s hss, hrest⟩
    rw [List.cons_append, List.append_assoc, statements_from stop' (hfirst _) hstatement', hread']
    rfl
  | @inside d inside e before front us brace frame hbefore hbrace hopens hopened h ih =>
    rw [List.append_assoc, List.cons_append] at hread ⊢
    obtain ⟨inner, close, after, more, hinner, hmore, rfl⟩ :=
      (statements_opened hbefore hbrace hopens hopened stop).mp hread
    obtain ⟨inner', rest', hinner', hR', hclose⟩ := ih hus hinner
    cases hclose with
    | @brace _ close' _ _ hclose' =>
      -- Behind the body nothing has changed.
      obtain ⟨used, rfl, hcloses, hstable⟩ := statements_stable (body_stable d) hmore
      have hread := (statements_opened hbefore hbrace hopens hopened stop').mpr
        ⟨inner', close', _, more, hinner', hstable stop' rest hcloses, rfl⟩
      exact ⟨_, rest, hread, hR.around frame more hR', hcloses.alike⟩

/-- The sheet of tokens that close alike behind a spot. -/
theorem Comes.sheet {R : List Statement → List Statement → Prop} (hR : Congruent R)
    (h : Comes stop d front e us)
    (hus : ∀ {more last}, Grammar.statements e (body e) stop us = .ok (more, last) →
      ∃ more' last', Grammar.statements e (body e) stop' us' = .ok (more', last') ∧ R more more' ∧
        ClosesAlike last last')
    (hread : Grammar.sheet d stop (front ++ us) = .ok ss) :
    ∃ ss', Grammar.sheet d stop' (front ++ us') = .ok ss' ∧ R ss ss' := by
  obtain ⟨⟨inner, rest⟩, hinner, hread⟩ := exists_of_bind hread
  cases rest with
  | cons t rest => cases hread
  | nil =>
    cases hread
    obtain ⟨ss', rest', hread', hss, hclose⟩ := h.statements hR hus hinner
    cases hclose
    refine ⟨ss', ?_, hss⟩
    rw [Grammar.sheet, hread']
    rfl

/-- In front of an end a statement needs no semicolon. -/
theorem statement_unended {t semicolon : Token} {used after' : List Token} (ht : t.isSeal = false)
    (hsemicolon : semicolon.isDelim ';' = true) (hafter : Closes after')
    (h : statement e (body e) stop t (used ++ semicolon :: after) = .ok (s, after)) :
    statement e (body e) stop' t (used ++ after') = .ok (s, after') := by
  have hseal : semicolon.isSeal = true := by simp [Token.isSeal, hsemicolon]
  -- The semicolon is the last token that was read.
  have hlast {front : List Token} {last : Token}
      (hts : t :: (used ++ semicolon :: after) = front ++ last :: after) :
      t :: used = front ∧ semicolon = last := by
    have happend : (t :: used ++ [semicolon]) ++ after = (front ++ [last]) ++ after := by
      simpa using hts
    simpa using List.append_inj' (List.append_cancel_right happend) rfl
  cases statement_formed ht h with
  | @opening before brace inner frame ss hts hbrace hopens hbody hs =>
    obtain ⟨inside, close, rfl, hclose, -⟩ := body_stable e _ hbody
    have hts' : t :: (used ++ semicolon :: after) = (before ++ brace :: inside) ++ close :: after := by
      simpa using hts
    have hsame := (hlast hts').2
    simp only [hsame, Token.isDelim, beq_iff_eq] at hsemicolon hclose
    rw [hsemicolon] at hclose
    cases hclose
  | @ended front tail hts hpassed hends hend =>
    rcases endStatement_cases hend with ⟨-, rfl⟩ | ⟨last, rfl, -⟩
    · rcases hpassed with heq | ⟨front', last, heq, hnot⟩
      · have hlength := congrArg List.length heq
        simp only [List.length_cons, List.length_append] at hlength
        omega
      · obtain ⟨-, rfl⟩ := hlast heq
        rw [hseal] at hnot
        cases hnot
    · obtain ⟨rfl, -⟩ := hlast hts
      have hread := hends (body e) stop' after' hafter.endsLike
      rw [endStatement_closes hafter] at hread
      exact hread

end Spots

end StyleTally.Stylesheet.Grammar
