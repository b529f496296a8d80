import StyleTally.Proofs.Semicolon.Form

/-!
# How any statement takes up its tokens

Rulesets, mixin definitions and bare blocks open a body; mixin calls, declarations and extensions
end where a bound stands.
-/

namespace StyleTally.Stylesheet.Grammar

open Value (derives_grammatical)
open Statement (shaped_grammatical)

/-- The statement that the first token opens. -/
def statementFrom (room : Room) : Production := fun body stop ts =>
  match ts with
  | [] => .error (unexpectedAt stop [])
  | t :: rest => statement room body stop t rest

section Mixins

variable {room : Room} {brace bracket : Token} {front rest : List Token} {name : String}

theorem mixinName?_append (hfront : front ≠ []) (hbrace : brace.isDelim '{' = true)
    (more : List Token) : mixinName? (front ++ brace :: more) =
      (mixinName? front).map (followed (brace :: more)) := by
  simp only [Token.isDelim, beq_iff_eq] at hbrace
  cases front with
  | nil => exact absurd rfl hfront
  | cons t front =>
    simp only [List.cons_append, mixinName?]
    split
    · rfl
    · split
      · cases front with
        | nil => simp [className?, hbrace]
        | cons u front =>
          simp only [List.cons_append, className?]
          split
          · split <;> rfl
          · rfl
      · rfl
    · rfl

/-- A signature that is one ends in front of the brace. -/
theorem length_of_signature? {ts after inner : List Token} {close : Token}
    {found : List Parameter × Option (List Value)}
    (henclosed : enclosed bracket '(' rest = .ok (inner, close, after))
    (h : signature? room brace front ts bracket rest = .ok (some found)) :
    ts.length - after.length ≤ front.length := by
  by_contra hlong
  have hne : (ts.length - after.length != front.length) = true := by
    simp only [bne_iff_ne]
    omega
  have hne' : (ts.length - after.length == front.length) = false := by
    simp only [beq_eq_false_iff_ne]
    omega
  simp only [signature?, henclosed, hne, hne', bind, Except.bind, Bool.true_and] at h
  split at h
  · cases h
  · cases henter : enter (room.below operand) .parameters (lineAt brace ts) with
    | error e =>
      rw [henter] at h
      cases h
    | ok operand =>
      rw [henter] at h
      simp only [Bool.false_eq_true, if_false, if_pos (Nat.lt_of_not_le hlong)] at h
      cases hparams : parameters operand close inner with
      | error e =>
        rw [hparams] at h
        cases h
      | ok params =>
        rw [hparams] at h
        cases h

/-- The parameters and the guard of a mixin are read in front of its brace. -/
theorem signature?_stable {inner named : List Token}
    {found : List Parameter × Option (List Value)} (hfront : front = named ++ bracket :: rest)
    (h : signature? room brace front (front ++ brace :: inner) bracket (rest ++ brace :: inner) =
      .ok (some found)) (more : List Token) :
    signature? room brace front (front ++ brace :: more) bracket (rest ++ brace :: more) =
      .ok (some found) := by
  obtain ⟨⟨params, close, after⟩, henclosed, -⟩ := exists_of_bind h
  have hlength := length_of_signature? henclosed h
  obtain ⟨hrest, hstable⟩ := enclosed_eq_ok henclosed
  have hfrontlength := congrArg List.length hfront
  have hrestlength := congrArg List.length hrest
  simp only [List.length_append, List.length_cons] at hlength hfrontlength hrestlength
  -- The closing parenthesis lies in front of the brace.
  obtain ⟨guard, rfl⟩ : brace :: inner <:+ after := by
    refine List.suffix_of_suffix_length_le (List.suffix_append rest _) ?_ ?_
    · rw [hrest]
      exact (List.suffix_cons close after).trans (List.suffix_append params _)
    · simp only [List.length_cons]
      omega
  have hsame : rest ++ brace :: inner = (params ++ close :: guard) ++ brace :: inner := by
    rw [hrest, List.append_assoc, List.cons_append]
  obtain rfl := List.append_cancel_right hsame
  have hused (inner : List Token) : (front ++ brace :: inner).length - (guard ++ brace :: inner).length =
      front.length - guard.length := by
    simp only [List.length_append]
    omega
  have hwhen : startsWithWord "when" (guard ++ brace :: more) =
      startsWithWord "when" (guard ++ brace :: inner) := by
    cases guard <;> rfl
  have hline : lineAt brace (front ++ brace :: more) = lineAt brace (front ++ brace :: inner) := by
    cases front <;> rfl
  simp only [signature?, List.append_assoc, List.cons_append, hstable, bind, Except.bind, hused,
    hwhen, hline] at h ⊢
  exact h

theorem mixinName?_cases (h : mixinName? front = some (name, rest)) :
    (∃ t, front = t :: rest ∧ t.lexeme = .hash name) ∨
      ∃ t u word, front = t :: u :: rest ∧ t.lexeme = .delim '.' ∧ u.lexeme = .ident word ∧
        u.spaced = false := by
  cases front with
  | nil => cases h
  | cons t front =>
    simp only [mixinName?] at h
    split at h
    · rename_i hash hhash
      cases h
      exact .inl ⟨t, rfl, hhash⟩
    · rename_i c hc
      split at h
      · rename_i hpoint
        obtain rfl : c = '.' := by simpa using hpoint
        cases front with
        | nil => cases h
        | cons u front =>
          simp only [className?] at h
          split at h
          · rename_i word hword
            cases hspaced : u.spaced with
            | true =>
              rw [hspaced] at h
              cases h
            | false =>
              rw [hspaced] at h
              cases h
              exact .inr ⟨t, u, word, rfl, hc, hword, hspaced⟩
          · cases h
      · cases h
    · cases h

theorem lead_of_mixinName? (h : mixinName? front = some (name, bracket :: rest)) :
    ∃ lead, front = lead ++ rest ∧ mixinName? lead = some (name, [bracket]) := by
  rcases mixinName?_cases h with ⟨t, rfl, ht⟩ | ⟨t, u, word, rfl, ht, hu, hspaced⟩
  · exact ⟨[t, bracket], rfl, by simp only [mixinName?, ht]⟩
  · refine ⟨[t, u, bracket], rfl, ?_⟩
    simp only [mixinName?, ht, className?, hu, hspaced] at h ⊢
    cases h
    rfl

/-- No part of a selector opens with a parenthesis. -/
theorem elementsFrom_bracket (hbracket : bracket.isDelim '(' = true) (pending : Option Char)
    (first : Bool) (stop : Token) (more : List Token) :
    ∃ e, elementsFrom pending first stop (bracket :: more) = .error e := by
  simp only [Token.isDelim, beq_iff_eq] at hbracket
  have hcombinator : combinator? bracket more = none := by
    simp [combinator?, Token.isDelim, hbracket]
  have hmarked : marked? bracket more = none := by
    cases more with
    | nil => rfl
    | cons t more => simp [marked?, hbracket]
  have hpart : part stop bracket more =
      .error (.malformed (.unexpectedInSelector (foundAt [bracket])) bracket.line) := by
    simp only [part, hmarked, hbracket]
    rfl
  rw [elementsFrom, hcombinator, hpart]
  exact ⟨_, rfl⟩

/-- A `when` that opens the guard of a ruleset stands behind every token that is none. -/
theorem splitGuard_cons {t w : Token} {ts before after : List Token} {level : Int}
    (ht : t.isWord "when" = false ∨ t.spaced = false)
    (h : splitGuard level (t :: ts) = some (before, w, after)) :
    ∃ level' before', splitGuard level' ts = some (before', w, after) ∧ before = t :: before' := by
  have hwhen : (level == 0 && t.isWord "when" && t.spaced) = false := by
    rcases ht with ht | ht <;> simp [ht]
  have hfurther (level' : Int) (found : List Token × Token × List Token)
      (hsplit : splitGuard level' ts = some found)
      (heq : (t :: found.1, found.2.1, found.2.2) = (before, w, after)) :
      ∃ before', splitGuard level' ts = some (before', w, after) ∧ before = t :: before' := by
    cases heq
    exact ⟨found.1, hsplit, rfl⟩
  simp only [splitGuard, hwhen] at h
  split at h
  · obtain ⟨found, hsplit, heq⟩ := Option.map_eq_some_iff.mp h
    exact ⟨_, hfurther _ found hsplit heq⟩
  · split at h
    · obtain ⟨found, hsplit, heq⟩ := Option.map_eq_some_iff.mp h
      exact ⟨_, hfurther _ found hsplit heq⟩
    · obtain ⟨found, hsplit, heq⟩ := Option.map_eq_some_iff.mp h
      exact ⟨_, hfurther _ found hsplit heq⟩

section Calls

variable {lead : List Token} (hname : mixinName? lead = some (name, [bracket]))
  (hbracket : bracket.isDelim '(' = true)
include hname hbracket

/-- No selector opens with the name of a mixin that has a parenthesis behind it. -/
theorem selector_call (stop : Token) (more : List Token) :
    ∃ e, selector stop (lead ++ more) = .error e := by
  suffices h : ∃ e, elementsFrom none true stop (lead ++ more) = .error e by
    obtain ⟨e, he⟩ := h
    exact ⟨e, by rw [selector, he]; rfl⟩
  obtain ⟨e, he⟩ := elementsFrom_bracket hbracket none false stop more
  refine ⟨e, ?_⟩
  rcases mixinName?_cases hname with ⟨t, rfl, ht⟩ | ⟨t, u, word, rfl, ht, hu, hspaced⟩
  · have hcombinator : combinator? t (bracket :: more) = none := by
      simp [combinator?, Token.isDelim, ht]
    have hpart : part stop t (bracket :: more) = .ok (.text name, bracket :: more) := by
      have hmarked : marked? t (bracket :: more) = none := by
        simp [marked?, ht]
      simp only [part, hmarked, ht]
    rw [List.cons_append, List.singleton_append, elementsFrom, hcombinator, hpart]
    simp only [bind, Except.bind, if_pos (Nat.le_refl _), he]
    rfl
  · have hcombinator : combinator? t (u :: bracket :: more) = none := by
      simp [combinator?, Token.isDelim, ht]
    have hpart : part stop t (u :: bracket :: more) =
        .ok (.text ("." ++ word), bracket :: more) := by
      simp [part, marked?, hspaced, ht, hu]
    rw [List.cons_append, List.cons_append, List.singleton_append, elementsFrom, hcombinator, hpart]
    simp only [bind, Except.bind, List.length_cons, if_pos (Nat.le_succ _), he]
    rfl

theorem selectors_call (stop : Token) (more : List Token) :
    ∃ e, selectors stop (lead ++ more) = .error e := by
  have hcross : Crosses [','] 0 lead 1 := by
    simp only [Token.isDelim, beq_iff_eq] at hbracket
    have hopen : depthAfter? [','] 0 bracket = some 1 := by simp [depthAfter?, hbracket]
    rcases mixinName?_cases hname with ⟨t, rfl, ht⟩ | ⟨t, u, word, rfl, ht, hu, -⟩
    · have ht : depthAfter? [','] 0 t = some 0 := by simp [depthAfter?, ht]
      exact .cons ht (.cons hopen .nil)
    · have ht : depthAfter? [','] 0 t = some 0 := by simp [depthAfter?, ht]
      have hu : depthAfter? [','] 0 u = some 0 := by simp [depthAfter?, hu]
      exact .cons ht (.cons hu (.cons hopen .nil))
  have hne : (lead ++ more).isEmpty = false := by
    rcases mixinName?_cases hname with ⟨t, rfl, -⟩ | ⟨t, u, word, rfl, -⟩ <;> rfl
  -- The first selector fails on its own front, where the others are cut off.
  cases hselectors : selectors stop (lead ++ more) with
  | error e => exact ⟨e, rfl⟩
  | ok ss =>
    rw [selectors, hne, pieces_eq, hcross more] at hselectors
    simp only [Bool.false_eq_true, if_false] at hselectors
    split at hselectors
    · rename_i part hcut
      obtain ⟨rfl, -⟩ := Prod.mk.inj hcut
      obtain ⟨e, he⟩ := selector_call hname hbracket stop (cut [','] 1 more).1
      simp only [Except.bind, eachPiece, he] at hselectors
      cases hselectors
    · rename_i part t rest hcut
      obtain ⟨rfl, -⟩ := Prod.mk.inj hcut
      obtain ⟨e, he⟩ := selector_call hname hbracket t (cut [','] 1 more).1
      split at hselectors
      · obtain ⟨a, bs, ha, -⟩ := eachPiece_cons_eq_ok.mp hselectors
        rw [he] at ha
        cases ha
      · cases hselectors

/-- A parenthesis behind the name of a mixin opens no part of a ruleset. -/
theorem rulesetHead_call (more : List Token) :
    ∃ e, rulesetHead room brace (lead ++ more) = .error e := by
  rw [rulesetHead]
  split
  · obtain ⟨e, he⟩ := selectors_call hname hbracket brace more
    exact ⟨e, by rw [he]; rfl⟩
  · rename_i before w after hsplit
    have hbefore : ∃ more', before = lead ++ more' := by
      have hbracket : bracket.isWord "when" = false := by
        simp only [Token.isDelim, beq_iff_eq] at hbracket
        simp only [Token.isWord, hbracket]
      rcases mixinName?_cases hname with ⟨t, rfl, ht⟩ | ⟨t, u, word, rfl, ht, hu, hspaced⟩
      · have ht : t.isWord "when" = false := by simp only [Token.isWord, ht]
        obtain ⟨_, _, hbehind, rfl⟩ := splitGuard_cons (.inl ht) hsplit
        obtain ⟨_, more', -, rfl⟩ := splitGuard_cons (.inl hbracket) hbehind
        exact ⟨more', rfl⟩
      · have ht : t.isWord "when" = false := by simp only [Token.isWord, ht]
        obtain ⟨_, _, hname, rfl⟩ := splitGuard_cons (.inl ht) hsplit
        obtain ⟨_, _, hbehind, rfl⟩ := splitGuard_cons (.inr hspaced) hname
        obtain ⟨_, more', -, rfl⟩ := splitGuard_cons (.inl hbracket) hbehind
        exact ⟨more', rfl⟩
    obtain ⟨more', rfl⟩ := hbefore
    obtain ⟨e, he⟩ := selectors_call hname hbracket w more'
    exact ⟨e, by rw [he]; rfl⟩

end Calls

/-- Of a ruleset or a mixin definition, what stands in front of the brace decides what it is. -/
theorem mixinHead?_stable {inner : List Token} {found : Option (String × List Parameter × Option (List Value))}
    (hfront : front ≠ []) (hbrace : brace.isDelim '{' = true)
    (h : mixinHead? room brace front (front ++ brace :: inner) = .ok found) :
    (∀ more, mixinHead? room brace front (front ++ brace :: more) = .ok found) ∨
      found = none ∧ ∃ e, rulesetHead room brace front = .error e := by
  have hname (more : List Token) := mixinName?_append hfront hbrace more
  simp only [mixinHead?, hname] at h ⊢
  cases hfound : mixinName? front with
  | none =>
    rw [hfound] at h
    exact .inl fun _ => h
  | some p =>
    obtain ⟨name, rest⟩ := p
    rw [hfound] at h
    cases rest with
    | nil =>
      have hbracket : brace.isDelim '(' = false := by
        simp only [Token.isDelim, beq_iff_eq] at hbrace
        simp [Token.isDelim, hbrace]
      simp only [Option.map_some, followed, List.nil_append, hbracket] at h ⊢
      exact .inl fun _ => h
    | cons bracket rest =>
      simp only [Option.map_some, followed, List.cons_append] at h ⊢
      cases hbracket : bracket.isDelim '(' with
      | false =>
        rw [hbracket] at h
        exact .inl fun _ => h
      | true =>
        simp only [hbracket, if_true] at h ⊢
        cases hsignature : signature? room brace front (front ++ brace :: inner) bracket
            (rest ++ brace :: inner) with
        | error e =>
          rw [hsignature] at h
          cases h
        | ok found? =>
          rw [hsignature] at h
          cases h
          cases found? with
          | none =>
            obtain ⟨lead, hlead, hname⟩ := lead_of_mixinName? hfound
            rw [hlead]
            exact .inr ⟨rfl, rulesetHead_call hname hbracket rest⟩
          | some found =>
            left
            intro more
            obtain ⟨used, t, hnamed, -⟩ := mixinName?_consumed hfound
            have hnamed : front = (used ++ [t]) ++ bracket :: rest := by
              rw [hnamed, List.append_assoc, List.singleton_append]
            rw [signature?_stable hnamed hsignature more]
            rfl

end Mixins

section Bodies

variable {room : Room} {body : Body} {stop t brace : Token}
  {rest front inner after : List Token} {s : Statement}

theorem withBody_frames (hbrace : brace.isDelim '{' = true)
    (h : withBody room body stop brace front (brace :: inner) (front ++ brace :: inner) =
      .ok (s, after)) :
    ∃ frame : Frame, ∀ body stop more,
      withBody room body stop brace front (brace :: more) (front ++ brace :: more) =
        (body frame.opening stop (brace :: more)).map
          fun (ss, rest) => (frame.around ss, rest) := by
  cases hfront : front.isEmpty with
  | true =>
    obtain rfl := List.isEmpty_iff.mp hfront
    refine ⟨.block none, fun body stop more => ?_⟩
    rw [withBody, ← map_around]
    rfl
  | false =>
    have hne : front ≠ [] := by
      rintro rfl
      cases hfront
    simp only [withBody, hfront, Bool.false_eq_true, if_false] at h ⊢
    obtain ⟨found, hfound, h⟩ := exists_of_bind h
    rcases mixinHead?_stable hne hbrace hfound with hstable | ⟨rfl, e, he⟩
    · cases found with
      | some mixin =>
        obtain ⟨name, params, guard⟩ := mixin
        refine ⟨.mixin name params guard, fun body stop more => ?_⟩
        rw [hstable more, ← map_around]
        rfl
      | none =>
        obtain ⟨⟨selectors, guard⟩, hhead, -⟩ := exists_of_bind h
        refine ⟨.ruleset selectors guard, fun body stop more => ?_⟩
        rw [hstable more, ← map_around]
        simp only [bind, Except.bind, ruleset, hhead]
        rfl
    · simp only [ruleset, he] at h
      cases h

end Bodies

section Extensions

variable {room : Room} {stop t bracket : Token} {rest tail tail' after : List Token} {s : Statement}

theorem extendBody?_stable {amp colon name : Token} {more : List Token}
    (h : extendBody? (amp :: colon :: name :: bracket :: rest) = some (bracket, rest)) :
    extendBody? (amp :: colon :: name :: bracket :: more) = some (bracket, more) := by
  simp only [extendBody?] at h ⊢
  split at h
  · rename_i hmarks
    rw [if_pos hmarks]
  · cases h

/-- What stands in front of the end of a statement opens an extension, or nothing does. -/
theorem extendBody?_ends {front : List Token} (h : extendBody? (front ++ tail) = none)
    (htail : ∀ t ∈ tail'.head?, t.isSeal = true) : extendBody? (front ++ tail') = none := by
  refine Option.eq_none_iff_forall_not_mem.mpr ?_
  rintro ⟨bracket, rest⟩ hextend
  obtain ⟨amp, colon, name, heq, hamp, hcolon, hname, hbracket⟩ := extendBody?_eq_some hextend
  have hamp := isSeal_of_isDelim hamp (by decide)
  have hcolon := isSeal_of_isDelim hcolon (by decide)
  have hname := isSeal_of_isWord hname
  have hbracket := isSeal_of_isDelim hbracket (by decide)
  match front with
  | a :: b :: c :: d :: front =>
    simp only [List.cons_append, List.cons.injEq] at heq
    obtain ⟨rfl, rfl, rfl, rfl, rfl⟩ := heq
    rw [List.cons_append, List.cons_append, List.cons_append, List.cons_append] at h hextend
    rw [extendBody?_stable hextend] at h
    cases h
  | [] | [_] | [_, _] | [_, _, _] =>
    cases tail' with
    | nil => simp at heq
    | cons t tail' =>
      have ht := htail t rfl
      simp_all

/-- An extension is read up to the closing parenthesis. -/
theorem extend_stable (h : extend bracket rest = .ok (s, tail)) :
    ∃ inner close, enclosed bracket '(' rest = .ok (inner, close, tail) ∧
      rest = inner ++ close :: tail ∧
      ∀ tail', extend bracket (inner ++ close :: tail') = .ok (s, tail') := by
  obtain ⟨⟨inner, close, behind⟩, henclosed, h⟩ := exists_of_bind h
  cases hsplit : splitAll close inner with
  | mk all range =>
  simp only [hsplit] at h
  obtain ⟨selectors, hselectors, h⟩ := exists_of_bind h
  cases h
  obtain ⟨hrest, hstable⟩ := enclosed_eq_ok henclosed
  refine ⟨inner, close, henclosed, hrest, fun tail' => ?_⟩
  simp only [extend, hstable, bind, Except.bind, hsplit, hselectors]
  rfl

/-- No brace bounds an extension that stands in front of an end. -/
theorem extend_bound {amp colon name close : Token} {inner : List Token}
    (hextend : extendBody? (amp :: colon :: name :: bracket :: rest) = some (bracket, rest))
    (henclosed : enclosed bracket '(' rest = .ok (inner, close, tail))
    (hbrace : startsWithDelim '{' (head (amp :: colon :: name :: bracket :: rest)).2 = false)
    (hends : EndsLike tail tail') :
    startsWithDelim '{' (head (amp :: colon :: name :: bracket :: (inner ++ close :: tail'))).2 =
      false := by
  obtain ⟨hrest, hcut, hclose⟩ := (enclosed_yields bracket '(' rest).of_ok henclosed
  have hbehind (more : List Token) : (head (amp :: colon :: name :: bracket :: more)).2 =
      (cut [';', '{', '}'] 1 more).2 := by
    have h := extendBody?_crosses hextend more
    simp only [List.cons_append, List.nil_append] at h
    rw [head, h]
  rw [hbehind] at hbrace ⊢
  rcases cut_bounds_enclosed hcut hclose with ⟨front, bound, more, hbound⟩ | hcross
  · rw [hrest, hbound] at hbrace
    rw [hbound]
    exact hbrace
  · have hout : cut [';', '{', '}'] 1 (inner ++ close :: tail') =
        (inner ++ [close] ++ (head tail').1, (head tail').2) := by
      rw [List.append_cons]
      exact hcross tail'
    rw [hout]
    have hnot := hends.not_brace
    cases tail' with
    | nil => rfl
    | cons t tail' =>
      rcases hends with h | h | ⟨-, h⟩
      · cases h
      all_goals
        rw [head_of_bound h (by simp)]
        exact hnot

end Extensions

section Simple

variable {room : Room} {stop t : Token} {rest after : List Token} {s : Statement}

theorem simpleStatement_ends (hbrace : startsWithDelim '{' (head (t :: rest)).2 = false)
    (h : simpleStatement room stop t rest = .ok (s, after)) :
    ∃ used tail, rest = used ++ tail ∧ Passed (t :: rest) tail ∧ endStatement tail = .ok after ∧
      ∀ stop' tail', EndsLike tail tail' →
        startsWithDelim '{' (head (t :: (used ++ tail'))).2 = false ∧
          simpleStatement room stop' t (used ++ tail') =
            (endStatement tail').map fun rest => (s, rest) := by
  obtain ⟨⟨s, tail⟩, hunended, h⟩ := exists_of_bind h
  obtain ⟨last, hend, h⟩ := exists_of_bind h
  cases h
  -- What is left is read the same way, so only the front matters.
  suffices hread : ∃ used, rest = used ++ tail ∧ Passed (t :: rest) tail ∧
      ∀ stop' tail', EndsLike tail tail' →
        startsWithDelim '{' (head (t :: (used ++ tail'))).2 = false ∧
          unendedStatement room stop' t (used ++ tail') = .ok (s, tail') by
    obtain ⟨used, hrest, hpassed, hreads⟩ := hread
    refine ⟨used, tail, hrest, hpassed, hend, fun stop' tail' htail => ?_⟩
    obtain ⟨hbrace', hunended'⟩ := hreads stop' tail' htail
    refine ⟨hbrace', ?_⟩
    simp only [simpleStatement, hunended', bind, Except.bind]
    cases endStatement tail' <;> rfl
  unfold unendedStatement at hunended
  cases hextend : extendBody? (t :: rest) with
  | some p =>
    obtain ⟨bracket, behind⟩ := p
    obtain ⟨amp, colon, name, heq, -, -, -, hbracket⟩ := extendBody?_eq_some hextend
    simp only [List.cons.injEq] at heq
    obtain ⟨rfl, rfl⟩ := heq
    rw [hextend] at hunended
    obtain ⟨inner, close, henclosed, rfl, hstable⟩ := extend_stable hunended
    refine ⟨colon :: name :: bracket :: (inner ++ [close]), by simp, ?_, fun stop' tail' htail => ?_⟩
    · have hopen : Consumed (t :: colon :: name :: bracket :: (inner ++ close :: tail))
          (inner ++ close :: tail) :=
        ⟨[t, colon, name], bracket, rfl, isSeal_of_isDelim hbracket (by decide)⟩
      exact .inr (hopen.trans ((enclosed_consumed bracket '(' _).of_ok henclosed))
    · have hextend' : extendBody? (t :: colon :: name :: bracket :: (inner ++ close :: tail')) = _ :=
        extendBody?_stable hextend
      simp only [List.cons_append, List.append_assoc, List.nil_append]
      refine ⟨extend_bound hextend henclosed hbrace htail, ?_⟩
      rw [unendedStatement, hextend']
      exact hstable tail'
  | none =>
    rw [hextend] at hunended
    cases hhead : head (t :: rest) with
    | mk front bound =>
    simp only [hhead] at hunended
    cases hread : callOrDeclaration room (bound.headD stop) t front with
    | error e =>
      rw [hread] at hunended
      cases hunended
    | ok s' =>
      rw [hread] at hunended
      cases hunended
      have hfront := ((callOrDeclaration_yields shaped_grammatical room _ t front).of_ok hread).2
      have happend := head_append hhead
      cases front with
      | nil => exact absurd hfront.length_lt (by simp)
      | cons u used =>
        simp only [List.cons_append, List.cons.injEq] at happend
        obtain ⟨rfl, rfl⟩ := happend
        refine ⟨used, rfl, .inr (hfront.followed tail), fun stop' tail' htail => ?_⟩
        have hhead' : head (t :: (used ++ tail')) = (t :: used, tail') := head_ends hhead htail
        have hextend' : extendBody? (t :: used ++ tail') = none :=
          extendBody?_ends hextend htail.isSeal
        rw [List.cons_append] at hextend'
        refine ⟨by rw [hhead']; exact htail.not_brace, ?_⟩
        have hread' := callOrDeclaration_follows room _ (tail'.headD stop') _ _ _ hread
        simp only [unendedStatement, hextend', hhead', hread']
        rfl

end Simple

section Forms

variable {room : Room} {body : Body} {stop t : Token} {rest after : List Token}
  {s : Statement}

theorem statement_simple (ht : ∀ name, t.lexeme ≠ .atKeyword name) (body : Body)
    (stop : Token) (hbrace : startsWithDelim '{' (head (t :: rest)).2 = false) :
    statement room body stop t rest = simpleStatement room stop t rest := by
  unfold statement
  split
  · exact absurd ‹_› (ht _)
  · split
    · rename_i front brace inner hhead
      rw [hhead] at hbrace
      have hbrace : brace.isDelim '{' = false := hbrace
      rw [if_neg (by simp [hbrace])]
    · rfl

theorem statement_withBody {front inner : List Token} {brace : Token}
    (ht : ∀ name, t.lexeme ≠ .atKeyword name) (body : Body) (stop : Token)
    (hhead : head (t :: rest) = (front, brace :: inner)) (hbrace : brace.isDelim '{' = true) :
    statement room body stop t rest =
      withBody room body stop brace front (brace :: inner) (t :: rest) := by
  unfold statement
  split
  · exact absurd ‹_› (ht _)
  · simp only [hhead, hbrace, if_true]

/-- Every statement that is read opens a body, or is read up to its end. -/
theorem statement_formed (ht : t.isSeal = false)
    (h : statement room body stop t rest = .ok (s, after)) :
    Formed (statementFrom room) body stop (t :: rest) s after := by
  by_cases hkeyword : ∃ name, t.lexeme = .atKeyword name
  · obtain ⟨name, hname⟩ := hkeyword
    have heq (body : Body) (stop : Token) (us : List Token) :
        statementFrom room body stop (t :: us) = atRule room body name stop us := by
      simp only [statementFrom, statement, hname]
    have hread : Consumed (t :: rest) rest := .single ht
    cases atRule_formed ((heq body stop rest).symm.trans h) with
    | @opening before brace inner frame ss hts hbrace hopens hbody hs =>
      have hts : t :: rest = (t :: before) ++ brace :: inner := congrArg (t :: ·) hts
      refine .opening hts hbrace (fun body stop more => ?_) hbody hs
      exact (heq body stop _).trans (hopens body stop more)
    | @ended used tail hts hpassed hends hend =>
      have hts : t :: rest = (t :: used) ++ tail := congrArg (t :: ·) hts
      refine .ended hts (.inr (hread.passed hpassed)) (fun body stop tail' htail => ?_) hend
      exact (heq body stop _).trans (hends body stop tail' htail)
  · have ht : ∀ name, t.lexeme ≠ .atKeyword name := fun name hname => hkeyword ⟨name, hname⟩
    cases hbrace : startsWithDelim '{' (head (t :: rest)).2 with
    | true =>
      cases hhead : head (t :: rest) with
      | mk front tail =>
      rw [hhead] at hbrace
      cases tail with
      | nil => cases hbrace
      | cons brace inner =>
        have happend := head_append hhead
        have hread := (statement_withBody ht body stop hhead hbrace).symm.trans h
        rw [happend] at hread
        obtain ⟨frame, hframe⟩ := withBody_frames hbrace hread
        have hopens : Opens (statementFrom room) front brace frame := by
          intro body stop more
          have hhead' := head_stable hhead more
          have hfirst : ∃ rest', front ++ brace :: more = t :: rest' := by
            cases front with
            | nil =>
              cases happend
              exact ⟨more, rfl⟩
            | cons u front =>
              cases happend
              exact ⟨front ++ brace :: more, rfl⟩
          obtain ⟨rest', hrest'⟩ := hfirst
          rw [← hframe body stop more]
          rw [hrest'] at hhead' ⊢
          exact statement_withBody ht body stop hhead' hbrace
        exact .of_opens happend hbrace hopens h
    | false =>
      rw [statement_simple ht body stop hbrace] at h
      obtain ⟨used, tail, rfl, hpassed, hend, hends⟩ := simpleStatement_ends hbrace h
      have hends' : Ends (statementFrom room) (t :: used) tail s := by
        intro body stop' tail' htail
        obtain ⟨hbrace', hread⟩ := hends stop' tail' htail
        exact (statement_simple ht body stop' hbrace').trans hread
      exact .ended rfl hpassed hends' hend

end Forms

end StyleTally.Stylesheet.Grammar
