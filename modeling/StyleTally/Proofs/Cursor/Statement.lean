import StyleTally.Proofs.Cursor.Selector
import StyleTally.Proofs.Shape.Statement

/-!
# Statements by position

The moves for statements track the rules. The brace that opens a body may stand in front of a closer
that a mixin definition looks for, so positions beyond it are reached; there is nothing to read from
there but the end of input. Every pass of the loop over statements reads at least one token.
-/

namespace StyleTally.Stylesheet.Tape

variable {tape : Tape} {limit pos index : Int} {range rest front tail : List Token}
  {t stop brace : Token}

section Ends

theorem head_slices (h : Slice tape limit pos range stop)
    (hhead : Grammar.head range = (front, tail)) :
    ∃ index, tape.statementEnd limit pos = .ok index ∧
      Slice tape index pos front (tail.headD stop) ∧ Slice tape limit index tail stop :=
  scan_slices [';', '{', '}'] h hhead

theorem isBrace_eq (h : Slice tape limit pos range stop) :
    tape.isBrace limit pos = .ok (startsWithDelim '{' range) := by
  have hempty := h.isEmpty_iff_le
  rw [isBrace]
  cases range with
  | nil =>
    rw [if_neg (Int.not_lt.mpr (hempty.mp rfl))]
    rfl
  | cons t rest =>
    rw [if_pos (Int.not_le.mp fun hle => by simpa using hempty.mpr hle), h.tokenAt_eq]
    rfl

theorem endStatement_sim (h : Slice tape limit pos range stop) :
    Sim tape (fun rest index => Slice tape limit index rest stop) (Grammar.endStatement range)
      (tape.endStatement limit pos) := by
  refine .look h.peek_eq ?_
  cases range with
  | nil => exact .ok h
  | cons t rest =>
    refine .ite .rfl (fun _ => .ok h.tail) fun _ => .ite ?_ (fun _ => .ok h) fun _ => ?_
    · simp [h.isEnd_head]
    · simp only [List.headD_cons, h.found_eq]
      exact .malformed _ (h.mem (by simp))

end Ends

section Declarations

theorem valueIfAny_sim (room : Room) (h : Slice tape limit pos range stop) :
    Sim tape (fun a b => b = a) (Grammar.valueIfAny room stop range)
      (tape.valueIfAny room pos limit) := by
  refine .ite h.isEmpty_iff_le (fun _ => .ok rfl) fun _ => ?_
  refine (within_sim (value_tracks (operand_follows room) false) h).map ?_
  rintro v v' rfl
  rfl

theorem textIfAny_eq (h : Slice tape limit pos range stop) :
    tape.textIfAny pos limit = .ok (Grammar.textOf range) := by
  rw [textIfAny]
  split
  · rename_i hle
    rw [List.isEmpty_iff.mp (h.isEmpty_iff_le.mpr hle)]
    rfl
  · rename_i hlt
    exact spelled_whole h fun hnil => hlt (h.isEmpty_iff_le.mp (by simp [hnil]))

theorem length_reverse_lt_two
    (h : ∀ (u t : Token) (front : List Token), range.reverse = u :: t :: front → False) :
    range.reverse.length < 2 := by
  match hreverse : range.reverse with
  | [] => simp
  | [t] => simp
  | u :: t :: front => exact absurd hreverse (h u t front)

theorem splitImportant_slice (h : Slice tape limit pos range stop) {important : Bool}
    {mark : Token} {front : List Token}
    (hsplit : Grammar.splitImportant stop range = (important, mark, front)) :
    tape.endsImportant limit pos = .ok important ∧
      Slice tape (if important then limit - 2 else limit) pos front mark := by
  have hlimit := h.limit_eq
  rw [← range.length_reverse] at hlimit
  unfold Grammar.splitImportant at hsplit
  unfold endsImportant
  split at hsplit
  · rename_i u t front' hreverse
    obtain rfl : range = front'.reverse ++ [t, u] := by
      rw [← List.reverse_reverse range, hreverse]
      simp
    simp only [hreverse, List.length_cons, Int.natCast_add] at hlimit
    have hindex : pos + (front'.reverse.length : Int) = limit - 2 := by
      rw [List.length_reverse]
      omega
    have ht : Slice tape limit (limit - 2) [t, u] stop := by
      rw [← hindex]
      exact h.append
    have hu : Slice tape limit (limit - 1) [u] stop := by
      have hend := ht.tail
      rwa [show limit - 2 + 1 = limit - 1 by omega] at hend
    rw [if_pos (by omega), ht.tokenAt_eq, hu.tokenAt_eq]
    simp only [ok_bind, List.headD_cons, pure_eq_ok]
    split at hsplit
    · rename_i hmark
      cases hsplit
      have hupTo := h.upTo
      rw [hindex] at hupTo
      exact ⟨congrArg Except.ok hmark, hupTo⟩
    · rename_i hmark
      cases hsplit
      exact ⟨congrArg Except.ok (Bool.not_eq_true _ ▸ hmark), h⟩
  · rename_i hshort
    cases hsplit
    have hlength := length_reverse_lt_two hshort
    rw [if_neg (by omega)]
    exact ⟨rfl, h⟩

theorem declarationValue_whole (room : Room) :
    TracksWhole tape (tape.declarationValue room) (Grammar.declarationValue room) := by
  intro limit pos range stop h
  rw [Grammar.declarationValue]
  obtain ⟨hends, hfront⟩ := splitImportant_slice h rfl
  refine .look hends ((valueIfAny_sim room hfront).map ?_)
  rintro v v' rfl
  rfl

theorem declaration_sim (room : Room) (hfirst : tape.tokenAt pos = .ok t) (ht : t ∈ tape.tokens)
    (h : Slice tape limit pos range stop) :
    Sim tape (fun a b => b = a) (Grammar.declaration room t.line stop range)
      (tape.declaration room pos limit) := by
  unfold Grammar.declaration
  cases hcut : cut [':'] 0 range with
  | mk name tail =>
    obtain ⟨index, hscan, hname, htail⟩ := scan_slices [':'] h hcut
    refine .look hscan (.look hfirst ?_)
    cases tail with
    | nil =>
      rw [if_pos (htail.isEmpty_iff_le.mp rfl)]
      exact .malformed _ ht
    | cons colon rest =>
      rw [if_neg (fun hle => by simpa using htail.isEmpty_iff_le.mpr hle)]
      refine .look htail.tokenAt_eq (.ite .rfl (fun _ => .malformed _ ht) fun _ =>
        .ite ?_ (fun _ => .malformed _ ht) fun hsome => ?_)
      · rw [hname.isEmpty_iff]
        exact eq_comm
      · have htext := spelled_whole hname (fun hnil => hsome (by simp [hnil]))
        refine .look htext ((within_whole (declarationValue_whole room) htail.tail).bind ?_)
        rintro ⟨v, important⟩ found rfl
        exact .ok rfl

end Declarations

section Extensions

theorem atExtend_eq (h : Slice tape limit pos range stop) :
    tape.atExtend limit pos = .ok (Grammar.extendBody? range).isSome := by
  unfold atExtend
  rw [h.peek_eq, h.peek_one, h.peek_two, h.peek_three]
  match range with
  | [] => rfl
  | [t] => simp [Grammar.extendBody?]
  | [t, u] => simp [Grammar.extendBody?]
  | [t, u, w] => simp [Grammar.extendBody?]
  | amp :: colon :: name :: bracket :: rest =>
    simp only [ok_bind, List.drop_succ_cons, List.drop_zero, List.headD_cons, pure_eq_ok,
      Grammar.extendBody?]
    split
    · rename_i hopens
      rw [hopens]
      rfl
    · rename_i hopens
      rw [Bool.not_eq_true] at hopens
      rw [hopens]
      rfl

theorem extendBody?_cases {bracket : Token} (h : Grammar.extendBody? range = some (bracket, rest)) :
    bracket.isDelim '(' = true ∧
      ∃ amp colon name, range = [amp, colon, name] ++ bracket :: rest := by
  unfold Grammar.extendBody? at h
  split at h
  · split at h
    · rename_i hopens
      cases h
      simp only [Bool.and_eq_true] at hopens
      exact ⟨hopens.2, _, _, _, rfl⟩
    · cases h
  · cases h

theorem splitAll_slice (h : Slice tape limit pos range stop) {bracket : Token}
    (hbracket : tape.tokenAt (pos - 1) = .ok bracket) {all : Bool} {mark : Token}
    {front : List Token} (hsplit : Grammar.splitAll stop range = (all, mark, front)) :
    ∃ last, tape.tokenAt (limit - 1) = .ok last ∧
      (decide (pos < limit - 1) && last.isWord "all" && last.spaced) = all ∧
      Slice tape (if all then limit - 1 else limit) pos front mark := by
  have hlimit := h.limit_eq
  unfold Grammar.splitAll at hsplit
  split at hsplit
  · rename_i last t front' hreverse
    obtain rfl : range = (t :: front').reverse ++ [last] := by
      rw [← List.reverse_reverse range, hreverse]
      simp
    have hindex : pos + ((t :: front').reverse.length : Int) = limit - 1 := by
      rw [hlimit, List.length_append, List.length_singleton]
      omega
    have hlast : Slice tape limit (limit - 1) [last] stop := by
      rw [← hindex]
      exact h.append
    have hlong : pos < limit - 1 := by
      rw [← hindex, List.length_reverse, List.length_cons]
      omega
    refine ⟨last, hlast.tokenAt_eq, ?_⟩
    simp only [hlong, decide_true, Bool.true_and]
    split at hsplit
    · rename_i hmark
      cases hsplit
      have hupTo := h.upTo
      rw [hindex] at hupTo
      exact ⟨hmark, hupTo⟩
    · rename_i hmark
      cases hsplit
      exact ⟨by simpa using hmark, h⟩
  · rename_i hshort
    cases hsplit
    have hlength := length_reverse_lt_two hshort
    rw [range.length_reverse] at hlength
    have hshort : ¬pos < limit - 1 := by omega
    obtain ⟨last, hlast⟩ : ∃ last, tape.tokenAt (limit - 1) = .ok last := by
      match range with
      | [] => exact ⟨bracket, by simpa [hlimit] using hbracket⟩
      | [t] => exact ⟨t, by simpa [hlimit] using h.tokenAt_eq⟩
    exact ⟨last, hlast, by simp [hshort], h⟩

theorem extend_sim {bracket : Token} (hbracket : bracket.isDelim '(' = true) {before : List Token}
    (hbefore : before.length = 3) (h : Slice tape limit pos (before ++ bracket :: rest) stop) :
    Sim tape (Reached tape limit stop) (Grammar.extend bracket rest) (tape.extend limit pos) := by
  have hopen : Slice tape limit (pos + 3) (bracket :: rest) stop := by
    have happend := h.append
    rwa [hbefore] at happend
  refine (closing_sim hbracket (.inl rfl) hopen).bind ?_
  rintro ⟨inner, close, after⟩ index hinner
  have hat : tape.tokenAt (pos + 3 + 1 - 1) = .ok bracket := by
    rw [Int.add_sub_cancel]
    exact hopen.tokenAt_eq
  obtain ⟨last, hlast, hall, hfront⟩ := splitAll_slice hinner.inner hat rfl
  refine .look hlast ?_
  simp only [hall]
  refine (within_whole selectors_whole hfront).bind ?_
  rintro ss ss' rfl
  exact .ok ⟨rfl, hinner.after⟩

end Extensions

section Guards

/-- The word `when` that a range is split at, and its position. -/
def FoundWhen (range : List Token) (pos : Int) :
    Option (List Token × Token × List Token) → Option Int → Prop :=
  Option.Rel fun p index => range = p.1 ++ p.2.1 :: p.2.2 ∧ index = pos + p.1.length

theorem FoundWhen.cons {p : Option (List Token × Token × List Token)} {found : Option Int}
    (h : FoundWhen rest (pos + 1) p found) :
    FoundWhen (t :: rest) pos (p.map fun (before, w, after) => (t :: before, w, after)) found := by
  cases h with
  | none => exact .none
  | some hp =>
    refine .some ⟨by simp [hp.1], ?_⟩
    rw [hp.2]
    simp
    omega

theorem findWhen_eq (depth : Int) (h : Slice tape limit pos range stop) :
    ∃ found, tape.findWhen depth limit pos = .ok found ∧
      FoundWhen range pos (Grammar.splitGuard depth range) found := by
  induction range generalizing depth pos with
  | nil =>
    rw [findWhen, dif_pos (h.isEmpty_iff_le.mp rfl)]
    exact ⟨none, rfl, .none⟩
  | cons t rest ih =>
    have hlimit := h.limit_eq
    simp only [List.length_cons] at hlimit
    have hfurther (depth : Int) :=
      (ih depth h.tail).imp fun _ => And.imp_right (FoundWhen.cons (t := t))
    rw [findWhen, dif_neg (by omega), h.tokenAt_eq]
    simp only [ok_bind, List.headD_cons, Grammar.splitGuard]
    split
    · exact hfurther _
    · split
      · exact hfurther _
      · split
        · exact ⟨_, rfl, .some ⟨rfl, by simp⟩⟩
        · exact hfurther _

theorem rulesetHead_sim (room : Room) (h : Slice tape limit pos range stop) :
    Sim tape (fun a b => b = a) (Grammar.rulesetHead room stop range)
      (tape.rulesetHead room pos limit) := by
  obtain ⟨found, hfound, hrel⟩ := findWhen_eq 0 h
  unfold Grammar.rulesetHead
  refine .look hfound ?_
  generalize Grammar.splitGuard 0 range = p at hrel
  cases hrel with
  | none =>
    refine (within_whole selectors_whole h).map ?_
    rintro ss ss' rfl
    rfl
  | @some p index hp =>
    obtain ⟨before, w, after⟩ := p
    obtain ⟨rfl, rfl⟩ := hp
    refine (within_whole selectors_whole h.upTo).bind ?_
    rintro ss ss' rfl
    refine (within_whole (guard_whole room) h.append.tail).bind ?_
    rintro vs vs' rfl
    exact .ok rfl

end Guards

section Definitions

/-- A move that tracks a rule on ranges which reach to the end of the tape. -/
def TracksToEnd {α : Type} (tape : Tape) (move : Move α) (rule : Rule α) : Prop :=
  ∀ {limit pos : Int} {range : List Token} {stop : Token}, stop.isEnd = true →
    Slice tape limit pos range stop →
    Sim tape (Reached tape limit stop) (rule stop range) (move limit pos)

theorem isWord_of_isEnd (h : t.isEnd = true) (word : String) : t.isWord word = false := by
  simp only [Token.isEnd, beq_iff_eq] at h
  simp [Token.isWord, h]

/-- Beyond the limit a guard finds no test. -/
theorem guard_beyond (room : Room) (hpos : limit < pos) (ht : tape.tokenAt limit = .ok t) :
    tape.guard room limit pos = .error (.refused (unexpectedAt t [])) := by
  have hpeek : tape.peek limit pos = .ok t.ended := by
    rw [peek, if_pos (Int.le_of_lt hpos), ht]
    rfl
  have hprimary (deeper : Deeper (Move Value)) :
      tape.primary deeper limit pos = .error (.refused (unexpectedAt t [])) := by
    rw [primary, hpeek]
    rfl
  have hsigned (deeper : Deeper (Move Value)) :
      tape.signed deeper limit pos = .error (.refused (unexpectedAt t [])) := by
    rw [signed, hpeek]
    exact hprimary deeper
  have halternatives (deeper deeper' : Deeper (Move Value)) :
      tape.alternatives (tape.signed deeper) deeper' limit pos =
        .error (.refused (unexpectedAt t [])) := by
    simp only [alternatives, Move.chained, test, plainTest, comparison, sum, product, hpeek,
      hsigned, ok_bind, isWord_ended, isDelim_ended, Bool.false_eq_true, if_false]
    rfl
  have htests : tape.tests room limit pos = .error (.refused (unexpectedAt t [])) := by
    rw [tests_eq, operand_eq]
    exact halternatives _ _
  have hsplit : tape.split ',' limit pos = .ok [(pos, limit)] := by
    rw [split, scan, dif_pos (Int.le_of_lt hpos)]
    simp
  rw [guard, commaSeparated, if_neg (Int.ne_of_gt hpos), hsplit]
  simp only [ok_bind, Move.eachRange, within, htests]
  rfl

theorem signature?_sim (room : Room) {bracket : Token} (hend : stop.isEnd = true)
    (hbracket : bracket.isDelim '(' = true) (h : Slice tape limit pos (front ++ brace :: tail) stop)
    (hrest : Slice tape limit index (bracket :: rest) stop) (hindex : pos ≤ index) :
    Sim tape (fun a b => b = a)
      (Grammar.signature? room brace front (front ++ brace :: tail) bracket rest)
      (tape.signature? room limit pos index (pos + front.length)) := by
  have hbrace : Slice tape (pos + front.length) pos front brace := h.upTo
  refine (closing_sim hbracket (.inl rfl) hrest).bind ?_
  rintro ⟨inner, close, after⟩ closer hinner
  have hafter : Slice tape limit (closer + 1) after stop := hinner.after
  have hparams : Sim tape (fun a b => b = a)
      (do
        let operand ← enter (room.below Grammar.operand) .parameters
          (lineAt brace (front ++ brace :: tail))
        Grammar.parameters operand close inner)
      (do
        let operand ← tape.nested (room.below tape.operand) .parameters limit pos
        tape.within (tape.parameters operand) (index + 1) closer) := by
    have hline : lineAt brace (front ++ brace :: tail) = lineAt stop (front ++ brace :: tail) := by
      cases front <;> rfl
    rw [hline]
    exact (nested_sim (below_follows room) _ h).bind fun ho =>
      within_whole (parameters_whole ho) hinner.inner
  have hwhen : startsWithWord "when" after = (after.headD stop).isWord "when" := by
    cases after with
    | nil => exact (isWord_of_isEnd hend "when").symm
    | cons t after => rfl
  have hused : closer + 1 =
      pos + (((front ++ brace :: tail).length - after.length : Nat) : Int) := by
    have hlimit := h.limit_eq
    have hclose := hinner.close_eq
    have hlimit' := hafter.limit_eq
    simp only at hclose
    omega
  simp only [hused]
  generalize (front ++ brace :: tail).length - after.length = used at hused
  by_cases hends : used = front.length
  · subst hends
    simp only [bne_self_eq_false, Bool.false_and, Bool.false_eq_true, if_false, if_true,
      beq_self_eq_true]
    refine hparams.bind_bind ?_
    rintro params params' rfl
    exact .ok rfl
  · have hindices : ¬pos + (used : Int) = pos + front.length := by omega
    have hne : (used != front.length) = true := bne_iff_ne.mpr hends
    have heq : (used == front.length) = false := beq_false_of_ne hends
    rw [if_neg hindices, ← hused]
    refine .look hafter.tokenAt_eq ?_
    simp only [hwhen, hne, heq, Bool.true_and]
    by_cases hword : (after.headD stop).isWord "when" = true
    · simp only [hword, Bool.not_true, Bool.false_eq_true, if_false, if_true]
      refine hparams.bind_bind ?_
      rintro params params' rfl
      by_cases hbeyond : front.length < used
      · -- The closer that was found stands beyond the brace.
        have hpos : pos + (front.length : Int) < closer + 1 + 1 := by omega
        have hguard := guard_beyond room hpos hbrace.tokenAt_limit
        simp only [hbeyond, if_true, within, hguard]
        exact .malformed _ hbrace.stop_mem
      · have hslice : Slice tape (pos + front.length) (closer + 1 + 1) (front.drop (used + 1))
            brace := by
          have hdrop := hbrace.drop (k := used + 1) (by omega)
          rwa [Int.natCast_add, ← Int.add_assoc, ← hused] at hdrop
        simp only [if_neg hbeyond]
        refine (within_whole (guard_whole room) hslice).bind ?_
        rintro conditions conditions' rfl
        exact .ok rfl
    · simp only [hword, Bool.not_false, Bool.false_eq_true, if_false, if_true]
      exact .ok rfl

theorem length_of_append_eq {us : List Token} {bracket : Token} (hdiffer : brace ≠ bracket)
    (h : us ++ brace :: tail = bracket :: rest) : tail.length < rest.length := by
  cases us with
  | nil =>
    cases h
    contradiction
  | cons u us =>
    simp only [List.cons_append, List.cons.injEq] at h
    rw [← h.2, List.length_append, List.length_cons]
    omega

/-- The bracket behind the name of a mixin definition stands in front of the brace. -/
theorem length_of_mixinName? {name : String} {bracket : Token} (hfront : front ≠ [])
    (hbrace : brace.isDelim '{' = true) (hbracket : bracket.isDelim '(' = true)
    (h : Grammar.mixinName? (front ++ brace :: tail) = some (name, bracket :: rest)) :
    tail.length < rest.length := by
  have hdiffer : brace ≠ bracket := by
    rintro rfl
    simp_all [Token.isDelim]
  have hlexeme : brace.lexeme = .delim '{' := by simpa [Token.isDelim] using hbrace
  obtain ⟨t, us, rfl⟩ := List.exists_cons_of_ne_nil hfront
  simp only [List.cons_append, Grammar.mixinName?] at h
  split at h
  · simp only [Option.some.injEq, Prod.mk.injEq] at h
    exact length_of_append_eq hdiffer h.2
  · split at h
    · cases us with
      | nil => simp [Grammar.className?, hlexeme] at h
      | cons u us =>
        simp only [List.cons_append, Grammar.className?] at h
        split at h
        · split at h
          · cases h
          · simp only [Option.some.injEq, Prod.mk.injEq] at h
            exact length_of_append_eq hdiffer h.2
        · cases h
    · cases h
  · cases h

theorem mixinHead?_sim (room : Room) (hend : stop.isEnd = true) (hfront : front ≠ [])
    (hbrace : brace.isDelim '{' = true)
    (h : Slice tape limit pos (front ++ brace :: tail) stop) :
    Sim tape (fun a b => b = a)
      (Grammar.mixinHead? room brace front (front ++ brace :: tail))
      (tape.mixinHead? room limit pos (pos + front.length)) := by
  have hlimit := h.limit_eq
  obtain ⟨found, hfound, hrel⟩ := mixinName?_eq h
  rw [Grammar.mixinHead?]
  refine .look hfound ?_
  split
  · rename_i name bracket rest hname
    rw [hname] at hrel
    cases hrel with
    | @some _ found hreached =>
      obtain ⟨name', index⟩ := found
      obtain ⟨rfl, hrest⟩ := hreached
      simp only at hrest
      have hindex := hrest.limit_eq
      have hless := Grammar.length_mixinName? hname
      simp only [List.length_append, List.length_cons] at hlimit hindex hless
      by_cases hbracket : bracket.isDelim '(' = true
      · have hbefore := length_of_mixinName? hfront hbrace hbracket hname
        have hinside : ¬pos + (front.length : Int) ≤ index := by omega
        simp only [hbracket, if_true, if_neg hinside]
        refine .look hrest.tokenAt_eq ?_
        simp only [List.headD_cons, hbracket, if_true]
        refine (signature?_sim room hend hbracket h hrest (by omega)).map ?_
        rintro found found' rfl
        rfl
      · simp only [hbracket, Bool.false_eq_true, if_false]
        split
        · exact .ok rfl
        · refine .look hrest.tokenAt_eq ?_
          simp only [List.headD_cons, hbracket]
          exact .ok rfl
  · rename_i hother
    generalize hname : Grammar.mixinName? (front ++ brace :: tail) = p at hrel
    cases hrel with
    | none => exact .ok rfl
    | @some p found hreached =>
      obtain ⟨name, rest⟩ := p
      obtain ⟨name', index⟩ := found
      cases rest with
      | nil =>
        have hindex := hreached.2.limit_eq
        simp only [List.length_append, List.length_cons, List.length_nil] at hlimit hindex
        simp only
        rw [if_pos (by omega)]
        exact .ok rfl
      | cons bracket rest => exact absurd hname (hother name bracket rest)

section Body

variable {body : Body} {body' : Grammar.Body} (hb : ∀ o, TracksToEnd tape (body o) (body' o))
include hb

theorem withBody_sim (room : Room) (hend : stop.isEnd = true)
    (hbrace : brace.isDelim '{' = true)
    (h : Slice tape limit pos (front ++ brace :: tail) stop) :
    Sim tape (Reached tape limit stop)
      (Grammar.withBody room body' stop brace front (brace :: tail) (front ++ brace :: tail))
      (tape.withBody room body limit pos (pos + front.length)) := by
  have hfront : Slice tape (pos + front.length) pos front brace := h.upTo
  rw [Grammar.withBody]
  refine .ite (hfront.isEmpty_iff.trans eq_comm) (fun hempty => ?_) fun hsome => ?_
  · exact (hb _ hend h).wrap _
  · refine (mixinHead?_sim room hend (fun hnil => hsome (by simp [hnil])) hbrace h).bind ?_
    rintro _ head rfl
    cases head with
    | some head =>
      obtain ⟨name, params, guard⟩ := head
      exact (hb _ hend h.append).wrap _
    | none =>
      refine (rulesetHead_sim room hfront).bind ?_
      rintro ⟨selectors, guard⟩ head rfl
      exact (hb _ hend h.append).wrap _

end Body

end Definitions

section AtRules

theorem importOptions_sim (h : Slice tape limit pos range stop) :
    Sim tape (Reached tape limit stop) (Grammar.importOptions range)
      (tape.importOptions limit pos) := by
  refine .look h.peek_eq ?_
  cases range with
  | nil => exact .ok ⟨rfl, h⟩
  | cons t rest =>
    refine .ite .rfl (fun ht => ?_) fun _ => .ok ⟨rfl, h⟩
    refine (closing_sim ht (.inl rfl) h).bind ?_
    rintro ⟨inner, close, after⟩ index hinner
    simp only [hinner.inner.tokens_eq]
    exact .ok ⟨rfl, hinner.after⟩

theorem mediaQueriesIfAny_sim (room : Room) (h : Slice tape limit pos range stop) :
    Sim tape (fun a b => b = a) (Grammar.mediaQueriesIfAny room stop range)
      (tape.mediaQueriesIfAny room pos limit) := by
  refine .ite h.isEmpty_iff_le (fun _ => .ok rfl) fun _ => (mediaQueries_sim room h).map ?_
  rintro vs vs' rfl
  rfl

theorem imported_tracks (room : Room) :
    Tracks tape (tape.imported room) (Grammar.imported room) := by
  intro limit pos range stop h
  refine (importOptions_sim h).bind ?_
  rintro ⟨options, range⟩ ⟨options', pos⟩ ⟨rfl, h⟩
  simp only at h
  obtain ⟨index, hindex, hfront, htail⟩ := head_slices h rfl
  refine .look hindex (.ite (hfront.isEmpty_iff.trans eq_comm) (fun _ => ?_) fun _ => ?_)
  · exact .look h.peek_eq (refuse_sim _ h)
  · refine (primary_tracks (below_follows room) hfront).bind ?_
    rintro ⟨path, rest⟩ ⟨path', pos'⟩ ⟨rfl, hrest⟩
    refine (mediaQueriesIfAny_sim room hrest).bind ?_
    rintro features features' rfl
    exact (endStatement_sim htail).bind fun hlast => .ok ⟨rfl, hlast⟩

theorem blockCall_sim (room : Room) (name : String) (ht : t.isDelim '(' = true)
    (h : Slice tape limit pos (t :: rest) stop) :
    Sim tape (Reached tape limit stop) (Grammar.blockCall room name t rest)
      (tape.blockCall room name limit pos) := by
  refine (argumentsFrom_sim room ht h).bind ?_
  rintro ⟨args, after⟩ ⟨args', pos'⟩ ⟨rfl, hafter⟩
  exact (endStatement_sim hafter).bind fun hlast => .ok ⟨rfl, hlast⟩

section Body

variable {body : Body} {body' : Grammar.Body} (hb : ∀ o, TracksToEnd tape (body o) (body' o))
include hb

theorem media_tracks (room : Room) :
    TracksToEnd tape (tape.media room body) (Grammar.media room body') := by
  intro limit pos range stop hend h
  unfold Grammar.media
  cases hhead : Grammar.head range with
  | mk front tail =>
  obtain ⟨index, hindex, hfront, htail⟩ := head_slices h hhead
  refine .look hindex (.look (isBrace_eq htail) ?_)
  by_cases hbrace : startsWithDelim '{' tail = true
  · simp only [hbrace, if_true, Bool.not_true, Bool.false_eq_true, if_false]
    refine (mediaQueriesIfAny_sim room hfront).bind ?_
    rintro features features' rfl
    exact (hb _ hend htail).wrap _
  · simp only [hbrace, Bool.not_false, if_true, Bool.false_eq_true, if_false]
    exact .look h.peek_eq (refuse_sim _ h)

theorem definition_tracks (room : Room) (name : String) :
    TracksToEnd tape (tape.definition room body name) (Grammar.definition room body' name) := by
  intro limit pos range stop hend h
  have hopens : startsWithDelim '{' range = true ↔
      (range.headD stop.ended).isDelim '{' = true := by
    cases range <;> exact .rfl
  refine .look h.peek_eq (.ite hopens (fun _ => ?_) fun _ => ?_)
  · exact (hb _ hend h).wrap _
  · obtain ⟨index, hindex, hfront, htail⟩ := head_slices h rfl
    refine .look hindex ((within_whole (declarationValue_whole room) hfront).bind ?_)
    rintro ⟨v, important⟩ found rfl
    cases v with
    | none => exact .look htail.peek_eq (refuse_sim _ htail)
    | some v => exact (endStatement_sim htail).bind fun hlast => .ok ⟨rfl, hlast⟩

theorem directive_tracks (room : Room) (name : String) :
    TracksToEnd tape (tape.directive room body name) (Grammar.directive room body' name) := by
  intro limit pos range stop hend h
  obtain ⟨index, hindex, hfront, htail⟩ := head_slices h rfl
  refine .look hindex (.look (isBrace_eq htail) (.ite .rfl (fun _ => ?_) fun _ => ?_))
  · refine .look (textIfAny_eq hfront) ?_
    exact (hb _ hend htail).wrap _
  · refine (valueIfAny_sim room hfront).bind ?_
    rintro v v' rfl
    exact (endStatement_sim htail).bind fun hlast => .ok ⟨rfl, hlast⟩

theorem atRule_tracks (room : Room) (name : String) :
    TracksToEnd tape (tape.atRule room body name) (Grammar.atRule room body' name) := by
  intro limit pos range stop hend h
  refine .ite .rfl (fun _ => media_tracks hb room hend h) fun _ =>
    .ite .rfl (fun _ => imported_tracks room h) fun _ => .look h.peek_eq ?_
  cases range with
  | nil => exact directive_tracks hb room name hend h
  | cons t rest =>
    refine .ite .rfl (fun _ => .look h.tail.peek_eq ?_) fun _ =>
      .ite .rfl (fun hcall => blockCall_sim room name (Bool.and_eq_true_iff.mp hcall).1 h)
        fun _ => directive_tracks hb room name hend h
    obtain ⟨index, hindex, -, htail⟩ := head_slices h.tail rfl
    refine .look hindex (.look (isBrace_eq htail) (.ite ?_
      (fun _ => definition_tracks hb room name hend h.tail) fun _ =>
        directive_tracks hb room name hend h))
    cases rest <;> exact .rfl

end Body

end AtRules

end StyleTally.Stylesheet.Tape
