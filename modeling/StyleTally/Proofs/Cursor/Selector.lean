import StyleTally.Proofs.Brackets.Selector
import StyleTally.Proofs.Cursor.Value

/-!
# Selectors and calls by position

The moves for selectors and for the parameters, the arguments and the calls of mixins track the
rules. A part of a selector has at least one token, so has a name on the path of a call.
-/

namespace StyleTally.Stylesheet.Tape

variable {tape : Tape} {limit pos : Int} {range rest : List Token} {t stop : Token}

section Selectors

theorem pseudoName_sim {start : Int} (colons : List Token)
    (h : Slice tape limit start (colons ++ range) stop) :
    Sim tape (Reached tape limit stop) (Grammar.pseudo colons stop range)
      (tape.pseudoName start limit (start + colons.length)) := by
  have hname : Slice tape limit (start + colons.length) range stop := h.append
  refine .look hname.peek_eq ?_
  cases range with
  | nil => exact .malformed _ h.stop_mem
  | cons t rest =>
    refine .ite .rfl (fun _ => .malformed _ (hname.mem (by simp))) fun _ => ?_
    have hplain : Sim tape (Reached tape limit stop)
        (.ok (Part.text (Grammar.textOf (colons ++ [t])), rest))
        (do
          let text ← tape.spelled start (start + colons.length + 1)
          return (Part.text text, start + colons.length + 1)) := by
      have hrange : Slice tape limit start ((colons ++ [t]) ++ rest) stop := by simpa using h
      have htext := spelled_eq (colons ++ [t]) rest hrange (by simp)
      have hindex : start + ((colons ++ [t]).length : Int) = start + colons.length + 1 := by
        simp
        omega
      rw [hindex] at htext
      exact .look htext (.ok ⟨rfl, hname.tail⟩)
    refine .look hname.tail.peek_eq ?_
    cases rest with
    | nil => exact hplain
    | cons p after =>
      refine .ite .rfl (fun hcall => ?_) fun _ => hplain
      refine (closing_sim (Bool.and_eq_true_iff.mp hcall).1 (.inl rfl) hname.tail).bind ?_
      rintro ⟨inner, close, after⟩ index hinner
      have hrange :
          Slice tape limit start ((colons ++ t :: p :: inner ++ [close]) ++ after) stop := by
        simpa [hinner.range_eq] using h
      have htext := spelled_eq (colons ++ t :: p :: inner ++ [close]) after hrange (by simp)
      have hindex : start + ((colons ++ t :: p :: inner ++ [close]).length : Int) = index + 1 := by
        rw [hinner.close_eq]
        simp
        omega
      rw [hindex] at htext
      exact .look htext (.ok ⟨rfl, hinner.after⟩)

theorem pseudo_sim (h : Slice tape limit pos (t :: range) stop) :
    Sim tape (Reached tape limit stop)
      (match range with
      | u :: rest =>
        if u.isDelim ':' && !u.spaced then Grammar.pseudo [t, u] stop rest
        else Grammar.pseudo [t] stop range
      | [] => Grammar.pseudo [t] stop range)
      (tape.pseudo limit (pos + 1)) := by
  have hone := pseudoName_sim [t] h
  rw [pseudo, Int.add_sub_cancel]
  refine .look h.tail.peek_eq ?_
  cases range with
  | nil => exact hone
  | cons u rest =>
    refine .ite .rfl (fun _ => ?_) fun _ => hone
    have htwo := pseudoName_sim [t, u] h
    rw [Int.add_assoc]
    exact htwo

theorem signsEnd_eq (h : Slice tape limit pos range stop) :
    tape.signsEnd limit pos =
      .ok (pos + (range.takeWhile Grammar.isAttributeSign).length) := by
  induction range generalizing pos with
  | nil =>
    rw [signsEnd, h.peek_eq]
    simp [Grammar.isAttributeSign]
  | cons t rest ih =>
    rw [signsEnd, h.peek_eq]
    simp only [List.headD_cons, ok_bind, List.takeWhile_cons, dif_pos h.remaining_tail_lt]
    split
    · rw [ih h.tail]
      congr 1
      simp only [List.length_cons]
      omega
    · simp

theorem attributeTest_tracks : Tracks tape tape.attributeTest Grammar.attributeTest := by
  intro limit pos range stop h
  unfold attributeTest
  cases range with
  | nil => exact .look h.next_nil (.malformed _ h.stop_mem)
  | cons t rest =>
    refine .look h.next_cons ?_
    rw [Grammar.attributeTest]
    simp only
    cases Grammar.attributeName? t with
    | none => exact .malformed _ (h.mem (by simp))
    | some name =>
      have hends : rest.isEmpty = true ↔ (rest.headD stop.ended).isEnd = true := by
        cases rest with
        | nil => exact .rfl
        | cons u rest => simp [h.tail.isEnd_head]
      refine .look h.tail.peek_eq (.ite hends (fun hempty => ?_) fun hrest => ?_)
      · rw [List.isEmpty_iff.mp hempty] at h
        exact .ok ⟨rfl, h.tail⟩
      · refine .look (signsEnd_eq h.tail) ?_
        have hsigns := List.takeWhile_prefix (l := rest) Grammar.isAttributeSign
        generalize rest.takeWhile Grammar.isAttributeSign = signs at hsigns
        obtain ⟨after, rfl⟩ := hsigns
        refine .ite ?_ (fun hempty => refuse_sim _ h.tail) fun hsome => ?_
        · rw [List.isEmpty_iff_length_eq_zero]
          omega
        · have htext := spelled_eq signs after h.tail (fun hnil => hsome (by simp [hnil]))
          have hafter : Slice tape limit (pos + 1 + signs.length) after stop := h.tail.append
          refine .look htext ?_
          simp only [List.drop_left]
          cases after with
          | nil => exact .look hafter.next_nil (.malformed _ h.stop_mem)
          | cons w rest =>
            refine .look hafter.next_cons ?_
            simp only
            cases Grammar.attributeValue? w with
            | none => exact .malformed _ (hafter.mem (by simp))
            | some v =>
              refine .look hafter.tail.peek_eq ?_
              cases rest with
              | nil => exact .ok ⟨rfl, hafter.tail⟩
              | cons mark rest =>
                simp only [List.headD_cons, startsWithWord]
                by_cases hmark : (mark.isWord "i" || mark.isWord "s") = true
                · simp only [hmark, if_true]
                  exact .ok ⟨rfl, hafter.tail.tail⟩
                · simp only [hmark]
                  exact .ok ⟨rfl, hafter.tail⟩

theorem attributePart_sim (ht : t.isDelim '[' = true)
    (h : Slice tape limit pos (t :: rest) stop) :
    Sim tape (Reached tape limit stop)
      (do
        let (inner, close, after) ← enclosed t '[' rest
        let parts ← whole Grammar.attributeTest close inner
        return (Part.attribute parts, after))
      (tape.attributePart limit (pos + 1)) := by
  rw [attributePart, Int.add_sub_cancel]
  refine (closing_sim ht (.inr rfl) h).bind ?_
  rintro ⟨inner, close, after⟩ index hinner
  refine (within_sim attributeTest_tracks hinner.inner).bind ?_
  rintro parts parts' rfl
  exact .ok ⟨rfl, hinner.after⟩

/-- What marks a part is the token behind its sign. -/
theorem marked?_cons (sign u : Token) (rest : List Token) :
    Grammar.marked? sign (u :: rest) =
      (Grammar.marked? sign [u]).map fun (part, _) => (part, rest) := by
  simp only [Grammar.marked?]
  split
  · rfl
  · split <;> rfl

theorem marked?_ended (sign u : Token) : Grammar.marked? sign [u.ended] = none := by
  simp only [Grammar.marked?, lexeme_ended]
  split
  · rfl
  · split <;> simp_all

theorem part_sim (h : Slice tape limit pos (t :: rest) stop) :
    Sim tape (Reached tape limit stop) (Grammar.part stop t rest) (tape.part limit pos) := by
  have hread (p : Part) :
      Sim tape (Reached tape limit stop) (.ok (p, rest)) (.ok (p, pos + 1)) := .ok ⟨rfl, h.tail⟩
  have hfault : Sim tape (Reached (α := Part) tape limit stop)
      (.error (.malformed (.unexpectedInSelector (foundAt [t])) t.line))
      (refuse (.unexpectedInSelector t.found) t) := by
    rw [h.found_eq]
    exact .malformed _ (h.mem (by simp))
  have hmarked : Grammar.marked? t rest =
      (Grammar.marked? t [rest.headD stop.ended]).map fun (part, _) => (part, rest.tail) := by
    cases rest with
    | nil => simp [Grammar.marked?]
    | cons u rest => exact marked?_cons t u rest
  unfold part
  refine .look h.next_cons (.look h.tail.peek_eq ?_)
  unfold Grammar.part
  rw [hmarked]
  cases hfirst : Grammar.marked? t [rest.headD stop.ended] with
  | some found =>
    cases rest with
    | nil => simp [marked?_ended] at hfirst
    | cons u rest => exact .ok ⟨rfl, h.tail.tail⟩
  | none =>
    simp only [Option.map_none]
    cases hlexeme : t.lexeme with
    | hash s => exact hread _
    | ident s => exact hread _
    | number text x unit => exact hread _
    | interpolation name => exact hread _
    | delim c =>
      have ht {d : Char} (hc : c = d) : t.isDelim d = true := by simp [Token.isDelim, hlexeme, hc]
      by_cases hamp : c = '&'
      · subst hamp
        exact hread _
      by_cases hstar : c = '*'
      · subst hstar
        exact hread _
      by_cases hcolon : c = ':'
      · subst hcolon
        exact pseudo_sim h
      by_cases hsquare : c = '['
      · subst hsquare
        exact attributePart_sim (ht rfl) h
      by_cases htilde : c = '~'
      · subst htilde
        cases rest with
        | nil => exact hfault
        | cons u after =>
          obtain ⟨lexeme, gap, text, line, start⟩ := u
          cases lexeme with
          | quoted s quote => exact .ok ⟨rfl, h.tail.tail⟩
          | _ => exact hfault
      -- No other delimiter opens a part.
      · repeat' split
        all_goals simp_all
    | _ => exact hfault

theorem combinator?_eq (h : Slice tape limit pos (t :: rest) stop) :
    tape.combinator? t limit pos = .ok (Grammar.combinator? t rest) := by
  have hquoted : Grammar.isQuoted [rest.headD stop.ended] = Grammar.isQuoted rest := by
    cases rest with
    | nil => rfl
    | cons u rest =>
      obtain ⟨lexeme, gap, text, line, start⟩ := u
      cases lexeme <;> rfl
  unfold combinator? Grammar.combinator?
  rw [h.tail.peek_eq]
  simp only [ok_bind, hquoted]
  split
  · rfl
  · split
    · rfl
    · by_cases htilde : t.isDelim '~' = true
      · cases Grammar.isQuoted rest <;> simp [htilde]
      · simp [htilde]

theorem elementsFrom_sim (pending : Option Char) (first : Bool)
    (h : Slice tape limit pos range stop) :
    Sim tape (fun es q => q = (es, limit)) (Grammar.elementsFrom pending first stop range)
      (tape.elementsFrom pending first limit pos) := by
  induction hn : range.length using Nat.strongRecOn generalizing pending first pos range with
  | ind n ih =>
    rw [elementsFrom]
    refine .look h.peek_eq ?_
    cases range with
    | nil =>
      rw [Grammar.elementsFrom, h.isEmpty_iff.mp rfl]
      exact .ok rfl
    | cons t rest =>
      rw [Grammar.elementsFrom]
      simp only [List.headD_cons, h.isEnd_head, Bool.false_eq_true, if_false]
      refine .look (combinator?_eq h) ?_
      simp only [List.length_cons] at hn
      cases Grammar.combinator? t rest with
      | some c =>
        simp only [dif_pos h.remaining_tail_lt]
        exact ih _ (by omega) _ _ h.tail rfl
      -- The part was read behind its first token, which is read in any case.
      | none =>
        refine ((part_sim h).yields (Grammar.part_readBehind stop t rest)).bind ?_
        rintro ⟨p, after⟩ ⟨p', pos'⟩ ⟨⟨rfl, hafter⟩, used, hused, -⟩
        simp only at hafter hused
        have hlength : after.length ≤ rest.length := by simp [hused]
        have hprogress := h.remaining_lt hafter (Nat.lt_succ_of_le hlength)
        simp only [if_pos hlength, dif_pos hprogress]
        refine (ih _ (by omega) _ _ hafter rfl).map ?_
        rintro es q rfl
        rfl

theorem selector_whole : TracksWhole tape tape.selector Grammar.selector := by
  intro limit pos range stop h
  refine (elementsFrom_sim none true h).bind ?_
  rintro es q rfl
  cases es with
  | nil => exact .look (h.peek_of_le (Int.le_refl limit)) (.malformed _ h.stop_mem)
  | cons e es => exact .ok rfl

theorem selectors_whole : TracksWhole tape tape.selectors Grammar.selectors :=
  commaSeparated_whole .missingSelector (within_whole selector_whole)

end Selectors

section Mixins

theorem delimiterOf_eq (h : Slice tape limit pos range stop) :
    tape.delimiterOf limit pos = .ok (Grammar.delimiterOf range) := by
  rw [Grammar.delimiterOf, delimiterOf]
  cases hcut : cut [';'] 0 range with
  | mk front tail =>
    obtain ⟨index, hscan, -, htail⟩ := scan_slices [';'] h hcut
    rw [hscan, ok_bind]
    cases tail with
    | nil =>
      rw [if_pos (htail.isEmpty_iff_le.mp rfl)]
      rfl
    | cons t rest =>
      rw [if_neg (fun hle => by simpa using htail.isEmpty_iff_le.mpr hle), htail.tokenAt_eq]
      rfl

theorem filledRanges_sim (delimiter : Char) (h : Slice tape limit pos range stop) :
    Sim tape (List.Forall₂ (PieceAt tape)) (Grammar.filledPieces delimiter stop range)
      (tape.filledRanges delimiter limit pos) := by
  refine (split_sim delimiter h).map fun hparts => ?_
  refine List.rel_filter (fun p q hpq => ?_) hparts
  have hempty := Slice.isEmpty_iff_le hpq
  simp only [Bool.not_eq_true', decide_eq_true_eq, ← Bool.not_eq_true, hempty, Int.not_le]

section Lists

variable {move : Move Value} {rule : Rule Value} (hm : Follows tape move rule)
include hm

theorem parameter_tracks : Tracks tape (tape.parameter move) (Grammar.parameter rule) := by
  intro limit pos range stop h
  have hplain := (value_tracks hm false h).wrap fun v => Parameter.mk none (some v) false
  unfold parameter
  refine .look h.peek_eq ?_
  match range with
  | [] => exact hplain
  | [t] =>
    simp only [List.headD_cons, Grammar.parameter, Grammar.named?, Grammar.bareParameter?]
    cases hlexeme : t.lexeme with
    | ellipsis => exact .ok ⟨rfl, h.tail⟩
    | atKeyword name => exact .look h.tail.peek_eq (.ok ⟨rfl, h.tail⟩)
    | _ => exact hplain
  | t :: u :: rest =>
    simp only [List.headD_cons, Grammar.parameter, Grammar.named?, Grammar.bareParameter?]
    cases hlexeme : t.lexeme with
    | ellipsis => exact .ok ⟨rfl, h.tail⟩
    | atKeyword name =>
      have hu := h.tail.isEnd_head
      refine .look h.tail.peek_eq ?_
      obtain ⟨lexeme, gap, text, line, start⟩ := u
      cases lexeme with
      | ellipsis => exact .ok ⟨rfl, h.tail_two⟩
      | endOfInput => cases hu
      | delim c =>
        by_cases hcolon : c = ':'
        · subst hcolon
          exact (value_tracks hm false h.tail_two).wrap fun v =>
            Parameter.mk (some name) (some v) false
        · simp only [List.headD_cons, Token.isDelim, beq_iff_eq, Lexeme.delim.injEq, hcolon]
          split <;> simp_all
      | _ => exact hplain
    | _ => exact hplain

theorem argument_tracks : Tracks tape (tape.argument move) (Grammar.argument rule) := by
  intro limit pos range stop h
  have hplain := (value_tracks hm false h).wrap fun v => Argument.mk v none
  unfold argument
  refine .look h.peek_eq ?_
  match range with
  | [] => exact hplain
  | [t] =>
    simp only [List.headD_cons, Grammar.argument, Grammar.named?]
    cases hlexeme : t.lexeme with
    | atKeyword name => exact .look h.tail.peek_eq hplain
    | _ => exact hplain
  | t :: u :: rest =>
    simp only [List.headD_cons, Grammar.argument, Grammar.named?]
    cases hlexeme : t.lexeme with
    | atKeyword name =>
      refine .look h.tail.peek_eq ?_
      simp only [List.headD_cons]
      by_cases hcolon : u.isDelim ':' = true
      · simp only [hcolon, if_true]
        exact (value_tracks hm false h.tail_two).wrap fun v => Argument.mk v (some name)
      · simp only [hcolon, Bool.false_eq_true, if_false]
        exact hplain
    | _ => exact hplain

theorem parameters_whole :
    TracksWhole tape (tape.parameters move) (Grammar.parameters rule) := by
  intro limit pos range stop h
  refine .ite h.isEmpty_iff_le (fun _ => .ok rfl) fun _ => .look (delimiterOf_eq h) ?_
  refine (filledRanges_sim _ h).bind fun hparts =>
    (eachRange_sim (within_sim (parameter_tracks hm)) hparts).last ?_
  rintro ps ps' rfl
  exact ⟨_, rfl, rfl⟩

theorem arguments_whole : TracksWhole tape (tape.arguments move) (Grammar.arguments rule) := by
  intro limit pos range stop h
  refine .ite h.isEmpty_iff_le (fun _ => .ok rfl) fun _ => .look (delimiterOf_eq h) ?_
  have hitems := (filledRanges_sim (Grammar.delimiterOf range) h).bind
    (eachRange_sim (within_sim (argument_tracks hm)))
  rw [← bind_assoc]
  refine hitems.bind ?_
  rintro items items' rfl
  exact .ok rfl

end Lists

theorem argumentsFrom_sim (room : Room) (ht : t.isDelim '(' = true)
    (h : Slice tape limit pos (t :: rest) stop) :
    Sim tape (Reached tape limit stop) (Grammar.argumentsFrom room t rest)
      (tape.argumentsFrom room limit pos) := by
  refine (closing_sim ht (.inl rfl) h).bind ?_
  rintro ⟨inner, close, after⟩ index hinner
  refine (nested_sim (below_follows room) _ h).bind fun ho =>
    (within_whole (arguments_whole ho) hinner.inner).bind ?_
  rintro args args' rfl
  exact .ok ⟨rfl, hinner.after⟩

end Mixins

section Calls

theorem className?_cons (u : Token) (rest : List Token) :
    Grammar.className? (u :: rest) =
      (Grammar.className? [u]).map fun (name, _) => (name, rest) := by
  simp only [Grammar.className?]
  split
  · split <;> rfl
  · rfl

theorem mixinName?_eq (h : Slice tape limit pos range stop) :
    ∃ found, tape.mixinName? limit pos = .ok found ∧
      Option.Rel (Reached tape limit stop) (Grammar.mixinName? range) found := by
  unfold mixinName?
  rw [h.peek_eq]
  cases range with
  | nil => exact ⟨none, rfl, .none⟩
  | cons t rest =>
    simp only [List.headD_cons, ok_bind, Grammar.mixinName?]
    cases hlexeme : t.lexeme with
    | hash name => exact ⟨_, rfl, .some ⟨rfl, h.tail⟩⟩
    | delim c =>
      by_cases hpoint : c = '.'
      · subst hpoint
        rw [h.tail.peek_eq]
        cases rest with
        | nil => exact ⟨none, rfl, .none⟩
        | cons u rest =>
          refine ⟨_, rfl, ?_⟩
          simp only [beq_self_eq_true, if_true, List.headD_cons]
          rw [className?_cons]
          cases Grammar.className? [u] with
          | none => exact .none
          | some found => exact .some ⟨rfl, h.tail_two⟩
      · refine ⟨none, ?_, ?_⟩
        · split <;> simp_all
        · simp only [beq_iff_eq, hpoint]
          exact .none
    | _ => exact ⟨none, rfl, .none⟩

theorem callPath_sim (pending : Option Char) (first : Bool) (h : Slice tape limit pos range stop) :
    Sim tape (Reached tape limit stop) (Grammar.callPath pending first range)
      (tape.callPath pending first limit pos) := by
  induction hn : range.length using Nat.strongRecOn generalizing pending first pos range with
  | ind n ih =>
    rw [callPath]
    refine .look h.peek_eq ?_
    cases range with
    | nil =>
      rw [Grammar.callPath]
      exact .ok ⟨rfl, h⟩
    | cons t rest =>
      rw [Grammar.callPath]
      simp only [List.length_cons] at hn
      simp only [List.headD_cons, h.isEnd_head, Bool.false_or, dif_pos h.remaining_tail_lt]
      refine .ite .rfl (fun _ => .ok ⟨rfl, h⟩) fun _ =>
        .ite .rfl (fun _ => ih _ (by omega) _ _ h.tail rfl) fun _ => ?_
      obtain ⟨found, hfound, hrel⟩ := mixinName?_eq h
      refine .look hfound ?_
      split
      · rename_i hname
        rw [hname] at hrel
        cases hrel
        simp only [h.found_eq]
        exact .malformed _ (h.mem (by simp))
      · rename_i name after hname
        rw [hname] at hrel
        cases hrel with
        | @some _ found hreached =>
          obtain ⟨name', pos'⟩ := found
          obtain ⟨rfl, hafter⟩ := hreached
          simp only at hafter
          have hless := Grammar.length_mixinName? hname
          simp only [dif_pos (h.remaining_lt hafter hless)]
          simp only [List.length_cons] at hless
          exact (ih _ (by omega) _ _ hafter rfl).wrapMap _

theorem callArguments_sim (room : Room) (h : Slice tape limit pos range stop) :
    Sim tape (Reached tape limit stop) (Grammar.callArguments room range)
      (tape.callArguments room limit pos) := by
  refine .look h.peek_eq ?_
  cases range with
  | nil => exact .ok ⟨rfl, h⟩
  | cons t rest =>
    refine .ite .rfl (fun ht => (argumentsFrom_sim room ht h).map ?_) fun _ => .ok ⟨rfl, h⟩
    rintro ⟨args, after⟩ ⟨args', pos'⟩ ⟨rfl, hafter⟩
    exact ⟨rfl, hafter⟩

theorem dropImportant_eq (h : Slice tape limit pos range stop) :
    ∃ found, tape.dropImportant limit pos = .ok found ∧
      Reached tape limit stop (Grammar.dropImportant range) found := by
  unfold dropImportant
  rw [h.peek_eq, h.peek_one]
  refine ⟨_, rfl, ?_⟩
  match range with
  | [] => exact ⟨rfl, h⟩
  | [t] =>
    simp only [List.drop_succ_cons, List.drop_zero, List.headD_nil, isWord_ended, Bool.and_false]
    exact ⟨rfl, h⟩
  | t :: u :: rest =>
    simp only [Grammar.dropImportant, List.drop_succ_cons, List.drop_zero, List.headD_cons]
    split
    · exact ⟨rfl, h.tail_two⟩
    · exact ⟨rfl, h⟩

theorem mixinCall_sim (room : Room) {outer : Token} {index : Int} {front tail : List Token}
    (hfront : Slice tape index pos front (tail.headD outer))
    (htail : Slice tape limit index tail outer) :
    Sim tape (fun a b => b = a) (Grammar.mixinCall room (tail.headD outer) front)
      (tape.mixinCall room limit pos index) := by
  refine (callPath_sim none true hfront).bind ?_
  rintro ⟨path, rest⟩ ⟨path', atArguments⟩ ⟨rfl, hrest⟩
  refine (callArguments_sim room hrest).bind ?_
  rintro ⟨args, after⟩ ⟨args', atMark⟩ ⟨rfl, hafter⟩
  obtain ⟨found, hfound, himportant⟩ := dropImportant_eq hafter
  refine .look hfound ?_
  simp only
  generalize Grammar.dropImportant after = p at himportant
  obtain ⟨important, last⟩ := p
  obtain ⟨important', atEnd⟩ := found
  obtain ⟨rfl, hlast⟩ := himportant
  simp only at hlast
  refine .look hlast.peek_eq ?_
  cases last with
  | nil =>
    have hindex : atEnd = index := hlast.isEmpty_iff.mp rfl
    cases path' with
    | nil =>
      simp only [hindex]
      exact .look htail.peek_eq (refuse_sim _ htail)
    | cons e es => exact .ok rfl
  | cons t rest =>
    simp only [List.headD_cons, hlast.isEnd_head, hlast.found_eq]
    exact .malformed _ (hlast.mem (by simp))

end Calls

end StyleTally.Stylesheet.Tape
