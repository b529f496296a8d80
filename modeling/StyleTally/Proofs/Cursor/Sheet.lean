import StyleTally.Proofs.Cursor.Statement
import StyleTally.Stylesheet.Parse

/-!
# Stylesheets by position

The moves for bodies and for whole stylesheets track the rules, in every room.
-/

namespace StyleTally.Stylesheet.Tape

open Statement (Shaped shaped_grammatical)

variable {tape : Tape} {limit pos index : Int} {range rest : List Token} {t stop : Token}

theorem callOrDeclaration_sim (room : Room) {front tail : List Token}
    (h : Slice tape limit pos (t :: rest) stop)
    (hfront : Slice tape index pos front (tail.headD stop))
    (htail : Slice tape limit index tail stop) :
    Sim tape (fun a b => b = a) (Grammar.callOrDeclaration room (tail.headD stop) t front)
      (tape.callOrDeclaration room limit pos index) :=
  .look h.peek_cons (.ite .rfl (fun _ => mixinCall_sim room hfront htail) fun _ =>
    declaration_sim room h.tokenAt_eq (h.mem (by simp)) hfront)

theorem unendedStatement_sim (room : Room) (h : Slice tape limit pos (t :: rest) stop)
    (hindex : tape.statementEnd limit pos = .ok index) :
    Sim tape (Reached tape limit stop) (Grammar.unendedStatement room stop t rest)
      (tape.unendedStatement room limit pos index) := by
  unfold Grammar.unendedStatement
  refine .look (atExtend_eq h) ?_
  cases hextend : Grammar.extendBody? (t :: rest) with
  | some found =>
    obtain ⟨bracket, after⟩ := found
    obtain ⟨hbracket, amp, colon, name, hrange⟩ := extendBody?_cases hextend
    rw [hrange] at h
    exact extend_sim hbracket rfl h
  | none =>
    cases hhead : Grammar.head (t :: rest) with
    | mk front tail =>
      obtain ⟨index', hindex', hfront, htail⟩ := head_slices h hhead
      obtain rfl : index' = index := by
        rw [hindex] at hindex'
        exact (Except.ok.inj hindex').symm
      refine (callOrDeclaration_sim room h hfront htail).map ?_
      rintro s s' rfl
      exact ⟨rfl, htail⟩

theorem simpleStatement_sim (room : Room) (h : Slice tape limit pos (t :: rest) stop)
    (hindex : tape.statementEnd limit pos = .ok index) :
    Sim tape (Reached tape limit stop) (Grammar.simpleStatement room stop t rest)
      (do
        let (statement, pos) ← tape.unendedStatement room limit pos index
        let pos ← tape.endStatement limit pos
        return (statement, pos)) := by
  refine (unendedStatement_sim room h hindex).bind ?_
  rintro ⟨s, tail⟩ ⟨s', pos'⟩ ⟨rfl, htail⟩
  exact (endStatement_sim htail).bind fun hlast => .ok ⟨rfl, hlast⟩

section Body

variable {body : Body} {body' : Grammar.Body} (hb : ∀ o, TracksToEnd tape (body o) (body' o))
include hb

/-- A statement that does not begin with an at-word. -/
theorem plainStatement_sim (room : Room) (hend : stop.isEnd = true)
    (h : Slice tape limit pos (t :: rest) stop) :
    Sim tape (Reached tape limit stop)
      (match Grammar.head (t :: rest) with
      | (front, brace :: after) =>
        if brace.isDelim '{' then
          Grammar.withBody room body' stop brace front (brace :: after) (t :: rest)
        else Grammar.simpleStatement room stop t rest
      | _ => Grammar.simpleStatement room stop t rest)
      (do
        let stop ← tape.statementEnd limit pos
        if ← tape.isBrace limit stop then tape.withBody room body limit pos stop
        else
          let (statement, pos) ← tape.unendedStatement room limit pos stop
          let pos ← tape.endStatement limit pos
          return (statement, pos)) := by
  cases hhead : Grammar.head (t :: rest) with
  | mk front tail =>
    obtain ⟨index, hindex, hfront, htail⟩ := head_slices h hhead
    have hplain := simpleStatement_sim room h hindex
    refine .look hindex (.look (isBrace_eq htail) ?_)
    cases tail with
    | nil => exact hplain
    | cons brace after =>
      refine .ite .rfl (fun hbrace => ?_) fun _ => hplain
      have happend : front ++ brace :: after = t :: rest := by
        have hcut := cut_append [';', '{', '}'] 0 (t :: rest)
        rwa [show cut [';', '{', '}'] 0 (t :: rest) = (front, brace :: after) from hhead] at hcut
      rw [← happend] at h ⊢
      rw [hfront.limit_eq]
      exact withBody_sim hb room hend hbrace h

theorem statement_sim (room : Room) (hend : stop.isEnd = true)
    (h : Slice tape limit pos (t :: rest) stop) :
    Sim tape (Reached tape limit stop) (Grammar.statement room body' stop t rest)
      (tape.statement room body limit pos) := by
  unfold statement
  refine .look h.peek_eq ?_
  rw [Grammar.statement]
  simp only [List.headD_cons]
  cases hlexeme : t.lexeme with
  | atKeyword name => exact atRule_tracks hb room name hend h.tail
  | _ => exact plainStatement_sim hb room hend h

theorem statements_tracks {room : Room}
    (hs : Grammar.Encloses (fun _ => Shaped) room.levels body') :
    TracksToEnd tape (tape.statements room body) (Grammar.statements room body') := by
  intro limit pos range stop hend h
  induction hn : range.length using Nat.strongRecOn generalizing pos range with
  | ind n ih =>
    rw [statements]
    refine .look h.peek_eq ?_
    cases range with
    | nil =>
      rw [Grammar.statements]
      exact .ok ⟨rfl, h⟩
    | cons t rest =>
      rw [Grammar.statements]
      simp only [List.length_cons] at hn
      simp only [List.headD_cons, h.isEnd_head, Bool.false_or, dif_pos h.remaining_tail_lt]
      refine .ite .rfl (fun _ => .ok ⟨rfl, h⟩) fun _ => .ite .rfl (fun _ => ?_) fun _ => ?_
      · exact (ih _ (by omega) h.tail rfl).wrapMap _
      -- A statement reads its first token at least, so the move comes closer to the limit.
      · have hyields := Grammar.statement_yields shaped_grammatical hs stop t rest
        refine ((statement_sim hb room hend h).yields hyields).bind ?_
        rintro ⟨s, after⟩ ⟨s', pos'⟩ ⟨⟨rfl, hafter⟩, -, hsuffix⟩
        have hlength : after.length ≤ rest.length := hsuffix.length_le
        have hprogress := h.remaining_lt hafter (Nat.lt_succ_of_le hlength)
        simp only at hafter
        simp only [if_pos hlength, dif_pos hprogress]
        exact (ih _ (by omega) hafter rfl).wrapMap _

end Body

section Depth

theorem bodyWith_tracks {deeper : Deeper (Move (List Statement))}
    {deeper' : Deeper (Rule (List Statement))}
    (hd : Deeper.Rel (fun move rule => TracksToEnd tape move rule) deeper deeper') (o : Opening) :
    TracksToEnd tape (tape.bodyWith deeper o) (Grammar.bodyWith deeper' o) := by
  intro limit pos range stop hend h
  refine .look h.peek_eq ?_
  cases range with
  | nil => exact .malformed _ h.stop_mem
  | cons t rest =>
    simp only [List.headD_cons, h.found_eq]
    refine .ite .rfl (fun _ => .malformed _ (h.mem (by simp))) fun _ =>
      (nested_sim hd _ h.tail).bind fun hread => (hread hend h.tail).bind ?_
    rintro ⟨inside, after⟩ ⟨inside', pos'⟩ ⟨rfl, hafter⟩
    refine .look hafter.peek_eq ?_
    cases after with
    | nil => exact .malformed _ h.stop_mem
    | cons u after =>
      simp only [List.headD_cons, hafter.isEnd_head]
      exact .ok ⟨rfl, hafter.tail⟩

theorem body_tracks (room : Room) (o : Opening) :
    TracksToEnd tape (tape.body room o) (Grammar.body room o) := by
  induction room using Room.induction generalizing o with
  | step room ih =>
    rw [body_eq, Grammar.body_eq]
    refine bodyWith_tracks (Room.below_rel fun o inner hinner => ?_) o
    exact statements_tracks (ih o inner hinner) (Grammar.body_encloses shaped_grammatical inner)

end Depth

/-- A tape up to its last token. -/
theorem slice_whole (tape : Tape) :
    Slice tape ((tape.tokens.length : Int) - 1) 0 (splitEnd tape.tokens).1
        (splitEnd tape.tokens).2 ∧
      (splitEnd tape.tokens).2.isEnd = true := by
  obtain ⟨front, stop, htokens, hend, -⟩ := tape.tiled.last_eq
  have hsplit : splitEnd tape.tokens = (front, stop) := by
    rw [htokens, splitEnd_append front (by simp)]
    simp [splitEnd]
  rw [hsplit]
  refine ⟨⟨[], [], by simp [htokens], rfl, ?_⟩, by simp [Token.isEnd, hend]⟩
  simp [htokens]

theorem sheet_sim (tape : Tape) (room : Room) :
    Sim tape (fun a b => b = a)
      (Grammar.sheet room (splitEnd tape.tokens).2 (splitEnd tape.tokens).1)
      (tape.sheet room) := by
  obtain ⟨hslice, hend⟩ := slice_whole tape
  have hbody := Grammar.body_encloses shaped_grammatical room
  refine (statements_tracks (body_tracks room) hbody hend hslice).bind ?_
  rintro ⟨inner, rest⟩ ⟨inner', pos⟩ ⟨rfl, hrest⟩
  refine .look hrest.peek_eq ?_
  cases rest with
  | nil => exact .ok rfl
  | cons t rest =>
    simp only [List.headD_cons, hrest.isEnd_head]
    exact unexpected_sim hrest

end StyleTally.Stylesheet.Tape
