import Mathlib.Data.List.Forall2
import Mathlib.Data.Option.Basic
import StyleTally.Proofs.Cursor.Tape
import StyleTally.Proofs.Shape.Range
import StyleTally.Stylesheet.Grammar.Value

/-!
# Ranges and positions

A position and a limit mark a range of the token list, with the token at the limit as its stop. A
move tracks a rule if on every such range both give the same, and the position that the move reaches
marks what the rule leaves; or both stop at the same fault, on the line of a token of the list. As
the rules cannot halt for another cause, neither can the moves that track them.
-/

namespace StyleTally.Stylesheet.Tape

variable {tape : Tape} {α β γ δ : Type}

/-- The tokens from a position up to a limit, and the token at the limit. -/
structure Slice (tape : Tape) (limit pos : Int) (range : List Token) (stop : Token) : Prop where
  eq : ∃ front back, tape.tokens = front ++ (range ++ stop :: back) ∧ pos = front.length ∧
    limit = pos + range.length

@[simp] theorem ok_bind {ε : Type} (a : α) (f : α → Except ε β) :
    ((Except.ok a : Except ε α) >>= f) = f a :=
  rfl

@[simp] theorem pure_eq_ok {ε : Type} (a : α) : (pure a : Except ε α) = .ok a := rfl

section Tokens

variable (t : Token)

@[simp] theorem isEnd_ended : t.ended.isEnd = true := rfl

@[simp] theorem line_ended : t.ended.line = t.line := rfl

@[simp] theorem spaced_ended : t.ended.spaced = t.spaced := rfl

@[simp] theorem lexeme_ended : t.ended.lexeme = .endOfInput := rfl

@[simp] theorem found_ended : t.ended.found = .endOfInput := rfl

@[simp] theorem isDelim_ended (c : Char) : t.ended.isDelim c = false := rfl

@[simp] theorem isWord_ended (word : String) : t.ended.isWord word = false := rfl

end Tokens

namespace Slice

variable {limit pos : Int} {range rest : List Token} {t u stop : Token}

theorem limit_eq (h : Slice tape limit pos range stop) : limit = pos + range.length := by
  obtain ⟨front, back, -, -, hlimit⟩ := h.eq
  exact hlimit

theorem remaining_eq (h : Slice tape limit pos range stop) :
    remaining limit pos = range.length := by
  have hlimit := h.limit_eq
  rw [remaining]
  omega

/-- Where a rule leaves less, its move comes closer to the limit. -/
theorem remaining_lt {pos' : Int} (h : Slice tape limit pos range stop)
    (h' : Slice tape limit pos' rest stop) (hless : rest.length < range.length) :
    remaining limit pos' < remaining limit pos := by
  rw [h'.remaining_eq, h.remaining_eq]
  exact hless

theorem isEmpty_iff (h : Slice tape limit pos range stop) : range.isEmpty = true ↔ pos = limit := by
  have hlimit := h.limit_eq
  rw [List.isEmpty_iff_length_eq_zero]
  omega

theorem isEmpty_iff_le (h : Slice tape limit pos range stop) :
    range.isEmpty = true ↔ limit ≤ pos := by
  have hlimit := h.limit_eq
  rw [List.isEmpty_iff_length_eq_zero]
  omega

theorem append {us : List Token} (h : Slice tape limit pos (us ++ rest) stop) :
    Slice tape limit (pos + us.length) rest stop := by
  obtain ⟨front, back, htokens, hpos, hlimit⟩ := h.eq
  refine ⟨front ++ us, back, by simp [htokens], by simp [hpos], ?_⟩
  simp only [List.length_append, Int.natCast_add] at hlimit
  omega

theorem drop (h : Slice tape limit pos range stop) {k : Nat} (hk : k ≤ range.length) :
    Slice tape limit (pos + k) (range.drop k) stop := by
  have hslice : Slice tape limit (pos + (range.take k).length) (range.drop k) stop :=
    append (by simpa using h)
  rwa [List.length_take, Nat.min_eq_left hk] at hslice

theorem tail (h : Slice tape limit pos (t :: rest) stop) :
    Slice tape limit (pos + 1) rest stop := by
  have hfront : Slice tape limit pos ([t] ++ rest) stop := h
  exact hfront.append

theorem remaining_tail_lt (h : Slice tape limit pos (t :: rest) stop) :
    remaining limit (pos + 1) < remaining limit pos :=
  h.remaining_lt h.tail (by simp)

theorem tail_two (h : Slice tape limit pos (t :: u :: rest) stop) :
    Slice tape limit (pos + 2) rest stop := by
  have hfront : Slice tape limit pos ([t, u] ++ rest) stop := h
  exact hfront.append

theorem upTo {us : List Token} (h : Slice tape limit pos (us ++ rest) stop) :
    Slice tape (pos + us.length) pos us (rest.headD stop) := by
  obtain ⟨front, back, htokens, hpos, -⟩ := h.eq
  cases rest with
  | nil => exact ⟨front, back, by simpa using htokens, hpos, rfl⟩
  | cons t rest => exact ⟨front, rest ++ stop :: back, by simp [htokens], hpos, rfl⟩

/-- The tokens between two indices. -/
theorem tokens_eq (h : Slice tape limit pos range stop) :
    (tape.tokens.take limit.toNat).drop pos.toNat = range := by
  obtain ⟨front, back, htokens, hpos, hlimit⟩ := h.eq
  have hfront : pos.toNat = front.length := by omega
  have hend : limit.toNat = (front ++ range).length := by
    simp only [List.length_append]
    omega
  rw [htokens, hend, hfront, ← List.append_assoc, List.take_left, List.drop_left]

theorem stop_mem (h : Slice tape limit pos range stop) : stop ∈ tape.tokens := by
  obtain ⟨front, back, htokens, -⟩ := h.eq
  simp [htokens]

theorem mem (h : Slice tape limit pos range stop) (ht : t ∈ range) : t ∈ tape.tokens := by
  obtain ⟨front, back, htokens, -⟩ := h.eq
  simp [htokens, ht]

/-- Only the last token of a tape stands for the end of input. -/
theorem isEnd_eq (h : Slice tape limit pos range stop) (ht : t ∈ range) : t.isEnd = false := by
  obtain ⟨front, back, htokens, -⟩ := h.eq
  obtain ⟨init, last, hlast, -, -, -, hinit⟩ := tape.tiled.last_eq
  have hmem : t ∈ init := by
    have hdrop : tape.tokens.dropLast = init := by rw [hlast, List.dropLast_concat]
    rw [← hdrop, htokens, List.dropLast_append_of_ne_nil (by simp)]
    refine List.mem_append_right _ ?_
    rw [List.dropLast_append_of_ne_nil (by simp)]
    exact List.mem_append_left _ ht
  simpa [Token.isEnd] using (hinit t hmem).1

theorem isEnd_head (h : Slice tape limit pos (t :: rest) stop) : t.isEnd = false :=
  h.isEnd_eq (by simp)

theorem found_eq (h : Slice tape limit pos (t :: rest) stop) : t.found = foundAt (t :: rest) := by
  simp [Token.found, foundAt, h.isEnd_head]

theorem tokenAt_eq (h : Slice tape limit pos range stop) :
    tape.tokenAt pos = .ok (range.headD stop) := by
  obtain ⟨front, back, htokens, hpos, -⟩ := h.eq
  have hget : tape.tokens[pos.toNat]? = some (range.headD stop) := by
    rw [htokens, hpos, Int.toNat_natCast, List.getElem?_append_right (Nat.le_refl _), Nat.sub_self]
    cases range <;> rfl
  have hnonneg : ¬pos < 0 := by omega
  rw [tokenAt, if_neg hnonneg, hget]

theorem tokenAt_limit (h : Slice tape limit pos range stop) : tape.tokenAt limit = .ok stop := by
  have hend : Slice tape limit (pos + range.length) [] stop := append (by simpa using h)
  rw [h.limit_eq]
  exact hend.tokenAt_eq

/-- What stands at a position: the token there, or the end of input at the limit. -/
theorem peek_eq (h : Slice tape limit pos range stop) :
    tape.peek limit pos = .ok (range.headD stop.ended) := by
  have hlimit := h.limit_eq
  rw [peek]
  cases range with
  | nil =>
    rw [if_pos (by simp [hlimit]), h.tokenAt_limit]
    rfl
  | cons t rest =>
    rw [if_neg (by simp only [List.length_cons] at hlimit; omega)]
    exact h.tokenAt_eq

theorem peek_nil (h : Slice tape limit pos [] stop) : tape.peek limit pos = .ok stop.ended :=
  h.peek_eq

theorem peek_cons (h : Slice tape limit pos (t :: rest) stop) : tape.peek limit pos = .ok t :=
  h.peek_eq

/-- From the limit on there is nothing but the end of input. -/
theorem peek_of_le (h : Slice tape limit pos range stop) {index : Int} (hindex : limit ≤ index) :
    tape.peek limit index = .ok stop.ended := by
  rw [peek, if_pos hindex, h.tokenAt_limit]
  rfl

/-- What stands so many tokens ahead. -/
theorem peek_ahead (h : Slice tape limit pos range stop) (k : Nat) :
    tape.peek limit (pos + k) = .ok ((range.drop k).headD stop.ended) := by
  rcases Nat.lt_or_ge k range.length with hk | hk
  · exact (h.drop (Nat.le_of_lt hk)).peek_eq
  · rw [List.drop_eq_nil_of_le hk]
    have hlimit := h.limit_eq
    exact h.peek_of_le (by omega)

theorem peek_one (h : Slice tape limit pos range stop) :
    tape.peek limit (pos + 1) = .ok ((range.drop 1).headD stop.ended) :=
  h.peek_ahead 1

theorem peek_two (h : Slice tape limit pos range stop) :
    tape.peek limit (pos + 2) = .ok ((range.drop 2).headD stop.ended) :=
  h.peek_ahead 2

theorem peek_three (h : Slice tape limit pos range stop) :
    tape.peek limit (pos + 3) = .ok ((range.drop 3).headD stop.ended) :=
  h.peek_ahead 3

theorem next_nil (h : Slice tape limit pos [] stop) :
    tape.next limit pos = .ok (stop.ended, pos) := by
  rw [next, h.peek_nil]
  rfl

theorem next_cons (h : Slice tape limit pos (t :: rest) stop) :
    tape.next limit pos = .ok (t, pos + 1) := by
  rw [next, h.peek_cons]
  simp [h.isEnd_head]

section Spelled

variable {source : List Char} {front back us : List Token} {i j k : Nat}

theorem slice_append_slice (hij : i ≤ j) (hjk : j ≤ k) :
    slice source i j ++ slice source j k = slice source i k := by
  have hsum : k - i = (j - i) + (k - j) := by omega
  have hdrop : source.drop j = (source.drop i).drop (j - i) := by
    rw [List.drop_drop, Nat.add_sub_cancel' hij]
  simp only [slice, List.drop_take]
  rw [hsum, List.take_add, hdrop]

/-- The text that tokens of a tape span is the text between its two ends. -/
theorem spannedChars_eq (tape : Tape) {last : Token} (hlast : (t :: us).getLast? = some last)
    (htokens : tape.tokens = front ++ (t :: us ++ back)) :
    t.start ≤ last.stop ∧
      slice tape.source.toList t.start last.stop = spannedChars (t :: us) := by
  induction us generalizing front t with
  | nil =>
    obtain rfl : t = last := by simpa using hlast
    have htile := tape.tiled.tile front t back htokens
    exact ⟨Nat.le_add_right _ _, by simpa [spannedChars] using htile.text_eq.symm⟩
  | cons u us ih =>
    have hu : tape.tokens = (front ++ [t]) ++ (u :: us ++ back) := by simp [htokens]
    obtain ⟨hle, hrest⟩ := ih (by simpa using hlast) hu
    have ht := tape.tiled.tile front t (u :: us ++ back) htokens
    have hgap := tape.tiled.tile (front ++ [t]) u (us ++ back) hu
    have hcovered : reached 0 (front ++ [t]) = t.stop := by simp [reached]
    have hbefore : t.stop ≤ u.start := hcovered ▸ hgap.covered_le
    have hwithin : t.start ≤ t.stop := Nat.le_add_right _ _
    refine ⟨by omega, ?_⟩
    rw [← slice_append_slice hwithin (by omega), ← ht.text_eq,
      ← slice_append_slice hbefore hle, ← hcovered, ← hgap.gap_eq, hrest]
    simp [spannedChars]

end Spelled

end Slice

/-- The text from a position on is that of the tokens there. -/
theorem spelled_eq {limit pos : Int} (us rest : List Token) {stop : Token}
    (h : Slice tape limit pos (us ++ rest) stop) (hus : us ≠ []) :
    tape.spelled pos (pos + us.length) = .ok (Grammar.textOf us) := by
  obtain ⟨t, vs, rfl⟩ := List.exists_cons_of_ne_nil hus
  obtain ⟨last, hlast⟩ : ∃ last, (t :: vs).getLast? = some last :=
    ⟨_, List.getLast?_eq_getLast_of_ne_nil hus⟩
  obtain ⟨front, back, htokens, -⟩ := h.eq
  obtain ⟨-, htext⟩ := Slice.spannedChars_eq tape hlast
    (show tape.tokens = front ++ (t :: vs ++ (rest ++ stop :: back)) by
      rw [htokens, List.append_assoc])
  have hinit : t :: vs = (t :: vs).dropLast ++ [last] := by
    rw [List.dropLast_append_getLast?]
    exact hlast
  have hstop : Slice tape limit (pos + (t :: vs).dropLast.length) ([last] ++ rest) stop := by
    refine Slice.append ?_
    rw [← List.append_assoc, ← hinit]
    exact h
  have hindex : pos + ((t :: vs).length : Int) - 1 = pos + (t :: vs).dropLast.length := by
    simp only [List.length_dropLast, List.length_cons, Nat.add_sub_cancel]
    omega
  rw [spelled, h.tokenAt_eq, hindex, hstop.tokenAt_eq]
  simp only [List.cons_append, List.headD_cons, ok_bind, pure_eq_ok]
  rw [Grammar.textOf, ← htext]

theorem spelled_whole {limit pos : Int} {range : List Token} {stop : Token}
    (h : Slice tape limit pos range stop) (hrange : range ≠ []) :
    tape.spelled pos limit = .ok (Grammar.textOf range) := by
  rw [h.limit_eq]
  exact spelled_eq range [] (by simpa using h) hrange

/-- Both give what `R` relates, or both stop at the same fault, on the line of a token if on any. -/
inductive Sim (tape : Tape) (R : α → β → Prop) : Except Fault α → Except Halt β → Prop
  | ok {a : α} {b : β} (h : R a b) : Sim tape R (.ok a) (.ok b)
  | refused {fault : Fault} (h : ∀ line ∈ fault.line?, ∃ t ∈ tape.tokens, t.line = line) :
      Sim tape R (.error fault) (.error (.refused fault))

namespace Sim

variable {R : α → β → Prop} {Q : γ → δ → Prop} {x : Except Fault α} {y : Except Halt β}

theorem bind {f : α → Except Fault γ} {g : β → Except Halt δ} (h : Sim tape R x y)
    (hf : ∀ {a b}, R a b → Sim tape Q (f a) (g b)) : Sim tape Q (x >>= f) (y >>= g) := by
  cases h with
  | ok h => exact hf h
  | refused h => exact .refused h

/-- Two steps of the rule are one of the move. -/
theorem bind_bind {ι : Type} {x : Except Fault ι} {k : ι → Except Fault α}
    {f : α → Except Fault γ} {g : β → Except Halt δ} (h : Sim tape R (x >>= k) y)
    (hf : ∀ {a b}, R a b → Sim tape Q (f a) (g b)) :
    Sim tape Q (x >>= fun i => k i >>= f) (y >>= g) := by
  rw [← bind_assoc]
  exact h.bind hf

theorem map {f : α → γ} {g : β → δ} (h : Sim tape R x y) (hf : ∀ {a b}, R a b → Q (f a) (g b)) :
    Sim tape Q (x.map f) (y.map g) := by
  cases h with
  | ok h => exact .ok (hf h)
  | refused h => exact .refused h

/-- A look at the tokens which only the move takes. -/
theorem look {z : Except Halt γ} {c : γ} {g : γ → Except Halt β} (hz : z = .ok c)
    (h : Sim tape R x (g c)) : Sim tape R x (z >>= g) := by
  rw [hz]
  exact h

/-- A last step which only the move takes. -/
theorem last {R' : α → γ → Prop} {g : β → Except Halt γ} (h : Sim tape R x y)
    (hg : ∀ {a b}, R a b → ∃ c, g b = .ok c ∧ R' a c) : Sim tape R' x (y >>= g) := by
  cases h with
  | ok h =>
    obtain ⟨c, hc, hac⟩ := hg h
    rw [ok_bind, hc]
    exact .ok hac
  | refused h => exact .refused h

/-- Both ask the same. -/
theorem ite {p q : Prop} [Decidable p] [Decidable q] {x' : Except Fault α} {y' : Except Halt β}
    (hpq : p ↔ q) (h : p → Sim tape R x y) (h' : ¬p → Sim tape R x' y') :
    Sim tape R (if p then x else x') (if q then y else y') := by
  by_cases hp : p
  · rw [if_pos hp, if_pos (hpq.mp hp)]
    exact h hp
  · rw [if_neg hp, if_neg (fun hq => hp (hpq.mpr hq))]
    exact h' hp

/-- What the rule gives is known, so that its relation to the move can use it. -/
theorem yields {P : α → Prop} (h : Sim tape R x y) (hx : Yields P x) :
    Sim tape (fun a b => R a b ∧ P a) x y := by
  cases h with
  | ok h => exact .ok ⟨h, hx⟩
  | refused h => exact .refused h

theorem malformed {t : Token} (cause : Cause) (ht : t ∈ tape.tokens) :
    Sim tape R (.error (.malformed cause t.line)) (refuse cause t) :=
  .refused (by rintro _ ⟨⟩; exact ⟨t, ht, rfl⟩)

theorem tooDeep {t : Token} (ht : t ∈ tape.tokens) :
    Sim tape R (.error (.tooDeep t.line)) (.error (.refused (.tooDeep t.line))) :=
  .refused (by rintro _ ⟨⟩; exact ⟨t, ht, rfl⟩)

theorem overflow : Sim tape R (.error .overflow) (.error (.refused .overflow)) :=
  .refused (by rintro _ ⟨⟩)

end Sim

/-- What a rule gives and leaves, beside what a move gives and the position that it reaches. -/
def Reached (tape : Tape) (limit : Int) (stop : Token) (p : α × List Token) (q : α × Int) : Prop :=
  q.1 = p.1 ∧ Slice tape limit q.2 p.2 stop

section Wrapped

variable {limit : Int} {stop : Token} {x : Except Fault (α × List Token)}
  {y : Except Halt (α × Int)} (f : α → γ)

/-- What is read goes into something greater. -/
theorem Sim.wrap (h : Sim tape (Reached tape limit stop) x y) :
    Sim tape (Reached tape limit stop) (x >>= fun p => .ok (f p.1, p.2))
      (y >>= fun q => .ok (f q.1, q.2)) := by
  refine h.bind ?_
  rintro ⟨a, rest⟩ ⟨a', pos⟩ ⟨rfl, hrest⟩
  exact .ok ⟨rfl, hrest⟩

theorem Sim.wrapMap (h : Sim tape (Reached tape limit stop) x y) :
    Sim tape (Reached tape limit stop) (x.map fun p => (f p.1, p.2))
      (y.map fun q => (f q.1, q.2)) := by
  refine h.map ?_
  rintro ⟨a, rest⟩ ⟨a', pos⟩ ⟨rfl, hrest⟩
  exact ⟨rfl, hrest⟩

end Wrapped

/-- A move that does by position what a rule does. -/
def Tracks (tape : Tape) (move : Move α) (rule : Rule α) : Prop :=
  ∀ {limit pos : Int} {range : List Token} {stop : Token}, Slice tape limit pos range stop →
    Sim tape (Reached tape limit stop) (rule stop range) (move limit pos)

section Ranges

variable {limit pos : Int} {range : List Token} {stop : Token}

theorem unexpected_sim {R : α → β → Prop} (h : Slice tape limit pos range stop) :
    Sim tape R (.error (unexpectedAt stop range)) (refuseToken (range.headD stop.ended)) := by
  cases range with
  | nil => exact .malformed _ h.stop_mem
  | cons t rest =>
    rw [List.headD_cons, refuseToken, h.found_eq]
    exact .malformed _ (h.mem (by simp))

/-- A fault on the line of what stands at a position. -/
theorem refuse_sim {R : α → β → Prop} (cause : Cause) (h : Slice tape limit pos range stop) :
    Sim tape R (.error (.malformed cause (lineAt stop range)))
      (refuse cause (range.headD stop.ended)) := by
  cases range with
  | nil => exact .malformed cause h.stop_mem
  | cons t rest => exact .malformed cause (h.mem (by simp))

/-- The scan stops where the range is cut. -/
theorem scan_eq (stops : List Char) (depth : Nat) (h : Slice tape limit pos range stop) :
    tape.scan stops depth limit pos = .ok (pos + (cut stops depth range).1.length) := by
  induction range generalizing depth pos with
  | nil =>
    have hlimit := h.limit_eq
    rw [scan, dif_pos (by simp [hlimit])]
    simp [cut, hlimit]
  | cons t rest ih =>
    have hlimit := h.limit_eq
    simp only [List.length_cons] at hlimit
    rw [scan, dif_neg (by omega), h.tokenAt_eq]
    simp only [ok_bind, List.headD_cons, cut]
    cases depthAfter? stops depth t with
    | none => simp
    | some next =>
      simp only [ih next h.tail, List.length_cons, Int.natCast_add]
      congr 1
      omega

/-- The scan takes a range apart. -/
theorem scan_slices (stops : List Char) (h : Slice tape limit pos range stop)
    {front tail : List Token} (hcut : cut stops 0 range = (front, tail)) :
    ∃ index, tape.scan stops 0 limit pos = .ok index ∧
      Slice tape index pos front (tail.headD stop) ∧ Slice tape limit index tail stop := by
  have hscan := scan_eq stops 0 h
  have happend := cut_append stops 0 range
  rw [hcut] at hscan happend
  rw [← happend] at h
  exact ⟨_, hscan, h.upTo, h.append⟩

/-- What a bracket encloses, beside the index of its closer. -/
structure EnclosedAt (tape : Tape) (limit index : Int) (range : List Token) (stop : Token)
    (p : List Token × Token × List Token) (close : Int) : Prop where
  range_eq : range = p.1 ++ p.2.1 :: p.2.2
  close_eq : close = index + 1 + p.1.length
  inner : Slice tape close (index + 1) p.1 p.2.1
  after : Slice tape limit (close + 1) p.2.2 stop

theorem closing_sim {bracket : Token} {opener : Char} {rest : List Token}
    (hbracket : bracket.isDelim opener = true) (hopener : opener = '(' ∨ opener = '[')
    (h : Slice tape limit pos (bracket :: rest) stop) :
    Sim tape (EnclosedAt tape limit pos rest stop) (enclosed bracket opener rest)
      (tape.closing limit pos) := by
  have hmem : bracket ∈ tape.tokens := h.mem (by simp)
  have hchosen : openerOf bracket = opener := by
    simp only [Token.isDelim, beq_iff_eq] at hbracket
    rcases hopener with rfl | rfl <;> simp [openerOf, Token.isDelim, hbracket]
  have hscan := scan_eq [closerOf opener] 0 h.tail
  have happend := cut_append [closerOf opener] 0 rest
  unfold closing
  refine .look h.tokenAt_eq ?_
  simp only [List.headD_cons, hchosen]
  refine .look hscan ?_
  unfold enclosed
  generalize cut [closerOf opener] 0 rest = p at happend
  obtain ⟨inner, tail⟩ := p
  have hlimit := h.tail.limit_eq
  rw [← happend] at hlimit
  simp only [List.length_append, Int.natCast_add] at hlimit
  have htail : Slice tape limit (pos + 1) (inner ++ tail) stop := by
    rw [happend]
    exact h.tail
  cases tail with
  | nil =>
    rw [if_pos (by simp only [List.length_nil, Int.natCast_zero] at hlimit; simp only; omega)]
    exact .malformed _ hmem
  | cons close after =>
    simp only [List.length_cons, Int.natCast_add] at hlimit
    rw [if_neg (by simp only; omega)]
    refine .look htail.append.tokenAt_eq ?_
    simp only [List.headD_cons]
    by_cases hclose : close.isDelim (closerOf opener) = true
    · simp only [hclose, if_true]
      exact .ok ⟨happend.symm, rfl, htail.upTo, htail.append.tail⟩
    · simp only [hclose]
      exact .malformed _ hmem

/-- A part of a range beside its first index and the one behind its last. -/
def PieceAt (tape : Tape) (p : List Token × Token) (q : Int × Int) : Prop :=
  Slice tape q.2 q.1 p.1 p.2

theorem split_sim (separator : Char) (h : Slice tape limit pos range stop) :
    Sim tape (List.Forall₂ (PieceAt tape)) (pieces separator stop range)
      (tape.split separator limit pos) := by
  induction hn : range.length using Nat.strongRecOn generalizing pos range with
  | ind n ih =>
    have hscan := scan_eq [separator] 0 h
    have happend := cut_append [separator] 0 range
    rw [pieces, split]
    refine .look hscan ?_
    generalize cut [separator] 0 range = p at happend
    obtain ⟨part, tail⟩ := p
    rw [← happend] at h hn
    have hlimit := h.limit_eq
    simp only [List.length_append, Int.natCast_add] at hlimit hn
    cases tail with
    | nil =>
      simp only [List.length_nil, Int.natCast_zero] at hlimit
      rw [List.append_nil] at h
      rw [if_pos (by simp only; omega)]
      exact .ok (.cons h .nil)
    | cons t rest =>
      simp only [List.length_cons, Int.natCast_add] at hlimit hn
      have hrest : Slice tape limit (pos + part.length + 1) rest stop := h.append.tail
      rw [if_neg (by simp only; omega)]
      refine .look h.append.tokenAt_eq ?_
      simp only [List.headD_cons]
      by_cases ht : t.isDelim separator = true
      · have hprogress := h.remaining_lt hrest (by simp; omega)
        simp only [ht, if_true, Bool.not_true, Bool.false_eq_true, if_false, hprogress, dite_true]
        exact (ih _ (by omega) hrest rfl).map fun hps => .cons h.upTo hps
      · simp only [ht, Bool.not_false, if_true]
        exact unexpected_sim h.append

end Ranges

section Moves

variable {limit pos : Int} {range : List Token} {stop : Token} {move : Move α} {rule : Rule α}

theorem within_sim (hm : Tracks tape move rule) (h : Slice tape limit pos range stop) :
    Sim tape (fun a b => b = a) (whole rule stop range) (tape.within move pos limit) := by
  refine (hm h).bind ?_
  rintro ⟨a, rest⟩ ⟨b, after⟩ ⟨rfl, hrest⟩
  refine .look hrest.peek_eq ?_
  cases rest with
  | nil => exact .ok rfl
  | cons t rest =>
    simp only [List.headD_cons, hrest.isEnd_head]
    exact unexpected_sim hrest

/-- A move that reads to the limit does by position what a reading of a whole range does. -/
def TracksWhole (tape : Tape) (move : Move α) (read : Token → List Token → Except Fault α) : Prop :=
  ∀ {limit pos : Int} {range : List Token} {stop : Token}, Slice tape limit pos range stop →
    Sim tape (fun a b => b = (a, limit)) (read stop range) (move limit pos)

theorem within_whole {read : Token → List Token → Except Fault α} (hm : TracksWhole tape move read)
    (h : Slice tape limit pos range stop) :
    Sim tape (fun a b => b = a) (read stop range) (tape.within move pos limit) := by
  have hsim := hm h
  rw [within]
  generalize read stop range = x at hsim
  generalize move limit pos = y at hsim
  cases hsim with
  | ok hab =>
    subst hab
    exact .look rfl (.look (h.peek_of_le (Int.le_refl limit)) (.ok rfl))
  | refused hline => exact .refused hline

theorem eachRange_sim {read : Token → List Token → Except Fault α}
    {readAt : Int → Int → Except Halt α}
    (hr : ∀ {limit pos range stop}, Slice tape limit pos range stop →
      Sim tape (fun a b => b = a) (read stop range) (readAt pos limit))
    {ps : List (List Token × Token)} {qs : List (Int × Int)}
    (h : List.Forall₂ (PieceAt tape) ps qs) :
    Sim tape (fun as bs => bs = as) (eachPiece read ps) (Move.eachRange readAt qs) := by
  induction h with
  | nil => exact .ok rfl
  | cons hp _ ih =>
    refine (hr hp).bind ?_
    rintro a b rfl
    refine ih.bind ?_
    rintro as bs rfl
    exact .ok rfl

theorem commaSeparated_whole {read : Token → List Token → Except Fault α}
    {readAt : Int → Int → Except Halt α} (missing : Cause)
    (hr : ∀ {limit pos range stop}, Slice tape limit pos range stop →
      Sim tape (fun a b => b = a) (read stop range) (readAt pos limit)) :
    TracksWhole tape (tape.commaSeparated missing readAt) fun stop range =>
      if range.isEmpty then .error (.malformed missing stop.line)
      else (pieces ',' stop range).bind (eachPiece read) := by
  intro limit pos range stop h
  refine .ite h.isEmpty_iff (fun hempty => .look h.peek_eq ?_) fun _ =>
    (split_sim ',' h).bind fun hparts => (eachRange_sim hr hparts).last ?_
  · rw [List.isEmpty_iff.mp hempty] at h ⊢
    exact refuse_sim _ h
  · rintro as bs rfl
    exact ⟨_, rfl, rfl⟩

/-- Joining tokens that are found by position as in a range, and are read. -/
def JoinsAt (tape : Tape)
    (joinAt? : Int → Int → Except Halt (Option ((α → α → α) × Int)))
    (join? : Token → List Token → Option ((α → α → α) × List Token)) : Prop :=
  ∀ {limit pos : Int} {range : List Token} {stop : Token}, Slice tape limit pos range stop →
    ∃ found, joinAt? limit pos = .ok found ∧
      Option.Rel (fun p q => Reached tape limit stop p q ∧ p.2.length < range.length)
        (join? stop range) found

/-- A rule that leaves less than it is given. -/
def Advances (rule : Rule α) : Prop :=
  ∀ stop range, Yields (fun (_, rest) => rest.length < range.length) (rule stop range)

theorem advances_of_reads {P : α → Prop} (h : Reads P rule) : Advances rule :=
  fun stop range => (h stop range).mono fun h => h.2.length_lt

theorem chain_sim {joinAt? : Int → Int → Except Halt (Option ((α → α → α) × Int))}
    {join? : Token → List Token → Option ((α → α → α) × List Token)}
    (hj : JoinsAt tape joinAt? join?) (hm : Tracks tape move rule) (ha : Advances rule) (left : α)
    (h : Slice tape limit pos range stop) :
    Sim tape (Reached tape limit stop) (chain join? rule left stop range)
      (Move.chain joinAt? move left limit pos) := by
  -- What is left is shorter by the operand, which `ha` says is not empty.
  induction hn : range.length using Nat.strongRecOn generalizing left pos range with
  | ind n ih =>
    obtain ⟨found, hfound, hrel⟩ := hj h
    rw [chain, Move.chain]
    refine .look hfound ?_
    generalize join? stop range = p at hrel
    cases hrel with
    | none => exact .ok ⟨rfl, h⟩
    | @some p q hpq =>
      obtain ⟨join, rest⟩ := p
      obtain ⟨join', index⟩ := q
      obtain ⟨⟨hjoin, hrest⟩, hshorter⟩ := hpq
      simp only at hjoin hrest hshorter
      subst hjoin
      refine ((hm hrest).yields (ha stop rest)).bind ?_
      rintro ⟨right, after⟩ ⟨right', pos'⟩ ⟨⟨rfl, hafter⟩, hless⟩
      simp only at hafter hless
      have hlength : after.length < range.length := by omega
      simp only [if_pos hlength, dif_pos (h.remaining_lt hafter hlength)]
      exact ih _ (by omega) _ hafter rfl

theorem chained_tracks {joinAt? : Int → Int → Except Halt (Option ((α → α → α) × Int))}
    {join? : Token → List Token → Option ((α → α → α) × List Token)}
    (hj : JoinsAt tape joinAt? join?) (hm : Tracks tape move rule) (ha : Advances rule) :
    Tracks tape (Move.chained joinAt? move) (chained join? rule) := by
  intro limit pos range stop h
  refine (hm h).bind ?_
  rintro ⟨left, rest⟩ ⟨left', after⟩ ⟨rfl, hrest⟩
  exact chain_sim hj hm ha _ hrest

theorem nested_sim {R : α → β → Prop} {deeper : Deeper α} {deeper' : Deeper β}
    (hd : Deeper.Rel R deeper deeper') (o : Opening) (h : Slice tape limit pos range stop) :
    Sim tape (fun rule move => R move rule) (enter deeper' o (lineAt stop range))
      (tape.nested deeper o limit pos) := by
  have ho := hd o
  unfold enter nested
  generalize deeper o = x at ho
  generalize deeper' o = y at ho
  cases ho with
  | opened hm => exact .ok hm
  | short shortage =>
    cases shortage with
    | levels =>
      refine .look h.peek_eq ?_
      cases range with
      | nil => exact .tooDeep h.stop_mem
      | cons t rest => exact .tooDeep (h.mem (by simp))
    | calls => exact .overflow

end Moves

end StyleTally.Stylesheet.Tape
