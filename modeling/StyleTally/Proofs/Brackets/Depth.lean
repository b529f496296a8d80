import Mathlib.Algebra.Group.Int.Defs
import StyleTally.Proofs.Brackets.Basic

/-!
# Bracket depth

Where the look-ahead of the grammar ends, told by a depth that is counted once from the start of a
range: round and square brackets count, whatever their types, and braces do not. The parts of a range
lie between the separators at depth zero, although the count begins anew behind each of them.
-/

namespace StyleTally.Stylesheet

namespace Token

def opens (t : Token) : Bool := t.isDelim '(' || t.isDelim '['

def closes (t : Token) : Bool := t.isDelim ')' || t.isDelim ']'

/-- What a token adds to the depth. -/
def rise (t : Token) : Int := if t.opens then 1 else if t.closes then -1 else 0

variable {t : Token}

theorem opens_of_closes (h : t.closes = true) : t.opens = false := by
  simp only [closes, isDelim, Bool.or_eq_true, beq_iff_eq] at h
  rcases h with h | h <;> simp [opens, isDelim, h]

theorem rise_of_opens (h : t.opens = true) : t.rise = 1 := if_pos h

theorem rise_of_closes (h : t.closes = true) : t.rise = -1 := by
  simp [rise, opens_of_closes h, h]

theorem rise_eq (t : Token) :
    t.rise = [t].countP opens - [t].countP closes := by
  cases hopens : t.opens with
  | true =>
    have hcloses : t.closes = false := Bool.eq_false_iff.mpr fun h => by
      rw [opens_of_closes h] at hopens
      cases hopens
    simp [rise, hopens, hcloses]
  | false => cases hcloses : t.closes <;> simp [rise, hopens, hcloses]

theorem closes_of_closerOf {opener : Char} (h : t.isDelim (closerOf opener) = true) :
    t.closes = true := by
  rw [closerOf] at h
  split at h <;> simp [closes, h]

theorem neg_one_le_rise (t : Token) : -1 ≤ t.rise := by
  rw [rise]
  split
  · omega
  · split <;> omega

theorem closes_of_rise_neg (h : t.rise < 0) : t.closes = true := by
  rw [rise] at h
  split at h
  · omega
  · split at h
    · assumption
    · omega

theorem rise_of_isBracket (h : t.isBracket = false) : t.rise = 0 := by
  simp only [isBracket, Bool.or_eq_false_iff] at h
  simp [rise, opens, closes, h]

end Token

/-- The tokens from an index up to another. -/
def between (all : List Token) (start stop : Nat) : List Token := (all.take stop).drop start

/-- The depth in front of an index, counted from a start on: the openers less the closers. -/
def depth (all : List Token) (start index : Nat) : Int :=
  (between all start index).countP Token.opens - (between all start index).countP Token.closes

/-- Up to an index the depth does not fall below zero. -/
def StaysUp (all : List Token) (start index : Nat) : Prop :=
  ∀ j, start ≤ j → j ≤ index → 0 ≤ depth all start j

variable {all : List Token} {t : Token} {c : Char} {start pos stop i j : Nat}

section Between

theorem between_of_le (h : stop ≤ start) : between all start stop = [] := by
  rw [between, List.drop_eq_nil_iff, List.length_take]
  omega

theorem between_eq_cons (h : pos < stop) (ht : all[pos]? = some t) :
    between all pos stop = t :: between all (pos + 1) stop := by
  obtain ⟨hlength, rfl⟩ := List.getElem?_eq_some_iff.mp ht
  have htake : pos < (all.take stop).length := by
    rw [List.length_take]
    omega
  rw [between, List.drop_eq_getElem_cons htake, List.getElem_take]
  rfl

theorem between_succ (h : start ≤ pos) (ht : all[pos]? = some t) :
    between all start (pos + 1) = between all start pos ++ [t] := by
  obtain ⟨hlength, rfl⟩ := List.getElem?_eq_some_iff.mp ht
  have htake : (all.take pos).length = pos := List.length_take_of_le (Nat.le_of_lt hlength)
  rw [between, List.take_succ_eq_append_getElem hlength, List.drop_append_of_le_length (by omega)]
  rfl

theorem depth_self (all : List Token) (start : Nat) : depth all start start = 0 := by
  rw [depth, between_of_le (Nat.le_refl start)]
  rfl

theorem depth_succ (h : start ≤ pos) (ht : all[pos]? = some t) :
    depth all start (pos + 1) = depth all start pos + t.rise := by
  simp only [depth, between_succ h ht, List.countP_append, t.rise_eq]
  omega

theorem StaysUp.refl (all : List Token) (start : Nat) : StaysUp all start start := by
  intro j hj hj'
  obtain rfl : start = j := Nat.le_antisymm hj hj'
  simp [depth_self]

theorem StaysUp.succ (h : StaysUp all start pos) (hdepth : 0 ≤ depth all start (pos + 1)) :
    StaysUp all start (pos + 1) := by
  intro j hj hj'
  by_cases heq : j = pos + 1
  · exact heq ▸ hdepth
  · exact h j hj (by omega)

end Between

section Steps

/-- A look-ahead for one stop ends where the depth is zero, at the stop or at a closer. -/
theorem depthAfter?_single (hc : c ≠ '{' ∧ c ≠ '}') (d : Nat) (t : Token) :
    depthAfter? [c] d t =
      if d = 0 ∧ (t.isDelim c ∨ t.closes) then none else some (d + t.rise).toNat := by
  simp only [depthAfter?, Token.rise, Token.opens, Token.closes, Token.isDelim]
  split
  · rename_i k hk
    simp only [hk, beq_iff_eq, Lexeme.delim.injEq, Bool.or_eq_true, List.contains_cons,
      List.contains_nil, Bool.or_false, Bool.and_eq_true]
    by_cases hbrace : k = '{' ∨ k = '}'
    · have hstop : k ≠ c := by
        rintro rfl
        exact hbrace.elim hc.1 hc.2
      rcases hbrace with rfl | rfl <;> simp [hstop]
    · by_cases hopens : k = '(' ∨ k = '['
      · rcases hopens with rfl | rfl <;> simp
      · by_cases hcloses : k = ')' ∨ k = ']'
        · cases d with
          | zero => rcases hcloses with rfl | rfl <;> simp
          | succ d => rcases hcloses with rfl | rfl <;> simp
        · simp [hbrace, hopens, hcloses]
  · rename_i hnone
    have hdelim (k : Char) : t.lexeme ≠ .delim k := hnone k
    simp [hdelim]

/-- The depth is zero, and there is the stop or a closer. -/
def Cuts (c : Char) (all : List Token) (start index : Nat) : Prop :=
  depth all start index = 0 ∧ ∃ t, all[index]? = some t ∧ (t.isDelim c ∨ t.closes)

/-- The first cut of a range from `pos` on, or its end if there is no cut. The depth is that from
`start` on. -/
structure IsFirstCut (c : Char) (all : List Token) (start pos stop index : Nat) : Prop where
  le : pos ≤ index
  le_stop : index ≤ stop
  up : StaysUp all start index
  not_before : ∀ j, pos ≤ j → j < index → ¬Cuts c all start j
  cuts : index < stop → Cuts c all start index

theorem IsFirstCut.refl (hpos : pos ≤ stop) (hup : StaysUp all start pos)
    (hcuts : pos < stop → Cuts c all start pos) : IsFirstCut c all start pos stop pos where
  le := Nat.le_refl pos
  le_stop := hpos
  up := hup
  not_before := by omega
  cuts := hcuts

theorem IsFirstCut.step (hpos : ¬Cuts c all start pos)
    (h : IsFirstCut c all start (pos + 1) stop i) : IsFirstCut c all start pos stop i where
  le := Nat.le_of_succ_le h.le
  le_stop := h.le_stop
  up := h.up
  not_before j hj hj' := by
    by_cases heq : j = pos
    · exact heq ▸ hpos
    · exact h.not_before j (by omega) hj'
  cuts := h.cuts

theorem cut_between (hc : c ≠ '{' ∧ c ≠ '}') (hstart : start ≤ pos) (hpos : pos ≤ stop)
    (hstop : stop ≤ all.length) (hup : StaysUp all start pos) {d : Nat}
    (hd : depth all start pos = d) :
    ∃ i, IsFirstCut c all start pos stop i ∧
      cut [c] d (between all pos stop) = (between all pos i, between all i stop) := by
  obtain ⟨n, hn⟩ := Nat.exists_eq_add_of_le hpos
  induction n generalizing pos d with
  | zero =>
    obtain rfl : stop = pos := hn
    exact ⟨stop, .refl hpos hup (by omega), by simp [between_of_le, cut]⟩
  | succ n ih =>
    have ht : all[pos]? = some all[pos] := List.getElem?_eq_getElem (by omega)
    generalize all[pos] = t at ht
    rw [between_eq_cons (by omega) ht, cut, depthAfter?_single hc]
    by_cases hend : d = 0 ∧ (t.isDelim c ∨ t.closes)
    · refine ⟨pos, .refl hpos hup fun _ => ⟨by omega, t, ht, hend.2⟩, ?_⟩
      rw [if_pos hend, between_of_le (Nat.le_refl pos), between_eq_cons (by omega) ht]
    · have hleast := t.neg_one_le_rise
      have hrise : 0 ≤ d + t.rise := Int.not_lt.mp fun hneg =>
        hend ⟨by omega, .inr (Token.closes_of_rise_neg (by omega))⟩
      have hnext : depth all start (pos + 1) = ((d + t.rise).toNat : Nat) := by
        rw [depth_succ hstart ht]
        omega
      have hnot : ¬Cuts c all start pos := by
        rintro ⟨hdepth, u, hu, hcuts⟩
        cases ht.symm.trans hu
        exact hend ⟨by omega, hcuts⟩
      obtain ⟨i, hi, hcut⟩ := ih (by omega) (by omega) (hup.succ (by omega)) hnext (by omega)
      have hpos' : pos < i := hi.le
      refine ⟨i, hi.step hnot, ?_⟩
      rw [if_neg hend, between_eq_cons hpos' ht]
      simp only [hcut]

end Steps

section Falls

/-- The first token that takes the depth below zero. -/
structure Falls (all : List Token) (start index : Nat) : Prop where
  le : start ≤ index
  up : StaysUp all start index
  below : depth all start (index + 1) < 0

theorem Falls.depth_eq_zero (h : Falls all start i) (ht : all[i]? = some t) :
    depth all start i = 0 ∧ t.closes = true := by
  have hnonneg := h.up i h.le (Nat.le_refl i)
  have hbelow := h.below
  have hleast := t.neg_one_le_rise
  rw [depth_succ h.le ht] at hbelow
  exact ⟨by omega, Token.closes_of_rise_neg (by omega)⟩

theorem Falls.of_closes (hle : start ≤ i) (hup : StaysUp all start i)
    (hdepth : depth all start i = 0) (ht : all[i]? = some t) (hcloses : t.closes = true) :
    Falls all start i where
  le := hle
  up := hup
  below := by
    rw [depth_succ hle ht, Token.rise_of_closes hcloses]
    omega

theorem Falls.cuts (h : Falls all start i) (hlength : i < all.length) : Cuts c all start i := by
  have ht := List.getElem?_eq_getElem hlength
  obtain ⟨hdepth, hcloses⟩ := h.depth_eq_zero ht
  exact ⟨hdepth, _, ht, .inr hcloses⟩

theorem Falls.unique (hi : Falls all start i) (hj : Falls all start j) : i = j := by
  have hno {k l : Nat} (hk : Falls all start k) (hl : Falls all start l) : ¬k < l := fun hlt => by
    have hbelow := hk.below
    have hnonneg := hl.up (k + 1) (Nat.le_succ_of_le hk.le) hlt
    omega
  exact Nat.le_antisymm (Nat.not_lt.mp (hno hj hi)) (Nat.not_lt.mp (hno hi hj))

end Falls

section Pieces

/-- A separator at depth zero. -/
def Separates (separator : Char) (all : List Token) (start index : Nat) : Prop :=
  depth all start index = 0 ∧ ∃ t, all[index]? = some t ∧ t.isDelim separator

theorem Separates.cuts {separator : Char} (h : Separates separator all start i) :
    Cuts separator all start i := by
  obtain ⟨hdepth, t, ht, hsep⟩ := h
  exact ⟨hdepth, t, ht, .inl hsep⟩

theorem Separates.depth_succ {separator : Char} (hs : (Lexeme.delim separator).isBracket = false)
    (hle : start ≤ i) (h : Separates separator all start i) : depth all start (i + 1) = 0 := by
  obtain ⟨hdepth, t, ht, hsep⟩ := h
  rw [Stylesheet.depth_succ hle ht, hdepth,
    Token.rise_of_isBracket (Token.isBracket_of_isDelim hsep hs), Int.zero_add]

/-- Ranges from `pos` up to `stop` with a separator at depth zero between each and the next, and no
such separator in any of them. The depth is that from `start` on. -/
inductive Parted (separator : Char) (all : List Token) (start stop : Nat) :
    Nat → List (Nat × Nat) → Prop
  | last {pos : Nat} : pos ≤ stop →
      (∀ j, pos ≤ j → j < stop → ¬Separates separator all start j) →
      Parted separator all start stop pos [(pos, stop)]
  | cons {pos i : Nat} {ranges : List (Nat × Nat)} : pos ≤ i → i < stop →
      (∀ j, pos ≤ j → j < i → ¬Separates separator all start j) →
      Separates separator all start i → Parted separator all start stop (i + 1) ranges →
      Parted separator all start stop pos ((pos, i) :: ranges)

/-- A range of tokens with its stop token. -/
def pieceOf (all : List Token) (last : Token) (range : Nat × Nat) : List Token × Token :=
  (between all range.1 range.2, all[range.2]?.getD last)

variable {separator : Char} {last : Token}

theorem pieces_eq (separator : Char) (stop : Token) (ts : List Token) :
    pieces separator stop ts =
      match cut [separator] 0 ts with
      | (part, []) => .ok [(part, stop)]
      | (part, t :: rest) =>
        if t.isDelim separator then (pieces separator stop rest).map ((part, t) :: ·)
        else .error (.malformed (.unexpected (.text t.lexeme.value)) t.line) := by
  rw [pieces]
  split <;> simp only [*]

theorem pieces_between (hs : (Lexeme.delim separator).isBracket = false) (hstart : start ≤ pos)
    (hpos : pos ≤ stop) (hlast : all[stop]? = some last) (hup : StaysUp all start pos)
    (hdepth : depth all start pos = 0) :
    (∃ ranges, Parted separator all start stop pos ranges ∧ StaysUp all start stop ∧
        pieces separator last (between all pos stop) = .ok (ranges.map (pieceOf all last))) ∨
      ∃ i t, i < stop ∧ Falls all start i ∧ all[i]? = some t ∧
        pieces separator last (between all pos stop) =
          .error (.malformed (.unexpected (.text t.lexeme.value)) t.line) := by
  have hbraces : separator ≠ '{' ∧ separator ≠ '}' := by
    constructor <;> rintro rfl <;> cases hs
  induction hn : stop - pos using Nat.strongRecOn generalizing pos with
  | ind n ih =>
    obtain ⟨hlength, -⟩ := List.getElem?_eq_some_iff.mp hlast
    obtain ⟨i, hi, hcut⟩ := cut_between (d := 0) hbraces hstart hpos (by omega) hup hdepth
    have hle : start ≤ i := Nat.le_trans hstart hi.le
    have hnot : ∀ j, pos ≤ j → j < i → ¬Separates separator all start j := fun j hj hj' h =>
      hi.not_before j hj hj' h.cuts
    rw [pieces_eq, hcut]
    by_cases hlt : i < stop
    · obtain ⟨hzero, t, ht, hcuts⟩ := hi.cuts hlt
      rw [between_eq_cons hlt ht]
      by_cases hsep : t.isDelim separator = true
      · -- Behind a separator the depth is zero, so the count that begins anew goes on.
        have hseparates : Separates separator all start i := ⟨hzero, t, ht, hsep⟩
        have hnext := hseparates.depth_succ hs hle
        have hprogress := hi.le
        simp only [if_pos hsep]
        obtain ⟨ranges, hparted, hall, hpieces⟩ | ⟨k, u, hk, hfalls, hu, hpieces⟩ :=
          ih (stop - (i + 1)) (by omega) (by omega) (by omega) (hi.up.succ (by omega)) hnext rfl
        · refine .inl ⟨_, .cons hi.le hlt hnot hseparates hparted, hall, ?_⟩
          rw [hpieces]
          simp [pieceOf, ht, Except.map]
        · refine .inr ⟨k, u, hk, hfalls, hu, ?_⟩
          rw [hpieces]
          rfl
      · have hcloses := hcuts.resolve_left hsep
        exact .inr ⟨i, t, hlt, .of_closes hle hi.up hzero ht hcloses, ht, if_neg hsep⟩
    · obtain rfl : i = stop := Nat.le_antisymm hi.le_stop (Nat.not_lt.mp hlt)
      rw [between_of_le (Nat.le_refl i)]
      refine .inl ⟨_, .last hpos hnot, hi.up, ?_⟩
      simp [pieceOf, hlast]

end Pieces

section Enclosed

/-- The first index behind an opener at which the depth, counted from the opener on, comes back to
zero. -/
structure Returns (all : List Token) (opening index : Nat) : Prop where
  lt : opening < index
  pos : ∀ j, opening < j → j ≤ index → 0 < depth all opening j
  zero : depth all opening (index + 1) = 0

variable {opener : Char} {bracket : Token}

theorem depth_of_opens (ht : all[i]? = some t) (hopens : t.opens = true) (hlt : i < j) :
    depth all i j = depth all (i + 1) j + 1 := by
  have hcons : between all i j = [t] ++ between all (i + 1) j := between_eq_cons hlt ht
  have hrise := Token.rise_of_opens hopens
  rw [t.rise_eq] at hrise
  simp only [depth, hcons, List.countP_append]
  omega

/-- The depth comes back to zero where that of the enclosed tokens falls below. -/
theorem returns_iff_falls (ht : all[i]? = some t) (hopens : t.opens = true) (hj : j < all.length) :
    Returns all i j ↔ Falls all (i + 1) j := by
  have hdepth {k : Nat} (hlt : i < k) := depth_of_opens ht hopens hlt
  constructor
  · intro h
    refine ⟨h.lt, fun k hk hk' => ?_, ?_⟩
    · have hpos := h.pos k hk hk'
      rw [hdepth hk] at hpos
      omega
    · have hlt : i < j + 1 := Nat.lt_succ_of_lt h.lt
      have hzero := h.zero
      rw [hdepth hlt] at hzero
      omega
  · intro h
    have hclose := List.getElem?_eq_getElem hj
    obtain ⟨hzero, hcloses⟩ := h.depth_eq_zero hclose
    refine ⟨h.le, fun k hk hk' => ?_, ?_⟩
    · have hnonneg := h.up k hk hk'
      rw [hdepth hk]
      omega
    · rw [hdepth (Nat.lt_succ_of_lt h.le), depth_succ h.le hclose, hzero,
        Token.rise_of_closes hcloses]
      rfl

theorem enclosed_between (hopener : opener = '(' ∨ opener = '[')
    (hbracket : all[i]? = some bracket) (hdelim : bracket.isDelim opener = true) (hi : i < stop)
    (hstop : stop ≤ all.length) :
    (∃ j close, j < stop ∧ Returns all i j ∧ all[j]? = some close ∧
        close.isDelim (closerOf opener) = true ∧
        enclosed bracket opener (between all (i + 1) stop) =
          .ok (between all (i + 1) j, close, between all (j + 1) stop)) ∨
      (∀ j close, j < stop → Returns all i j → all[j]? = some close →
        close.isDelim (closerOf opener) = false) ∧
      enclosed bracket opener (between all (i + 1) stop) =
        .error (.malformed (.unclosed opener) bracket.line) := by
  have hopens : bracket.opens = true := by
    rcases hopener with rfl | rfl <;> simp [Token.opens, hdelim]
  have hreturns {j : Nat} (hj : j < stop) : Returns all i j ↔ Falls all (i + 1) j :=
    returns_iff_falls hbracket hopens (by omega)
  obtain ⟨j, hj, hcut⟩ := cut_between (d := 0) (closerOf_ne_brace opener) (Nat.le_refl (i + 1)) hi
    hstop (.refl all (i + 1)) (depth_self all (i + 1))
  rw [enclosed, hcut]
  by_cases hlt : j < stop
  · obtain ⟨hzero, t, ht, hcuts⟩ := hj.cuts hlt
    have hcloses : t.closes = true := hcuts.elim Token.closes_of_closerOf id
    have hfalls : Falls all (i + 1) j := .of_closes hj.le hj.up hzero ht hcloses
    rw [between_eq_cons hlt ht]
    by_cases hclose : t.isDelim (closerOf opener) = true
    · exact .inl ⟨j, t, hlt, (hreturns hlt).mpr hfalls, ht, hclose, if_pos hclose⟩
    · refine .inr ⟨fun k close hk hreturn hu => ?_, if_neg hclose⟩
      obtain rfl := hfalls.unique ((hreturns hk).mp hreturn)
      cases ht.symm.trans hu
      exact Bool.eq_false_iff.mpr hclose
  · obtain rfl : j = stop := Nat.le_antisymm hj.le_stop (Nat.not_lt.mp hlt)
    rw [between_of_le (Nat.le_refl j)]
    refine .inr ⟨fun k close hk hreturn _ => ?_, rfl⟩
    have hfalls := (hreturns hk).mp hreturn
    exact absurd (hfalls.cuts (by omega)) (hj.not_before k hfalls.le hk)

end Enclosed

/-- A range is split at its separators at depth zero, all of them and no others, if the depth stays
at zero or above; otherwise the fault is that of the first closer that takes it below. A bracket
encloses what stands in front of the first closer that brings the depth back to zero, if that is of
its type; otherwise it is unclosed. -/
theorem ranges_by_depth (all : List Token) :
    (∀ (separator : Char) (start stop : Nat) (last : Token), separator = ',' ∨ separator = ';' →
      start ≤ stop → all[stop]? = some last →
      (∃ ranges, Parted separator all start stop start ranges ∧ StaysUp all start stop ∧
          pieces separator last (between all start stop) = .ok (ranges.map (pieceOf all last))) ∨
        ∃ i t, i < stop ∧ Falls all start i ∧ all[i]? = some t ∧ t.closes = true ∧
          pieces separator last (between all start stop) =
            .error (.malformed (.unexpected (.text t.lexeme.value)) t.line)) ∧
    ∀ (opener : Char) (i limit : Nat) (bracket : Token), opener = '(' ∨ opener = '[' →
      all[i]? = some bracket → bracket.isDelim opener = true → i < limit → limit ≤ all.length →
      (∃ j close, j < limit ∧ Returns all i j ∧ all[j]? = some close ∧
          close.isDelim (closerOf opener) = true ∧
          enclosed bracket opener (between all (i + 1) limit) =
            .ok (between all (i + 1) j, close, between all (j + 1) limit)) ∨
        (∀ j close, j < limit → Returns all i j → all[j]? = some close →
          close.isDelim (closerOf opener) = false) ∧
        enclosed bracket opener (between all (i + 1) limit) =
          .error (.malformed (.unclosed opener) bracket.line) := by
  constructor
  · intro separator start stop last hseparator hstop hlast
    have hs : (Lexeme.delim separator).isBracket = false := by
      rcases hseparator with rfl | rfl <;> rfl
    obtain hsplit | ⟨i, t, hi, hfalls, ht, herror⟩ :=
      pieces_between hs (Nat.le_refl start) hstop hlast (.refl all start) (depth_self all start)
    · exact .inl hsplit
    · exact .inr ⟨i, t, hi, hfalls, ht, (hfalls.depth_eq_zero ht).2, herror⟩
  · intro opener i limit bracket hopener hbracket hdelim hi hlimit
    exact enclosed_between hopener hbracket hdelim hi hlimit

section Samples

/-- Tokens of one character each, with the end of input behind them. -/
def delimiters (cs : List Char) : List Token :=
  cs.zipIdx.map (fun (c, k) => ⟨.delim c, [], [c], 1, k⟩) ++ [⟨.endOfInput, [], [], 1, cs.length⟩]

/-- A separator in brackets, and one that is not. -/
theorem ranges_by_depth_brackets :
    let all := delimiters ['(', ',', ')', ',', ']']
    (∃ last ranges, all[4]? = some last ∧ Parted ',' all 0 4 0 ranges ∧
      pieces ',' last (between all 0 4) = .ok (ranges.map (pieceOf all last))) ∧
    ∃ bracket j close, all[0]? = some bracket ∧ Returns all 0 j ∧ all[j]? = some close ∧
      enclosed bracket '(' (between all 1 5) =
        .ok (between all 1 j, close, between all (j + 1) 5) := by
  intro all
  obtain ⟨hpieces, henclosed⟩ := ranges_by_depth all
  constructor
  · obtain ⟨ranges, hparted, -, hranges⟩ | ⟨i, t, hi, hfalls, -⟩ :=
      hpieces ',' 0 4 _ (.inl rfl) (by decide) rfl
    · exact ⟨_, ranges, rfl, hparted, hranges⟩
    · have hnonneg : ∀ i < 4, 0 ≤ depth all 0 (i + 1) := by decide
      exact absurd hfalls.below (Int.not_lt.mpr (hnonneg i hi))
  · obtain ⟨j, close, -, hreturns, hclose, -, henclose⟩ | ⟨hnone, -⟩ :=
      henclosed '(' 0 5 _ (.inl rfl) rfl rfl (by decide) (by decide)
    · exact ⟨_, j, close, rfl, hreturns, hclose, henclose⟩
    · have hpos : ∀ j < 3, 0 < j → 0 < depth all 0 j := by decide
      have hreturns : Returns all 0 2 :=
        ⟨by decide, fun j hj hj' => hpos j (by omega) hj, by decide⟩
      cases hnone 2 _ (by decide) hreturns rfl

end Samples

end StyleTally.Stylesheet
