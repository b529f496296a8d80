import Mathlib.Data.Option.Basic
import StyleTally.Proofs.Likeness.Tree
import StyleTally.Stylesheet.Grammar.Selector

/-!
# Ranges that are alike

Two token lists are alike when their tokens agree one by one in all that a rule of the grammar
looks at: rules then give trees that are alike, or the same fault on corresponding lines. A likeness
says what may differ: the lines, the texts that are cut from the source, and, when it is lenient,
the levels of nesting that are left on the right; and whether the stack may be too small. Here are
the laws of token ranges; each holds of the rules that are built on it as soon as it holds of their
parts.
-/

namespace StyleTally.Stylesheet

/-- Tokens that may be cut from the source for such an excerpt. -/
def Excerpt.Spans : Excerpt → List Token → Prop
  | pseudo, ts => startsWithDelim ':' ts
  | signs, ts => ∀ t ∈ ts, Grammar.isAttributeSign t
  | brackets, ts => startsWithDelim '[' ts
  | _, _ => True

structure Likeness where
  token : Token → Token → Prop
  line : Nat → Nat → Prop
  /-- Between texts that are cut from the source as they stand. -/
  text : Excerpt → String → String → Prop
  /-- Whether a reading that runs out of levels is like any other. -/
  lenient : Prop
  /-- Whether a reading may run out of the calls that the stack holds. -/
  exhaustible : Prop
  lexeme_eq {t u : Token} : token t u → t.lexeme = u.lexeme
  spaced_eq {t u : Token} : token t u → t.spaced = u.spaced
  line_of {t u : Token} : token t u → line t.line u.line
  text_of {kind : Excerpt} {ts us : List Token} (h : kind.Spans ts) :
    List.Forall₂ token ts us → text kind (Grammar.textOf ts) (Grammar.textOf us)

namespace Likeness

variable (L : Likeness) {α β : Type}

abbrev Tokens : List Token → List Token → Prop := List.Forall₂ L.token

/-- Both give what `R` relates, or both fail for the same cause on corresponding lines. -/
inductive Results (R : α → α → Prop) : Except Fault α → Except Fault α → Prop
  | ok {a b : α} (h : R a b) : Results R (.ok a) (.ok b)
  | malformed (cause : Cause) {l m : Nat} (h : L.line l m) :
      Results R (.error (.malformed cause l)) (.error (.malformed cause m))
  | tooDeep {l m : Nat} (h : L.line l m) :
      Results R (.error (.tooDeep l)) (.error (.tooDeep m))
  | overflow (h : L.exhaustible) : Results R (.error .overflow) (.error .overflow)
  | lenient (h : L.lenient) (l : Nat) (y : Except Fault α) : Results R (.error (.tooDeep l)) y

def Read (R : α → α → Prop) : α × List Token → α × List Token → Prop
  | (a, rest), (b, rest') => R a b ∧ L.Tokens rest rest'

/-- Both find what `R` relates at the front of a range, or neither finds anything. -/
abbrev Found (R : α → α → Prop) : Option (α × List Token) → Option (α × List Token) → Prop :=
  Option.Rel (L.Read R)

def Rules (R : α → α → Prop) (r s : Rule α) : Prop :=
  ∀ {stop stop' : Token} {ts us : List Token}, L.token stop stop' → L.Tokens ts us →
    L.Results (L.Read R) (r stop ts) (s stop' us)

variable {L} {R : α → α → Prop} {Q : β → β → Prop}

namespace Results

variable {x y : Except Fault α}

theorem bind {f g : α → Except Fault β} (h : L.Results R x y)
    (hf : ∀ {a b}, R a b → L.Results Q (f a) (g b)) : L.Results Q (x >>= f) (y >>= g) := by
  cases h with
  | ok h => exact hf h
  | malformed cause h => exact .malformed cause h
  | tooDeep h => exact .tooDeep h
  | overflow h => exact .overflow h
  | lenient h l y => exact .lenient h l _

theorem map {f g : α → β} (h : L.Results R x y) (hf : ∀ {a b}, R a b → Q (f a) (g b)) :
    L.Results Q (x.map f) (y.map g) := by
  cases h with
  | ok h => exact .ok (hf h)
  | malformed cause h => exact .malformed cause h
  | tooDeep h => exact .tooDeep h
  | overflow h => exact .overflow h
  | lenient h l y => exact .lenient h l _

end Results

section Tokens

variable {t u : Token} {ts us : List Token} {stop stop' : Token}

theorem isDelim_eq (h : L.token t u) (c : Char) : t.isDelim c = u.isDelim c := by
  simp only [Token.isDelim, L.lexeme_eq h]

theorem isWord_eq (h : L.token t u) (word : String) : t.isWord word = u.isWord word := by
  simp only [Token.isWord, L.lexeme_eq h]

theorem lineAt (hstop : L.token stop stop') (h : L.Tokens ts us) :
    L.line (lineAt stop ts) (lineAt stop' us) := by
  cases h with
  | nil => exact L.line_of hstop
  | cons h _ => exact L.line_of h

theorem headD (hstop : L.token stop stop') (h : L.Tokens ts us) :
    L.token (ts.headD stop) (us.headD stop') := by
  cases h with
  | nil => exact hstop
  | cons h _ => exact h

theorem spacedAt_eq (hstop : L.token stop stop') (h : L.Tokens ts us) :
    spacedAt stop ts = spacedAt stop' us :=
  L.spaced_eq (headD hstop h)

theorem foundAt_eq (h : L.Tokens ts us) : foundAt ts = foundAt us := by
  cases h with
  | nil => rfl
  | cons h _ => simp only [foundAt, L.lexeme_eq h]

theorem unexpectedAt (hstop : L.token stop stop') (h : L.Tokens ts us) :
    L.Results R (.error (unexpectedAt stop ts)) (.error (unexpectedAt stop' us)) := by
  rw [Stylesheet.unexpectedAt, Stylesheet.unexpectedAt, foundAt_eq h]
  exact .malformed _ (lineAt hstop h)

theorem isEmpty_eq (h : L.Tokens ts us) : ts.isEmpty = us.isEmpty := by
  cases h <;> rfl

theorem startsWithDelim_eq (h : L.Tokens ts us) (c : Char) :
    startsWithDelim c ts = startsWithDelim c us := by
  cases h with
  | nil => rfl
  | cons h _ => exact isDelim_eq h c

theorem startsWithWord_eq (h : L.Tokens ts us) (word : String) :
    startsWithWord word ts = startsWithWord word us := by
  cases h with
  | nil => rfl
  | cons h _ => exact isWord_eq h word

theorem cut (stops : List Char) (depth : Nat) (h : L.Tokens ts us) :
    L.Tokens (cut stops depth ts).1 (cut stops depth us).1 ∧
      L.Tokens (cut stops depth ts).2 (cut stops depth us).2 := by
  induction h generalizing depth with
  | nil => exact ⟨.nil, .nil⟩
  | @cons t u ts us htu hs ih =>
    have hd : depthAfter? stops depth t = depthAfter? stops depth u := by
      simp only [depthAfter?, L.lexeme_eq htu]
    simp only [Stylesheet.cut, hd]
    cases depthAfter? stops depth u with
    | none => exact ⟨.nil, .cons htu hs⟩
    | some depth => exact ⟨.cons htu (ih depth).1, (ih depth).2⟩

def Enclosed (L : Likeness) : List Token × Token × List Token → List Token × Token × List Token → Prop
  | (inner, close, after), (inner', close', after') =>
    L.Tokens inner inner' ∧ L.token close close' ∧ L.Tokens after after'

theorem enclosed (ht : L.token t u) (opener : Char) (h : L.Tokens ts us) :
    L.Results L.Enclosed (enclosed t opener ts) (enclosed u opener us) := by
  obtain ⟨hb, ha⟩ := cut [closerOf opener] 0 h
  rw [Stylesheet.enclosed, Stylesheet.enclosed]
  generalize Stylesheet.cut [closerOf opener] 0 ts = p at hb ha
  generalize Stylesheet.cut [closerOf opener] 0 us = q at hb ha
  obtain ⟨before, after⟩ := p
  obtain ⟨before', after'⟩ := q
  cases ha with
  | nil => exact .malformed _ (L.line_of ht)
  | @cons c c' after after' hc ha =>
    simp only [isDelim_eq hc]
    split
    · exact .ok ⟨hb, hc, ha⟩
    · exact .malformed _ (L.line_of ht)

def Piece (L : Likeness) : List Token × Token → List Token × Token → Prop
  | (part, stop), (part', stop') => L.Tokens part part' ∧ L.token stop stop'

theorem pieces (separator : Char) (hstop : L.token stop stop') (h : L.Tokens ts us) :
    L.Results (List.Forall₂ L.Piece) (pieces separator stop ts)
      (pieces separator stop' us) := by
  induction hn : ts.length using Nat.strongRecOn generalizing ts us with
  | ind n ih =>
    obtain ⟨hb, ha⟩ := cut [separator] 0 h
    have hlen := length_cut [separator] 0 ts
    rw [Stylesheet.pieces, Stylesheet.pieces]
    generalize Stylesheet.cut [separator] 0 ts = p at hb ha hlen
    generalize Stylesheet.cut [separator] 0 us = q at hb ha
    obtain ⟨before, after⟩ := p
    obtain ⟨before', after'⟩ := q
    cases ha with
    | nil => exact .ok (.cons ⟨hb, hstop⟩ .nil)
    | @cons c c' after after' hc ha =>
      simp only [isDelim_eq hc, L.lexeme_eq hc]
      split
      · simp only [List.length_cons] at hlen
        have hrest := ih after.length (by omega) ha rfl
        exact hrest.map fun hps => .cons ⟨hb, hc⟩ hps
      · exact .malformed _ (L.line_of hc)

end Tokens

section Rules

variable {stop stop' : Token} {ts us : List Token} {rule rule' : Rule α}

theorem whole (hr : L.Rules R rule rule') (hstop : L.token stop stop') (h : L.Tokens ts us) :
    L.Results R (whole rule stop ts) (whole rule' stop' us) := by
  refine (hr hstop h).bind ?_
  rintro ⟨a, rest⟩ ⟨b, rest'⟩ ⟨hab, hrest⟩
  cases hrest with
  | nil => exact .ok hab
  | cons ht hts => exact unexpectedAt hstop (.cons ht hts)

/-- Like readings of whole ranges. -/
def Readings (L : Likeness) (R : α → α → Prop) (r s : Token → List Token → Except Fault α) :
    Prop :=
  ∀ {stop stop' : Token} {ts us : List Token}, L.token stop stop' → L.Tokens ts us →
    L.Results R (r stop ts) (s stop' us)

theorem eachPiece {r s : Token → List Token → Except Fault α} (hr : L.Readings R r s)
    {ps qs : List (List Token × Token)} (h : List.Forall₂ L.Piece ps qs) :
    L.Results (List.Forall₂ R) (eachPiece r ps) (eachPiece s qs) := by
  induction h with
  | nil => exact .ok .nil
  | cons hp _ ih =>
    refine (hr hp.2 hp.1).bind fun hab => ?_
    exact ih.bind fun hs => .ok (.cons hab hs)

/-- Joining tokens that give like ways to combine what stands on their two sides. -/
def Joins (L : Likeness) (R : α → α → Prop)
    (j k : Token → List Token → Option ((α → α → α) × List Token)) : Prop :=
  ∀ {stop stop' : Token} {ts us : List Token}, L.token stop stop' → L.Tokens ts us →
    L.Found (fun f g => ∀ {a b c d}, R a b → R c d → R (f a c) (g b d)) (j stop ts) (k stop' us)

theorem chain {j k : Token → List Token → Option ((α → α → α) × List Token)}
    (hj : L.Joins R j k) (hr : L.Rules R rule rule') {a b : α} (hab : R a b)
    (hstop : L.token stop stop') (h : L.Tokens ts us) :
    L.Results (L.Read R) (chain j rule a stop ts) (chain k rule' b stop' us) := by
  induction hn : ts.length using Nat.strongRecOn generalizing a b ts us with
  | ind n ih =>
    have hjoin := hj hstop h
    rw [Stylesheet.chain, Stylesheet.chain]
    generalize j stop ts = p at hjoin
    generalize k stop' us = q at hjoin
    cases hjoin with
    | none => exact .ok ⟨hab, h⟩
    | @some p q hpq =>
      obtain ⟨join, rest⟩ := p
      obtain ⟨join', rest'⟩ := q
      obtain ⟨hjoin, hrest⟩ := hpq
      refine (hr hstop hrest).bind ?_
      rintro ⟨right, rest⟩ ⟨right', rest'⟩ ⟨hright, hrest⟩
      simp only [← hrest.length_eq, ← h.length_eq]
      split
      · exact ih rest.length (by omega) (hjoin hab hright) hrest rfl
      · exact .ok ⟨hjoin hab hright, hrest⟩

theorem chained {j k : Token → List Token → Option ((α → α → α) × List Token)}
    (hj : L.Joins R j k) (hr : L.Rules R rule rule') :
    L.Rules R (chained j rule) (chained k rule') := by
  intro stop stop' ts us hstop h
  refine (hr hstop h).bind ?_
  rintro ⟨a, rest⟩ ⟨b, rest'⟩ ⟨hab, hrest⟩
  exact chain hj hr hab hstop hrest

/-- What is read behind each opening is alike, or no level is left on the left if that may be. Calls
are short only if that may be. -/
def Behind (L : Likeness) (R : α → α → Prop) (d e : Deeper α) : Prop :=
  ∀ o, (d o = .error .calls → L.exhaustible) ∧
    (Beside R (d o) (e o) ∨ L.lenient ∧ d o = .error .levels)

theorem enter {d e : Deeper α} (hd : L.Behind R d e) (o : Opening) {l m : Nat} (hl : L.line l m) :
    L.Results R (enter d o l) (enter e o m) := by
  rw [Stylesheet.enter, Stylesheet.enter]
  obtain ⟨hcalls, hbeside | ⟨hlenient, hnone⟩⟩ := hd o
  · generalize d o = x at hbeside hcalls
    generalize e o = y at hbeside
    cases hbeside with
    | opened h => exact .ok h
    | short shortage =>
      cases shortage with
      | levels => exact .tooDeep hl
      | calls => exact .overflow (hcalls rfl)
  · rw [hnone]
    exact .lenient hlenient l _

end Rules

section Rooms

/-- As much room on both sides, or fewer levels on the left if that may be. The stack holds the
levels on the left, unless it may be too small. -/
structure Rooms (L : Likeness) (d e : Room) : Prop where
  calls : L.exhaustible ∨ d.Holds d.levels
  levels : d = e ∨ L.lenient ∧ d.levels ≤ e.levels ∧ d.calls = e.calls

variable {d e : Room}

theorem Rooms.same (h : L.exhaustible) (d : Room) : L.Rooms d d := ⟨.inl h, .inl rfl⟩

theorem Rooms.exhaustible_of_short (h : L.Rooms d e) {o : Opening}
    (ho : d.opened o = .error .calls) : L.exhaustible :=
  h.calls.resolve_right fun hholds => hholds.opened_ne_calls o ho

theorem Rooms.behind (h : L.Rooms d e) {o : Opening} {inner : Room} (ho : d.opened o = .ok inner) :
    L.exhaustible ∨ inner.Holds inner.levels :=
  h.calls.imp_right fun hholds => hholds.behind ho

theorem Rooms.opened (h : L.Rooms d e) (o : Opening) :
    Beside L.Rooms (d.opened o) (e.opened o) ∨ L.lenient ∧ d.opened o = .error .levels := by
  have hbehind {inner : Room} (hinner : d.opened o = .ok inner) := h.behind hinner
  rcases h.levels with rfl | ⟨hlenient, hlevels, hcalls⟩
  · left
    cases hd : d.opened o with
    | ok inner => exact .opened ⟨hbehind hd, .inl rfl⟩
    | error shortage => exact .short shortage
  · obtain ⟨n, calls⟩ := d
    obtain ⟨m, calls'⟩ := e
    obtain rfl : calls = calls' := hcalls
    cases n with
    | zero => exact .inr ⟨hlenient, rfl⟩
    | succ n =>
      obtain ⟨m, rfl⟩ : ∃ k, m = k + 1 := Nat.exists_eq_add_of_le' (Nat.le_trans (by simp) hlevels)
      left
      simp only [Room.opened] at hbehind ⊢
      split
      · rename_i ho
        exact .opened ⟨hbehind (if_pos ho), .inr ⟨hlenient, Nat.le_of_succ_le_succ hlevels, rfl⟩⟩
      · exact .short .calls

theorem Rooms.below {f g : Room → α} (h : L.Rooms d e)
    (hfg : ∀ o inner inner', d.opened o = .ok inner → L.Rooms inner inner' →
      R (f inner) (g inner')) :
    L.Behind R (d.below f) (e.below g) := by
  intro o
  rw [Room.below, Room.below]
  rcases h.opened o with hbeside | ⟨hlenient, hnone⟩
  · generalize hd : d.opened o = x at hbeside ⊢
    generalize e.opened o = y at hbeside ⊢
    cases hbeside with
    | opened hrooms =>
      refine ⟨?_, .inl (.opened (hfg o _ _ hd hrooms))⟩
      rintro ⟨⟩
    | short shortage =>
      refine ⟨?_, .inl (.short shortage)⟩
      rintro ⟨⟩
      exact h.exhaustible_of_short hd
  · rw [hnone]
    refine ⟨?_, .inr ⟨hlenient, rfl⟩⟩
    rintro ⟨⟩

end Rooms

end Likeness

end StyleTally.Stylesheet
