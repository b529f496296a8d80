import StyleTally.Proofs.Lexer.OneLine
import StyleTally.Proofs.Likeness.Range
import StyleTally.Proofs.Shape.Range

/-!
# Rules within a stylesheet

A rule that is given a range of the tokens of a stylesheet leaves a range of them, and hands such
ranges on to the rules that it is built from. So whatever holds of all ranges of the stylesheet may
be used at every token that is read.
-/

namespace StyleTally.Stylesheet

/-- A range of the tokens of a stylesheet. -/
abbrev Within (all ts : List Token) : Prop := ts <:+: all

namespace Within

variable {all ts us : List Token} {t : Token}

theorem of_append_left (h : Within all (ts ++ us)) : Within all ts :=
  (List.prefix_append ts us).isInfix.trans h

theorem of_append_right (h : Within all (ts ++ us)) : Within all us :=
  (List.suffix_append ts us).isInfix.trans h

theorem suffix (h : Within all ts) (hus : us <:+ ts) : Within all us := hus.isInfix.trans h

theorem tail (h : Within all (t :: ts)) : Within all ts := h.suffix (List.suffix_cons t ts)

theorem mem (h : Within all (t :: ts)) : t ∈ all := h.subset List.mem_cons_self

theorem drop (h : Within all ts) (n : Nat) : Within all (ts.drop n) :=
  h.suffix (List.drop_suffix n ts)

/-- The name of a token of the stylesheet stands on one line. -/
theorem oneLine (hall : ∀ t ∈ all, t.lexeme.OneLine) (h : Within all (t :: ts)) {l : Lexeme}
    (hl : t.lexeme = l) : l.OneLine :=
  hl ▸ hall t h.mem

theorem of_cut (stops : List Char) (depth : Nat) (h : Within all ts) :
    Within all (cut stops depth ts).1 ∧ Within all (cut stops depth ts).2 := by
  rw [← cut_append stops depth ts] at h
  exact ⟨h.of_append_left, h.of_append_right⟩

end Within

variable {α β : Type} {P : α → Prop} {all ts : List Token} {stop : Token} {rule : Rule α}

/-- Within the stylesheet, the rule gives what satisfies `P` and leaves a range of the stylesheet. -/
def Draws (all : List Token) (P : α → Prop) (rule : Rule α) : Prop :=
  ∀ (stop : Token) (ts : List Token), Within all ts →
    Yields (fun (a, rest) => P a ∧ Within all rest) (rule stop ts)

theorem enclosed_within (bracket : Token) (opener : Char) (h : Within all ts) :
    Yields (fun (inner, close, after) => ts = inner ++ close :: after ∧ Within all inner ∧
      Within all after) (enclosed bracket opener ts) := by
  refine (enclosed_yields bracket opener ts).mono ?_
  rintro ⟨inner, close, after⟩ ⟨rfl, -, -⟩
  exact ⟨rfl, h.of_append_left, h.of_append_right.tail⟩

theorem pieces_within (separator : Char) (stop : Token) (h : Within all ts) :
    Yields (fun ps => ∀ p ∈ ps, Within all p.1) (pieces separator stop ts) := by
  induction hn : ts.length using Nat.strongRecOn generalizing ts with
  | ind n ih =>
    obtain ⟨hpart, hrest⟩ := h.of_cut [separator] 0
    have hlength := length_cut [separator] 0 ts
    rw [pieces]
    split
    · rename_i part hcut
      rw [hcut] at hpart
      simpa [Yields] using hpart
    · rename_i part t rest hcut
      simp only [hcut, List.length_cons] at hpart hrest hlength
      split
      · exact (ih _ (by omega) hrest.tail rfl).map fun hps => List.forall_mem_cons.mpr ⟨hpart, hps⟩
      · trivial

theorem eachPiece_within {read : Token → List Token → Except Fault α}
    (hr : ∀ stop ts, Within all ts → Yields P (read stop ts)) {ps : List (List Token × Token)}
    (hps : ∀ p ∈ ps, Within all p.1) : Yields (fun as => ∀ a ∈ as, P a) (eachPiece read ps) := by
  induction ps with
  | nil => simp [eachPiece, Yields]
  | cons p ps ih =>
    obtain ⟨hp, hps⟩ := List.forall_mem_cons.mp hps
    refine (hr p.2 p.1 hp).bind fun {a} ha => ?_
    exact (ih hps).bind fun {as} has => List.forall_mem_cons.mpr ⟨ha, has⟩

theorem pieces_eachPiece_within {read : Token → List Token → Except Fault α}
    (hr : ∀ stop ts, Within all ts → Yields P (read stop ts)) (separator : Char) (stop : Token)
    (h : Within all ts) :
    Yields (fun as => ∀ a ∈ as, P a) ((pieces separator stop ts).bind (eachPiece read)) :=
  (pieces_within separator stop h).bind fun hps => eachPiece_within hr hps

theorem Draws.whole (hr : Draws all P rule) (stop : Token) (ts : List Token)
    (h : Within all ts) : Yields P (whole rule stop ts) :=
  whole_of_yields ((hr stop ts h).mono fun ha => ha.1)

/-- Joining tokens after which a range is left, and that keep `P`. -/
def JoinsWithin (P : α → Prop)
    (join? : Token → List Token → Option ((α → α → α) × List Token)) : Prop :=
  ∀ {stop ts join rest}, join? stop ts = some (join, rest) →
    rest <:+ ts ∧ ∀ {a b}, P a → P b → P (join a b)

theorem chain_within {join? : Token → List Token → Option ((α → α → α) × List Token)}
    (hj : JoinsWithin P join?) (hr : Draws all P rule) {left : α} (hleft : P left) (stop : Token)
    (h : Within all ts) :
    Yields (fun (a, rest) => P a ∧ Within all rest) (chain join? rule left stop ts) := by
  induction hn : ts.length using Nat.strongRecOn generalizing left ts with
  | ind n ih =>
    rw [chain]
    split
    · exact ⟨hleft, h⟩
    · rename_i join rest hjoin
      obtain ⟨hsuffix, hkeep⟩ := hj hjoin
      refine (hr stop rest (h.suffix hsuffix)).bind ?_
      rintro ⟨right, after⟩ ⟨hright, hafter⟩
      by_cases hlength : after.length < ts.length
      · simp only [if_pos hlength]
        exact ih _ (hn ▸ hlength) (hkeep hleft hright) hafter rfl
      · simp only [if_neg hlength]
        exact ⟨hkeep hleft hright, hafter⟩

theorem chained_draws {join? : Token → List Token → Option ((α → α → α) × List Token)}
    (hj : JoinsWithin P join?) (hr : Draws all P rule) : Draws all P (chained join? rule) := by
  intro stop ts h
  refine (hr stop ts h).bind ?_
  rintro ⟨left, rest⟩ ⟨hleft, hrest⟩
  exact chain_within hj hr hleft stop hrest

end StyleTally.Stylesheet
