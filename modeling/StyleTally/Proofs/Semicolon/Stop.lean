import StyleTally.Proofs.Concatenation.Range
import StyleTally.Proofs.Lead.Statement

/-!
# Ranges before another stop token

What a rule reads from a whole range depends on the tokens of the range and not on the one behind
it. The only rule that looks at the stop token to decide something is the one for sums: a sign that
ends the range is left over in front of one stop token and wants an operand in front of another. No
range that ends with a sign is read as a whole in either way.
-/

namespace StyleTally.Stylesheet

/-- The second gives what the first gives, if that gives anything. -/
abbrev Follows {α : Type} (x y : Except Fault α) : Prop := Carries id x y

theorem Follows.refl {α : Type} (x : Except Fault α) : Follows x x := fun _ h => h

/-- A plus or a minus. -/
def Token.isSign (t : Token) : Bool := t.isDelim '+' || t.isDelim '-'

theorem Token.isSign_iff {t : Token} :
    t.isSign = true ↔ t.lexeme = .delim '+' ∨ t.lexeme = .delim '-' := by
  simp [isSign, isDelim]

/-- The second gives what the first gives, unless that leaves a single sign over. -/
def Settles {α : Type} (x y : Except Fault (α × List Token)) : Prop :=
  ∀ a rest, x = .ok (a, rest) → y = .ok (a, rest) ∨ ∃ sign, rest = [sign] ∧ sign.isSign

section Settles

variable {α β : Type} {x y : Except Fault (α × List Token)}

theorem Follows.settles (h : Follows x y) : Settles x y := fun _ _ hx => .inl (h _ hx)

theorem Settles.error (e : Fault) (y : Except Fault (α × List Token)) : Settles (.error e) y :=
  fun _ _ h => nomatch h

theorem Settles.of_sign {sign : Token} (hs : sign.isSign) (h : Yields (fun p => p.2 = [sign]) x) :
    Settles x y := by
  intro a rest hx
  exact .inr ⟨sign, h.of_ok hx, hs⟩

theorem Settles.bind {k l : α × List Token → Except Fault (β × List Token)} (h : Settles x y)
    (hk : ∀ a rest, Settles (k (a, rest)) (l (a, rest)))
    (hsign : ∀ (sign : Token), sign.isSign → ∀ a, Yields (fun p => p.2 = [sign]) (k (a, [sign]))) :
    Settles (x >>= k) (y >>= l) := by
  cases x with
  | error e => exact .error e _
  | ok p =>
    obtain ⟨a, rest⟩ := p
    rcases h a rest rfl with hsame | ⟨sign, rfl, hs⟩
    · rw [hsame]
      exact hk a rest
    · exact .of_sign hs (hsign sign hs a)

theorem Settles.map {β : Type} (h : Settles x y) (f : α → β) :
    Settles (x.map fun (a, rest) => (f a, rest)) (y.map fun (a, rest) => (f a, rest)) := by
  intro b rest hb
  cases x with
  | error e => cases hb
  | ok p =>
    obtain ⟨a, rest'⟩ := p
    cases hb
    rcases h a rest rfl with hsame | hsign
    · rw [hsame]
      exact .inl rfl
    · exact .inr hsign

/-- Read as a whole, a range with a sign left over is refused. -/
theorem Settles.whole {rule : Rule α} {stop stop' : Token} {ts : List Token}
    (h : Settles (rule stop ts) (rule stop' ts)) :
    Follows (whole rule stop ts) (whole rule stop' ts) := by
  intro a ha
  unfold Stylesheet.whole at ha ⊢
  cases hread : rule stop ts with
  | error e =>
    rw [hread] at ha
    cases ha
  | ok p =>
    obtain ⟨b, rest⟩ := p
    rw [hread] at ha
    cases rest with
    | cons t rest => cases ha
    | nil =>
      rcases h b [] hread with hsame | ⟨sign, hsign, -⟩
      · rw [hsame]
        exact ha
      · cases hsign

end Settles

section Rules

variable {α : Type}

/-- What the rule reads is the same in front of every stop token. -/
def Indifferent (rule : Rule α) : Prop := ∀ stop stop' ts, Follows (rule stop ts) (rule stop' ts)

/-- What the rule reads is the same in front of every stop token, unless it leaves a sign over. -/
def Settled (rule : Rule α) : Prop := ∀ stop stop' ts, Settles (rule stop ts) (rule stop' ts)

theorem Indifferent.settled {rule : Rule α} (h : Indifferent rule) : Settled rule :=
  fun stop stop' ts => (h stop stop' ts).settles

variable {join? : Token → List Token → Option ((α → α → α) × List Token)} {operand : Rule α}

theorem chain_indifferent (hjoin : ∀ stop stop' ts, join? stop ts = join? stop' ts)
    (hop : Indifferent operand) (left : α) : Indifferent (chain join? operand left) := by
  intro stop stop' ts
  induction hn : ts.length using Nat.strongRecOn generalizing left ts with
  | ind n ih =>
    rw [chain, chain, hjoin stop stop']
    split
    · exact .refl _
    · refine (hop stop stop' _).bind ?_
      rintro ⟨right, rest⟩ -
      simp only [id]
      split
      · exact ih _ (by omega) _ rest rfl
      · exact fun _ h => h

theorem chained_indifferent (hjoin : ∀ stop stop' ts, join? stop ts = join? stop' ts)
    (hop : Indifferent operand) : Indifferent (chained join? operand) := by
  intro stop stop' ts
  refine (hop stop stop' ts).bind ?_
  rintro ⟨left, rest⟩ -
  exact chain_indifferent hjoin hop left stop stop' rest

/-- No operand stands behind a sign that ends the range. -/
theorem chain_sign (hop : Reads (fun _ => True) operand) {sign : Token}
    (hrest : ∀ stop join rest, join? stop [sign] = some (join, rest) → rest = []) (left : α)
    (stop : Token) : Yields (fun p => p.2 = [sign]) (chain join? operand left stop [sign]) := by
  rw [chain]
  split
  · rfl
  · rename_i join rest hjoin
    obtain rfl := hrest stop join rest hjoin
    refine (hop stop []).bind fun {p} hp => ?_
    exact absurd hp.2.length_lt (by simp)

theorem chain_settled
    (hjoin : ∀ stop stop' ts, (∀ sign : Token, sign.isSign → ts ≠ [sign]) →
      join? stop ts = join? stop' ts)
    (hrest : ∀ stop t join rest, join? stop [t] = some (join, rest) → rest = [])
    (hread : Reads (fun _ => True) operand) (hop : Settled operand) (left : α) :
    Settled (chain join? operand left) := by
  intro stop stop' ts
  have hlast (sign : Token) (left : α) := chain_sign hread (hrest · sign) left stop
  induction hn : ts.length using Nat.strongRecOn generalizing left ts with
  | ind n ih =>
    by_cases hsign : ∃ sign : Token, sign.isSign ∧ ts = [sign]
    · obtain ⟨sign, hs, rfl⟩ := hsign
      exact .of_sign hs (hlast sign left)
    · have hts (sign : Token) (hs : sign.isSign) : ts ≠ [sign] := fun h => hsign ⟨sign, hs, h⟩
      rw [chain, chain, hjoin stop stop' ts hts]
      split
      · exact (Follows.refl _).settles
      · refine (hop stop stop' _).bind (fun right rest => ?_) fun sign _ right => ?_
        · simp only
          split
          · exact ih _ (by omega) _ rest rfl
          · exact fun _ _ h => .inl h
        · simp only
          split
          · exact hlast sign _
          · exact rfl

theorem chained_settled
    (hjoin : ∀ stop stop' ts, (∀ sign : Token, sign.isSign → ts ≠ [sign]) →
      join? stop ts = join? stop' ts)
    (hrest : ∀ stop t join rest, join? stop [t] = some (join, rest) → rest = [])
    (hread : Reads (fun _ => True) operand) (hop : Settled operand) :
    Settled (chained join? operand) := by
  intro stop stop' ts
  refine (hop stop stop' ts).bind (fun left rest => ?_) fun sign _ left => ?_
  · exact chain_settled hjoin hrest hread hop left stop stop' rest
  · exact chain_sign hread (hrest · sign) left stop

/-- The pieces of a range differ by the stop token of the last. -/
theorem eachPiece_indifferent {read : Token → List Token → Except Fault α}
    (hr : ∀ stop stop' ts, Follows (read stop ts) (read stop' ts)) (separator : Char)
    (stop stop' : Token) (ts : List Token) :
    Follows ((pieces separator stop ts).bind (eachPiece read))
      ((pieces separator stop' ts).bind (eachPiece read)) := by
  induction hn : ts.length using Nat.strongRecOn generalizing ts with
  | ind n ih =>
    have hlength := length_cut [separator] 0 ts
    rw [Grammar.pieces_eq, Grammar.pieces_eq]
    generalize cut [separator] 0 ts = p at hlength
    obtain ⟨part, _ | ⟨t, rest⟩⟩ := p
    · refine (hr stop stop' part).bind fun a _ => ?_
      exact fun _ h => h
    · simp only [List.length_cons] at hlength ⊢
      split
      · intro as h
        obtain ⟨a, bs, ha, hbs, rfl⟩ := eachPiece_cons_eq_ok.mp h
        exact eachPiece_cons_eq_ok.mpr ⟨a, bs, ha, ih rest.length (by omega) rest rfl bs hbs, rfl⟩
      · exact .error _

end Rules

namespace Grammar

open Value (derives_grammatical)

theorem primary_indifferent (deeper : Deeper (Rule Value)) : Indifferent (primary deeper) := by
  intro stop stop' ts
  cases ts with
  | nil => exact .error _
  | cons t rest =>
    simp only [primary]
    split
    case h_8 => exact .refl _
    case h_10 =>
      split
      · exact .refl _
      · exact .error _
    case h_11 =>
      split
      · split
        · exact .refl _
        · exact .error _
      · exact .error _
    case h_13 => exact .error _
    all_goals exact .refl _

section Levels

variable {deeper : Deeper (Rule Value)} (hd : Deeper.All Indifferent deeper)
include hd

theorem signed_indifferent : Indifferent (signed deeper) := by
  have hprimary := primary_indifferent deeper
  intro stop stop' ts
  cases ts with
  | nil => exact hprimary stop stop' []
  | cons t rest =>
    cases hsign : deeper .sign with
    | error shortage =>
      cases shortage <;> simp only [signed, enter, hsign]
      all_goals
        split
        · exact .error _
        · split
          · exact .error _
          · exact hprimary stop stop' _
    | ok operand =>
      simp only [signed, enter, hsign]
      split
      · refine (hd .sign operand hsign stop stop' rest).bind fun p _ => ?_
        exact fun _ h => h
      · split
        · exact hd .sign operand hsign stop stop' rest
        · exact hprimary stop stop' _

end Levels

theorem operand_indifferent (room : Room) : Indifferent (operand room) := by
  induction room using Room.induction with
  | step room ih =>
    rw [operand_eq]
    exact signed_indifferent (Room.below_all ih)

section Values

variable (room : Room)

theorem product_indifferent (divides : Bool) : Indifferent (product (operand room) divides) := by
  refine chained_indifferent (fun stop stop' ts => ?_) (operand_indifferent room)
  cases ts <;> rfl

theorem sum_settled (divides : Bool) : Settled (sum (operand room) divides) := by
  have hread := product_reads derives_grammatical (d := room.levels)
    (operand_reads derives_grammatical room) divides
  refine chained_settled (fun stop stop' ts hts => ?_) (fun stop t join rest h => ?_)
    (hread.mono fun _ => trivial) (product_indifferent room divides).settled
  · match ts with
    | [] => rfl
    | [t] =>
      have ht := mt (hts t) (by simp)
      simp only [Token.isSign, Bool.or_eq_true, not_or, Bool.not_eq_true] at ht
      simp [sumJoin, ht]
    | t :: u :: rest => rfl
  · simp only [sumJoin] at h
    split at h
    · cases h
    · split at h
      · cases h
        rfl
      · split at h
        · cases h
          rfl
        · cases h

theorem shorthand_settled : Settled (shorthand (operand room)) := by
  have hread := sum_reads derives_grammatical (d := room.levels)
    (operand_reads derives_grammatical room) false
  refine chained_settled (fun stop stop' ts _ => ?_) (fun stop t join rest h => ?_)
    (hread.mono fun _ => trivial) (sum_settled room false)
  · cases ts <;> rfl
  · simp only [slashJoin] at h
    split at h
    · cases h
      rfl
    · cases h

variable {sign : Token} (hs : sign.isSign) (stop : Token)
include hs

/-- A sign alone is no operand. -/
theorem operand_sign : Yields (fun _ => False) (operand room stop [sign]) := by
  rw [operand_eq, signed]
  have hnil : Deeper.All (fun r => Yields (fun _ => False) (r stop [])) (room.below operand) := by
    intro o r hr
    obtain ⟨e, -, hread⟩ := below_reads derives_grammatical room o r hr
    exact (hread stop []).mono fun {p} hp => absurd hp.2.length_lt (by simp)
  split
  · exact (enter_yields hnil _ _).bind fun h => h.bind False.elim
  · split
    · exact (enter_yields hnil _ _).bind fun h => h
    · simp_all [Token.isSign]

theorem shorthand_sign : Yields (fun _ => False) (shorthand (operand room) stop [sign]) :=
  (((operand_sign room hs stop).bind False.elim).bind False.elim).bind False.elim

end Values

section Lists

variable {item : Rule Value} (hitem : Settled item)
include hitem

theorem items_settled (hsign : ∀ (sign : Token), sign.isSign → ∀ stop,
      Yields (fun _ => False) (item stop [sign])) (stop stop' : Token) (ts : List Token) :
    Settles (items item stop ts) (items item stop' ts) := by
  induction hn : ts.length using Nat.strongRecOn generalizing ts with
  | ind n ih =>
    rw [items, items]
    split
    · exact (Follows.refl _).settles
    · refine (hitem stop stop' ts).bind (fun v rest => ?_) fun sign hs v => ?_
      · simp only
        split
        · exact (ih _ (by omega) rest rfl).map _
        · exact fun _ _ h => .inl h
      · simp only
        split
        · rw [items]
          split
          · rfl
          · exact ((hsign sign hs stop).bind False.elim).map False.elim
        · exact rfl

theorem listed_settled (stop stop' : Token) (ts : List Token) :
    Settles (listed item stop ts) (listed item stop' ts) := by
  induction hn : ts.length using Nat.strongRecOn generalizing ts with
  | ind n ih =>
    rw [listed, listed]
    refine (hitem stop stop' ts).bind (fun v rest => ?_) fun sign hs v => ?_
    · cases rest with
      | nil => exact fun _ _ h => .inl h
      | cons t rest =>
        simp only
        split
        · rename_i h
          simp only [Bool.and_eq_true, decide_eq_true_eq] at h
          exact (ih _ (by omega) rest rfl).map _
        · exact fun _ _ h => .inl h
    · have hcomma : sign.isDelim ',' = false := by
        rcases Token.isSign_iff.mp hs with h | h <;> simp [Token.isDelim, h]
      simp only [hcomma, Bool.false_and]
      exact rfl

end Lists

section Ranges

variable (room : Room)

theorem expression_settled : Settled (expression (operand room) false) := by
  intro stop stop' ts
  have hitems := items_settled (shorthand_settled room) (fun _ hs => shorthand_sign room hs)
  refine (hitems stop stop' ts).bind (fun vs rest => ?_) fun sign _ vs => ?_
  · simp only
    split
    · exact .error _ _
    · exact fun _ _ h => .inl h
  · simp only
    split
    · trivial
    · exact rfl

theorem value_settled : Settled (value (operand room) false) := by
  intro stop stop' ts
  refine (listed_settled (expression_settled room) stop stop' ts).bind (fun vs rest => ?_)
    fun sign _ vs => rfl
  exact fun _ _ h => .inl h

theorem valueIfAny_follows (stop stop' : Token) (ts : List Token) :
    Follows (valueIfAny room stop ts) (valueIfAny room stop' ts) := by
  unfold valueIfAny
  split
  · exact Follows.refl _
  · exact (value_settled room stop stop' ts).whole.map fun _ => rfl

theorem splitImportant_stop (stop stop' : Token) (ts : List Token) :
    splitImportant stop ts = splitImportant stop' ts ∨
      splitImportant stop ts = (false, stop, ts) ∧ splitImportant stop' ts = (false, stop', ts) := by
  unfold splitImportant
  split
  · split
    · exact .inl rfl
    · exact .inr ⟨rfl, rfl⟩
  · exact .inr ⟨rfl, rfl⟩

theorem declarationValue_follows (stop stop' : Token) (ts : List Token) :
    Follows (declarationValue room stop ts) (declarationValue room stop' ts) := by
  unfold declarationValue
  rcases splitImportant_stop stop stop' ts with hsame | ⟨hplain, hplain'⟩
  · rw [hsame]
    exact Follows.refl _
  · rw [hplain, hplain']
    exact (valueIfAny_follows room stop stop' ts).map fun _ => rfl

theorem declaration_follows (line : Nat) (stop stop' : Token) (ts : List Token) :
    Follows (declaration room line stop ts) (declaration room line stop' ts) := by
  unfold declaration
  split
  · exact Follows.refl _
  · split
    · exact Follows.refl _
    · split
      · exact Follows.refl _
      · exact (declarationValue_follows room stop stop' _).bind fun _ _ _ h => h

theorem mixinCall_follows (stop stop' : Token) (ts : List Token) :
    Follows (mixinCall room stop ts) (mixinCall room stop' ts) := by
  unfold mixinCall
  refine .bind_same fun path _ => .bind_same fun args _ => ?_
  simp only
  split
  · exact .error _
  · split
    · exact .error _
    · exact Follows.refl _

theorem callOrDeclaration_follows (stop stop' t : Token) (ts : List Token) :
    Follows (callOrDeclaration room stop t ts) (callOrDeclaration room stop' t ts) := by
  unfold callOrDeclaration
  split
  · exact mixinCall_follows room stop stop' ts
  · exact declaration_follows room t.line stop stop' ts

theorem mediaItem_indifferent : Indifferent (mediaItem room) := by
  have hprimary := primary_indifferent (room.below operand)
  intro stop stop' ts
  unfold mediaItem
  split
  · exact hprimary stop stop' []
  · split
    · exact Follows.refl _
    · split
      · exact hprimary stop stop' _
      · exact Follows.refl _
    · exact hprimary stop stop' _

theorem mediaItems_follows (stop stop' : Token) (ts : List Token) :
    Follows (mediaItems room stop ts) (mediaItems room stop' ts) := by
  induction hn : ts.length using Nat.strongRecOn generalizing ts with
  | ind n ih =>
    cases ts with
    | nil =>
      rw [mediaItems, mediaItems]
      exact Follows.refl _
    | cons t rest =>
      simp only [List.length_cons] at hn
      rw [mediaItems, mediaItems]
      refine (mediaItem_indifferent room stop stop' _).bind ?_
      rintro ⟨v, after⟩ -
      simp only [id]
      split
      · exact (ih _ (by omega) after rfl).map fun _ => rfl
      · exact Follows.refl _

theorem mediaQuery_follows (stop stop' : Token) (ts : List Token) :
    Follows (mediaQuery room stop ts) (mediaQuery room stop' ts) := by
  refine (mediaItems_follows room stop stop' ts).bind fun vs _ => ?_
  simp only [id]
  split
  · exact .error _
  · exact Follows.refl _

theorem mediaQueriesIfAny_follows (stop stop' : Token) (ts : List Token) :
    Follows (mediaQueriesIfAny room stop ts) (mediaQueriesIfAny room stop' ts) := by
  unfold mediaQueriesIfAny
  split
  · exact Follows.refl _
  · exact (eachPiece_indifferent (mediaQuery_follows room) ',' stop stop' ts).map fun _ => rfl

end Ranges

end Grammar

end StyleTally.Stylesheet
