import StyleTally.Stylesheet.Range

/-!
# What a rule reads

A rule reads tokens off the front of a range and gives something of a given kind. The rules for
values read at least one token, and neither a semicolon nor a closing brace last; so a range that
such a rule reads to its end does not reach to the end of a statement.
-/

namespace StyleTally.Stylesheet

variable {α β : Type} {P : α → Prop} {Q : β → Prop}

/-- What is given, if anything is, satisfies `P`. -/
def Yields (P : α → Prop) : Except Fault α → Prop
  | .ok a => P a
  | .error _ => True

namespace Yields

variable {x : Except Fault α}

theorem of_ok {a : α} (h : Yields P x) (hx : x = .ok a) : P a := by
  rw [hx] at h
  exact h

theorem bind {f : α → Except Fault β} (h : Yields P x) (hf : ∀ {a}, P a → Yields Q (f a)) :
    Yields Q (x >>= f) := by
  cases x with
  | ok a => exact hf h
  | error e => trivial

theorem map {f : α → β} (h : Yields P x) (hf : ∀ {a}, P a → Q (f a)) : Yields Q (x.map f) := by
  cases x with
  | ok a => exact hf h
  | error e => trivial

theorem mono {P' : α → Prop} (h : Yields P x) (hP : ∀ {a}, P a → P' a) : Yields P' x := by
  cases x with
  | ok a => exact hP h
  | error e => trivial

theorem any (x : Except Fault α) : Yields (fun _ => True) x := by
  cases x <;> trivial

end Yields

/-- Whether a token ends a statement or a body. -/
def Token.isSeal (t : Token) : Bool := t.isDelim ';' || t.isDelim '}'

/-- Tokens were read from the front of a range, and the last of them ends no statement. -/
def Consumed (ts rest : List Token) : Prop :=
  ∃ used t, ts = used ++ t :: rest ∧ t.isSeal = false

namespace Consumed

variable {t : Token} {ts us rest : List Token}

theorem single (h : t.isSeal = false) : Consumed (t :: rest) rest :=
  ⟨[], t, rfl, h⟩

theorem cons (t : Token) (h : Consumed ts rest) : Consumed (t :: ts) rest := by
  obtain ⟨used, u, rfl, hu⟩ := h
  exact ⟨t :: used, u, rfl, hu⟩

theorem append (front : List Token) (h : Consumed ts rest) : Consumed (front ++ ts) rest := by
  obtain ⟨used, u, rfl, hu⟩ := h
  exact ⟨front ++ used, u, by simp, hu⟩

theorem trans (h : Consumed ts us) (h' : Consumed us rest) : Consumed ts rest := by
  obtain ⟨used, u, rfl, -⟩ := h
  have hus : Consumed (u :: us) rest := h'.cons u
  exact hus.append used

theorem length_lt (h : Consumed ts rest) : rest.length < ts.length := by
  obtain ⟨used, u, rfl, -⟩ := h
  simp only [List.length_append, List.length_cons]
  omega

theorem of_lexeme {l : Lexeme} (h : t.lexeme = l)
    (hl : l ≠ .delim ';' ∧ l ≠ .delim '}' := by simp) : Consumed (t :: rest) rest :=
  single (by simp [Token.isSeal, Token.isDelim, h, hl])

theorem suffix (h : Consumed ts rest) : rest <:+ ts.tail := by
  obtain ⟨used, u, rfl, -⟩ := h
  cases used with
  | nil => exact List.suffix_refl rest
  | cons v used => exact (List.suffix_cons u rest).trans (List.suffix_append used _)

end Consumed

/-- Nothing was read, or tokens were and the last of them ends no statement. -/
def Passed (ts rest : List Token) : Prop := rest = ts ∨ Consumed ts rest

namespace Passed

variable {ts us rest : List Token}

theorem refl (ts : List Token) : Passed ts ts := .inl rfl

theorem trans (h : Passed ts us) (h' : Passed us rest) : Passed ts rest := by
  rcases h with rfl | h
  · exact h'
  · rcases h' with rfl | h'
    · exact .inr h
    · exact .inr (h.trans h')

theorem suffix (h : Passed ts rest) : rest <:+ ts := by
  rcases h with rfl | h
  · exact List.suffix_refl _
  · exact h.suffix.trans (List.tail_suffix ts)

end Passed

theorem Consumed.passed {ts us rest : List Token} (h : Consumed ts us) (h' : Passed us rest) :
    Consumed ts rest := by
  rcases h' with rfl | h'
  · exact h
  · exact h.trans h'

/-- A rule that gives what satisfies `P` and reads as the rules for values do. -/
def Reads (P : α → Prop) (rule : Rule α) : Prop :=
  ∀ (stop : Token) (ts : List Token),
    Yields (fun (a, rest) => P a ∧ Consumed ts rest) (rule stop ts)

theorem Reads.mono {P' : α → Prop} {rule : Rule α} (h : Reads P rule) (hP : ∀ {a}, P a → P' a) :
    Reads P' rule :=
  fun stop ts => (h stop ts).mono fun ha => ⟨hP ha.1, ha.2⟩

theorem isSeal_of_isDelim {t : Token} {c : Char} (h : t.isDelim c) (hc : c ≠ ';' ∧ c ≠ '}') :
    t.isSeal = false := by
  simp only [Token.isDelim, beq_iff_eq] at h
  simp [Token.isSeal, Token.isDelim, h, hc]

section Ranges

variable {stop : Token} {ts : List Token}

theorem closerOf_ne_seal (opener : Char) : closerOf opener ≠ ';' ∧ closerOf opener ≠ '}' := by
  rw [closerOf]
  split <;> decide

/-- A bracket encloses tokens up to a closer that fits it. -/
theorem enclosed_yields (bracket : Token) (opener : Char) (ts : List Token) :
    Yields (fun (inner, close, after) => ts = inner ++ close :: after ∧
        cut [closerOf opener] 0 ts = (inner, close :: after) ∧ close.isDelim (closerOf opener))
      (enclosed bracket opener ts) := by
  have happend := cut_append [closerOf opener] 0 ts
  rw [enclosed]
  split
  · rename_i inner close after hcut
    rw [hcut] at happend
    split
    · rename_i hclose
      exact ⟨happend.symm, hcut, hclose⟩
    · trivial
  · trivial

theorem enclosed_consumed (bracket : Token) (opener : Char) (ts : List Token) :
    Yields (fun (_, _, after) => Consumed ts after) (enclosed bracket opener ts) := by
  refine (enclosed_yields bracket opener ts).mono ?_
  rintro ⟨inner, close, after⟩ ⟨hts, -, hclose⟩
  exact ⟨inner, close, hts, isSeal_of_isDelim hclose (closerOf_ne_seal opener)⟩

/-- The last piece of a range ends as the range does. -/
theorem pieces_yields (separator : Char) (stop : Token) (ts : List Token) :
    Yields (fun ps => ps ≠ [] ∧ ((∀ p ∈ ps, Consumed p.1 []) → Consumed ts []))
      (pieces separator stop ts) := by
  induction hn : ts.length using Nat.strongRecOn generalizing ts with
  | ind n ih =>
    have happend := cut_append [separator] 0 ts
    rw [pieces]
    split
    · rename_i part hcut
      rw [hcut, List.append_nil] at happend
      refine ⟨by simp, fun h => ?_⟩
      rw [← happend]
      exact h (part, stop) (by simp)
    · rename_i part t rest hcut
      rw [hcut] at happend
      split
      · have hlength : rest.length < n := by
          rw [← hn, ← happend]
          simp only [List.length_append, List.length_cons]
          omega
        refine (ih _ hlength rest rfl).map fun {ps} hps => ⟨by simp, fun h => ?_⟩
        have hrest : Consumed rest [] := hps.2 fun p hp => h p (List.mem_cons_of_mem _ hp)
        rw [← happend]
        exact (hrest.cons t).append part
      · trivial

end Ranges

section Rules

variable {rule : Rule α}

theorem whole_yields (hr : Reads P rule) (stop : Token) (ts : List Token) :
    Yields (fun a => P a ∧ Consumed ts []) (whole rule stop ts) := by
  refine (hr stop ts).bind ?_
  rintro ⟨a, rest⟩ h
  cases rest with
  | nil => exact h
  | cons t rest => trivial

theorem whole_of_yields {stop : Token} {ts : List Token}
    (h : Yields (fun (a, _) => P a) (rule stop ts)) : Yields P (whole rule stop ts) := by
  refine h.bind ?_
  rintro ⟨a, rest⟩ ha
  cases rest with
  | nil => exact ha
  | cons t rest => trivial

/-- What holds of each piece and of what is read from it. -/
theorem eachPiece_yields {read : Token → List Token → Except Fault α}
    {E : List Token → Prop} (hr : ∀ stop ts, Yields (fun a => P a ∧ E ts) (read stop ts))
    (ps : List (List Token × Token)) :
    Yields (fun as => as.length = ps.length ∧ (∀ a ∈ as, P a) ∧ ∀ p ∈ ps, E p.1)
      (eachPiece read ps) := by
  induction ps with
  | nil => simp [eachPiece, Yields]
  | cons p ps ih =>
    refine (hr p.2 p.1).bind fun {a} ha => ?_
    refine ih.bind fun {as} has => ?_
    obtain ⟨hlength, hall, hends⟩ := has
    exact ⟨by simp [hlength], List.forall_mem_cons.mpr ⟨ha.1, hall⟩,
      List.forall_mem_cons.mpr ⟨ha.2, hends⟩⟩

/-- Pieces of a range that are read one by one give as many parts, at least one, and end as the
range does. -/
theorem pieces_eachPiece_yields {read : Token → List Token → Except Fault α}
    (hr : ∀ stop ts, Yields (fun a => P a ∧ Consumed ts []) (read stop ts))
    (separator : Char) (stop : Token) (ts : List Token) :
    Yields (fun as => as ≠ [] ∧ (∀ a ∈ as, P a) ∧ Consumed ts [])
      ((pieces separator stop ts).bind (eachPiece read)) := by
  refine (pieces_yields separator stop ts).bind fun {ps} hps => ?_
  refine (eachPiece_yields hr ps).mono fun {as} has => ?_
  have hlength : 0 < ps.length := List.length_pos_iff.mpr hps.1
  exact ⟨List.length_pos_iff.mp (by omega), has.2.1, hps.2 has.2.2⟩

/-- Joining tokens that read as the rules for values do and keep `P`. -/
def Joining (P : α → Prop)
    (join? : Token → List Token → Option ((α → α → α) × List Token)) (rule : Rule α) : Prop :=
  ∀ {stop ts join rest a}, join? stop ts = some (join, rest) → P a →
    Yields (fun (b, rest) => P (join a b) ∧ Consumed ts rest) (rule stop rest)

theorem chain_yields {join? : Token → List Token → Option ((α → α → α) × List Token)}
    (hj : Joining P join? rule) {left : α} (hleft : P left) (stop : Token) (ts : List Token) :
    Yields (fun (a, rest) => P a ∧ Passed ts rest)
      (chain join? rule left stop ts) := by
  induction hn : ts.length using Nat.strongRecOn generalizing left ts with
  | ind n ih =>
    rw [chain]
    split
    · exact ⟨hleft, .refl ts⟩
    · rename_i join rest hjoin
      refine (hj hjoin hleft).bind ?_
      rintro ⟨right, after⟩ ⟨hright, hafter⟩
      have hlength := hafter.length_lt
      simp only [if_pos hlength]
      refine (ih _ (by omega) hright after rfl).mono ?_
      rintro ⟨a, rest⟩ ⟨ha, hrest⟩
      exact ⟨ha, .inr (hafter.passed hrest)⟩

theorem chained_reads {join? : Token → List Token → Option ((α → α → α) × List Token)}
    (hj : Joining P join? rule) (hr : Reads P rule) : Reads P (chained join? rule) := by
  intro stop ts
  refine (hr stop ts).bind ?_
  rintro ⟨left, rest⟩ ⟨hleft, hrest⟩
  refine (chain_yields hj hleft stop rest).mono ?_
  rintro ⟨a, after⟩ ⟨ha, hafter⟩
  exact ⟨ha, hrest.passed hafter⟩

theorem enter_yields {R : β → Prop} {deeper : Deeper β} (hd : Deeper.All R deeper) (o : Opening)
    (line : Nat) : Yields R (enter deeper o line) := by
  unfold enter
  split
  · rename_i hopened
    exact hd o _ hopened
  · trivial
  · trivial

end Rules

end StyleTally.Stylesheet
