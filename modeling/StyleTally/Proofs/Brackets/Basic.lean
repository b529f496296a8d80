import StyleTally.Proofs.Shape.Range
import StyleTally.Stylesheet.Grammar.Selector

/-!
# Brackets

A list of tokens is well nested if every closer closes the innermost open bracket and is of its
type, and no bracket stays open. The look-ahead of the grammar keeps a single count for round and
square brackets, so the text that it passes over unread need not be well nested; it is only even by
that count. The abridgement of a text leaves that out.
-/

namespace StyleTally.Stylesheet

/-- The closers that are due after a token, the next one first; none if the token is a closer which
is not the next one due. -/
def dueAfter? (due : List Char) (t : Token) : Option (List Char) :=
  match t.lexeme with
  | .delim c =>
    if c == '(' then some (')' :: due)
    else if c == '[' then some (']' :: due)
    else if c == '{' then some ('}' :: due)
    else if [')', ']', '}'].contains c then
      if due.head? == some c then some due.tail else none
    else some due
  | _ => some due

/-- Every closer closes the innermost open bracket and is of its type, and no bracket stays open. -/
def WellNested (ts : List Token) : Prop := ts.foldlM dueAfter? [] = some []

instance (ts : List Token) : Decidable (WellNested ts) :=
  inferInstanceAs (Decidable (_ = _))

/-- Whatever is due in front of the tokens is due behind them. -/
def Balanced (ts : List Token) : Prop := ∀ due, ts.foldlM dueAfter? due = some due

def Token.isBrace (t : Token) : Bool := t.isDelim '{' || t.isDelim '}'

def Token.isBracket (t : Token) : Bool :=
  t.isDelim '(' || t.isDelim ')' || t.isDelim '[' || t.isDelim ']' || t.isBrace

def Lexeme.isBracket : Lexeme → Bool
  | .delim c => ['(', ')', '[', ']', '{', '}'].contains c
  | _ => false

theorem Token.isBracket_of_lexeme {t : Token} {l : Lexeme} (h : t.lexeme = l)
    (hl : l.isBracket = false) : t.isBracket = false := by
  cases l with
  | delim c =>
    simp only [Lexeme.isBracket, List.contains_eq_mem, List.mem_cons, List.not_mem_nil, or_false,
      not_or, decide_eq_false_iff_not] at hl
    simp [Token.isBracket, Token.isBrace, Token.isDelim, h, hl]
  | _ => simp [Token.isBracket, Token.isBrace, Token.isDelim, h]

theorem Token.isBracket_of_isDelim {t : Token} {c : Char} (h : t.isDelim c = true)
    (hc : (Lexeme.delim c).isBracket = false) : t.isBracket = false := by
  simp only [Token.isDelim, beq_iff_eq] at h
  exact isBracket_of_lexeme h hc

theorem Token.isBracket_of_namesPseudo {t : Token} (h : Grammar.namesPseudo t = true) :
    t.isBracket = false := by
  unfold Grammar.namesPseudo at h
  split at h
  · exact isBracket_of_lexeme ‹_› rfl
  · exact isBracket_of_lexeme ‹_› rfl
  · cases h

/-- The count of round and square brackets, each closer taking one opener back whatever its type,
stays above zero in front of every closer and ends at `depth`. Braces do not count. -/
def CountsTo (depth : Nat) (ts : List Token) : Prop := ts.foldlM (depthAfter? []) 0 = some depth

namespace Balanced

variable {t u v : Token} {ts us : List Token}

theorem wellNested (h : Balanced ts) : WellNested ts := h []

theorem nil : Balanced [] := fun _ => rfl

theorem append (ht : Balanced ts) (hu : Balanced us) : Balanced (ts ++ us) := by
  intro due
  rw [List.foldlM_append, ht due]
  exact hu due

theorem single (h : t.isBracket = false) : Balanced [t] := by
  intro due
  have hstep : dueAfter? due t = some due := by
    unfold dueAfter?
    split
    · rename_i c hc
      simp only [Token.isBracket, Token.isBrace, Token.isDelim, hc, Bool.or_eq_false_iff,
        beq_eq_false_iff_ne, ne_eq, Lexeme.delim.injEq] at h
      simp [h]
    · rfl
  simp [hstep]

theorem cons (h : t.isBracket = false) (hts : Balanced ts) : Balanced (t :: ts) :=
  (single h).append hts

/-- A balanced text between an opener and a closer of its type is balanced. -/
theorem between {c : Char} (hopen : ∀ due, dueAfter? due t = some (c :: due))
    (hclose : ∀ due, dueAfter? (c :: due) u = some due) (hts : Balanced ts) :
    Balanced (t :: ts ++ [u]) := by
  intro due
  rw [List.cons_append, List.foldlM_cons, hopen due]
  simp only [Option.bind_eq_bind, Option.bind_some, List.foldlM_append, hts (c :: due)]
  simp [hclose due]

theorem round (ht : t.isDelim '(' = true) (hu : u.isDelim ')' = true) (hts : Balanced ts) :
    Balanced (t :: ts ++ [u]) := by
  simp only [Token.isDelim, beq_iff_eq] at ht hu
  exact between (c := ')') (by simp [dueAfter?, ht]) (by simp [dueAfter?, hu]) hts

theorem square (ht : t.isDelim '[' = true) (hu : u.isDelim ']' = true) (hts : Balanced ts) :
    Balanced (t :: ts ++ [u]) := by
  simp only [Token.isDelim, beq_iff_eq] at ht hu
  exact between (c := ']') (by simp [dueAfter?, ht]) (by simp [dueAfter?, hu]) hts

theorem braces (ht : t.isDelim '{' = true) (hu : u.isDelim '}' = true) (hts : Balanced ts) :
    Balanced (t :: ts ++ [u]) := by
  simp only [Token.isDelim, beq_iff_eq] at ht hu
  exact between (c := '}') (by simp [dueAfter?, ht]) (by simp [dueAfter?, hu]) hts

end Balanced

/-- A text without the tokens between the square brackets in it or, in a text that `selects`,
between the parentheses of pseudo-classes. What is left out counts to zero; no brace is left. -/
inductive Abridged (selects : Bool) : List Token → List Token → Prop
  | nil : Abridged selects [] []
  | keep {t : Token} {ts vs : List Token} (ht : t.isBrace = false) (h : Abridged selects ts vs) :
      Abridged selects (t :: ts) (t :: vs)
  | square {opener closer : Token} {inner ts vs : List Token} (hvalue : selects = false)
      (hopener : opener.isDelim '[') (hinner : CountsTo 0 inner) (hcloser : closer.isDelim ']')
      (h : Abridged selects ts vs) :
      Abridged selects (opener :: inner ++ closer :: ts) (opener :: closer :: vs)
  | pseudo {colon name opener closer : Token} {inner ts vs : List Token} (hselects : selects)
      (hcolon : colon.isDelim ':') (hname : Grammar.namesPseudo name) (hopener : opener.isDelim '(')
      (hinner : CountsTo 0 inner) (hcloser : closer.isDelim ')') (h : Abridged selects ts vs) :
      Abridged selects (colon :: name :: opener :: inner ++ closer :: ts)
        (colon :: name :: opener :: closer :: vs)

theorem Abridged.append {selects : Bool} {ts vs us ws : List Token} (ht : Abridged selects ts vs)
    (hu : Abridged selects us ws) : Abridged selects (ts ++ us) (vs ++ ws) := by
  induction ht with
  | nil => exact hu
  | keep ht _ ih => exact .keep ht ih
  | square hvalue hopener hinner hcloser _ ih =>
    simp only [List.cons_append, List.append_assoc]
    exact .square hvalue hopener hinner hcloser ih
  | pseudo hselects hcolon hname hopener hinner hcloser _ ih =>
    simp only [List.cons_append, List.append_assoc]
    exact .pseudo hselects hcolon hname hopener hinner hcloser ih

/-- The abridgement of a text is balanced. -/
def Legible (selects : Bool) (ts : List Token) : Prop :=
  ∃ vs, Abridged selects ts vs ∧ Balanced vs

namespace Legible

variable {selects : Bool} {t u : Token} {ts us : List Token}

theorem nil : Legible selects [] := ⟨[], .nil, .nil⟩

theorem append (ht : Legible selects ts) (hu : Legible selects us) :
    Legible selects (ts ++ us) := by
  obtain ⟨vs, hvs, hv⟩ := ht
  obtain ⟨ws, hws, hw⟩ := hu
  exact ⟨vs ++ ws, hvs.append hws, hv.append hw⟩

theorem single (h : t.isBracket = false) : Legible selects [t] := by
  have hbrace : t.isBrace = false := by
    simp only [Token.isBracket, Bool.or_eq_false_iff] at h
    exact h.2
  exact ⟨[t], .keep hbrace .nil, .single h⟩

theorem cons (h : t.isBracket = false) (hts : Legible selects ts) : Legible selects (t :: ts) :=
  (single h).append hts

theorem isBrace_of_isDelim {c : Char} (h : t.isDelim c = true)
    (hc : c ≠ '{' ∧ c ≠ '}') : t.isBrace = false := by
  simp only [Token.isDelim, beq_iff_eq] at h
  simp [Token.isBrace, Token.isDelim, h, hc]

theorem round (ht : t.isDelim '(' = true) (hu : u.isDelim ')' = true) (hts : Legible selects ts) :
    Legible selects (t :: ts ++ [u]) := by
  obtain ⟨vs, hvs, hv⟩ := hts
  refine ⟨t :: vs ++ [u], .keep (isBrace_of_isDelim ht (by decide)) ?_, .round ht hu hv⟩
  exact hvs.append (.keep (isBrace_of_isDelim hu (by decide)) .nil)

/-- Square brackets around tokens that are read. -/
theorem attributeTest (ht : t.isDelim '[' = true) (hu : u.isDelim ']' = true)
    (hts : Legible selects ts) : Legible selects (t :: ts ++ [u]) := by
  obtain ⟨vs, hvs, hv⟩ := hts
  refine ⟨t :: vs ++ [u], .keep (isBrace_of_isDelim ht (by decide)) ?_, .square ht hu hv⟩
  exact hvs.append (.keep (isBrace_of_isDelim hu (by decide)) .nil)

/-- Square brackets around tokens that are passed over. -/
theorem square (ht : t.isDelim '[' = true) (hu : u.isDelim ']' = true) (hts : CountsTo 0 ts) :
    Legible false (t :: ts ++ [u]) :=
  ⟨[t, u], .square rfl ht hts hu .nil, .square ht hu .nil⟩

theorem pseudo {colon name : Token} (hcolon : colon.isDelim ':' = true)
    (hname : Grammar.namesPseudo name = true) (ht : t.isDelim '(' = true)
    (hu : u.isDelim ')' = true) (hts : CountsTo 0 ts) :
    Legible true (colon :: name :: t :: ts ++ [u]) := by
  refine ⟨[colon, name, t, u], .pseudo rfl hcolon hname ht hts hu .nil, ?_⟩
  refine .cons (Token.isBracket_of_isDelim hcolon rfl) ?_
  refine .cons (Token.isBracket_of_namesPseudo hname) ?_
  exact .round ht hu .nil

end Legible

theorem Yields.and {α : Type} {P Q : α → Prop} {x : Except Fault α} (hP : Yields P x)
    (hQ : Yields Q x) : Yields (fun a => P a ∧ Q a) x := by
  cases x with
  | ok a => exact ⟨hP, hQ⟩
  | error e => trivial

/-- Legible tokens were read from the front of a range. -/
def ReadOff (selects : Bool) (ts rest : List Token) : Prop :=
  ∃ used, ts = used ++ rest ∧ Legible selects used

namespace ReadOff

variable {selects : Bool} {t : Token} {ts us rest : List Token}

theorem refl (ts : List Token) : ReadOff selects ts ts := ⟨[], rfl, .nil⟩

theorem of_legible (h : Legible selects us) (rest : List Token) :
    ReadOff selects (us ++ rest) rest :=
  ⟨us, rfl, h⟩

theorem to_end (h : Legible selects ts) : ReadOff selects ts [] :=
  ⟨ts, by simp, h⟩

theorem legible (h : ReadOff selects ts []) : Legible selects ts := by
  obtain ⟨used, rfl, hused⟩ := h
  simpa using hused

theorem trans (h : ReadOff selects ts us) (h' : ReadOff selects us rest) :
    ReadOff selects ts rest := by
  obtain ⟨used, rfl, hused⟩ := h
  obtain ⟨used', rfl, hused'⟩ := h'
  exact ⟨used ++ used', by simp, hused.append hused'⟩

theorem cons (ht : t.isBracket = false) (h : ReadOff selects ts rest) :
    ReadOff selects (t :: ts) rest :=
  (of_legible (.single ht) ts).trans h

theorem single (ht : t.isBracket = false) : ReadOff selects (t :: rest) rest :=
  .cons ht (.refl rest)

theorem of_lexeme {l : Lexeme} (h : t.lexeme = l) (hl : l.isBracket = false) :
    ReadOff selects (t :: rest) rest :=
  single (t.isBracket_of_lexeme h hl)

end ReadOff

section Ranges

variable {selects : Bool}

theorem depthAfter?_nil {stops : List Char} {depth next : Nat} {t : Token}
    (h : depthAfter? stops depth t = some next) : depthAfter? [] depth t = some next := by
  unfold depthAfter? at h ⊢
  split at h
  · simp only [List.contains_nil, Bool.and_false, Bool.false_eq_true, if_false]
    split at h
    · rw [if_pos ‹_›]
      split at h
      · cases h
      · exact h
    · rw [if_neg ‹_›]
      split at h
      · cases h
      · exact h
  · exact h

/-- What is in front of a cut counts to a depth at which the token behind it cuts. -/
theorem cut_counts (stops : List Char) (depth : Nat) (ts : List Token) :
    ∃ last, (cut stops depth ts).1.foldlM (depthAfter? []) depth = some last ∧
      ∀ t after, (cut stops depth ts).2 = t :: after → depthAfter? stops last t = none := by
  induction ts generalizing depth with
  | nil => exact ⟨depth, rfl, by simp [cut]⟩
  | cons t ts ih =>
    rw [cut]
    split
    · rename_i hcut
      refine ⟨depth, rfl, ?_⟩
      rintro u after ⟨rfl, rfl⟩
      exact hcut
    · rename_i next hnext
      obtain ⟨last, hcount, hlast⟩ := ih next
      refine ⟨last, ?_, hlast⟩
      simpa [List.foldlM_cons, depthAfter?_nil hnext] using hcount

theorem eq_zero_of_cut {stops : List Char} {depth : Nat} {t : Token} {c : Char}
    (ht : t.isDelim c = true) (hc : c ≠ '{' ∧ c ≠ '}') (h : depthAfter? stops depth t = none) :
    depth = 0 := by
  simp only [Token.isDelim, beq_iff_eq] at ht
  cases depth with
  | zero => rfl
  | succ depth =>
    simp only [depthAfter?, ht, beq_iff_eq, hc, Bool.or_eq_true, or_self, if_false,
      Nat.add_one_ne_zero, Bool.and_eq_true, false_and] at h
    split at h
    · cases h
    · split at h <;> cases h

/-- The text in front of a cut that no brace makes counts to zero. -/
theorem countsTo_of_cut {stops : List Char} {ts before after : List Token} {t : Token} {c : Char}
    (hcut : cut stops 0 ts = (before, t :: after)) (ht : t.isDelim c = true)
    (hc : c ≠ '{' ∧ c ≠ '}') : CountsTo 0 before := by
  obtain ⟨last, hcount, hlast⟩ := cut_counts stops 0 ts
  simp only [hcut] at hcount hlast
  rw [eq_zero_of_cut ht hc (hlast t after rfl)] at hcount
  exact hcount

theorem closerOf_ne_brace (opener : Char) : closerOf opener ≠ '{' ∧ closerOf opener ≠ '}' := by
  rw [closerOf]
  split <;> decide

theorem enclosed_counts (bracket : Token) (opener : Char) (ts : List Token) :
    Yields (fun (inner, close, after) => ts = inner ++ close :: after ∧
        close.isDelim (closerOf opener) ∧ CountsTo 0 inner)
      (enclosed bracket opener ts) := by
  refine (enclosed_yields bracket opener ts).mono ?_
  rintro ⟨inner, close, after⟩ ⟨hts, hcut, hclose⟩
  exact ⟨hts, hclose, countsTo_of_cut hcut hclose (closerOf_ne_brace opener)⟩

/-- Pieces with the separators between them make up their range. -/
theorem pieces_legible {separator : Char}
    (hs : (Lexeme.delim separator).isBracket = false) (stop : Token)
    (ts : List Token) :
    Yields (fun ps => (∀ p ∈ ps, Legible selects p.1) → Legible selects ts)
      (pieces separator stop ts) := by
  induction hn : ts.length using Nat.strongRecOn generalizing ts with
  | ind n ih =>
    have happend := cut_append [separator] 0 ts
    rw [pieces]
    split
    · rename_i part hcut
      rw [hcut, List.append_nil] at happend
      intro h
      rw [← happend]
      exact h (part, stop) (by simp)
    · rename_i part t rest hcut
      rw [hcut] at happend
      split
      · rename_i ht
        have hlength : rest.length < n := by
          rw [← hn, ← happend]
          simp only [List.length_append, List.length_cons]
          omega
        refine (ih _ hlength rest rfl).map fun {ps} hps h => ?_
        have hpart : Legible selects part := h (part, t) (by simp)
        have hrest : Legible selects rest := hps fun p hp => h p (List.mem_cons_of_mem _ hp)
        rw [← happend]
        exact hpart.append (.cons (Token.isBracket_of_isDelim ht hs) hrest)
      · trivial

end Ranges

section Rules

variable {α : Type} {selects : Bool} {rule : Rule α}

/-- A rule that reads legible tokens. -/
def ReadsOff (selects : Bool) (rule : Rule α) : Prop :=
  ∀ (stop : Token) (ts : List Token),
    Yields (fun (_, rest) => ReadOff selects ts rest) (rule stop ts)

theorem whole_legible {stop : Token} {ts : List Token}
    (h : Yields (fun (_, rest) => ReadOff selects ts rest) (rule stop ts)) :
    Yields (fun _ => Legible selects ts) (whole rule stop ts) := by
  refine h.bind ?_
  rintro ⟨a, rest⟩ ha
  cases rest with
  | nil => exact ha.legible
  | cons t rest => trivial

/-- A range is legible if its pieces are. -/
theorem eachPiece_legible {read : Token → List Token → Except Fault α}
    (hr : ∀ stop ts, Yields (fun _ => Legible selects ts) (read stop ts))
    {ps : List (List Token × Token)} {ts : List Token}
    (hps : (∀ p ∈ ps, Legible selects p.1) → Legible selects ts) :
    Yields (fun _ => Legible selects ts) (eachPiece read ps) := by
  have hread : ∀ stop ts, Yields (fun _ => True ∧ Legible selects ts) (read stop ts) :=
    fun stop ts => (hr stop ts).mono fun h => ⟨trivial, h⟩
  exact (eachPiece_yields hread ps).mono fun h => hps h.2.2

theorem commaPieces_legible {read : Token → List Token → Except Fault α}
    (hr : ∀ stop ts, Yields (fun _ => Legible selects ts) (read stop ts)) (stop : Token)
    (ts : List Token) :
    Yields (fun _ => Legible selects ts) ((pieces ',' stop ts).bind (eachPiece read)) :=
  (pieces_legible rfl stop ts).bind fun hps => eachPiece_legible hr hps

/-- Joining tokens that are no brackets. -/
def JoinsPlainly (join? : Token → List Token → Option ((α → α → α) × List Token)) : Prop :=
  ∀ {stop ts join rest}, join? stop ts = some (join, rest) →
    ∃ t, ts = t :: rest ∧ t.isBracket = false

theorem chain_readOff {join? : Token → List Token → Option ((α → α → α) × List Token)}
    (hj : JoinsPlainly join?) (hr : ReadsOff selects rule) (left : α) (stop : Token)
    (ts : List Token) :
    Yields (fun (_, rest) => ReadOff selects ts rest) (chain join? rule left stop ts) := by
  induction hn : ts.length using Nat.strongRecOn generalizing left ts with
  | ind n ih =>
    rw [chain]
    split
    · exact .refl ts
    · rename_i join rest hjoin
      obtain ⟨t, rfl, ht⟩ := hj hjoin
      refine (hr stop rest).bind ?_
      rintro ⟨right, after⟩ hafter
      have hread : ReadOff selects (t :: rest) after := hafter.cons ht
      by_cases hlength : after.length < (t :: rest).length
      · simp only [if_pos hlength]
        exact (ih _ (hn ▸ hlength) _ after rfl).mono fun h => hread.trans h
      · simp only [if_neg hlength]
        exact hread

theorem chained_readsOff {join? : Token → List Token → Option ((α → α → α) × List Token)}
    (hj : JoinsPlainly join?) (hr : ReadsOff selects rule) :
    ReadsOff selects (chained join? rule) := by
  intro stop ts
  refine (hr stop ts).bind ?_
  rintro ⟨left, rest⟩ hrest
  exact (chain_readOff hj hr left stop rest).mono fun h => hrest.trans h

end Rules

end StyleTally.Stylesheet
