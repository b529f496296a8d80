import StyleTally.Stylesheet.Range

/-!
# Tokens that a search goes past

The end of a range is the first token at the depth of the range that is a stop. Tokens that hold no
such stop are crossed, from the bracket depth in front of them to the one behind them; what a range
gives then follows from what its crossed parts give.
-/

namespace StyleTally.Stylesheet

variable {stops : List Char} {depth depth' depth'' : Nat} {t : Token} {ts us : List Token}

/-- A search for the end of a range goes past the tokens, from one bracket depth to the other. -/
def Crosses (stops : List Char) (depth : Nat) (ts : List Token) (depth' : Nat) : Prop :=
  ∀ rest, cut stops depth (ts ++ rest) =
    (ts ++ (cut stops depth' rest).1, (cut stops depth' rest).2)

theorem Crosses.nil : Crosses stops depth [] depth := fun _ => rfl

theorem Crosses.cons (ht : depthAfter? stops depth t = some depth')
    (hts : Crosses stops depth' ts depth'') : Crosses stops depth (t :: ts) depth'' := by
  intro rest
  rw [List.cons_append, cut, ht]
  simp only [hts rest]
  rfl

theorem Crosses.append (hts : Crosses stops depth ts depth') (hus : Crosses stops depth' us depth'') :
    Crosses stops depth (ts ++ us) depth'' := by
  intro rest
  rw [List.append_assoc, hts (us ++ rest), hus rest, List.append_assoc]

/-- A range ends before the first token behind it that is a stop. -/
theorem Crosses.cut_cons (hts : Crosses stops depth ts depth')
    (ht : depthAfter? stops depth' t = none) (rest : List Token) :
    cut stops depth (ts ++ t :: rest) = (ts, t :: rest) := by
  rw [hts (t :: rest), cut, ht]
  simp

theorem Crosses.cut_eq (hts : Crosses stops depth ts depth') : cut stops depth ts = (ts, []) := by
  have h := hts []
  rw [List.append_nil, cut, List.append_nil] at h
  exact h

theorem pieces_last {separator : Char} {stop : Token} (h : Crosses [separator] 0 ts depth) :
    pieces separator stop ts = .ok [(ts, stop)] := by
  have hcut := h.cut_eq
  rw [pieces]
  split
  · rename_i heq
    rw [hcut] at heq
    obtain ⟨rfl, -⟩ := Prod.mk.inj heq
    rfl
  · rename_i heq
    rw [hcut] at heq
    cases heq

theorem pieces_cons {separator : Char} {stop : Token} (h : Crosses [separator] 0 ts depth)
    (hcut : depthAfter? [separator] depth t = none) (ht : t.isDelim separator = true)
    (rest : List Token) :
    pieces separator stop (ts ++ t :: rest) = (pieces separator stop rest).map ((ts, t) :: ·) := by
  have hcut' := h.cut_cons hcut rest
  rw [pieces]
  split
  · rename_i heq
    rw [hcut'] at heq
    cases heq
  · rename_i part u rest' heq
    rw [hcut'] at heq
    cases heq
    rw [if_pos ht]

theorem eachPiece_last {α : Type} {read : Token → List Token → Except Fault α} {separator : Char}
    {stop : Token} {a : α} (h : Crosses [separator] 0 ts depth) (hread : read stop ts = .ok a) :
    (pieces separator stop ts).bind (eachPiece read) = .ok [a] := by
  rw [pieces_last h]
  change (read stop ts >>= _) = _
  rw [hread]
  rfl

/-- A piece is read before the separator that ends it, and then the pieces behind the separator. -/
theorem eachPiece_cons {α : Type} {read : Token → List Token → Except Fault α} {separator : Char}
    {stop : Token} {a : α} {as : List α} {rest : List Token} (h : Crosses [separator] 0 ts depth)
    (hcut : depthAfter? [separator] depth t = none) (ht : t.isDelim separator = true)
    (hread : read t ts = .ok a)
    (hrest : (pieces separator stop rest).bind (eachPiece read) = .ok as) :
    (pieces separator stop (ts ++ t :: rest)).bind (eachPiece read) = .ok (a :: as) := by
  rw [pieces_cons h hcut ht]
  exact eachPiece_cons_eq_ok.mpr ⟨a, as, hread, hrest, rfl⟩

/-- Inside a bracket, tokens that do not close it count for the bound of a statement as they count
for the bracket, one level further down. -/
theorem depthAfter?_bounds (h : depthAfter? [')'] depth t = some depth') :
    depthAfter? [';', '{', '}'] (depth + 1) t = none ∨
      depthAfter? [';', '{', '}'] (depth + 1) t = some (depth' + 1) := by
  unfold depthAfter? at *
  cases hlexeme : t.lexeme with
  | delim c =>
    simp only [hlexeme] at h ⊢
    by_cases hbrace : (c == '{' || c == '}') = true
    · have hbound : [';', '{', '}'].contains c = true := by
        simp at hbrace ⊢
        exact .inr hbrace
      left
      rw [if_pos hbrace, if_pos hbound]
    · rw [if_neg hbrace] at h ⊢
      rw [if_neg (by simp)]
      by_cases hopen : (c == '(' || c == '[') = true
      · simp_all
      · by_cases hclose : (c == ')' || c == ']') = true
        · simp_all
          grind
        · simp_all
  | _ => simp_all

/-- What bounds a statement is found inside a bracket whatever stands behind it, or behind the
bracket. -/
theorem cut_bounds_enclosed {close : Token} {inner after : List Token}
    (h : cut [')'] depth ts = (inner, close :: after)) (hclose : close.isDelim ')' = true) :
    (∃ front bound more, ∀ after, cut [';', '{', '}'] (depth + 1) (inner ++ close :: after) =
        (front, bound :: (more ++ close :: after))) ∨
      Crosses [';', '{', '}'] (depth + 1) (inner ++ [close]) 0 := by
  induction ts generalizing depth inner with
  | nil => cases h
  | cons t ts ih =>
    rw [cut] at h
    cases hdepth : depthAfter? [')'] depth t with
    | none =>
      rw [hdepth] at h
      cases h
      simp only [Token.isDelim, beq_iff_eq] at hclose
      obtain rfl : depth = 0 := by
        cases depth with
        | zero => rfl
        | succ depth => simp [depthAfter?, hclose] at hdepth
      have hout : depthAfter? [';', '{', '}'] (0 + 1) close = some 0 := by
        simp [depthAfter?, hclose]
      exact .inr (.cons hout .nil)
    | some depth' =>
      cases hcut : cut [')'] depth' ts with
      | mk before behind =>
      rw [hdepth] at h
      simp only [hcut] at h
      cases h
      rcases depthAfter?_bounds hdepth with hnone | hsome
      · left
        refine ⟨[], t, before, fun after => ?_⟩
        rw [List.cons_append, cut, hnone]
      · rcases ih hcut with ⟨front, bound, more, hbound⟩ | hcross
        · left
          refine ⟨t :: front, bound, more, fun after => ?_⟩
          rw [List.cons_append, cut, hsome]
          simp only [hbound]
        · exact .inr (.cons hsome hcross)

end StyleTally.Stylesheet
