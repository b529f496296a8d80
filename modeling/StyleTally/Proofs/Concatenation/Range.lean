import StyleTally.Proofs.Shape.Crossing
import StyleTally.Proofs.Shape.Statement

/-!
# Sealed ranges

A range is sealed when its last token ends a statement or a body. A rule that is done before the
end of a sealed range does the same when other tokens follow the range.
-/

namespace StyleTally.Stylesheet

/-- The last token ends a statement or a body. -/
def Sealed (ts : List Token) : Prop := ∃ front t, ts = front ++ [t] ∧ t.isSeal = true

namespace Sealed

variable {t : Token} {ts rest : List Token}

theorem ne_nil (h : Sealed ts) : ts ≠ [] := by
  obtain ⟨front, t, rfl, -⟩ := h
  simp

theorem not_consumed (h : Sealed ts) : ¬ Consumed ts [] := by
  rintro ⟨used, u, hts, hu⟩
  obtain ⟨front, t, rfl, ht⟩ := h
  have hlast : [t] = [u] := (List.append_inj' hts rfl).2
  obtain rfl : t = u := by simpa using hlast
  rw [ht] at hu
  cases hu

theorem not_passed (h : Sealed ts) : ¬ Passed ts [] := by
  rintro (hnil | hread)
  · exact h.ne_nil hnil.symm
  · exact h.not_consumed hread

theorem of_suffix (h : Sealed ts) (hsuffix : rest <:+ ts) (hne : rest ≠ []) : Sealed rest := by
  obtain ⟨front, t, rfl, ht⟩ := h
  obtain ⟨used, hused⟩ := hsuffix
  obtain ⟨init, last, rfl⟩ : ∃ init last, rest = init ++ [last] :=
    ⟨rest.dropLast, rest.getLast hne, (List.dropLast_concat_getLast hne).symm⟩
  rw [← List.append_assoc] at hused
  have hlast : [last] = [t] := (List.append_inj' hused rfl).2
  obtain rfl : last = t := by simpa using hlast
  exact ⟨init, last, rfl, ht⟩

theorem of_consumed (h : Sealed ts) (hread : Consumed ts rest) : Sealed rest := by
  refine h.of_suffix (hread.suffix.trans (List.tail_suffix ts)) ?_
  rintro rfl
  exact h.not_consumed hread

theorem isSeal_of_getLast? (h : Sealed ts) (ht : ts.getLast? = some t) : t.isSeal = true := by
  obtain ⟨front, u, rfl, hu⟩ := h
  obtain rfl : u = t := by simpa using ht
  exact hu

theorem of_passed (h : Sealed ts) (hread : Passed ts rest) : Sealed rest := by
  rcases hread with rfl | hread
  · exact h
  · exact h.of_consumed hread

theorem of_cons (h : Sealed (t :: ts)) (ht : t.isSeal = false) : Sealed ts :=
  h.of_consumed (.single ht)

theorem cons_cases (h : Sealed (t :: ts)) : ts = [] ∨ Sealed ts := by
  by_cases hts : ts = []
  · exact .inl hts
  · exact .inr (h.of_suffix (List.suffix_cons t ts) hts)

end Sealed

section Carries

variable {α β γ δ : Type} {f : α → γ} {g : β → δ}

/-- What the first gives, the second gives changed by `f`. -/
def Carries (f : α → γ) (x : Except Fault α) (y : Except Fault γ) : Prop :=
  ∀ a, x = .ok a → y = .ok (f a)

namespace Carries

variable {x : Except Fault α} {y : Except Fault γ}

theorem bind {k : α → Except Fault β} {l : γ → Except Fault δ} (h : Carries f x y)
    (hk : ∀ a, x = .ok a → Carries g (k a) (l (f a))) : Carries g (x >>= k) (y >>= l) := by
  cases x with
  | ok a =>
    rw [h a rfl]
    exact hk a rfl
  | error e => exact fun b hb => nomatch hb

theorem bind_same {k l : α → Except Fault δ} {g : δ → δ}
    (hk : ∀ a, x = .ok a → Carries g (k a) (l a)) : Carries g (x >>= k) (x >>= l) := by
  cases x with
  | ok a => exact hk a rfl
  | error e => exact fun b hb => nomatch hb

theorem map {k : α → β} {l : γ → δ} (h : Carries f x y) (hk : ∀ a, g (k a) = l (f a)) :
    Carries g (x.map k) (y.map l) := by
  cases x with
  | ok a =>
    rw [h a rfl]
    rintro b ⟨⟩
    exact congrArg Except.ok (hk a).symm
  | error e => exact fun b hb => nomatch hb

theorem ok {a : α} {c : γ} (h : c = f a) : Carries f (.ok a) (.ok c) := by
  rintro b ⟨⟩
  rw [h]

theorem error (e : Fault) : Carries f (.error e) y := fun _ h => nomatch h

/-- Where the first gives nothing, there is nothing to carry over. -/
theorem of_yields (h : Yields (fun _ => False) x) : Carries f x y :=
  fun _ hx => (h.of_ok hx).elim

end Carries

end Carries

section Ranges

variable {α : Type} {t : Token} {ts : List Token} (more : List Token)

/-- What a rule gives where other tokens follow the range. -/
def followed (p : α × List Token) : α × List Token := (p.1, p.2 ++ more)

theorem cut_followed (stops : List Char) (depth : Nat) {ts : List Token}
    (h : (cut stops depth ts).2 ≠ []) :
    cut stops depth (ts ++ more) = ((cut stops depth ts).1, (cut stops depth ts).2 ++ more) := by
  induction ts generalizing depth with
  | nil => exact absurd rfl h
  | cons t ts ih =>
    rw [cut] at h
    rw [List.cons_append, cut, cut]
    cases hdepth : depthAfter? stops depth t with
    | none => rfl
    | some depth =>
      simp only [hdepth] at h ⊢
      rw [ih depth h]

theorem enclosed_followed (bracket : Token) (opener : Char) (ts : List Token) :
    Carries (fun (inner, close, after) => (inner, close, after ++ more))
      (enclosed bracket opener ts) (enclosed bracket opener (ts ++ more)) := by
  have hcut (h : (cut [closerOf opener] 0 ts).2 ≠ []) :
      cut [closerOf opener] 0 (ts ++ more) =
        ((cut [closerOf opener] 0 ts).1, (cut [closerOf opener] 0 ts).2 ++ more) :=
    cut_followed more [closerOf opener] 0 h
  unfold enclosed
  generalize cut [closerOf opener] 0 ts = p at hcut
  obtain ⟨inner, _ | ⟨close, after⟩⟩ := p
  · exact .error _
  · rw [hcut (by simp)]
    simp only [List.cons_append]
    split
    · exact .ok rfl
    · exact .error _

/-- A bracket that opens in front of a sealed range, and closes, leaves a sealed range. -/
theorem enclosed_sealed {bracket : Token} {opener : Char} {close : Token} {inner after : List Token}
    (hts : Sealed ts) (h : enclosed bracket opener ts = .ok (inner, close, after)) :
    Sealed after :=
  hts.of_consumed ((enclosed_consumed bracket opener ts).of_ok h)

namespace Grammar

/-- In a sealed range the token that bounds a statement is found with other tokens behind the
range as without, or not at all. -/
theorem head_cases (hts : Sealed ts) :
    head ts = (ts, []) ∨ ∃ front t tail, head ts = (front, t :: tail) ∧
      head (ts ++ more) = (front, t :: (tail ++ more)) ∧ Sealed (t :: tail) := by
  have happend : (head ts).1 ++ (head ts).2 = ts := cut_append _ 0 ts
  have hmore : (head ts).2 ≠ [] → head (ts ++ more) = ((head ts).1, (head ts).2 ++ more) :=
    cut_followed more _ 0
  generalize head ts = p at happend hmore
  obtain ⟨front, tail⟩ := p
  cases tail with
  | nil =>
    left
    obtain rfl : front = ts := by simpa using happend
    rfl
  | cons t tail =>
    right
    have htail : t :: tail <:+ ts := ⟨front, happend⟩
    exact ⟨front, t, tail, rfl, hmore (by simp), hts.of_suffix htail (by simp)⟩

theorem startsWithDelim_cons (c : Char) (t : Token) (ts : List Token) :
    startsWithDelim c (t :: ts) = t.isDelim c := rfl

theorem startsWithDelim_followed (hts : Sealed ts) (c : Char) :
    startsWithDelim c (ts ++ more) = startsWithDelim c ts := by
  cases ts with
  | nil => exact absurd rfl hts.ne_nil
  | cons t ts => rfl

theorem startsWithWord_followed (hts : Sealed ts) (word : String) :
    startsWithWord word (ts ++ more) = startsWithWord word ts := by
  cases ts with
  | nil => exact absurd rfl hts.ne_nil
  | cons t ts => rfl

/-- A brace or a semicolon bounds a statement at once. -/
theorem head_of_bound {t : Token} {c : Char} (ht : t.isDelim c = true)
    (hc : c = ';' ∨ c = '{' ∨ c = '}') (ts : List Token) : head (t :: ts) = ([], t :: ts) := by
  simp only [Token.isDelim, beq_iff_eq] at ht
  have hdepth : depthAfter? [';', '{', '}'] 0 t = none := by
    rcases hc with rfl | rfl | rfl <;> simp [depthAfter?, ht]
  simp only [head, cut, hdepth]

theorem endStatement_followed {ts : List Token} (h : ts ≠ []) :
    Carries (· ++ more) (endStatement ts) (endStatement (ts ++ more)) := by
  cases ts with
  | nil => exact absurd rfl h
  | cons t ts =>
    simp only [endStatement, List.cons_append]
    split
    · exact .ok rfl
    · split
      · exact .ok rfl
      · exact .error _

theorem mixinName?_followed (hts : Sealed ts) :
    mixinName? (ts ++ more) = (mixinName? ts).map (followed more) := by
  cases ts with
  | nil => exact absurd rfl hts.ne_nil
  | cons t ts =>
    simp only [List.cons_append, mixinName?]
    split
    · rfl
    · rename_i c hc
      split
      · rename_i hpoint
        have hts := hts.of_cons (isSeal_of_isDelim (c := '.') (by simp_all [Token.isDelim]) (by decide))
        cases ts with
        | nil => exact absurd rfl hts.ne_nil
        | cons u ts =>
          simp only [List.cons_append, className?]
          split
          · split <;> rfl
          · rfl
      · rfl
    · rfl

theorem extendBody?_eq_some {bracket : Token} {ts rest : List Token}
    (h : extendBody? ts = some (bracket, rest)) :
    ∃ amp colon name, ts = amp :: colon :: name :: bracket :: rest ∧ amp.isDelim '&' ∧
      colon.isDelim ':' ∧ name.isWord "extend" ∧ bracket.isDelim '(' = true := by
  unfold extendBody? at h
  split at h
  · rename_i amp colon name bracket' rest'
    split at h
    · rename_i hmarks
      cases h
      simp only [Bool.and_eq_true] at hmarks
      obtain ⟨⟨⟨⟨hamp, hcolon⟩, -⟩, hname⟩, hbracket⟩ := hmarks
      exact ⟨amp, colon, name, rfl, hamp, hcolon, hname, hbracket⟩
    · cases h
  · cases h

theorem extendBody?_followed (hts : Sealed ts) :
    extendBody? (ts ++ more) = (extendBody? ts).map (followed more) := by
  have hlast (t : Token) (ht : ts.getLast? = some t) := hts.isSeal_of_getLast? ht
  match ts with
  | amp :: colon :: name :: bracket :: ts =>
    simp only [List.cons_append, extendBody?]
    split <;> rfl
  | [] => exact absurd rfl hts.ne_nil
  | [_] | [_, _] | [_, _, _] =>
    change extendBody? (_ ++ more) = none
    refine Option.eq_none_iff_forall_not_mem.mpr ?_
    rintro ⟨bracket, rest⟩ h
    obtain ⟨amp, colon, name, heq, hamp, hcolon, hname, -⟩ := extendBody?_eq_some h
    have hamp := isSeal_of_isDelim hamp (by decide)
    have hcolon := isSeal_of_isDelim hcolon (by decide)
    have hname := isSeal_of_isWord hname
    simp_all

/-- What bounds nothing up to a bracket that closes, bounds nothing behind it. -/
theorem cut_bounds {depth : Nat} {close : Token} {inner after : List Token}
    (h : cut [')'] depth ts = (inner, close :: after)) (hclose : close.isDelim ')')
    (hbounds : (cut [';', '{', '}'] (depth + 1) ts).2 = []) : (head after).2 = [] := by
  obtain rfl : inner ++ close :: after = ts := by
    have happend := cut_append [')'] depth ts
    rwa [h] at happend
  rcases cut_bounds_enclosed h hclose with ⟨front, bound, more, hbound⟩ | hcross
  · rw [hbound] at hbounds
    cases hbounds
  · rw [List.append_cons, hcross after] at hbounds
    exact hbounds

/-- An extension opens one bracket, and nothing up to there bounds a statement. -/
theorem extendBody?_crosses {amp colon name bracket : Token} {rest : List Token}
    (h : extendBody? (amp :: colon :: name :: bracket :: rest) = some (bracket, rest)) :
    Crosses [';', '{', '}'] 0 [amp, colon, name, bracket] 1 := by
  obtain ⟨amp', colon', name', heq, hamp, hcolon, hname, hbracket⟩ := extendBody?_eq_some h
  simp only [List.cons.injEq] at heq
  obtain ⟨rfl, rfl, rfl, -⟩ := heq
  simp only [Token.isDelim, beq_iff_eq] at hamp hcolon hbracket
  have hword : depthAfter? [';', '{', '}'] 0 name = some 0 := by
    unfold Token.isWord at hname
    split at hname
    · simp_all [depthAfter?]
    · cases hname
  have hamp : depthAfter? [';', '{', '}'] 0 amp = some 0 := by simp [depthAfter?, hamp]
  have hcolon : depthAfter? [';', '{', '}'] 0 colon = some 0 := by simp [depthAfter?, hcolon]
  have hopen : depthAfter? [';', '{', '}'] 0 bracket = some 1 := by simp [depthAfter?, hbracket]
  exact .cons hamp (.cons hcolon (.cons hword (.cons hopen .nil)))

/-- An extension without a bound of its own leaves tokens without a bound. -/
theorem extend_unbounded {bracket : Token} {rest : List Token} (hts : Sealed ts)
    (h : extendBody? ts = some (bracket, rest)) (hhead : (head ts).2 = []) :
    Yields (fun (_, tail) => Sealed tail ∧ (head tail).2 = []) (extend bracket rest) := by
  obtain ⟨amp, colon, name, rfl, -, -, -, hbracket⟩ := extendBody?_eq_some h
  have hrest : Sealed rest :=
    hts.of_consumed ⟨[amp, colon, name], bracket, rfl, isSeal_of_isDelim hbracket (by decide)⟩
  have hbounds : (cut [';', '{', '}'] 1 rest).2 = [] := by
    have hcut := extendBody?_crosses h rest
    simp only [List.cons_append, List.nil_append] at hcut
    rwa [head, hcut] at hhead
  refine (enclosed_yields bracket '(' rest).bind ?_
  rintro ⟨inner, close, after⟩ ⟨hread, hcut, hclose⟩
  have hafter : Sealed after :=
    hrest.of_consumed ⟨inner, close, hread, isSeal_of_isDelim hclose (by decide)⟩
  simp only
  refine (Yields.any _).bind fun _ => ?_
  exact ⟨hafter, cut_bounds hcut hclose hbounds⟩

theorem endStatement_unbounded (hts : Sealed ts) (hhead : (head ts).2 = []) :
    Yields (fun _ => False) (endStatement ts) := by
  cases ts with
  | nil => exact absurd rfl hts.ne_nil
  | cons t ts =>
    have hbound (c : Char) (hc : c = ';' ∨ c = '{' ∨ c = '}') (ht : t.isDelim c) : False := by
      rw [head_of_bound ht hc] at hhead
      cases hhead
    simp only [endStatement]
    split
    · rename_i ht
      exact hbound ';' (by simp) ht
    · split
      · rename_i ht
        exact hbound '}' (by simp) ht
      · trivial

end Grammar

end Ranges

end StyleTally.Stylesheet
