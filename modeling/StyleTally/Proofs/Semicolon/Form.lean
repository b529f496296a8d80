import StyleTally.Proofs.Formula.Reading
import StyleTally.Proofs.Semicolon.Stop

/-!
# How a statement takes up its tokens

A statement that is read opens a body with a brace, whatever stands in the body, or is read up to
what ends it, whatever ends it. What stands further on decides nothing.
-/

namespace StyleTally.Stylesheet

section Ranges

variable {stops : List Char} {depth : Nat} {t : Token} {ts front tail : List Token}

/-- The search for the end of a range goes past all that stands in front of the end. -/
theorem crosses_of_cut (h : cut stops depth ts = (front, tail)) :
    ∃ depth', Crosses stops depth front depth' ∧
      ∀ t ∈ tail.head?, depthAfter? stops depth' t = none := by
  induction ts generalizing depth front with
  | nil =>
    cases h
    exact ⟨depth, .nil, by simp⟩
  | cons t ts ih =>
    rw [cut] at h
    cases hdepth : depthAfter? stops depth t with
    | none =>
      rw [hdepth] at h
      cases h
      exact ⟨depth, .nil, by simpa using hdepth⟩
    | some next =>
      cases hcut : cut stops next ts with
      | mk before after =>
      rw [hdepth] at h
      simp only [hcut] at h
      cases h
      obtain ⟨depth', hfront, htail⟩ := ih hcut
      exact ⟨depth', .cons hdepth hfront, htail⟩

/-- A range ends before the same token whatever stands behind that. -/
theorem cut_stable (h : cut stops depth ts = (front, t :: tail)) (more : List Token) :
    cut stops depth (front ++ t :: more) = (front, t :: more) := by
  obtain ⟨depth', hfront, ht⟩ := crosses_of_cut h
  exact hfront.cut_cons (ht t rfl) more

/-- A bracket encloses the same whatever stands behind its closer. -/
theorem enclosed_eq_ok {bracket close : Token} {opener : Char} {inner after : List Token}
    (h : enclosed bracket opener ts = .ok (inner, close, after)) :
    ts = inner ++ close :: after ∧
      ∀ more, enclosed bracket opener (inner ++ close :: more) = .ok (inner, close, more) := by
  obtain ⟨hts, hcut, hclose⟩ := (enclosed_yields bracket opener ts).of_ok h
  refine ⟨hts, fun more => ?_⟩
  rw [enclosed, cut_stable hcut more]
  simp only [hclose, if_true]

theorem Consumed.followed (h : Consumed front []) (tail : List Token) :
    Consumed (front ++ tail) tail := by
  obtain ⟨used, t, rfl, ht⟩ := h
  exact ⟨used, t, by simp, ht⟩

theorem Passed.followed (h : Passed front []) (tail : List Token) :
    Passed (front ++ tail) tail := by
  rcases h with rfl | h
  · exact .refl tail
  · exact .inr (h.followed tail)

end Ranges

namespace Grammar

open Value (derives_grammatical)
open Statement (shaped_grammatical)

/-- What may stand behind a statement in place of what does. -/
def EndsLike (tail tail' : List Token) : Prop :=
  tail' = [] ∨ startsWithDelim '}' tail' = true ∨
    startsWithDelim ';' tail = true ∧ startsWithDelim ';' tail' = true

section Heads

variable {t : Token} {ts front tail tail' : List Token}

theorem EndsLike.not_brace (h : EndsLike tail tail') : startsWithDelim '{' tail' = false := by
  cases tail' with
  | nil => rfl
  | cons t tail' =>
    rcases h with h | h | ⟨-, h⟩
    · cases h
    all_goals
      simp only [startsWithDelim, Token.isDelim, beq_iff_eq] at h
      simp [startsWithDelim, Token.isDelim, h]

theorem EndsLike.isSeal (h : EndsLike tail tail') : ∀ t ∈ tail'.head?, t.isSeal = true := by
  intro t ht
  cases tail' with
  | nil => cases ht
  | cons u tail' =>
    obtain rfl : u = t := by simpa using ht
    rcases h with h | h | ⟨-, h⟩
    · cases h
    all_goals
      simp only [startsWithDelim] at h
      simp [Token.isSeal, h]

/-- A brace bounds a statement at every depth, a semicolon outside brackets only. -/
theorem EndsLike.depthAfter? (h : EndsLike tail tail') {depth : Nat}
    (htail : ∀ t ∈ tail.head?, depthAfter? [';', '{', '}'] depth t = none) :
    ∀ t ∈ tail'.head?, Stylesheet.depthAfter? [';', '{', '}'] depth t = none := by
  intro t ht
  cases tail' with
  | nil => cases ht
  | cons u tail' =>
    obtain rfl : u = t := by simpa using ht
    rcases h with h | h | ⟨hend, h⟩
    · cases h
    · simp only [startsWithDelim, Token.isDelim, beq_iff_eq] at h
      simp [Stylesheet.depthAfter?, h]
    · cases tail with
      | nil => cases hend
      | cons v tail =>
        have hv := htail v rfl
        simp only [startsWithDelim, Token.isDelim, beq_iff_eq] at h hend
        simp only [Stylesheet.depthAfter?, h, hend] at hv ⊢
        exact hv

theorem head_stable (h : head ts = (front, t :: tail)) (more : List Token) :
    head (front ++ t :: more) = (front, t :: more) := cut_stable h more

theorem head_ends (h : head ts = (front, tail)) (hends : EndsLike tail tail') :
    head (front ++ tail') = (front, tail') := by
  obtain ⟨depth, hfront, htail⟩ := crosses_of_cut h
  cases tail' with
  | nil =>
    rw [List.append_nil]
    exact hfront.cut_eq
  | cons t tail' => exact hfront.cut_cons (hends.depthAfter? htail t rfl) tail'

theorem head_append (h : head ts = (front, tail)) : ts = front ++ tail := by
  have happend : (head ts).1 ++ (head ts).2 = ts := cut_append _ 0 ts
  rw [h] at happend
  exact happend.symm

end Heads

/-- What stands around the statements of a body. -/
inductive Frame where
  | block (name : Option String)
  | ruleset (selectors : List Selector) (guard : Option (List Value))
  | mixin (name : String) (params : List Parameter) (guard : Option (List Value))
  | media (features : Option (List Value))
  | blockDirective (name : String) (params : String)

/-- The statement that has a body of these statements. -/
def Frame.around (frame : Frame) (ss : List Statement) : Statement :=
  match frame with
  | block name => .block name ss
  | ruleset selectors guard => .ruleset selectors guard ss
  | mixin name params guard => .mixin name params guard ss
  | media features => .media features ss
  | blockDirective name params => .blockDirective name params ss

/-- What the brace of the body is, where it opens a level. -/
def Frame.opening : Frame → Opening
  | block none => .block
  | ruleset _ _ | mixin _ _ _ => .ruleset
  | block (some _) | media _ | blockDirective _ _ => .atRule

/-- Rules for statements, over the rule for the bodies in them. -/
abbrev Production := Body → Rule Statement

/-- The production reads the body that the brace opens behind these tokens, and frames it. -/
def Opens (p : Production) (before : List Token) (brace : Token) (frame : Frame) : Prop :=
  ∀ body stop more, p body stop (before ++ brace :: more) =
    (body frame.opening stop (brace :: more)).map fun (ss, rest) => (frame.around ss, rest)

/-- The production reads the statement from these tokens, whatever ends it there. -/
def Ends (p : Production) (used tail : List Token) (s : Statement) : Prop :=
  ∀ body stop tail', EndsLike tail tail' →
    p body stop (used ++ tail') = (endStatement tail').map fun rest => (s, rest)

/-- How a statement that is read takes up its tokens. -/
inductive Formed (p : Production) (body : Body) (stop : Token)
    (ts : List Token) (s : Statement) (after : List Token) : Prop
  | opening {before : List Token} {brace : Token} {inner : List Token} {frame : Frame}
      {ss : List Statement} (hts : ts = before ++ brace :: inner) (hbrace : brace.isDelim '{' = true)
      (h : Opens p before brace frame)
      (hbody : body frame.opening stop (brace :: inner) = .ok (ss, after))
      (hs : s = frame.around ss)
  | ended {used tail : List Token} (hts : ts = used ++ tail) (hread : Passed ts tail)
      (h : Ends p used tail s) (hend : endStatement tail = .ok after)

/-- A statement that is read has a body that is read, if the production opens one. -/
theorem Formed.of_opens {p : Production} {body : Body} {stop brace : Token}
    {ts before inner after : List Token} {frame : Frame} {s : Statement}
    (hts : ts = before ++ brace :: inner) (hbrace : brace.isDelim '{' = true)
    (h : Opens p before brace frame) (hread : p body stop ts = .ok (s, after)) :
    Formed p body stop ts s after := by
  rw [hts, h body stop inner] at hread
  cases hbody : body frame.opening stop (brace :: inner) with
  | error e =>
    rw [hbody] at hread
    cases hread
  | ok found =>
    rw [hbody] at hread
    cases hread
    exact .opening hts hbrace h hbody rfl

section Forms

variable {room : Room} {body : Body} {stop : Token} {ts rest after : List Token}
  {s : Statement}

theorem exists_of_bind {α β : Type} {x : Except Fault α} {f : α → Except Fault β} {b : β}
    (h : x >>= f = .ok b) : ∃ a, x = .ok a ∧ f a = .ok b := by
  cases x with
  | error e => cases h
  | ok a => exact ⟨a, rfl, h⟩

theorem exists_of_map {α β : Type} {x : Except Fault α} {f : α → β} {b : β}
    (h : x.map f = .ok b) : ∃ a, x = .ok a ∧ f a = b := by
  cases x with
  | error e => cases h
  | ok a => exact ⟨a, rfl, Except.ok.inj h⟩

theorem map_around (x : Except Fault (List Statement × List Token)) (frame : Frame) :
    (do
      let (ss, rest) ← x
      return (frame.around ss, rest)) = x.map fun (ss, rest) => (frame.around ss, rest) := by
  cases x <;> rfl

theorem media_formed (h : media room body stop ts = .ok (s, after)) :
    Formed (media room) body stop ts s after := by
  unfold media at h
  cases hhead : head ts with
  | mk front tail =>
  rw [hhead] at h
  cases hbrace : startsWithDelim '{' tail with
  | false =>
    simp only [hbrace] at h
    cases h
  | true =>
    simp only [hbrace, Bool.not_true, Bool.false_eq_true, if_false] at h
    obtain ⟨features, hfeatures, h⟩ := exists_of_bind h
    obtain ⟨⟨ss, rest⟩, hbody, h⟩ := exists_of_bind h
    cases h
    cases tail with
    | nil => cases hbrace
    | cons brace inner =>
      have hopens : Opens (media room) front brace (.media features) := by
        intro body stop more
        have hbrace : startsWithDelim '{' (brace :: more) = true := hbrace
        rw [List.headD_cons] at hfeatures
        rw [media, head_stable hhead, ← map_around]
        simp only [hbrace, Bool.not_true, Bool.false_eq_true, if_false, List.headD_cons, hfeatures]
        rfl
      exact .opening (head_append hhead) hbrace hopens hbody rfl

/-- The options of an import are read the same in front of the same token. -/
theorem importOptions_eq_ok {options : List String} {us : List Token}
    (h : importOptions ts = .ok (options, us)) :
    ∃ front, ts = front ++ us ∧
      ∀ us', us'.head? = us.head? → importOptions (front ++ us') = .ok (options, us') := by
  cases ts with
  | nil =>
    cases h
    refine ⟨[], rfl, fun us' hus' => ?_⟩
    obtain rfl : us' = [] := by simpa using hus'
    rfl
  | cons t rest =>
    simp only [importOptions] at h
    split at h
    · rename_i ht
      obtain ⟨⟨inner, close, after⟩, henclosed, h⟩ := exists_of_bind h
      cases h
      obtain ⟨rfl, hstable⟩ := enclosed_eq_ok henclosed
      refine ⟨t :: (inner ++ [close]), by simp, fun us' _ => ?_⟩
      simp only [List.cons_append, List.append_assoc, List.nil_append, importOptions, ht, if_true]
      rw [hstable us']
      rfl
    · rename_i ht
      cases h
      refine ⟨[], rfl, fun us' hus' => ?_⟩
      cases us' with
      | nil => cases hus'
      | cons u us' =>
        cases hus'
        simp only [List.nil_append, importOptions, ht]
        rfl

theorem imported_formed (h : imported room stop ts = .ok (s, after)) :
    Formed (fun _ => imported room) body stop ts s after := by
  obtain ⟨⟨options, us⟩, hoptions, hrest⟩ := exists_of_bind h
  have hpassed := (importOptions_yields ts).of_ok hoptions
  obtain ⟨opening, rfl, hstable⟩ := importOptions_eq_ok hoptions
  cases hhead : head us with
  | mk front tail =>
  simp only [hhead] at hrest
  cases hfront : front.isEmpty with
  | true =>
    rw [hfront] at hrest
    cases hrest
  | false =>
    simp only [hfront, Bool.false_eq_true, if_false] at hrest
    obtain ⟨⟨path, more⟩, hpath, hrest⟩ := exists_of_bind hrest
    obtain ⟨features, hfeatures, hrest⟩ := exists_of_bind hrest
    obtain ⟨last, hend, hrest⟩ := exists_of_bind hrest
    cases hrest
    obtain rfl := head_append hhead
    have hends : Ends (fun _ => imported room) (opening ++ front) tail
        (.imported path features options) := by
      intro body stop' tail' htail
      have hus : (front ++ tail').head? = (front ++ tail).head? := by
        cases front with
        | nil => cases hfront
        | cons t front => rfl
      have hpath' := primary_indifferent (room.below operand) _ (tail'.headD stop') _ _ hpath
      have hfeatures' := mediaQueriesIfAny_follows room _ (tail'.headD stop') _ _ hfeatures
      change imported room stop' _ = _
      rw [List.append_assoc, imported, hstable _ hus]
      simp only [bind, Except.bind, head_ends hhead htail, hfront, Bool.false_eq_true, if_false, hpath',
        id, hfeatures']
      cases endStatement tail' <;> rfl
    have hfront : Consumed front [] := by
      have hprimary := primary_reads derives_grammatical (below_reads derives_grammatical room)
      have hqueries := mediaQueriesIfAny_yields derives_grammatical room (tail.headD stop) more
      exact ((hprimary _ _).of_ok hpath).2.passed (hqueries.of_ok hfeatures).2
    have hread := hpassed.trans (.inr (hfront.followed tail))
    exact .ended (by rw [List.append_assoc]) hread hends hend

/-- A definition without a body is read up to its bound, and defines something. -/
theorem definition_ends {name : String} {front tail : List Token} (hhead : head ts = (front, tail))
    (hbrace : startsWithDelim '{' ts = false)
    (h : definition room body name stop ts = .ok (s, after)) :
    front ≠ [] ∧ Passed ts tail ∧ endStatement tail = .ok after ∧
      Ends (fun body => definition room body name) front tail s := by
  obtain rfl := head_append hhead
  rw [definition, hbrace, hhead] at h
  simp only [Bool.false_eq_true, if_false] at h
  obtain ⟨⟨v?, important⟩, hv, h⟩ := exists_of_bind h
  have hread := ((declarationValue_yields derives_grammatical room _ front).of_ok hv).2
  cases v? with
  | none => cases h
  | some v =>
    obtain ⟨last, hend, h⟩ := exists_of_bind h
    cases h
    have hfront : front ≠ [] := by
      rintro rfl
      cases hv
    refine ⟨hfront, hread.followed tail, hend, fun body stop' tail' htail => ?_⟩
    have hv' := declarationValue_follows room _ (tail'.headD stop') _ _ hv
    have hbrace' : startsWithDelim '{' (front ++ tail') = false := by
      cases front with
      | nil => exact absurd rfl hfront
      | cons t front => exact hbrace
    change definition room body name stop' _ = _
    rw [definition, hbrace', head_ends hhead htail]
    simp only [Bool.false_eq_true, if_false, bind, Except.bind, hv', id]
    cases endStatement tail' <;> rfl

theorem directive_opens (name : String) {front inner : List Token} {brace : Token}
    (hhead : head ts = (front, brace :: inner)) (hbrace : brace.isDelim '{' = true) :
    Opens (fun body => directive room body name) front brace
      (.blockDirective ("@" ++ name) (textOf front)) := by
  intro body stop more
  change directive room body name stop _ = _
  rw [directive, head_stable hhead, ← map_around]
  simp only [startsWithDelim, hbrace, if_true]
  rfl

theorem directive_ends {name : String} {front tail : List Token} (hhead : head ts = (front, tail))
    (hbrace : startsWithDelim '{' tail = false)
    (h : directive room body name stop ts = .ok (s, after)) :
    Passed ts tail ∧ endStatement tail = .ok after ∧
      Ends (fun body => directive room body name) front tail s := by
  obtain rfl := head_append hhead
  rw [directive, hhead] at h
  simp only [hbrace, Bool.false_eq_true, if_false] at h
  obtain ⟨v?, hv, h⟩ := exists_of_bind h
  obtain ⟨last, hend, h⟩ := exists_of_bind h
  cases h
  have hread := ((valueIfAny_yields derives_grammatical room _ front).of_ok hv).2
  refine ⟨hread.followed tail, hend, fun body stop' tail' htail => ?_⟩
  have hv' := valueIfAny_follows room _ (tail'.headD stop') _ _ hv
  change directive room body name stop' _ = _
  rw [directive, head_ends hhead htail]
  simp only [htail.not_brace, Bool.false_eq_true, if_false, bind, Except.bind, hv', id]
  cases endStatement tail' <;> rfl

theorem blockCall_formed {name : String} {bracket : Token}
    (h : blockCall room name bracket ts = .ok (s, after)) :
    ∃ used tail, ts = used ++ tail ∧ Passed ts tail ∧ endStatement tail = .ok after ∧
      ∀ tail', blockCall room name bracket (used ++ tail') =
        (endStatement tail').map fun rest => (s, rest) := by
  obtain ⟨⟨args, tail⟩, hargs, h⟩ := exists_of_bind h
  have hread := ((argumentsFrom_yields derives_grammatical room bracket ts).of_ok hargs).2
  obtain ⟨⟨inner, close, tail⟩, henclosed, hargs⟩ := exists_of_bind hargs
  obtain ⟨operand, hoperand, hargs⟩ := exists_of_bind hargs
  obtain ⟨args, hinner, hargs⟩ := exists_of_bind hargs
  cases hargs
  obtain ⟨last, hend, h⟩ := exists_of_bind h
  cases h
  obtain ⟨rfl, hstable⟩ := enclosed_eq_ok henclosed
  refine ⟨inner ++ [close], tail, by simp, .inr hread, hend, fun tail' => ?_⟩
  simp only [blockCall, argumentsFrom, List.append_assoc, List.singleton_append, hstable, hoperand,
    hinner, bind, Except.bind, pure, Except.pure]
  cases endStatement tail' <;> rfl

/-- Whether an at-rule, after its name, is one without a form of its own. -/
def opensDirective : List Token → Bool
  | [] => true
  | t :: rest =>
    if t.isDelim ':' then !startsWithDelim '{' rest && startsWithDelim '{' (head rest).2
    else !(t.isDelim '(' && !t.spaced)

theorem head_colon {t : Token} (ht : t.isDelim ':' = true) (rest : List Token) :
    head (t :: rest) = (t :: (head rest).1, (head rest).2) := by
  simp only [Token.isDelim, beq_iff_eq] at ht
  have hdepth : depthAfter? [';', '{', '}'] 0 t = some 0 := by
    simp [depthAfter?, ht]
  rw [head, head, cut, hdepth]

theorem opensDirective_stable {front inner : List Token} {brace : Token}
    (hhead : head ts = (front, brace :: inner)) (hbrace : brace.isDelim '{' = true)
    (h : opensDirective ts = true) (more : List Token) :
    opensDirective (front ++ brace :: more) = true := by
  obtain rfl := head_append hhead
  cases front with
  | nil =>
    simp only [Token.isDelim, beq_iff_eq] at hbrace
    simp [opensDirective, Token.isDelim, hbrace]
  | cons t front =>
    rw [List.cons_append] at h hhead ⊢
    by_cases ht : t.isDelim ':' = true
    · rw [head_colon ht, Prod.mk.injEq, List.cons.injEq] at hhead
      have hhead' := head_stable (Prod.ext hhead.1.2 hhead.2) more
      simp only [opensDirective, ht, if_true, Bool.and_eq_true, Bool.not_eq_true'] at h ⊢
      rw [hhead']
      refine ⟨?_, hbrace⟩
      cases front with
      | nil => exact absurd hbrace (by simpa [startsWithDelim] using h.1)
      | cons u front => exact h.1
    · simp only [opensDirective, ht] at h ⊢
      exact h

theorem opensDirective_ends {front tail tail' : List Token} (hhead : head ts = (front, tail))
    (hbrace : startsWithDelim '{' tail = false) (hends : EndsLike tail tail')
    (h : opensDirective ts = true) : opensDirective (front ++ tail') = true := by
  obtain rfl := head_append hhead
  cases front with
  | nil =>
    cases tail' with
    | nil => rfl
    | cons t tail' =>
      rcases hends with ht | ht | ⟨-, ht⟩
      · cases ht
      all_goals
        simp only [startsWithDelim, Token.isDelim, beq_iff_eq] at ht
        simp [opensDirective, Token.isDelim, ht]
  | cons t front =>
    rw [List.cons_append] at h hhead ⊢
    by_cases ht : t.isDelim ':' = true
    · rw [head_colon ht, Prod.mk.injEq] at hhead
      simp only [opensDirective, ht, if_true, hhead.2, hbrace, Bool.and_false] at h
      cases h
    · simp only [opensDirective, ht] at h ⊢
      exact h

theorem Formed.congr {p q : Production} (h : Formed p body stop ts s after)
    (heq : ∀ body stop us, q body stop us = p body stop us) : Formed q body stop ts s after := by
  cases h with
  | opening hts hbrace h hbody hs =>
    exact .opening hts hbrace (fun body stop more => (heq body stop _).trans (h body stop more)) hbody hs
  | ended hts hread h hend =>
    exact .ended hts hread (fun body stop tail' ht => (heq body stop _).trans (h body stop tail' ht)) hend

section AtRules

variable {name : String} (hmedia : (Text.lowerCase name == "media") = false)
  (himport : isImportName (Text.lowerCase name) = false)
include hmedia himport

theorem atRule_directive (body : Body) (stop : Token)
    (h : opensDirective ts = true) :
    atRule room body name stop ts = directive room body name stop ts := by
  cases ts with
  | nil => simp [atRule, hmedia, himport]
  | cons t rest =>
    simp only [opensDirective] at h
    simp only [atRule, hmedia, himport, Bool.false_eq_true, if_false]
    split at h
    · rename_i ht
      simp only [Bool.and_eq_true, Bool.not_eq_true'] at h
      simp [ht, h]
    · rename_i ht
      simp only [Bool.not_eq_true'] at h
      simp only [ht, h, Bool.false_eq_true, if_false]

theorem atRule_definition {t : Token} (ht : t.isDelim ':' = true) (body : Body)
    (stop : Token) (h : opensDirective (t :: rest) = false) :
    atRule room body name stop (t :: rest) = definition room body name stop rest := by
  simp only [opensDirective, ht, if_true] at h
  simp only [atRule, hmedia, himport, ht, if_true, Bool.false_eq_true, if_false]
  rw [if_pos]
  cases hbrace : startsWithDelim '{' rest <;> simp_all

theorem atRule_call {t : Token} (ht : t.isDelim ':' = false) (body : Body)
    (stop : Token) (h : opensDirective (t :: rest) = false) :
    atRule room body name stop (t :: rest) = blockCall room name t rest := by
  simp only [opensDirective, ht, Bool.false_eq_true, if_false, Bool.not_eq_false'] at h
  simp only [atRule, hmedia, himport, ht, h, if_true, Bool.false_eq_true, if_false]

theorem directive_formed (h : directive room body name stop ts = .ok (s, after))
    (hopens : opensDirective ts = true) :
    Formed (fun body => atRule room body name) body stop ts s after := by
  cases hhead : head ts with
  | mk front tail =>
  cases hbrace : startsWithDelim '{' tail with
  | true =>
    cases tail with
    | nil => cases hbrace
    | cons brace inner =>
      have hopens : Opens (fun body => atRule room body name) front brace
          (.blockDirective ("@" ++ name) (textOf front)) := by
        intro body stop more
        have hopens' := opensDirective_stable hhead hbrace hopens more
        exact (atRule_directive hmedia himport body stop hopens').trans
          (directive_opens name hhead hbrace body stop more)
      exact .of_opens (head_append hhead) hbrace hopens
        ((atRule_directive hmedia himport body stop ‹_›).trans h)
  | false =>
    obtain ⟨hread, hend, hends⟩ := directive_ends hhead hbrace h
    refine .ended (head_append hhead) hread (fun body stop' tail' htail => ?_) hend
    have hopens' := opensDirective_ends hhead hbrace htail hopens
    exact (atRule_directive hmedia himport body stop' hopens').trans (hends body stop' tail' htail)

theorem definition_formed {t : Token} (ht : t.isDelim ':' = true)
    (h : atRule room body name stop (t :: rest) = .ok (s, after))
    (hopens : opensDirective (t :: rest) = false) :
    Formed (fun body => atRule room body name) body stop (t :: rest) s after := by
  cases hbrace : startsWithDelim '{' rest with
  | true =>
    cases rest with
    | nil => cases hbrace
    | cons brace inner =>
      have hreads : Opens (fun body => atRule room body name) [t] brace (.block (some name)) := by
        intro body stop more
        have hbrace' : startsWithDelim '{' (brace :: more) = true := hbrace
        have hopens' : opensDirective (t :: brace :: more) = false := by
          simp [opensDirective, ht, hbrace']
        refine (atRule_definition hmedia himport ht body stop hopens').trans ?_
        rw [definition, ← map_around]
        simp only [hbrace', if_true]
        rfl
      exact .of_opens rfl hbrace hreads h
  | false =>
    rw [atRule_definition hmedia himport ht body stop hopens] at h
    cases hhead : head rest with
    | mk front tail =>
    obtain ⟨hfront, hread, hend, hends⟩ := definition_ends hhead hbrace h
    have hcolon : Consumed (t :: rest) rest := .single (isSeal_of_isDelim ht (by decide))
    have hends' : Ends (fun body => atRule room body name) (t :: front) tail s := by
      intro body stop' tail' htail
      have hopens' : opensDirective (t :: (front ++ tail')) = false := by
        simp [opensDirective, ht, head_ends hhead htail, htail.not_brace]
      exact (atRule_definition hmedia himport ht body stop' hopens').trans (hends body stop' tail' htail)
    exact .ended (congrArg (t :: ·) (head_append hhead)) (.inr (hcolon.passed hread)) hends' hend

end AtRules

theorem atRule_formed {name : String} (h : atRule room body name stop ts = .ok (s, after)) :
    Formed (fun body => atRule room body name) body stop ts s after := by
  cases hmedia : Text.lowerCase name == "media" with
  | true =>
    have heq (body : Body) (stop : Token) (us : List Token) :
        atRule room body name stop us = media room body stop us := by
      simp only [atRule, hmedia, if_true]
    rw [heq] at h
    exact (media_formed h).congr heq
  | false =>
    cases himport : isImportName (Text.lowerCase name) with
    | true =>
      have heq (body : Body) (stop : Token) (us : List Token) :
          atRule room body name stop us = imported room stop us := by
        simp only [atRule, hmedia, himport, Bool.false_eq_true, if_false, if_true]
      rw [heq] at h
      exact (imported_formed h).congr heq
    | false =>
      cases hopens : opensDirective ts with
      | true =>
        rw [atRule_directive hmedia himport body stop hopens] at h
        exact directive_formed hmedia himport h hopens
      | false =>
        cases ts with
        | nil => cases hopens
        | cons t rest =>
          cases ht : t.isDelim ':' with
          | true =>
            exact definition_formed hmedia himport ht h hopens
          | false =>
            rw [atRule_call hmedia himport ht body stop hopens] at h
            obtain ⟨used, tail, rfl, hread, hend, hreads⟩ := blockCall_formed h
            have hbracket : (t.isDelim '(' && !t.spaced) = true := by
              simpa only [opensDirective, ht, Bool.false_eq_true, if_false, Bool.not_eq_false']
                using hopens
            simp only [Bool.and_eq_true] at hbracket
            have hopen : Consumed (t :: (used ++ tail)) (used ++ tail) :=
              .single (isSeal_of_isDelim hbracket.1 (by decide))
            have hends : Ends (fun body => atRule room body name) (t :: used) tail s := by
              intro body stop' tail' _
              have hopens' : opensDirective (t :: (used ++ tail')) = false := by
                simpa only [opensDirective, ht, Bool.false_eq_true, if_false] using hopens
              exact (atRule_call hmedia himport ht body stop' hopens').trans (hreads tail')
            exact .ended rfl (.inr (hopen.passed hread)) hends hend

end Forms

end Grammar

end StyleTally.Stylesheet
