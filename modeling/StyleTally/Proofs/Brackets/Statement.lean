import StyleTally.Proofs.Brackets.Selector
import StyleTally.Proofs.Shape.Statement

/-!
# Brackets of statements

What the rules for statements pass over unread besides: the name of a declaration, the options of an
import, and whatever stands between an at keyword and the brace of its body. The look-ahead to the
end of a statement counts round and square brackets there, and stops at the first brace.
-/

namespace StyleTally.Stylesheet

open Text (lowerCase)

/-- Whether a token opens an import. -/
def Token.opensImport (t : Token) : Bool :=
  match t.lexeme with
  | .atKeyword name => !(lowerCase name == "media") && Grammar.isImportName (lowerCase name)
  | _ => false

/-- Whether a token opens an at-rule whose text in front of the body is kept as it is written. -/
def Token.opensPrelude (t : Token) : Bool :=
  match t.lexeme with
  | .atKeyword name => !(lowerCase name == "media") && !Grammar.isImportName (lowerCase name)
  | _ => false

/-- Whether a token can open a declaration. -/
def Token.opensDeclaration (t : Token) : Bool :=
  match t.lexeme with
  | .atKeyword _ => false
  | _ => !Grammar.opensMixinCall t

/-- A text without braces that counts to `depth`. -/
def Unread (depth : Nat) (ts : List Token) : Prop :=
  CountsTo depth ts ∧ ∀ t ∈ ts, t.isBrace = false

/-- The abridgement of a statement without a body and without the semicolon that ends it. -/
inductive AbridgedSimple : List Token → List Token → Prop
  | text {ts vs : List Token} (h : Abridged false ts vs) : AbridgedSimple ts vs
  | declaration {t colon : Token} {name ts vs : List Token} (ht : t.opensDeclaration)
      (hname : Unread 0 (t :: name)) (hcolon : colon.isDelim ':') (h : Abridged false ts vs) :
      AbridgedSimple (t :: name ++ colon :: ts) (colon :: vs)
  | extend {amp colon name opener closer : Token} {inner vs : List Token}
      (hextend : Grammar.extendBody? [amp, colon, name, opener] = some (opener, []))
      (h : Abridged true inner vs) (hcloser : closer.isDelim ')') :
      AbridgedSimple (amp :: colon :: name :: opener :: inner ++ [closer])
        (amp :: colon :: name :: opener :: vs ++ [closer])
  | imported {t opener closer : Token} {options ts vs : List Token} (ht : t.opensImport)
      (hopener : opener.isDelim '(') (hoptions : CountsTo 0 options) (hcloser : closer.isDelim ')')
      (h : Abridged false ts vs) :
      AbridgedSimple (t :: opener :: options ++ closer :: ts) (t :: opener :: closer :: vs)

/-- The abridgement of what stands in front of the brace of a body. -/
inductive AbridgedHead : List Token → List Token → Prop
  | text {ts vs : List Token} (h : Abridged false ts vs) : AbridgedHead ts vs
  | ruleset {ts vs us ws : List Token} (hselectors : Abridged true ts vs)
      (hwhen : us = [] ∨ startsWithWord "when" us) (hguard : Abridged false us ws) :
      AbridgedHead (ts ++ us) (vs ++ ws)
  | prelude {t : Token} {front : List Token} {depth : Nat} (ht : t.opensPrelude)
      (hfront : Unread depth front) : AbridgedHead (t :: front) [t]

/-- The abridgement of the statements of a body or of a whole stylesheet. -/
inductive AbridgedBody : List Token → List Token → Prop
  | nil : AbridgedBody [] []
  | semicolon {t : Token} {ts vs : List Token} (ht : t.isDelim ';') (h : AbridgedBody ts vs) :
      AbridgedBody (t :: ts) (t :: vs)
  | simple {us ws ts vs : List Token} (hsimple : AbridgedSimple us ws)
      (hends : ts = [] ∨ startsWithDelim ';' ts) (h : AbridgedBody ts vs) :
      AbridgedBody (us ++ ts) (ws ++ vs)
  | block {opener closer : Token} {us ws inner vs ts xs : List Token} (hhead : AbridgedHead us ws)
      (hopener : opener.isDelim '{') (hinner : AbridgedBody inner vs) (hcloser : closer.isDelim '}')
      (h : AbridgedBody ts xs) :
      AbridgedBody (us ++ (opener :: inner ++ closer :: ts)) (ws ++ (opener :: vs ++ closer :: xs))

/-- The abridgement of a statement without a body is balanced. -/
def LegibleSimple (ts : List Token) : Prop := ∃ vs, AbridgedSimple ts vs ∧ Balanced vs

def LegibleHead (ts : List Token) : Prop := ∃ vs, AbridgedHead ts vs ∧ Balanced vs

def LegibleBody (ts : List Token) : Prop := ∃ vs, AbridgedBody ts vs ∧ Balanced vs

section Legible

variable {t u : Token} {ts us : List Token}

theorem Legible.simple (h : Legible false ts) : LegibleSimple ts := by
  obtain ⟨vs, hvs, hv⟩ := h
  exact ⟨vs, .text hvs, hv⟩

theorem Legible.head (h : Legible false ts) : LegibleHead ts := by
  obtain ⟨vs, hvs, hv⟩ := h
  exact ⟨vs, .text hvs, hv⟩

theorem LegibleSimple.declaration {colon : Token} (ht : t.opensDeclaration = true)
    (hname : Unread 0 (t :: us)) (hcolon : colon.isDelim ':' = true) (h : Legible false ts) :
    LegibleSimple (t :: us ++ colon :: ts) := by
  obtain ⟨vs, hvs, hv⟩ := h
  exact ⟨colon :: vs, .declaration ht hname hcolon hvs,
    .cons (Token.isBracket_of_isDelim hcolon rfl) hv⟩

theorem isBracket_of_opensImport (h : t.opensImport = true) : t.isBracket = false := by
  unfold Token.opensImport at h
  split at h
  · exact Token.isBracket_of_lexeme ‹_› rfl
  · cases h

theorem LegibleSimple.imported {opener closer : Token} (ht : t.opensImport = true)
    (hopener : opener.isDelim '(' = true) (hoptions : CountsTo 0 us)
    (hcloser : closer.isDelim ')' = true) (h : Legible false ts) :
    LegibleSimple (t :: opener :: us ++ closer :: ts) := by
  obtain ⟨vs, hvs, hv⟩ := h
  refine ⟨t :: opener :: closer :: vs, .imported ht hopener hoptions hcloser hvs, ?_⟩
  exact .cons (isBracket_of_opensImport ht) ((Balanced.round hopener hcloser .nil).append hv)

theorem LegibleHead.ruleset (hselectors : Legible true ts)
    (hwhen : us = [] ∨ startsWithWord "when" us = true) (hguard : Legible false us) :
    LegibleHead (ts ++ us) := by
  obtain ⟨vs, hvs, hv⟩ := hselectors
  obtain ⟨ws, hws, hw⟩ := hguard
  exact ⟨vs ++ ws, .ruleset hvs hwhen hws, hv.append hw⟩

theorem LegibleHead.prelude {depth : Nat} (ht : t.opensPrelude = true) (hfront : Unread depth ts) :
    LegibleHead (t :: ts) := by
  have hplain : t.isBracket = false := by
    unfold Token.opensPrelude at ht
    split at ht
    · exact Token.isBracket_of_lexeme ‹_› rfl
    · cases ht
  exact ⟨[t], .prelude ht hfront, .single hplain⟩

theorem LegibleBody.nil : LegibleBody [] := ⟨[], .nil, .nil⟩

theorem LegibleBody.semicolon (ht : t.isDelim ';' = true) (h : LegibleBody ts) :
    LegibleBody (t :: ts) := by
  obtain ⟨vs, hvs, hv⟩ := h
  exact ⟨t :: vs, .semicolon ht hvs, .cons (Token.isBracket_of_isDelim ht rfl) hv⟩

theorem LegibleBody.simple (hsimple : LegibleSimple us)
    (hends : ts = [] ∨ startsWithDelim ';' ts = true) (h : LegibleBody ts) :
    LegibleBody (us ++ ts) := by
  obtain ⟨ws, hws, hw⟩ := hsimple
  obtain ⟨vs, hvs, hv⟩ := h
  exact ⟨ws ++ vs, .simple hws hends hvs, hw.append hv⟩

/-- A body in its braces. -/
def Enclosed (ts : List Token) : Prop :=
  ∃ opener inner closer, ts = opener :: inner ++ [closer] ∧ opener.isDelim '{' = true ∧
    LegibleBody inner ∧ closer.isDelim '}' = true

theorem LegibleBody.block (hhead : LegibleHead us) {body : List Token} (hbody : Enclosed body)
    (h : LegibleBody ts) : LegibleBody (us ++ (body ++ ts)) := by
  obtain ⟨ws, hws, hw⟩ := hhead
  obtain ⟨opener, inner, closer, rfl, hopener, ⟨vs, hvs, hv⟩, hcloser⟩ := hbody
  obtain ⟨xs, hxs, hx⟩ := h
  have hbraces : Balanced (opener :: vs ++ [closer]) := .braces hopener hcloser hv
  refine ⟨ws ++ (opener :: vs ++ closer :: xs), ?_, ?_⟩
  · simpa using AbridgedBody.block hws hopener hvs hcloser hxs
  · simpa using hw.append (hbraces.append hx)

end Legible

namespace Grammar

/-- A statement was read up to `rest`: whatever statements may stand next, all of it is legible. A
statement that no semicolon ends is the last one. -/
def StatementRead (ts rest : List Token) : Prop :=
  (∃ used, ts = used ++ rest ∧ ∀ more, LegibleBody more → LegibleBody (used ++ more)) ∨
    ∃ used, ts = used ++ rest ∧ LegibleSimple used ∧ (rest = [] ∨ startsWithDelim '}' rest = true)

section Ranges

variable {ts rest : List Token}

theorem isBrace_of_head (ts : List Token) : ∀ t ∈ (head ts).1, t.isBrace = false := by
  have hall : ∀ depth, ∀ t ∈ (cut [';', '{', '}'] depth ts).1, t.isBrace = false := by
    induction ts with
    | nil => simp [cut]
    | cons t ts ih =>
      intro depth
      rw [cut]
      split
      · simp
      · rename_i next hnext
        refine List.forall_mem_cons.mpr ⟨?_, ih next⟩
        simp only [Token.isBrace, Token.isDelim, Bool.or_eq_false_iff, beq_eq_false_iff_ne, ne_eq]
        constructor <;> intro ht <;> simp [depthAfter?, ht] at hnext
  exact hall 0

theorem head_unread {front tail : List Token} (hhead : head ts = (front, tail)) :
    ts = front ++ tail ∧ ∃ depth, Unread depth front := by
  obtain ⟨depth, hcount, -⟩ := cut_counts [';', '{', '}'] 0 ts
  have happend : (head ts).1 ++ (head ts).2 = ts := cut_append _ 0 ts
  have hbrace := isBrace_of_head ts
  have hcount : CountsTo depth (head ts).1 := hcount
  rw [hhead] at happend hbrace hcount
  exact ⟨happend.symm, depth, hcount, hbrace⟩

/-- A statement without a body is read with the semicolon that ends it, or is the last one. -/
theorem endStatement_read {used tail : List Token} (hused : LegibleSimple used) :
    Yields (fun rest => StatementRead (used ++ tail) rest) (endStatement tail) := by
  unfold endStatement
  split
  · exact .inr ⟨used, rfl, hused, .inl rfl⟩
  · rename_i t rest
    split
    · rename_i ht
      refine .inl ⟨used ++ [t], by simp, fun more hmore => ?_⟩
      rw [List.append_assoc]
      exact .simple hused (.inr (by simpa [startsWithDelim] using ht)) (.semicolon ht hmore)
    · split
      · rename_i ht
        exact .inr ⟨used, rfl, hused, .inr ht⟩
      · trivial

theorem StatementRead.of_block {used body : List Token} (hused : LegibleHead used)
    (hbody : Enclosed body) (rest : List Token) : StatementRead (used ++ (body ++ rest)) rest := by
  refine .inl ⟨used ++ body, by simp, fun more hmore => ?_⟩
  rw [List.append_assoc]
  exact .block hused hbody hmore

theorem splitImportant_readOff (stop : Token) (ts : List Token) :
    Legible false (splitImportant stop ts).2.2 → Legible false ts := by
  unfold splitImportant
  split
  · rename_i u t front hrev
    split
    · rename_i hmark
      simp only [Bool.and_eq_true] at hmark
      have hts : ts = front.reverse ++ [t, u] := by
        rw [← List.reverse_reverse ts, hrev]
        simp
      intro h
      rw [hts]
      exact h.append (.cons (Token.isBracket_of_isDelim hmark.1 rfl)
        (.single (isBracket_of_isWord hmark.2)))
    · exact fun h => h
  · exact fun h => h

theorem valueIfAny_legible (room : Room) (stop : Token) (ts : List Token) :
    Yields (fun _ => Legible false ts) (valueIfAny room stop ts) := by
  rw [valueIfAny]
  split
  · rename_i hempty
    obtain rfl : ts = [] := List.isEmpty_iff.mp hempty
    exact .nil
  · exact (whole_legible (value_readsOff (operand_readsOff room) false stop ts)).map fun h => h

theorem declarationValue_legible (room : Room) (stop : Token) (ts : List Token) :
    Yields (fun _ => Legible false ts) (declarationValue room stop ts) := by
  have hsplit := splitImportant_readOff stop ts
  rw [declarationValue]
  generalize splitImportant stop ts = p at hsplit
  obtain ⟨important, stop', us⟩ := p
  exact (valueIfAny_legible room stop' us).map fun h => hsplit h

theorem mediaQueriesIfAny_legible (room : Room) (stop : Token) (ts : List Token) :
    Yields (fun _ => Legible false ts) (mediaQueriesIfAny room stop ts) := by
  rw [mediaQueriesIfAny]
  split
  · rename_i hempty
    obtain rfl : ts = [] := List.isEmpty_iff.mp hempty
    exact .nil
  · exact (mediaQueries_legible room stop ts).map fun h => h

theorem declaration_legible (room : Room) (line : Nat) (stop t : Token) (ts : List Token)
    (ht : t.opensDeclaration = true) (hbrace : ∀ u ∈ t :: ts, u.isBrace = false) :
    Yields (fun _ => LegibleSimple (t :: ts)) (declaration room line stop (t :: ts)) := by
  have happend := cut_append [':'] 0 (t :: ts)
  unfold declaration
  split
  · trivial
  · rename_i name colon rest hcut
    rw [hcut] at happend
    by_cases hcolon : colon.isDelim ':' = true
    · simp only [hcolon, Bool.not_true, Bool.false_eq_true, if_false]
      cases name with
      | nil => trivial
      | cons u name =>
        obtain ⟨rfl, rfl⟩ : u = t ∧ name ++ colon :: rest = ts := by simpa using happend
        refine (declarationValue_legible room stop rest).bind fun h => ?_
        have hname : Unread 0 (u :: name) := by
          refine ⟨countsTo_of_cut hcut hcolon (by decide), fun v hv => hbrace v ?_⟩
          rw [← List.cons_append]
          exact List.mem_append_left _ hv
        exact .declaration ht hname hcolon h
    · simp [hcolon, Yields]

theorem further_eq {found : Option (List Token × Token × List Token)} {t w : Token}
    {before after : List Token}
    (hfound : ∀ {before}, found = some (before, w, after) →
      ts = before ++ w :: after ∧ w.isWord "when" = true)
    (h : (found.map fun (before, w, after) => (t :: before, w, after)) = some (before, w, after)) :
    t :: ts = before ++ w :: after ∧ w.isWord "when" = true := by
  obtain ⟨⟨before', w', after'⟩, hsplit, heq⟩ := Option.map_eq_some_iff.mp h
  cases heq
  obtain ⟨rfl, hw⟩ := hfound hsplit
  exact ⟨rfl, hw⟩

theorem splitGuard_eq {depth : Int} {before after : List Token} {w : Token}
    (h : splitGuard depth ts = some (before, w, after)) :
    ts = before ++ w :: after ∧ w.isWord "when" = true := by
  induction ts generalizing depth before with
  | nil => cases h
  | cons t ts ih =>
    simp only [splitGuard] at h
    split at h
    · exact further_eq ih h
    · split at h
      · exact further_eq ih h
      · split at h
        · rename_i hwhen
          simp only [Bool.and_eq_true] at hwhen
          cases h
          exact ⟨rfl, hwhen.1.2⟩
        · exact further_eq ih h

theorem rulesetHead_legible (room : Room) (brace : Token) (front : List Token) :
    Yields (fun _ => LegibleHead front) (rulesetHead room brace front) := by
  unfold rulesetHead
  split
  · refine (selectors_legible brace front).map fun h => ?_
    simpa using LegibleHead.ruleset h (.inl rfl) .nil
  · rename_i before w after hsplit
    obtain ⟨rfl, hw⟩ := splitGuard_eq hsplit
    refine (selectors_legible w before).bind fun hs => ?_
    refine (guard_legible room brace after).bind fun hg => ?_
    exact .ruleset hs (.inr hw) (.cons (isBracket_of_isWord hw) hg)

/-- A word behind a part of a range stands in a longer front of the range. -/
theorem front_eq_of_word {word : String} {front tail part after : List Token}
    (h : front ++ tail = part ++ after) (hlength : part.length < front.length)
    (hword : startsWithWord word after = true) :
    ∃ w, front = part ++ w :: front.drop (part.length + 1) ∧ w.isWord word = true := by
  rcases List.append_eq_append_iff.mp h with ⟨us, rfl, -⟩ | ⟨us, rfl, rfl⟩
  · simp only [List.length_append] at hlength
    omega
  · cases us with
    | nil => simp at hlength
    | cons w us => exact ⟨w, by simp [← List.drop_drop], hword⟩

/-- The head of a mixin definition ends where the brace is. -/
theorem signature?_legible (room : Room) (brace : Token) {front tail ts name : List Token}
    (bracket : Token) {rest : List Token} (hts : ts = front ++ tail)
    (hname : ts = name ++ bracket :: rest) (hplain : Legible false name)
    (hbracket : bracket.isDelim '(' = true) :
    Yields (fun found => found.isSome = true → Legible false front)
      (signature? room brace front ts bracket rest) := by
  refine (enclosed_counts bracket '(' rest).bind ?_
  rintro ⟨inner, close, after⟩ ⟨rfl, hclose, -⟩
  -- The name, the brackets and what they enclose.
  generalize hpart : name ++ (bracket :: inner ++ [close]) = part
  have hparts : ts = part ++ after := by simp [hname, ← hpart]
  have hfront : front ++ tail = part ++ after := hts.symm.trans hparts
  have hused : ts.length - after.length = part.length := by simp [hparts]
  simp only [hused]
  split
  · simp [Yields, pure, Except.pure]
  · rename_i hmore
    refine (enter_yields (below_readsOff room) _ _).bind fun ho => ?_
    refine (parameters_legible ho close inner).bind fun hparams => ?_
    have hsignature : Legible false part := by
      rw [← hpart]
      exact hplain.append (.round hbracket hclose hparams)
    split
    · rename_i hends
      intro _
      have hends : part.length = front.length := by simpa using hends
      rw [(List.append_inj hfront hends.symm).1]
      exact hsignature
    · rename_i hends
      have hends : part.length ≠ front.length := by simpa using hends
      split
      · trivial
      · refine (guard_legible room brace _).bind fun hguard _ => ?_
        have hword : startsWithWord "when" after = true := by simpa [hends] using hmore
        obtain ⟨w, hfront', hw⟩ := front_eq_of_word hfront (by omega) hword
        rw [hfront']
        exact hsignature.append (.cons (isBracket_of_isWord hw) hguard)

theorem mixinHead?_legible (room : Room) (brace : Token) {front tail ts : List Token}
    (hts : ts = front ++ tail) :
    Yields (fun found => found.isSome = true → Legible false front)
      (mixinHead? room brace front ts) := by
  unfold mixinHead?
  split
  · rename_i name bracket rest hname
    split
    · rename_i hbracket
      obtain ⟨used, hused, hplain⟩ := mixinName?_readOff hname
      have hsignature := signature?_legible room brace bracket hts hused hplain hbracket
      refine hsignature.map fun {found} h => ?_
      cases found with
      | none => simp
      | some signature => exact fun _ => h rfl
    · simp [Yields]
  · simp [Yields]

theorem splitAll_legible {selects : Bool} (stop : Token) (ts : List Token) :
    Legible selects (splitAll stop ts).2.2 → Legible selects ts := by
  unfold splitAll
  split
  · rename_i last t front hrev
    split
    · rename_i hall
      simp only [Bool.and_eq_true] at hall
      have hts : ts = (t :: front).reverse ++ [last] := by
        rw [← List.reverse_reverse ts, hrev, List.reverse_cons]
      intro h
      rw [hts]
      exact h.append (.single (isBracket_of_isWord hall.1))
    · exact fun h => h
  · exact fun h => h

theorem extendBody?_eq {bracket : Token} (h : extendBody? ts = some (bracket, rest)) :
    ∃ amp colon name, ts = amp :: colon :: name :: bracket :: rest ∧
      extendBody? [amp, colon, name, bracket] = some (bracket, []) ∧
      amp.isDelim '&' = true ∧ colon.isDelim ':' = true ∧ name.isWord "extend" = true ∧
      bracket.isDelim '(' = true := by
  unfold extendBody? at h
  split at h
  · rename_i amp colon name opener rest'
    split at h
    · rename_i hall
      cases h
      refine ⟨amp, colon, name, rfl, by rw [extendBody?, if_pos hall], ?_⟩
      simp only [Bool.and_eq_true] at hall
      exact ⟨hall.1.1.1.1, hall.1.1.1.2, hall.1.2, hall.2⟩
    · cases h
  · cases h

theorem extend_read {bracket : Token} (hextend : extendBody? ts = some (bracket, rest)) :
    Yields (fun (_, after) => ∃ used, ts = used ++ after ∧ LegibleSimple used)
      (extend bracket rest) := by
  obtain ⟨amp, colon, name, rfl, hmarks, hamp, hcolon, hname, hbracket⟩ := extendBody?_eq hextend
  refine (enclosed_counts bracket '(' rest).bind ?_
  rintro ⟨inner, close, after⟩ ⟨rfl, hclose, -⟩
  have hall : Legible true (splitAll close inner).2.2 → Legible true inner :=
    splitAll_legible close inner
  simp only
  refine (selectors_legible _ _).bind fun h => ?_
  obtain ⟨vs, hvs, hv⟩ := hall h
  refine ⟨amp :: colon :: name :: bracket :: inner ++ [close], by simp, _,
    .extend hmarks hvs hclose, ?_⟩
  refine .cons (Token.isBracket_of_isDelim hamp rfl) ?_
  refine .cons (Token.isBracket_of_isDelim hcolon rfl) ?_
  exact .cons (isBracket_of_isWord hname) (.round hbracket hclose hv)

theorem opensDeclaration_of_not_call {t : Token} (hcall : opensMixinCall t ≠ true)
    (hat : ∀ name, t.lexeme ≠ .atKeyword name) : t.opensDeclaration = true := by
  unfold Token.opensDeclaration
  split
  · exact absurd ‹_› (hat _)
  · simpa using hcall

theorem callOrDeclaration_legible (room : Room) (stop t : Token) {front : List Token}
    (hat : ∀ name, t.lexeme ≠ .atKeyword name) (hbrace : ∀ u ∈ front, u.isBrace = false)
    (hfront : front = [] ∨ front.head? = some t) :
    Yields (fun _ => LegibleSimple front) (callOrDeclaration room stop t front) := by
  rw [callOrDeclaration]
  split
  · exact (mixinCall_legible room stop front).mono fun h => h.simple
  · rename_i hcall
    cases front with
    | nil => simp [declaration, cut, Yields]
    | cons u front =>
      obtain rfl : u = t := by simpa using hfront
      exact declaration_legible room _ stop u front (opensDeclaration_of_not_call hcall hat) hbrace

theorem head_head? {front tail : List Token} {t : Token} (h : t :: ts = front ++ tail) :
    front = [] ∨ front.head? = some t := by
  cases front with
  | nil => exact .inl rfl
  | cons u front =>
    cases h
    exact .inr rfl

theorem simpleStatement_read (room : Room) (stop t : Token) (ts : List Token)
    (hat : ∀ name, t.lexeme ≠ .atKeyword name) :
    Yields (fun (_, rest) => StatementRead (t :: ts) rest) (simpleStatement room stop t ts) := by
  have hunended : Yields (fun (_, tail) => ∃ used, t :: ts = used ++ tail ∧ LegibleSimple used)
      (unendedStatement room stop t ts) := by
    unfold unendedStatement
    split
    · exact extend_read ‹_›
    · cases hhead : head (t :: ts) with
      | mk front tail =>
        obtain ⟨hts, -, -, hbrace⟩ := head_unread hhead
        exact (callOrDeclaration_legible room _ t hat hbrace (head_head? hts)).map
          fun h => ⟨front, hts, h⟩
  refine hunended.bind ?_
  rintro ⟨s, tail⟩ ⟨used, hts, hused⟩
  rw [hts]
  exact (endStatement_read hused).bind fun h => h

/-- Whatever legible text stands behind the options of an import, all of it is a legible
statement. -/
theorem importOptions_read {t : Token} (ht : t.opensImport = true) (ts : List Token) :
    Yields (fun (_, us) => ∀ front tail, us = front ++ tail → Legible false front →
        ∃ used, t :: ts = used ++ tail ∧ LegibleSimple used)
      (importOptions ts) := by
  have hnone (front tail : List Token) (hus : ts = front ++ tail) (h : Legible false front) :
      ∃ used, t :: ts = used ++ tail ∧ LegibleSimple used :=
    ⟨t :: front, by simp [hus], (Legible.cons (isBracket_of_opensImport ht) h).simple⟩
  unfold importOptions
  split
  · rename_i opener rest
    split
    · rename_i hopener
      refine (enclosed_counts opener '(' rest).bind ?_
      rintro ⟨inner, close, after⟩ ⟨rfl, hclose, hcount⟩ front tail rfl h
      exact ⟨t :: opener :: inner ++ close :: front, by simp,
        .imported ht hopener hcount hclose h⟩
    · exact hnone
  · exact hnone

theorem imported_read (room : Room) (stop : Token) {t : Token} (ht : t.opensImport = true)
    (ts : List Token) :
    Yields (fun (_, rest) => StatementRead (t :: ts) rest) (imported room stop ts) := by
  refine (importOptions_read ht ts).bind ?_
  rintro ⟨options, us⟩ hus
  cases hhead : head us with
  | mk front tail =>
    obtain ⟨hfront, -⟩ := head_unread hhead
    simp only [hhead]
    split
    · trivial
    · refine (primary_readsOff (below_readsOff room) _ front).bind ?_
      rintro ⟨path, rest⟩ hpath
      refine (mediaQueriesIfAny_legible room _ rest).bind fun hfeatures => ?_
      have hlegible : Legible false front := (hpath.trans (.to_end hfeatures)).legible
      obtain ⟨used, hts, hused⟩ := hus front tail hfront hlegible
      rw [hts]
      exact (endStatement_read hused).bind fun h => h

theorem blockCall_read (room : Room) (name : String) {t bracket : Token}
    (ht : t.isBracket = false) (hbracket : bracket.isDelim '(' = true) (ts : List Token) :
    Yields (fun (_, rest) => StatementRead (t :: bracket :: ts) rest)
      (blockCall room name bracket ts) := by
  refine (argumentsFrom_readOff room hbracket ts).bind ?_
  rintro ⟨args, after⟩ hafter
  obtain ⟨used, hts, hused⟩ := ReadOff.cons ht hafter
  rw [hts]
  exact (endStatement_read hused.simple).bind fun h => h

end Ranges

end Grammar

end StyleTally.Stylesheet
