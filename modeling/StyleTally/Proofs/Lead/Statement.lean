import StyleTally.Proofs.Lead.Tokens
import StyleTally.Stylesheet.Grammar.Statement

/-!
# Statements behind a lead

The rules of the grammar do not look at the gap in front of the first token of a statement, with one
exception: a first word `when` opens the guard of a ruleset exactly when a gap stands before it.
-/

namespace StyleTally.Stylesheet.Grammar

variable (g : List Char) (t stop : Token) (ts : List Token)

theorem textOf_behind : textOf (t.behind g :: ts) = textOf (t :: ts) := rfl

/-- A range is cut before its first token or behind it, whatever the gap. -/
theorem cut_behind (stops : List Char) (depth : Nat) :
    (cut stops depth (t :: ts) = ([], t :: ts) ∧
        cut stops depth (t.behind g :: ts) = ([], t.behind g :: ts)) ∨
      ∃ before after, cut stops depth (t :: ts) = (t :: before, after) ∧
        cut stops depth (t.behind g :: ts) = (t.behind g :: before, after) := by
  have hdepth : depthAfter? stops depth (t.behind g) = depthAfter? stops depth t := rfl
  rw [cut, cut, hdepth]
  cases depthAfter? stops depth t with
  | none => exact .inl ⟨rfl, rfl⟩
  | some depth => exact .inr ⟨_, _, rfl, rfl⟩

theorem startsWithDelim_head_behind (c : Char) :
    startsWithDelim c (head (t.behind g :: ts)).2 = startsWithDelim c (head (t :: ts)).2 := by
  rw [head, head]
  rcases cut_behind g t ts [';', '\x7b', '\x7d'] 0 with ⟨hcut, hcut'⟩ | ⟨before, after, hcut, hcut'⟩
  · rw [hcut, hcut']
    rfl
  · rw [hcut, hcut']

section Selectors

theorem pseudo_behind (cs : List Token) :
    pseudo (t.behind g :: cs) stop ts = pseudo (t :: cs) stop ts := by
  cases ts with
  | nil => rfl
  | cons u ts =>
    simp only [pseudo, List.cons_append, textOf_behind]

theorem part_behind : part stop (t.behind g) ts = part stop t ts := by
  have hmarked : marked? (t.behind g) ts = marked? t ts := by
    cases ts <;> rfl
  have hlexeme : (t.behind g).lexeme = t.lexeme := rfl
  have henclosed : enclosed (t.behind g) '[' ts = enclosed t '[' ts := rfl
  unfold part
  rw [hmarked, hlexeme, henclosed]
  simp only [pseudo_behind]
  rfl

theorem elementsFrom_behind : elementsFrom none true stop (t.behind g :: ts) =
    elementsFrom none true stop (t :: ts) := by
  have hcombinator : combinator? (t.behind g) ts = combinator? t ts := rfl
  rw [elementsFrom, elementsFrom, hcombinator, part_behind]
  rfl

theorem selector_behind : selector stop (t.behind g :: ts) = selector stop (t :: ts) := by
  rw [selector, selector, elementsFrom_behind]

theorem selector_nil : selector stop [] = .error (.malformed .emptySelector stop.line) := by
  rw [selector, elementsFrom]
  rfl

theorem pieces_eq (separator : Char) : pieces separator stop ts =
    match cut [separator] 0 ts with
    | (part, []) => .ok [(part, stop)]
    | (part, t :: rest) =>
      if t.isDelim separator then (pieces separator stop rest).map ((part, t) :: ·)
      else .error (.malformed (.unexpected (.text t.lexeme.value)) t.line) := by
  rw [pieces.eq_def]
  split
  · rename_i h
    rw [h]
  · rename_i h
    rw [h]

theorem selectors_behind : selectors stop (t.behind g :: ts) = selectors stop (t :: ts) := by
  have hpieces : (pieces ',' stop (t.behind g :: ts)).bind (eachPiece selector) =
      (pieces ',' stop (t :: ts)).bind (eachPiece selector) := by
    rw [pieces_eq stop (t.behind g :: ts), pieces_eq stop (t :: ts)]
    rcases cut_behind g t ts [','] 0 with ⟨hcut, hcut'⟩ | ⟨before, after, hcut, hcut'⟩
    · -- A first comma has no selector in front of it.
      have hcomma : (t.behind g).isDelim ',' = t.isDelim ',' := rfl
      rw [hcut, hcut']
      simp only [hcomma]
      split
      · cases pieces ',' stop ts with
        | error e => rfl
        | ok parts =>
          simp only [Except.map, Except.bind, eachPiece, selector_nil]
          rfl
      · rfl
    · rw [hcut, hcut']
      cases after with
      | nil => simp only [Except.bind, eachPiece, selector_behind]
      | cons u after =>
        simp only
        split
        · cases pieces ',' stop after with
          | error e => rfl
          | ok parts => simp only [Except.map, Except.bind, eachPiece, selector_behind]
        · rfl
  rw [selectors, selectors, List.isEmpty_cons, List.isEmpty_cons, hpieces]

end Selectors

section Bodies

variable {g t}

/-- A gap in front of a first word makes no guard of it, unless it is a `when` without one. -/
theorem opensGuard_behind (h : t.isWord "when" = true → t.spaced = false → g = []) :
    (t.isWord "when" && (t.behind g).spaced) = (t.isWord "when" && t.spaced) := by
  cases hwhen : t.isWord "when" with
  | false => rfl
  | true =>
    cases hspaced : t.spaced with
    | false =>
      obtain rfl := h hwhen hspaced
      exact hspaced
    | true =>
      have hgap : t.gap.isEmpty = false := by simpa [Token.spaced] using hspaced
      simpa [Token.spaced, Token.behind] using fun _ : g = [] => hgap

/-- The first token opens the guard, or it stands in front of it, whatever its gap. -/
theorem splitGuard_behind (front : List Token)
    (h : t.isWord "when" = true → t.spaced = false → g = []) :
    (splitGuard 0 (t :: front) = some ([], t, front) ∧
        splitGuard 0 (t.behind g :: front) = some ([], t.behind g, front)) ∨
      ∃ found : Option (List Token × Token × List Token),
        splitGuard 0 (t :: front) = found.map (fun p => (t :: p.1, p.2)) ∧
          splitGuard 0 (t.behind g :: front) = found.map fun p => (t.behind g :: p.1, p.2) := by
  have hdelim (c : Char) : (t.behind g).isDelim c = t.isDelim c := rfl
  have hword : (t.behind g).isWord "when" = t.isWord "when" := rfl
  simp only [splitGuard, hdelim, hword, Bool.and_assoc, opensGuard_behind h]
  split
  · exact .inr ⟨_, rfl, rfl⟩
  · split
    · exact .inr ⟨_, rfl, rfl⟩
    · split
      · exact .inl ⟨rfl, rfl⟩
      · exact .inr ⟨_, rfl, rfl⟩

theorem rulesetHead_behind (room : Room) (brace : Token) (front : List Token)
    (h : t.isWord "when" = true → t.spaced = false → g = []) :
    rulesetHead room brace (t.behind g :: front) = rulesetHead room brace (t :: front) := by
  unfold rulesetHead
  rcases splitGuard_behind front h with ⟨hsplit, hsplit'⟩ | ⟨found, hsplit, hsplit'⟩
  · rw [hsplit, hsplit']
    rfl
  · rw [hsplit, hsplit']
    cases found with
    | none => simp only [Option.map_none, selectors_behind]
    | some p => simp only [Option.map_some, selectors_behind]

theorem mixinHead?_behind (room : Room) (brace : Token) (front ts : List Token) :
    mixinHead? room brace (t.behind g :: front) (t.behind g :: ts) =
      mixinHead? room brace (t :: front) (t :: ts) := rfl

theorem body_behind (room : Room) (o : Opening) :
    body room o stop (t.behind g :: ts) = body room o stop (t :: ts) := by
  rw [body_eq]
  rfl

theorem withBody_behind (room within : Room) (brace : Token) (front tail : List Token)
    (h : t.isWord "when" = true → t.spaced = false → g = []) :
    withBody room (body within) stop brace (t.behind g :: front) tail (t.behind g :: ts) =
      withBody room (body within) stop brace (t :: front) tail (t :: ts) := by
  unfold withBody ruleset
  rw [mixinHead?_behind, rulesetHead_behind room brace front h]
  rfl

end Bodies

section Statements

variable {t}

theorem isDelim_of_opensMixinCall {c : Char} (ht : opensMixinCall t = true) (hc : c ≠ '.') :
    t.isDelim c = false := by
  unfold opensMixinCall at ht
  unfold Token.isDelim
  split at ht
  · rename_i d hlexeme
    obtain rfl : d = '.' := by simpa using ht
    simpa [hlexeme] using Ne.symm hc
  · rename_i hlexeme
    rw [hlexeme]
    rfl
  · cases ht

theorem callPath_behind (ht : opensMixinCall t = true) :
    callPath none true (t.behind g :: ts) = callPath none true (t :: ts) := by
  have hdelim (c : Char) : (t.behind g).isDelim c = t.isDelim c := rfl
  have hopen : t.isDelim '(' = false := isDelim_of_opensMixinCall ht (by decide)
  have hmark : t.isDelim '!' = false := isDelim_of_opensMixinCall ht (by decide)
  rw [callPath.eq_def none true (t.behind g :: ts), callPath.eq_def none true (t :: ts)]
  simp only [hdelim, hopen, hmark, Bool.or_self, Bool.false_eq_true, if_false]
  rfl

theorem declaration_behind (room : Room) (line : Nat) :
    declaration room line stop (t.behind g :: ts) = declaration room line stop (t :: ts) := by
  unfold declaration
  rcases cut_behind g t ts [':'] 0 with ⟨hcut, hcut'⟩ | ⟨before, after, hcut, hcut'⟩
  · rw [hcut, hcut']
    rfl
  · rw [hcut, hcut']
    cases after <;> rfl

theorem callOrDeclaration_behind (room : Room) :
    callOrDeclaration room stop (t.behind g) (t.behind g :: ts) =
      callOrDeclaration room stop t (t :: ts) := by
  have hopens : opensMixinCall (t.behind g) = opensMixinCall t := rfl
  unfold callOrDeclaration
  rw [hopens]
  split
  · rename_i ht
    rw [mixinCall, mixinCall, callPath_behind g ts ht]
  · exact declaration_behind g stop ts room t.line

/-- A statement that holds no token is none. -/
theorem callOrDeclaration_nil (room : Room) (t : Token) :
    callOrDeclaration room t t [] =
      .error (.malformed (if opensMixinCall t then .missingMixinName else .missingColon) t.line) := by
  unfold callOrDeclaration
  split
  · rw [mixinCall, callPath]
    rfl
  · rfl

theorem extendBody?_behind : extendBody? (t.behind g :: ts) = extendBody? (t :: ts) := by
  rcases ts with _ | ⟨_, _ | ⟨_, _ | ⟨_, _⟩⟩⟩ <;> rfl

theorem unendedStatement_behind (room : Room) :
    unendedStatement room stop (t.behind g) ts = unendedStatement room stop t ts := by
  unfold unendedStatement
  rw [extendBody?_behind]
  cases extendBody? (t :: ts) with
  | some p => rfl
  | none =>
    simp only [head]
    rcases cut_behind g t ts [';', '\x7b', '\x7d'] 0 with
      ⟨hcut, hcut'⟩ | ⟨before, after, hcut, hcut'⟩
    · simp only [hcut, hcut', List.headD_cons, callOrDeclaration_nil]
      rfl
    · simp only [hcut, hcut', callOrDeclaration_behind]

theorem simpleStatement_behind (room : Room) :
    simpleStatement room stop (t.behind g) ts = simpleStatement room stop t ts := by
  rw [simpleStatement, simpleStatement, unendedStatement_behind]

/-- A statement is read the same behind a lead, unless it is a ruleset that opens with an unspaced
`when`. -/
theorem statement_behind (room within : Room)
    (h : t.isWord "when" = true → t.spaced = false →
      startsWithDelim '\x7b' (head (t :: ts)).2 = true → g = []) :
    statement room (body within) stop (t.behind g) ts = statement room (body within) stop t ts := by
  have hlexeme : (t.behind g).lexeme = t.lexeme := rfl
  simp only [statement, hlexeme, simpleStatement_behind]
  split
  · rfl
  · simp only [head] at h ⊢
    rcases cut_behind g t ts [';', '\x7b', '\x7d'] 0 with
      ⟨hcut, hcut'⟩ | ⟨before, after, hcut, hcut'⟩
    · rw [hcut, hcut']
      have hdelim : (t.behind g).isDelim '\x7b' = t.isDelim '\x7b' := rfl
      simp only [hdelim]
      split
      · simp only [withBody, List.isEmpty_nil, if_true, body_behind]
      · rfl
    · rw [hcut] at h
      rw [hcut, hcut']
      cases after with
      | nil => rfl
      | cons brace after =>
        simp only
        split
        · rename_i hbrace
          exact withBody_behind stop ts room within brace before _ fun hwhen hspaced =>
            h hwhen hspaced hbrace
        · rfl

theorem statements_behind (room within : Room)
    (h : t.isWord "when" = true → t.spaced = false →
      startsWithDelim '\x7b' (head (t :: ts)).2 = true → g = []) (ht : t.isDelim '\x7d' = false) :
    statements room (body within) stop (t.behind g :: ts) =
      statements room (body within) stop (t :: ts) := by
  have hdelim (c : Char) : (t.behind g).isDelim c = t.isDelim c := rfl
  rw [statements, statements, statement_behind g stop ts room within h]
  simp only [hdelim, ht]
  rfl

theorem sheet_behind (room : Room)
    (h : t.isWord "when" = true → t.spaced = false →
      startsWithDelim '\x7b' (head (t :: ts)).2 = true → g = []) :
    sheet room stop (t.behind g :: ts) = sheet room stop (t :: ts) := by
  unfold sheet
  cases ht : t.isDelim '\x7d' with
  | false => rw [statements_behind g stop ts room room h ht]
  | true =>
    have hdelim : (t.behind g).isDelim '\x7d' = true := ht
    rw [statements, statements, if_pos ht, if_pos hdelim]
    rfl

/-- A ruleset whose first word opens its guard has no selector. -/
theorem rulesetHead_when (room : Room) (brace : Token) (front : List Token)
    (hword : t.isWord "when" = true) (hspaced : t.spaced = true) :
    rulesetHead room brace (t :: front) = .error (.malformed .missingSelector t.line) := by
  have hdelim (c : Char) : t.isDelim c = false := by
    unfold Token.isWord at hword
    unfold Token.isDelim
    split at hword
    · rename_i hlexeme
      rw [hlexeme]
      rfl
    · cases hword
  have hsplit : splitGuard 0 (t :: front) = some ([], t, front) := by
    simp [splitGuard, hdelim, hword, hspaced]
  rw [rulesetHead, hsplit]
  rfl

theorem sheet_when (room : Room) (hword : t.isWord "when" = true) (hspaced : t.spaced = true)
    (hbrace : startsWithDelim '\x7b' (head (t :: ts)).2 = true) :
    sheet room stop (t :: ts) = .error (.malformed .missingSelector t.line) := by
  obtain ⟨name, hlexeme⟩ : ∃ name, t.lexeme = .ident name := by
    unfold Token.isWord at hword
    split at hword
    · exact ⟨_, ‹_›⟩
    · cases hword
  have hdelim (c : Char) : t.isDelim c = false := by
    rw [Token.isDelim, hlexeme]
    rfl
  have hdepth : depthAfter? [';', '\x7b', '\x7d'] 0 t = some 0 := by
    rw [depthAfter?, hlexeme]
  obtain ⟨before, brace, after, hhead, hbrace⟩ : ∃ before brace after,
      head (t :: ts) = (t :: before, brace :: after) ∧ brace.isDelim '\x7b' = true := by
    rw [head, cut, hdepth] at hbrace ⊢
    simp only at hbrace ⊢
    generalize cut [';', '\x7b', '\x7d'] 0 ts = p at hbrace ⊢
    obtain ⟨before, after⟩ := p
    cases after with
    | nil => cases hbrace
    | cons brace after => exact ⟨before, brace, after, rfl, hbrace⟩
  have hstatement : statement room (body room) stop t ts =
      .error (.malformed .missingSelector t.line) := by
    have hmixin : mixinHead? room brace (t :: before) (t :: ts) = .ok none := by
      simp only [mixinHead?, mixinName?, hlexeme]
    rw [statement, hlexeme, hhead]
    have hruleset := rulesetHead_when room brace before hword hspaced
    simp only [hbrace, if_true, withBody, hmixin, ruleset, hruleset]
    rfl
  rw [sheet, statements, hdelim, hdelim, hstatement]
  rfl

end Statements

end StyleTally.Stylesheet.Grammar
