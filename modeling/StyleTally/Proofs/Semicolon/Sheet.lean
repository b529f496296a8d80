import StyleTally.Proofs.Lexer.Tiling
import StyleTally.Proofs.Likeness.Moved
import StyleTally.Proofs.Semicolon.Hole
import StyleTally.Proofs.Semicolon.Tokens
import StyleTally.Stylesheet.Parse

/-!
# Semicolons more and less

A semicolon may be written behind any brace or semicolon where statements are read, and it leaves a
hole there. The semicolon of the last statement before an end may be left out. Neither changes what
is counted.
-/

namespace StyleTally.Stylesheet

namespace Grammar

/-- Where a body opens or has closed, and where a semicolon has ended a statement or is a stray one:
the tokens up to the brace or semicolon, and those behind it. Every statement that is read opens a
body so, or has none. -/
inductive Boundary (stop : Token) (room : Room) : List Token → List Token → Prop
  | opened {d inside : Room} {front before inner : List Token} {brace : Token} {frame : Frame}
      (hcomes : Comes stop room front d (before ++ brace :: inner))
      (hbefore : ∀ t ∈ before.head?, t.isSeal = false) (hbrace : brace.isDelim '{' = true)
      (hopens : Opens (statementFrom d) before brace frame)
      (hopened : d.opened frame.opening = .ok inside) :
      Boundary stop room (front ++ (before ++ [brace])) inner
  | closed {d : Room} {front before inside after : List Token} {brace close : Token} {frame : Frame}
      {ss : List Statement}
      (hcomes : Comes stop room front d (before ++ brace :: (inside ++ close :: after)))
      (hbefore : ∀ t ∈ before.head?, t.isSeal = false) (hbrace : brace.isDelim '{' = true)
      (hopens : Opens (statementFrom d) before brace frame)
      (hbody : body d frame.opening stop (brace :: (inside ++ close :: after)) = .ok (ss, after)) :
      Boundary stop room (front ++ (before ++ brace :: (inside ++ [close]))) after
  | ended {d : Room} {front used after : List Token} {t semicolon : Token} {s : Statement}
      (hcomes : Comes stop room front d (t :: (used ++ semicolon :: after)))
      (ht : t.isSeal = false) (hsemicolon : semicolon.isDelim ';' = true)
      (hread : statement d (body d) stop t (used ++ semicolon :: after) = .ok (s, after)) :
      Boundary stop room (front ++ t :: (used ++ [semicolon])) after
  | stray {d : Room} {front after : List Token} {semicolon : Token}
      (hcomes : Comes stop room front d (semicolon :: after))
      (hsemicolon : semicolon.isDelim ';' = true) : Boundary stop room (front ++ [semicolon]) after

section Boundaries

variable {stop : Token} {d e f room : Room} {front front' us : List Token}

theorem Comes.trans {ts : List Token} (h : Comes stop d front e ts) (hts : ts = front' ++ us)
    (h' : Comes stop e front' f us) : Comes stop d (front ++ front') f us := by
  induction h with
  | here => exact h'
  | stray ht _ ih => exact .stray ht (ih hts h')
  | @past d e t used front ts s ht hsealed hread _ ih =>
    subst hts
    rw [← List.append_assoc front] at hread
    rw [List.cons_append, List.append_assoc]
    exact .past ht hsealed hread (ih rfl h')
  | inside hbefore hbrace hopens hopened _ ih =>
    rw [List.append_assoc, List.cons_append]
    exact .inside hbefore hbrace hopens hopened (ih hts h')

/-- The last token before a spot is a semicolon or a brace. -/
theorem Comes.bound (h : Comes stop d front e us) :
    ∀ t ∈ front.getLast?, t.isSeal = true ∨ t.isDelim '{' = true := by
  have hlast (before more : List Token) {t : Token} (ht : t ∈ (before ++ more).getLast?)
      (hbefore : ∀ t ∈ before.getLast?, t.isSeal = true ∨ t.isDelim '{' = true)
      (hmore : ∀ t ∈ more.getLast?, t.isSeal = true ∨ t.isDelim '{' = true) :
      t.isSeal = true ∨ t.isDelim '{' = true := by
    rw [List.getLast?_append] at ht
    rcases Option.or_eq_some_iff.mp ht with ht | ⟨-, ht⟩
    · exact hmore t ht
    · exact hbefore t ht
  induction h with
  | here => simp
  | @stray d e t front us ht _ ih =>
    intro u hu
    refine hlast [t] front hu (fun v hv => ?_) ih
    obtain rfl : t = v := by simpa using hv
    exact .inl (by simp [Token.isSeal, ht])
  | past ht hsealed _ _ ih =>
    intro u hu
    rw [← List.cons_append] at hu
    exact hlast _ _ hu (fun v hv => .inl (hsealed.isSeal_of_getLast? hv)) ih
  | @inside d inside e before front us brace frame _ hbrace _ _ _ ih =>
    intro u hu
    have hsplit : before ++ brace :: front = (before ++ [brace]) ++ front := by simp
    rw [hsplit] at hu
    refine hlast _ _ hu (fun v hv => ?_) ih
    obtain rfl : brace = v := by simpa using hv
    exact .inr hbrace

/-- Statements are read at every boundary. -/
theorem Boundary.comes (h : Boundary stop room front us) : ∃ e, Comes stop room front e us := by
  cases h with
  | @opened d inside front before inner brace frame hcomes hbefore hbrace hopens hopened =>
    exact ⟨inside, hcomes.trans (by simp) (.inside hbefore hbrace hopens hopened .here)⟩
  | @closed d front before inside after brace close frame ss hcomes hbefore hbrace hopens hbody =>
    refine ⟨d, hcomes.trans (by simp) ?_⟩
    obtain ⟨used, last, hinner, hclose, -⟩ := body_stable d _ hbody
    have happend : (inside ++ [close]) ++ us = (used ++ [last]) ++ us := by simpa using hinner
    obtain ⟨rfl, rfl⟩ : inside = used ∧ close = last := by
      simpa using List.append_inj' (List.append_cancel_right happend) rfl
    have hread : statementFrom d (body d) stop (before ++ brace :: (inside ++ close :: us)) =
        .ok (frame.around ss, us) := by
      rw [hopens, hbody]
      rfl
    have hsealed : Sealed (before ++ brace :: (inside ++ [close])) :=
      ⟨before ++ brace :: inside, close, by simp, by simp [Token.isSeal, hclose]⟩
    have hfirst : ∀ t ∈ (before ++ brace :: (inside ++ [close])).head?, t.isSeal = false := by
      cases before with
      | nil => simpa using isSeal_of_isDelim hbrace (by decide)
      | cons t before => exact hbefore
    have hsplit : before ++ brace :: (inside ++ close :: us) =
        before ++ brace :: (inside ++ [close]) ++ us := by simp
    rw [hsplit] at hread
    generalize before ++ brace :: (inside ++ [close]) = used at hread hsealed hfirst
    cases used with
    | nil => exact absurd rfl hsealed.ne_nil
    | cons t used =>
      have hpast : Comes stop d (t :: (used ++ [])) d us :=
        .past (hfirst t rfl) hsealed hread .here
      rwa [List.append_nil] at hpast
  | @ended d front used after t semicolon s hcomes ht hsemicolon hread =>
    refine ⟨d, hcomes.trans (by simp) ?_⟩
    have hsealed : Sealed (t :: (used ++ [semicolon])) :=
      ⟨t :: used, semicolon, rfl, by simp [Token.isSeal, hsemicolon]⟩
    have hpast : Comes stop d (t :: (used ++ [semicolon] ++ [])) d us := by
      have hread : statement d (body d) stop t (used ++ [semicolon] ++ ([] ++ us)) = .ok (s, us) := by
        simpa using hread
      exact .past ht hsealed hread .here
    rwa [List.append_nil] at hpast
  | stray hcomes hsemicolon => exact ⟨_, hcomes.trans rfl (.stray hsemicolon .here)⟩

/-- A statement that is read has a boundary at each brace of its body, or at the semicolon that ends
it; without either an end follows it. -/
theorem Comes.boundaries {t : Token} {rest after : List Token} {s : Statement}
    (h : Comes stop room front d (t :: rest)) (ht : t.isSeal = false)
    (hread : statement d (body d) stop t rest = .ok (s, after)) :
    (∃ before brace inside close, ∃ frame : Frame, ∃ ss,
      t :: rest = before ++ brace :: (inside ++ close :: after) ∧ s = frame.around ss ∧
        Boundary stop room (front ++ (before ++ [brace])) (inside ++ close :: after) ∧
        Boundary stop room (front ++ (before ++ brace :: (inside ++ [close]))) after) ∨
      (∃ used semicolon, t :: rest = t :: (used ++ semicolon :: after) ∧
        Boundary stop room (front ++ t :: (used ++ [semicolon])) after) ∨ Closes after := by
  cases statement_formed ht hread with
  | @opening before brace inner frame ss hts hbrace hopens hbody hs =>
    obtain ⟨-, e, hopened, -⟩ := body_eq_ok.mp hbody
    obtain ⟨inside, close, rfl, -, -⟩ := body_stable d _ hbody
    have hbefore : ∀ u ∈ before.head?, u.isSeal = false := by
      intro u hu
      obtain ⟨more, rfl⟩ := List.head?_eq_some_iff.mp hu
      obtain ⟨rfl, -⟩ := List.cons.inj hts
      exact ht
    rw [hts] at h
    exact .inl ⟨before, brace, inside, close, frame, ss, hts, hs,
      .opened h hbefore hbrace hopens hopened, .closed h hbefore hbrace hopens hbody⟩
  | @ended used tail hts _ _ hend =>
    rcases endStatement_cases hend with ⟨hcloses, rfl⟩ | ⟨semicolon, rfl, hsemicolon⟩
    · exact .inr (.inr hcloses)
    · cases used with
      | nil =>
        obtain ⟨rfl, -⟩ := List.cons.inj hts
        simp [Token.isSeal, hsemicolon] at ht
      | cons u used =>
        obtain ⟨rfl, rfl⟩ := List.cons.inj hts
        exact .inr (.inl ⟨used, semicolon, rfl, .ended h ht hsemicolon hread⟩)

end Boundaries

end Grammar

/-- An offset right behind the brace or the semicolon at a boundary. -/
def Boundary (limit : Int) (source : String) (n : Nat) : Prop :=
  ∃ front t us stop, tokenize source = .ok (front ++ t :: (us ++ [stop])) ∧
    Grammar.Boundary stop ⟨limit.toNat, stackCalls⟩ (front ++ [t]) us ∧ n = t.stop

/-- The offset of a semicolon that ends a statement in front of a closing brace or the end. -/
def SpareSemicolon (limit : Int) (source : String) (n : Nat) : Prop :=
  ∃ front t used semicolon after stop d s,
    tokenize source = .ok (front ++ t :: (used ++ semicolon :: (after ++ [stop]))) ∧
    Grammar.Comes stop ⟨limit.toNat, stackCalls⟩ front d (t :: (used ++ semicolon :: after)) ∧
    t.isSeal = false ∧ semicolon.isDelim ';' = true ∧
    Grammar.statement d (Grammar.body d) stop t (used ++ semicolon :: after) = .ok (s, after) ∧
    Grammar.Closes after ∧ n = semicolon.start

section Sources

variable {limit : Int} {source : String} {sheet : Sheet} {n : Nat}

theorem parseAt_of_tokens {ts : List Token} {stop : Token} (h : tokenize source = .ok (ts ++ [stop]))
    (room : Room) : parseAt room source = Grammar.sheet room stop ts := by
  have hend : splitEnd (ts ++ [stop]) = (ts, stop) := by
    rw [splitEnd_append ts (by simp)]
    simp [splitEnd]
  rw [parseAt_eq, h]
  change Grammar.sheet room (splitEnd (ts ++ [stop])).2 (splitEnd (ts ++ [stop])).1 = _
  rw [hend]

theorem parse_withSemicolon (h : parse limit source = .ok sheet) (hn : Boundary limit source n) :
    ∃ sheet', parse limit (withSemicolon source n) = .ok sheet' ∧
      Statement.solids sheet = Statement.solids sheet' := by
  obtain ⟨front, t, us, stop, htokens, hboundary, rfl⟩ := hn
  obtain ⟨e, hcomes⟩ := hboundary.comes
  obtain ⟨z, hz, ht⟩ : ∃ z, (z = ';' ∨ z = '}' ∨ z = '{') ∧ t.lexeme = .delim z := by
    have hbound := hcomes.bound t (by simp)
    simp only [Token.isSeal, Token.isDelim, Bool.or_eq_true, beq_iff_eq] at hbound
    rcases hbound with (ht | ht) | ht
    · exact ⟨';', .inl rfl, ht⟩
    · exact ⟨'}', .inr (.inl rfl), ht⟩
    · exact ⟨'{', .inr (.inr rfl), ht⟩
  let semicolon : Token := ⟨.delim ';', [], [';'], t.line, t.stop⟩
  have hedited : tokenize (withSemicolon source t.stop) =
      .ok (front ++ t :: semicolon :: us.map (Token.moved 0 1) ++ [stop.moved 0 1]) := by
    rw [tokenize_withSemicolon htokens ht hz, List.map_append]
    simp [semicolon]
  have hsplit : front ++ t :: (us ++ [stop]) = front ++ [t] ++ us ++ [stop] := by simp
  rw [hsplit] at htokens
  rw [parse_eq_ok, parseAt_of_tokens htokens] at h
  have hsemicolon : semicolon.isDelim ';' = true := rfl
  obtain ⟨sheet', hread, hsolids⟩ := hcomes.sheet_semicolon hsemicolon h
  refine ⟨sheet', ?_, hsolids⟩
  have halike : List.Forall₂ Token.Alike (front ++ t :: semicolon :: us.map (Token.moved 0 1))
      (front ++ [t] ++ semicolon :: us) := by
    have hsame (ts : List Token) : List.Forall₂ Token.Alike ts ts :=
      List.forall₂_same.mpr fun _ _ => ⟨rfl, rfl, rfl⟩
    have hmoved : List.Forall₂ Token.Alike (us.map (Token.moved 0 1)) us := by
      rw [List.forall₂_map_left_iff]
      exact List.forall₂_same.mpr fun u _ => u.moved_alike 0 1
    have hone : semicolon.Alike semicolon := ⟨rfl, rfl, rfl⟩
    have hback := List.rel_append (hsame (front ++ [t])) (.cons hone hmoved)
    simpa using hback
  rw [parse_eq_ok, parseAt_of_tokens hedited]
  exact sheet_alike (stop.moved_alike 0 1) halike hread

theorem parse_withSpace (h : parse limit source = .ok sheet) (hn : SpareSemicolon limit source n) :
    parse limit (withSpace source n) = .ok sheet := by
  obtain ⟨front, t, used, semicolon, after, stop, d, s, htokens, hcomes, ht, hsemicolon, hread,
    hafter, rfl⟩ := hn
  have hlexeme : semicolon.lexeme = .delim ';' := by simpa [Token.isDelim] using hsemicolon
  have hsplit : front ++ t :: (used ++ semicolon :: (after ++ [stop])) =
      (front ++ t :: (used ++ semicolon :: after)) ++ [stop] := by simp
  have hsheet : Grammar.sheet ⟨limit.toNat, stackCalls⟩ stop
      (front ++ t :: (used ++ semicolon :: after)) = .ok sheet := by
    rw [hsplit] at htokens
    rwa [parse_eq_ok, parseAt_of_tokens htokens] at h
  -- The semicolon goes into the gap of the next token.
  obtain ⟨stop', after', hedited, halike⟩ : ∃ stop' after',
      tokenize (withSpace source semicolon.start) = .ok (front ++ t :: (used ++ after') ++ [stop']) ∧
        Grammar.ClosesAlike after after' := by
    have hregroup : front ++ t :: (used ++ semicolon :: (after ++ [stop])) =
        (front ++ t :: used) ++ semicolon :: (after ++ [stop]) := by simp
    rw [hregroup] at htokens
    cases after with
    | nil =>
      have hend : stop.lexeme = .endOfInput := by
        obtain ⟨ts, last, hlast, hend, -⟩ := (tokenize_tiled htokens).last_eq
        have hlast : (front ++ t :: used ++ [semicolon]) ++ [stop] = ts ++ [last] := by
          simpa using hlast
        obtain ⟨-, rfl⟩ : _ ∧ stop = last := by
          simpa using List.append_inj' hlast rfl
        exact hend
      refine ⟨stop.behind (semicolon.gap ++ [' ']), [], ?_, .nil⟩
      rw [tokenize_withSpace htokens hlexeme (.inr hend)]
      simp
    | cons v after =>
      have hv : v.isDelim '}' = true := hafter.resolve_left (by simp)
      have hbrace : v.lexeme = .delim '}' := by simpa [Token.isDelim] using hv
      refine ⟨stop, v.behind (semicolon.gap ++ [' ']) :: after, ?_, .brace hv hv⟩
      rw [tokenize_withSpace htokens hlexeme (.inl hbrace)]
      simp
  rw [parse_eq_ok, parseAt_of_tokens hedited]
  exact hcomes.sheet_unended ht hsemicolon halike hread hsheet

/-- A semicolon more at a boundary leaves at most a hole, and a spare semicolon less leaves nothing.
What is counted stays the same, whatever has been counted before. -/
theorem parse_semicolons (h : parse limit source = .ok sheet) :
    (∀ n, Boundary limit source n → ∃ sheet',
      parse limit (withSemicolon source n) = .ok sheet' ∧
        Statement.solids sheet' = Statement.solids sheet ∧
        ∀ c : Classifier, c.store.frozen = false →
          ∃ c', c.scan sheet = .ok c' ∧ c.scan sheet' = .ok c') ∧
      ∀ n, SpareSemicolon limit source n → parse limit (withSpace source n) = .ok sheet := by
  refine ⟨fun n hn => ?_, fun n hn => parse_withSpace h hn⟩
  obtain ⟨sheet', hparse, hsolids⟩ := parse_withSemicolon h hn
  refine ⟨sheet', hparse, hsolids.symm, fun c hc => ?_⟩
  have hscan : c.scan sheet = .ok (c.scanned sheet) := Classifier.scan_eq hc sheet
  exact ⟨_, hscan, (scan_of_solids hsolids c).symm.trans hscan⟩

/-- A block with one declaration, with a stray semicolon and with none at all. -/
theorem parse_semicolons_block : ∃ sheet sheet',
    parse 64 "\x7bx:y;\x7d" = .ok sheet ∧ parse 64 "\x7b;x:y;\x7d" = .ok sheet' ∧
      Statement.solids sheet' = Statement.solids sheet ∧ parse 64 "\x7bx:y \x7d" = .ok sheet := by
  let brace : Token := ⟨.delim '{', [], ['{'], 1, 0⟩
  let name : Token := ⟨.ident "x", [], ['x'], 1, 1⟩
  let value : List Token := [⟨.delim ':', [], [':'], 1, 2⟩, ⟨.ident "y", [], ['y'], 1, 3⟩]
  let semicolon : Token := ⟨.delim ';', [], [';'], 1, 4⟩
  let close : Token := ⟨.delim '}', [], ['}'], 1, 5⟩
  let stop : Token := ⟨.endOfInput, [], [], 1, 6⟩
  let room : Room := ⟨64, stackCalls⟩
  let inner : Room := ⟨63, stackCalls - 3⟩
  obtain ⟨sheet, hsheet⟩ : ∃ sheet, parse 64 "\x7bx:y;\x7d" = .ok sheet :=
    parse_of_isSome (by decide +kernel)
  have htokens : tokenize "\x7bx:y;\x7d" =
      .ok (brace :: name :: (value ++ [semicolon, close, stop])) := by
    have hsome : (tokenize "\x7bx:y;\x7d").toOption =
        some (brace :: name :: (value ++ [semicolon, close, stop])) := by
      decide +kernel
    cases htokenize : tokenize "\x7bx:y;\x7d" with
    | error e =>
      rw [htokenize] at hsome
      cases hsome
    | ok ts =>
      rw [htokenize] at hsome
      rw [Option.some.inj hsome]
  have hopens : Grammar.Opens (Grammar.statementFrom room) [] brace (.block none) :=
    fun body stop more => rfl
  have hopened : room.opened (Grammar.Frame.block none).opening = .ok inner := rfl
  have hboundary : Boundary 64 "\x7bx:y;\x7d" 1 := by
    have hcomes : Grammar.Comes stop room [] room
        ([] ++ brace :: name :: (value ++ [semicolon, close])) := .here
    have hbehind : Grammar.Boundary stop room [brace] (name :: (value ++ [semicolon, close])) :=
      .opened hcomes (by simp) rfl hopens hopened
    exact ⟨[], brace, name :: (value ++ [semicolon, close]), stop, htokens, hbehind, rfl⟩
  have hspare : SpareSemicolon 64 "\x7bx:y;\x7d" 4 := by
    have hrest : (Grammar.statement inner (Grammar.body inner) stop name
        (value ++ [semicolon, close])).toOption.map Prod.snd = some [close] := by
      decide +kernel
    cases hread : Grammar.statement inner (Grammar.body inner) stop name
        (value ++ [semicolon, close]) with
    | error e =>
      rw [hread] at hrest
      cases hrest
    | ok p =>
      obtain ⟨s, after⟩ := p
      rw [hread] at hrest
      cases hrest
      have hcomes : Grammar.Comes stop room ([] ++ [brace]) inner
          (name :: (value ++ [semicolon, close])) := .inside (by simp) rfl hopens hopened .here
      exact ⟨[brace], name, value, semicolon, [close], stop, inner, s, htokens, hcomes, rfl, rfl,
        hread, .inr rfl, rfl⟩
  obtain ⟨hmore, hless⟩ := parse_semicolons hsheet
  obtain ⟨sheet', hsheet', hsolids, -⟩ := hmore 1 hboundary
  have hinserted : withSemicolon "\x7bx:y;\x7d" 1 = "\x7b;x:y;\x7d" := by decide +kernel
  have hreplaced : withSpace "\x7bx:y;\x7d" 4 = "\x7bx:y \x7d" := by decide +kernel
  refine ⟨sheet, sheet', hsheet, hinserted ▸ hsheet', hsolids, hreplaced ▸ hless 4 hspare⟩

end Sources

end StyleTally.Stylesheet
