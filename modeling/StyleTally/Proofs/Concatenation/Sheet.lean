import StyleTally.Proofs.Concatenation.Statement
import StyleTally.Proofs.Lexer.Replace
import StyleTally.Proofs.Likeness.Moved
import StyleTally.Proofs.Tally.Marks
import StyleTally.Stylesheet.Parse

/-!
# Stylesheets one after the other

A stylesheet that ends in a semicolon or a closing brace may be followed by any other: the
statements of the other come behind its own, and a fault of the other is found as many lines
further down as the first has.
-/

namespace StyleTally.Stylesheet

/-- The number of lines that a text ends. -/
def newlines (source : String) : Nat := source.toList.count '\n'

/-- Whether a stylesheet is empty, or ends in a semicolon or a closing brace with nothing behind
it. -/
def endsSealed (source : String) : Bool :=
  source.isEmpty ||
    match (tokenize source).map List.reverse with
    | .ok (_ :: t :: _) => t.isSeal && t.stop == source.length
    | _ => false

/-- A stylesheet that ends so is empty or ends in the token of a seal. -/
theorem endsSealed_cases {source : String} (h : endsSealed source) {ts : List Token} {last : Token}
    (hts : tokenize source = .ok (ts ++ [last])) :
    source = "" ∨ ∃ front t, ts = front ++ [t] ∧ t.isSeal ∧ t.stop = source.length := by
  rw [endsSealed, Bool.or_eq_true] at h
  rcases h with h | h
  · exact .inl (String.isEmpty_iff.mp h)
  · right
    rw [hts] at h
    simp only [Except.map, List.reverse_append, List.reverse_singleton, List.singleton_append] at h
    cases hrev : ts.reverse with
    | nil =>
      rw [hrev] at h
      cases h
    | cons t front =>
      rw [hrev] at h
      simp only [Bool.and_eq_true, beq_iff_eq] at h
      refine ⟨front.reverse, t, ?_, h⟩
      rw [← List.reverse_reverse ts, hrev, List.reverse_cons]

/-- The tokens of a stylesheet that ends so, with another behind it. -/
theorem tokenize_append {first : String} (h : endsSealed first) {ts : List Token} {last : Token}
    (hfirst : tokenize first = .ok (ts ++ [last])) (second : String) :
    (ts = [] ∨ Sealed ts) ∧ tokenize (first ++ second) =
      ((tokenize second).mapError (Fault.moved (newlines first))).map
        fun us => ts ++ us.map (Token.moved (newlines first) first.length) := by
  rcases endsSealed_cases h hfirst with rfl | ⟨front, t, rfl, ht, hstop⟩
  · have hempty : tokenize "" = .ok [⟨.endOfInput, [], [], 1, 0⟩] := by
      rw [tokenize, tokensFrom_eq]
      rfl
    obtain ⟨rfl, -⟩ : ts = [] ∧ last = ⟨.endOfInput, [], [], 1, 0⟩ := by
      rw [hempty] at hfirst
      have hlength := congrArg List.length (Except.ok.inj hfirst)
      simp only [List.length_append, List.length_singleton] at hlength
      obtain rfl : ts = [] := List.eq_nil_of_length_eq_zero (by omega)
      exact ⟨rfl, by simpa using (Except.ok.inj hfirst).symm⟩
    refine ⟨.inl rfl, ?_⟩
    have hcontext : SameContext none none := ⟨rfl, fun _ => rfl⟩
    have hmoved := tokensFrom_moved 0 0 hcontext 1 0 second.toList
    rw [String.empty_append]
    exact hmoved
  · refine ⟨.inr ⟨front, t, rfl, ht⟩, ?_⟩
    obtain ⟨c, hc, hlexeme⟩ : ∃ c, (c = ';' ∨ c = '}') ∧ t.lexeme = .delim c := by
      simp only [Token.isSeal, Token.isDelim, Bool.or_eq_true, beq_iff_eq] at ht
      rcases ht with hseal | hseal
      · exact ⟨';', .inl rfl, hseal⟩
      · exact ⟨'}', .inr rfl, hseal⟩
    have hcontext := sameContext_bound hlexeme (text_of_delim hfirst (by simp) hlexeme) (hc.imp_right .inl)
    rw [List.append_assoc, List.singleton_append] at hfirst
    have hlength : first.toList.length = first.length := String.length_toList
    have hstop' : t.stop = 0 + first.toList.length := by omega
    have happend := tokensFrom_append hfirst hlexeme hc hstop' second.toList
    have hline : linesAfter 1 first.toList = 1 + newlines first := linesAfter_eq 1 _
    have hmoved := tokensFrom_moved (newlines first) first.length hcontext 1 0 second.toList
    rw [tokenize, tokenize, String.toList_append, happend, hline, hstop', hlength, hmoved]
    cases (tokensFrom 1 0 none second.toList).mapError (Fault.moved (newlines first)) <;> rfl

theorem parseAt_append {room : Room} {first : String} {sheet : Sheet} (h : endsSealed first)
    (hfirst : parseAt room first = .ok sheet) (second : String) :
    parseAt room (first ++ second) =
      ((parseAt room second).mapError (Fault.moved (newlines first))).map (sheet ++ ·) := by
  rw [parseAt_eq] at hfirst
  cases htokens : tokenize first with
  | error e =>
    rw [htokens] at hfirst
    cases hfirst
  | ok all =>
    have hall := splitEnd_eq (tokensFrom_ne_nil htokens)
    rw [htokens] at hfirst
    simp only [Except.bind] at hfirst
    rw [← hall] at htokens
    obtain ⟨hsealed, happend⟩ := tokenize_append h htokens second
    rw [parseAt_eq, parseAt_eq, happend]
    cases hsecond : tokenize second with
    | error e => rfl
    | ok us =>
      have hus : us ≠ [] := tokensFrom_ne_nil hsecond
      have hmap : us.map (Token.moved (newlines first) first.length) ≠ [] := by simpa using hus
      simp only [mapError_ok, Except.map, Except.bind]
      rw [splitEnd_append _ hmap, splitEnd_map _ hus]
      rw [Grammar.sheet_append _ _ _ hsealed hfirst, sheet_moved]
      cases Grammar.sheet room (splitEnd us).2 (splitEnd us).1 <;> rfl

/-- The refusal so many lines further down. -/
def Refusal.moved (down : Nat) : Refusal → Refusal
  | .malformed cause line => .malformed cause (line + down)
  | .beyondLimit limit line => .beyondLimit limit (line + down)
  | .exhausted => .exhausted

theorem Refusal.ofFault_moved (limit : Int) (down : Nat) (e : Fault) :
    ofFault limit (e.moved down) = (ofFault limit e).moved down := by
  cases e <;> rfl

theorem parse_append {limit : Int} {first : String} {sheet : Sheet}
    (hfirst : parse limit first = .ok sheet) (h : endsSealed first) (second : String) :
    parse limit (first ++ second) =
      ((parse limit second).mapError (Refusal.moved (newlines first))).map (sheet ++ ·) := by
  rw [parse, parseOn, parseAt_append h (parse_eq_ok.mp hfirst), parse, parseOn]
  cases parseAt ⟨limit.toNat, stackCalls⟩ second with
  | ok later => rfl
  | error e => exact congrArg Except.error (Refusal.ofFault_moved limit _ e)

theorem scan_append (statements : Bool) (sheet later : Sheet) :
    ∃ c c' : Classifier, (Classifier.fresh statements).scan (sheet ++ later) = .ok c ∧
      ((Classifier.fresh statements).scan sheet >>= fun c => c.scan later) = .ok c' ∧
      c.store = c'.store := by
  have hfresh : (Classifier.fresh statements).store.frozen = false := rfl
  have hsheet : ((Classifier.fresh statements).scanned sheet).store.frozen = false := by
    rw [Classifier.scanned, Store.frozen_record, hfresh]
  refine ⟨_, ((Classifier.fresh statements).scanned sheet).scanned later,
    Classifier.scan_eq hfresh _, ?_, ?_⟩
  · rw [Classifier.scan_eq hfresh sheet]
    exact Classifier.scan_eq hsheet later
  · simp only [Classifier.scanned, Mark.ofStatements_append, Store.record_append]

/-- Two stylesheets in one text: the statements of the second come behind those of the first, and
are counted behind them; a fault of the second is found further down by the lines of the first. -/
theorem parse_scan_append {limit : Int} {first : String} {sheet : Sheet}
    (hfirst : parse limit first = .ok sheet) (h : endsSealed first) (second : String) :
    (∀ later, parse limit second = .ok later →
      parse limit (first ++ second) = .ok (sheet ++ later) ∧
      ∀ statements, ∃ c c' : Classifier,
        (Classifier.fresh statements).scan (sheet ++ later) = .ok c ∧
        ((Classifier.fresh statements).scan sheet >>= fun c => c.scan later) = .ok c' ∧
        c.store = c'.store) ∧
    ∀ e, parse limit second = .error e →
      parse limit (first ++ second) = .error (e.moved (newlines first)) := by
  have happend := parse_append hfirst h second
  constructor
  · intro later hsecond
    rw [happend, hsecond]
    exact ⟨rfl, fun statements => scan_append statements sheet later⟩
  · intro e hsecond
    rw [happend, hsecond]
    rfl

/-- A ruleset on two lines, with another ruleset behind it and with a closing brace. -/
theorem parse_scan_append_ruleset : ∃ sheet later,
    parse 64 "a\n\x7b\x7d" = .ok sheet ∧
      parse 64 ("a\n\x7b\x7d" ++ "b\x7b\x7d") = .ok (sheet ++ later) ∧
      parse 64 ("a\n\x7b\x7d" ++ "\x7d") =
        .error (.malformed (.unexpected (.text "\x7d")) 2) := by
  have hseal : endsSealed "a\n\x7b\x7d" = true := by decide +kernel
  obtain ⟨sheet, hsheet⟩ : ∃ sheet, parse 64 "a\n\x7b\x7d" = .ok sheet :=
    parse_of_isSome (by decide +kernel)
  obtain ⟨later, hlater⟩ : ∃ later, parse 64 "b\x7b\x7d" = .ok later :=
    parse_of_isSome (by decide +kernel)
  have hclose : (parse 64 "\x7d").map (fun _ => ()) =
      .error (.malformed (.unexpected (.text "\x7d")) 1) := by
    decide +kernel
  have hfails := (parse_scan_append hsheet hseal "\x7d").2
  refine ⟨sheet, later, hsheet, ((parse_scan_append hsheet hseal "b\x7b\x7d").1 later hlater).1, ?_⟩
  cases hparse : parse 64 "\x7d" with
  | ok _ =>
    rw [hparse] at hclose
    cases hclose
  | error e =>
    rw [hparse] at hclose
    cases hclose
    exact hfails _ hparse

end StyleTally.Stylesheet
