import StyleTally.Proofs.Guard.RoundTrip

/-!
# What a ruleset was read from

A stylesheet that parses to a ruleset was read from tokens whose front, up to the first brace, is the
head of the ruleset. Nothing but a statement with a body makes a ruleset.
-/

namespace StyleTally.Stylesheet

section Rulesets

variable {room : Room} {body : Grammar.Body} {stop t : Token} {rest : List Token}

def Statement.isRuleset : Statement → Bool
  | .ruleset _ _ _ => true
  | _ => false

theorem Yields.self {α : Type} (x : Except Fault α) : Yields (fun a => x = .ok a) x := by
  cases x with
  | ok a => rfl
  | error e => trivial

theorem simpleStatement_yields : Yields (fun p => p.1.isRuleset = false)
    (Grammar.simpleStatement room stop t rest) := by
  have hmixin (stop : Token) (ts : List Token) :
      Yields (fun s => s.isRuleset = false) (Grammar.mixinCall room stop ts) := by
    unfold Grammar.mixinCall
    refine (Yields.any _).bind fun {path} _ => (Yields.any _).bind fun {args} _ => ?_
    dsimp only
    split
    · trivial
    · split
      · trivial
      · rfl
  have hdeclaration (line : Nat) (stop : Token) (ts : List Token) :
      Yields (fun s => s.isRuleset = false) (Grammar.declaration room line stop ts) := by
    unfold Grammar.declaration
    split
    · trivial
    · split
      · trivial
      · split
        · trivial
        · exact (Yields.any _).bind fun _ => rfl
  have hunended : Yields (fun p => p.1.isRuleset = false)
      (Grammar.unendedStatement room stop t rest) := by
    unfold Grammar.unendedStatement
    split
    · exact (Yields.any _).bind fun _ => (Yields.any _).bind fun _ => rfl
    · refine Yields.map (P := fun s => s.isRuleset = false) ?_ fun h => h
      unfold Grammar.callOrDeclaration
      split
      · exact hmixin _ _
      · exact hdeclaration _ _ _
  exact hunended.bind fun {p} h => (Yields.any _).bind fun _ => h

/-- A statement whose head, if it is a ruleset, is read from what stands in front of its body. -/
def Headed (room : Room) (ts : List Token) (s : Statement) : Prop :=
  ∀ selectors guard inner, s = .ruleset selectors guard inner →
    ∃ brace, Grammar.rulesetHead room brace (Grammar.head ts).1 = .ok (selectors, guard)

theorem statement_yields (ht : ∀ name, t.lexeme ≠ .atKeyword name) :
    Yields (fun p => Headed room (t :: rest) p.1) (Grammar.statement room body stop t rest) := by
  have hsimple : Yields (fun p => Headed room (t :: rest) p.1)
      (Grammar.simpleStatement room stop t rest) := by
    refine simpleStatement_yields.mono fun {p} h selectors guard inner hp => ?_
    rw [hp] at h
    cases h
  unfold Grammar.statement
  split
  · rename_i name hname
    exact absurd hname (ht name)
  · split
    · rename_i front brace after hhead
      split
      · unfold Headed
        rw [hhead]
        unfold Grammar.withBody
        split
        · exact (Yields.any _).bind fun _ => by rintro _ _ _ ⟨⟩
        · refine (Yields.any _).bind fun {found} _ => ?_
          split
          · exact (Yields.any _).bind fun _ => by rintro _ _ _ ⟨⟩
          · refine (Yields.self _).bind fun {found} hfound => (Yields.any _).bind fun _ => ?_
            rintro selectors guard inner ⟨⟩
            exact ⟨brace, hfound⟩
      · exact hsimple
    · exact hsimple

theorem headed_of_sheet {s : Statement} {more : List Statement}
    (ht : ∀ name, t.lexeme ≠ .atKeyword name) (hseal : t.isSeal = false)
    (h : Grammar.sheet room stop (t :: rest) = .ok (s :: more)) : Headed room (t :: rest) s := by
  have hstatements : Yields (fun p => ∀ s more, p.1 = s :: more → Headed room (t :: rest) s)
      (Grammar.statements room (Grammar.body room) stop (t :: rest)) := by
    simp only [Token.isSeal, Bool.or_eq_false_iff] at hseal
    rw [Grammar.statements, if_neg (by simp [hseal]), if_neg (by simp [hseal])]
    refine (statement_yields ht).bind fun {p} hp => ?_
    dsimp only
    split
    · refine (Yields.any _).map fun {q} _ s more hq => ?_
      rw [← (List.cons.inj hq).1]
      exact hp
    · rintro s more ⟨⟩
      exact hp
  have hsheet : Yields (fun ss => ∀ s more, ss = s :: more → Headed room (t :: rest) s)
      (Grammar.sheet room stop (t :: rest)) := by
    unfold Grammar.sheet
    refine hstatements.bind fun {p} hp => ?_
    dsimp only
    split
    · exact hp
    · trivial
  exact hsheet.of_ok h s more rfl

end Rulesets

section Parsing

variable {limit : Int} {source : String} {ts us : List Token} {rest : List Char} {s : Sheet}

theorem alike_symm (h : List.Forall₂ Token.Alike ts us) : List.Forall₂ Token.Alike us ts :=
  h.flip.imp fun _ _ h => ⟨h.1.symm, h.2.1.symm, h.2.2.symm⟩

/-- What a text parses to is read from the tokens that fit and those of the text behind them. -/
theorem sheet_of_fitting (hchars : source.toList = charsOf ts ++ rest) (hts : Fitting ts rest)
    (h : parse limit source = .ok s) :
    ∃ line start previous us stop, tokensFrom line start previous rest = .ok (us ++ [stop]) ∧
      Grammar.sheet ⟨limit.toNat, stackCalls⟩ stop (ts ++ us) = .ok s := by
  obtain ⟨vs, line, start, previous, halike, htokens⟩ := tokensFrom_fitting hts 1 0 none
  have hparse : parseAt ⟨limit.toNat, stackCalls⟩ source = .ok s := parse_eq_ok.mp h
  rw [parseAt_eq, tokenize, hchars, htokens] at hparse
  cases hrest : tokensFrom line start previous rest with
  | error e =>
    rw [hrest] at hparse
    cases hparse
  | ok ws =>
    have hne : ws ≠ [] := tokensFrom_ne_nil hrest
    rw [hrest] at hparse
    change Grammar.sheet _ (splitEnd (vs ++ ws)).2 (splitEnd (vs ++ ws)).1 = _ at hparse
    rw [splitEnd_append vs hne] at hparse
    refine ⟨line, start, previous, (splitEnd ws).1, (splitEnd ws).2, ?_, ?_⟩
    · rw [hrest, splitEnd_eq hne]
    · have hsame : List.Forall₂ Token.Alike (splitEnd ws).1 (splitEnd ws).1 :=
        List.forall₂_same.mpr fun _ _ => ⟨rfl, rfl, rfl⟩
      exact sheet_alike ⟨rfl, rfl, rfl⟩ (List.rel_append (alike_symm halike) hsame) hparse

end Parsing

end StyleTally.Stylesheet
