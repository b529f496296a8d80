import StyleTally.Proofs.Shape.Value
import StyleTally.Stylesheet.Grammar.Mixin

/-!
# The shape of selectors and calls

Selectors, mixin parameters and arguments as the grammar builds them, and that the rules for them
give no others. What the rules of the grammar keep of a value, they keep of the values in parameters
and arguments.
-/

namespace StyleTally.Stylesheet

open Value (Derives)

/-- An attribute test is a name alone, or a name with an operator and a value. -/
def Part.Shaped : Part → Prop
  | .text _ => True
  | .attribute parts =>
    (parts.length = 1 ∨ parts.length = 3) ∧ ∀ v ∈ parts, v.isAtom
  | .value v => v.isAtom

def Element.Shaped (e : Element) : Prop := e.part.Shaped

def Selector.Shaped (s : Selector) : Prop := s ≠ [] ∧ ∀ e ∈ s, Element.Shaped e

def SelectorsShaped (ss : List Selector) : Prop := ss ≠ [] ∧ ∀ s ∈ ss, Selector.Shaped s

def Parameter.Shaped (p : Parameter) : Prop := ∀ v ∈ p.value, Derives (.list false) v

/-- The value of a parameter that has one satisfies `P`. -/
def Parameter.Holds (P : Value → Prop) (p : Parameter) : Prop := ∀ v ∈ p.value, P v

def Argument.Shaped (a : Argument) : Prop := Derives (.list false) a.value

def Arguments.Shaped (a : Arguments) : Prop := ∀ i ∈ a.items, Argument.Shaped i

/-- The values of the arguments satisfy `P`. -/
def Arguments.Hold (P : Value → Prop) (a : Arguments) : Prop := ∀ i ∈ a.items, P i.value

namespace Grammar

section Selectors

theorem pseudo_yields (colons : List Token) (stop : Token) (ts : List Token) :
    Yields (fun (p, _) => p.Shaped) (pseudo colons stop ts) := by
  unfold pseudo
  split
  · trivial
  · split
    · trivial
    · split
      · split
        · exact (Yields.any _).bind fun _ => trivial
        · trivial
      · trivial

theorem isAtom_of_attributeName? {t : Token} {v : Value} (h : attributeName? t = some v) :
    v.isAtom := by
  unfold attributeName? at h
  split at h <;> cases h <;> rfl

theorem isAtom_of_attributeValue? {t : Token} {v : Value} (h : attributeValue? t = some v) :
    v.isAtom := by
  unfold attributeValue? at h
  split at h <;> cases h <;> rfl

theorem attributeTest_yields (stop : Token) (ts : List Token) :
    Yields (fun (parts, _) => (Part.attribute parts).Shaped) (attributeTest stop ts) := by
  cases ts with
  | nil => trivial
  | cons t rest =>
    simp only [attributeTest]
    split
    · trivial
    · rename_i name hname
      have hname := isAtom_of_attributeName? hname
      split
      · exact ⟨.inl rfl, by simpa using hname⟩
      · split
        · trivial
        · split
          · trivial
          · split
            · trivial
            · rename_i v hv
              have hv := isAtom_of_attributeValue? hv
              refine ⟨.inr rfl, List.forall_mem_cons.mpr ⟨hname, ?_⟩⟩
              exact List.forall_mem_cons.mpr ⟨rfl, by simpa using hv⟩

theorem marked?_shaped {sign : Token} {ts rest : List Token} {p : Part}
    (h : marked? sign ts = some (p, rest)) : p.Shaped := by
  unfold marked? at h
  split at h
  · cases h
  · split at h
    · cases h
    · split at h <;> cases h <;> trivial

theorem part_yields (stop t : Token) (ts : List Token) :
    Yields (fun (p, _) => p.Shaped) (part stop t ts) := by
  unfold part
  split
  · exact marked?_shaped ‹_›
  · split
    · trivial
    · trivial
    · trivial
    · trivial
    · trivial
    · rfl
    · split
      · split
        · exact pseudo_yields _ _ _
        · exact pseudo_yields _ _ _
      · exact pseudo_yields _ _ _
    · refine (Yields.any _).bind ?_
      rintro ⟨inner, close, after⟩ -
      exact (whole_of_yields (attributeTest_yields close inner)).bind fun h => h
    · split
      · rfl
      · trivial
    · trivial

theorem elementsFrom_yields (pending : Option Char) (first : Bool) (stop : Token)
    (ts : List Token) :
    Yields (fun es => ∀ e ∈ es, Element.Shaped e) (elementsFrom pending first stop ts) := by
  induction hn : ts.length using Nat.strongRecOn generalizing pending first ts with
  | ind n ih =>
    cases ts with
    | nil =>
      rw [elementsFrom]
      simp [Yields]
    | cons t rest =>
      rw [elementsFrom]
      simp only [List.length_cons] at hn
      split
      · exact ih _ (by omega) _ _ rest rfl
      · refine (part_yields stop t rest).bind ?_
        rintro ⟨p, after⟩ hp
        simp only
        by_cases hlength : after.length ≤ rest.length
        · rw [if_pos hlength]
          refine (ih _ (by omega) _ _ after rfl).map fun {es} hes => ?_
          exact List.forall_mem_cons.mpr ⟨hp, hes⟩
        · rw [if_neg hlength]
          exact List.forall_mem_cons.mpr ⟨hp, by simp⟩

theorem selector_yields (stop : Token) (ts : List Token) :
    Yields Selector.Shaped (selector stop ts) := by
  refine (elementsFrom_yields none true stop ts).bind fun {es} hes => ?_
  cases es with
  | nil => trivial
  | cons e es => exact ⟨by simp, hes⟩

theorem selectors_yields (stop : Token) (ts : List Token) :
    Yields SelectorsShaped (selectors stop ts) := by
  rw [selectors]
  split
  · trivial
  · refine (pieces_yields ',' stop ts).bind fun {ps} hps => ?_
    have hselector : ∀ stop ts, Yields (fun s => Selector.Shaped s ∧ True) (selector stop ts) :=
      fun stop ts => (selector_yields stop ts).mono fun hs => ⟨hs, trivial⟩
    refine (eachPiece_yields hselector ps).mono fun {ss} hss => ⟨?_, hss.2.1⟩
    have hlength : 0 < ps.length := List.length_pos_iff.mpr hps.1
    exact List.length_pos_iff.mp (by omega)

end Selectors

section Mixins

variable {P : Nat → Place → Value → Prop} (hP : Value.Grammatical P) {d : Nat}
  {operand : Rule Value} (ho : Reads (P d .operand) operand)

theorem bareParameter?_holds {Q : Value → Prop} {ts rest : List Token} {p : Parameter}
    (h : bareParameter? ts = some (p, rest)) : p.Holds Q := by
  have hbare {p : Parameter} (hp : p.value = none) : p.Holds Q := by
    intro v hv
    rw [hp] at hv
    cases hv
  unfold bareParameter? at h
  split at h
  · cases h
  · split at h <;> cases h <;> exact hbare rfl
  · split at h <;> cases h <;> exact hbare rfl

include hP ho

theorem parameter_yields (stop : Token) (ts : List Token) :
    Yields (fun (p, _) => p.Holds (P d (.list false))) (parameter operand stop ts) := by
  have hvalue (name : Option String) (ts : List Token) :
      Yields (fun p => Parameter.Holds (P d (.list false)) p.1)
        (value operand false stop ts >>= fun p => pure (⟨name, some p.1, false⟩, p.2)) := by
    refine (value_reads hP ho false stop ts).bind ?_
    rintro ⟨v, rest⟩ ⟨hv, -⟩ w hw
    cases hw
    exact hv
  unfold parameter
  split
  · exact hvalue _ _
  · split
    · exact bareParameter?_holds ‹_›
    · exact hvalue none ts

theorem argument_yields (stop : Token) (ts : List Token) :
    Yields (fun (a, _) => P d (.list false) a.value) (argument operand stop ts) := by
  unfold argument
  split
  · refine (value_reads hP ho false stop _).bind ?_
    rintro ⟨v, rest⟩ ⟨hv, -⟩
    exact hv
  · refine (value_reads hP ho false stop ts).bind ?_
    rintro ⟨v, rest⟩ ⟨hv, -⟩
    exact hv

theorem parameters_yields (stop : Token) (ts : List Token) :
    Yields (fun ps => ∀ p ∈ ps, p.Holds (P d (.list false))) (parameters operand stop ts) := by
  rw [parameters]
  split
  · simp [Yields]
  · refine (Yields.any _).bind fun {ps} _ => ?_
    have hparameter : ∀ stop ts, Yields (fun p => Parameter.Holds (P d (.list false)) p ∧ True)
        (whole (parameter operand) stop ts) := fun stop ts =>
      (whole_of_yields (parameter_yields hP ho stop ts)).mono fun hp => ⟨hp, trivial⟩
    exact (eachPiece_yields hparameter ps).mono fun h => h.2.1

theorem arguments_yields (stop : Token) (ts : List Token) :
    Yields (Arguments.Hold (P d (.list false))) (arguments operand stop ts) := by
  rw [arguments]
  split
  · simp [Yields, Arguments.Hold]
  · have hargument : ∀ stop ts, Yields (fun a => P d (.list false) a.value ∧ True)
        (whole (argument operand) stop ts) := fun stop ts =>
      (whole_of_yields (argument_yields hP ho stop ts)).mono fun ha => ⟨ha, trivial⟩
    refine Yields.bind (P := fun items : List Argument => ∀ i ∈ items, P d (.list false) i.value)
      ?_ fun h => h
    refine (Yields.any _).bind fun {ps} _ => ?_
    exact (eachPiece_yields hargument ps).mono fun h => h.2.1

omit ho

/-- The arguments of a call are read with one level less. -/
theorem argumentsFrom_yields (room : Room) (bracket : Token) (ts : List Token) :
    Yields (fun (a, rest) =>
        (∃ e, room.levels = e + 1 ∧ a.Hold (P e (.list false))) ∧ Consumed ts rest)
      (argumentsFrom room bracket ts) := by
  refine (enclosed_consumed bracket '(' ts).bind ?_
  rintro ⟨inner, close, after⟩ hafter
  refine (enter_yields (below_reads hP room) _ _).bind ?_
  rintro operand ⟨e, hlevels, ho⟩
  exact (arguments_yields hP ho close inner).bind fun ha => ⟨⟨e, hlevels, ha⟩, hafter⟩

theorem callArguments_yields (room : Room) (ts : List Token) :
    Yields (fun (a?, rest) =>
        (∀ a ∈ a?, ∃ e, room.levels = e + 1 ∧ a.Hold (P e (.list false))) ∧ Passed ts rest)
      (callArguments room ts) := by
  cases ts with
  | nil => exact ⟨by simp, .refl []⟩
  | cons t rest =>
    simp only [callArguments]
    split
    · refine (argumentsFrom_yields hP room t rest).map ?_
      rintro ⟨a, after⟩ ⟨ha, hafter⟩
      exact ⟨by simpa using ha, .inr (hafter.cons t)⟩
    · exact ⟨by simp, .refl _⟩

end Mixins

section Calls

theorem className?_consumed {ts rest : List Token} {name : String}
    (h : className? ts = some (name, rest)) : Consumed ts rest := by
  unfold className? at h
  split at h
  · cases h
  · split at h
    · split at h
      · cases h
      · cases h
        exact .of_lexeme ‹_›
    · cases h

theorem mixinName?_consumed {ts rest : List Token} {name : String}
    (h : mixinName? ts = some (name, rest)) : Consumed ts rest := by
  unfold mixinName? at h
  split at h
  · cases h
  · split at h
    · cases h
      exact .of_lexeme ‹_›
    · split at h
      · exact (className?_consumed h).cons _
      · cases h
    · cases h

theorem callPath_yields (pending : Option Char) (first : Bool) (ts : List Token) :
    Yields (fun (path, rest) => (∀ e ∈ path, Element.Shaped e) ∧ Passed ts rest ∧
        (path ≠ [] → Consumed ts rest))
      (callPath pending first ts) := by
  induction hn : ts.length using Nat.strongRecOn generalizing pending first ts with
  | ind n ih =>
    rw [callPath.eq_def]
    split
    · exact ⟨by simp, .refl [], by simp⟩
    · rename_i t rest
      simp only [List.length_cons] at hn
      split
      · exact ⟨by simp, .refl _, by simp⟩
      · split
        · rename_i hcombinator
          refine (ih _ (by omega) _ _ rest rfl).mono ?_
          rintro ⟨path, after⟩ ⟨hpath, hafter⟩
          have hgreater : Consumed (t :: rest) rest :=
            .single (isSeal_of_isDelim hcombinator (by decide))
          exact ⟨hpath, .inr (hgreater.passed hafter.1), fun _ => hgreater.passed hafter.1⟩
        · split
          · trivial
          · rename_i name after hname
            have hconsumed := mixinName?_consumed hname
            have hlength := hconsumed.length_lt
            simp only [List.length_cons] at hlength
            refine (ih _ (by omega) _ _ after rfl).map ?_
            rintro ⟨path, rest⟩ ⟨hpath, hrest⟩
            have hall := hconsumed.passed hrest.1
            exact ⟨List.forall_mem_cons.mpr ⟨trivial, hpath⟩, .inr hall, fun _ => hall⟩

theorem isSeal_of_isWord {t : Token} {word : String} (h : t.isWord word) : t.isSeal = false := by
  unfold Token.isWord at h
  split at h
  · rename_i s hs
    simp [Token.isSeal, Token.isDelim, hs]
  · cases h

theorem dropImportant_passed (ts : List Token) : Passed ts (dropImportant ts).2 := by
  unfold dropImportant
  split
  · rename_i t u rest
    split
    · rename_i hmark
      simp only [Bool.and_eq_true] at hmark
      have hlast : Consumed (u :: rest) rest := .single (isSeal_of_isWord hmark.2)
      exact .inr (hlast.cons t)
    · exact .refl _
  · exact .refl _

end Calls

end Grammar

end StyleTally.Stylesheet
