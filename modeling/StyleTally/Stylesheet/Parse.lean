import StyleTally.Stylesheet.Grammar.Statement
import StyleTally.Stylesheet.Lexer

/-!
# Parsing

A stylesheet parses within a limit on nesting, on a stack that holds a number of calls. A text that
nests beyond the limit is refused on the line where it does; a text for which the stack is too small
is refused without a line, whatever the limit.
-/

namespace StyleTally.Stylesheet

/-- Why a stylesheet does not parse. -/
inductive Refusal where
  | malformed (cause : Cause) (line : Nat)
  /-- The text nests deeper than the limit. -/
  | beyondLimit (limit : Int) (line : Nat)
  /-- The stack is too small for the nesting of the text. -/
  | exhausted
  deriving DecidableEq, Repr

def Refusal.reason : Refusal → String
  | malformed cause _ => cause.message
  | beyondLimit limit _ => s!"nesting deeper than {limit} levels"
  | exhausted => "nesting too deep"

def Refusal.ofFault (limit : Int) : Fault → Refusal
  | .malformed cause line => malformed cause line
  | .tooDeep line => beyondLimit limit line
  | .overflow => exhausted

def defaultDepth : Int := 64

/-- The calls that the stack has left for the nesting of a text. It holds a thousand; some two dozen
are set aside for what runs when a text is parsed, for the rules on the way from a statement to the
first level that it opens, and for what a rule calls in passing. -/
def stackCalls : Nat := 976

/-- The tokens before the last one, which stands for the end of the input. -/
def splitEnd : List Token → List Token × Token
  | [] => ([], ⟨.endOfInput, [], [], 1, 0⟩)
  | [stop] => ([], stop)
  | t :: ts =>
    let (front, stop) := splitEnd ts
    (t :: front, stop)

theorem splitEnd_cons (t : Token) {ts : List Token} (hts : ts ≠ []) :
    splitEnd (t :: ts) = (t :: (splitEnd ts).1, (splitEnd ts).2) := by
  cases ts with
  | nil => exact absurd rfl hts
  | cons u ts => rfl

theorem splitEnd_eq {ts : List Token} (hts : ts ≠ []) : (splitEnd ts).1 ++ [(splitEnd ts).2] = ts := by
  induction ts with
  | nil => exact absurd rfl hts
  | cons t ts ih =>
    by_cases hnil : ts = []
    · subst hnil
      rfl
    · rw [splitEnd_cons t hnil, List.cons_append, ih hnil]

theorem splitEnd_append (ts : List Token) {us : List Token} (hus : us ≠ []) :
    splitEnd (ts ++ us) = (ts ++ (splitEnd us).1, (splitEnd us).2) := by
  induction ts with
  | nil => rfl
  | cons t ts ih => rw [List.cons_append, splitEnd_cons t (by simp [hus]), ih, List.cons_append]

theorem splitEnd_map (f : Token → Token) {ts : List Token} (hts : ts ≠ []) :
    splitEnd (ts.map f) = ((splitEnd ts).1.map f, f (splitEnd ts).2) := by
  induction ts with
  | nil => exact absurd rfl hts
  | cons t ts ih =>
    by_cases hnil : ts = []
    · subst hnil
      rfl
    · rw [List.map_cons, splitEnd_cons _ (by simpa using hnil), ih hnil, splitEnd_cons t hnil,
        List.map_cons]

def parseAt (room : Room) (source : String) : Except Fault Sheet := do
  let (ts, stop) := splitEnd (← tokenize source)
  Grammar.sheet room stop ts

theorem parseAt_eq (room : Room) (source : String) :
    parseAt room source = (tokenize source).bind fun ts =>
      Grammar.sheet room (splitEnd ts).2 (splitEnd ts).1 := rfl

/-- Parses on a stack that holds so many calls. -/
def parseOn (calls : Nat) (limit : Int) (source : String) : Except Refusal Sheet :=
  (parseAt ⟨limit.toNat, calls⟩ source).mapError (Refusal.ofFault limit)

def parse (limit : Int) (source : String) : Except Refusal Sheet := parseOn stackCalls limit source

theorem parse_eq_ok {limit : Int} {source : String} {sheet : Sheet} :
    parse limit source = .ok sheet ↔ parseAt ⟨limit.toNat, stackCalls⟩ source = .ok sheet := by
  rw [parse, parseOn]
  cases parseAt ⟨limit.toNat, stackCalls⟩ source with
  | ok s =>
    constructor <;>
    · rintro ⟨⟩
      rfl
  | error fault => exact ⟨nofun, nofun⟩

theorem parse_of_isSome {limit : Int} {source : String}
    (h : (parse limit source).toOption.isSome = true) : ∃ sheet, parse limit source = .ok sheet := by
  cases hparse : parse limit source with
  | ok sheet => exact ⟨sheet, rfl⟩
  | error e =>
    rw [hparse] at h
    cases h

theorem parse_of_map_eq_error {limit : Int} {source : String} {e : Refusal}
    (h : (parse limit source).map (fun _ => ()) = .error e) : parse limit source = .error e := by
  cases hparse : parse limit source with
  | ok sheet =>
    rw [hparse] at h
    cases h
  | error e' =>
    rw [hparse] at h
    cases h
    rfl

end StyleTally.Stylesheet
