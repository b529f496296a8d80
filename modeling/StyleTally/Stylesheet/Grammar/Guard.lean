import StyleTally.Stylesheet.Grammar.Value

/-!
# Guards

The tests of a guard are joined by `and`, which binds tighter, and by `or`. A parenthesis in a test
opens a nested test when what follows its closer ends the test or joins it to another; otherwise it
belongs to a value.
-/

namespace StyleTally.Stylesheet.Grammar

def wordJoin (word : String) (op : Operator) : Token → List Token →
    Option ((Value → Value → Value) × List Token)
  | _, [] => none
  | _, t :: rest => if t.isWord word then some (.operation op, rest) else none

/-- One test, after a `not` if there is one; `deeper` reads what its parentheses enclose. -/
def plainTest (operand : Rule Value) (deeper : Deeper (Rule Value)) (negated : Bool) :
    Rule Value := fun stop ts =>
  match ts with
  | t :: rest =>
    if t.isDelim '(' then do
      let (inner, close, after) ← enclosed t '(' rest
      let test ← enter deeper .test t.line
      let v ← whole test close inner
      return (.condition v negated, after)
    else comparisonTest stop ts
  | [] => comparisonTest stop ts
where
  comparisonTest : Rule Value := fun stop ts => do
    let (v, rest) ← comparison operand stop ts
    return (.condition v negated, rest)

def test (operand : Rule Value) (deeper : Deeper (Rule Value)) : Rule Value := fun stop ts =>
  match ts with
  | t :: rest =>
    if t.isWord "not" then plainTest operand deeper true stop rest
    else plainTest operand deeper false stop ts
  | [] => plainTest operand deeper false stop ts

def alternatives (operand : Rule Value) (deeper : Deeper (Rule Value)) : Rule Value :=
  chained (wordJoin "or" .either) (chained (wordJoin "and" .both) (test operand deeper))

/-- What parentheses around a test enclose: nested tests, or a value with at most one comparison. -/
def enclosedTest (operand nested : Rule Value) : Rule Value := fun stop ts =>
  match ts with
  | t :: rest =>
    if t.isWord "not" then nested stop ts
    else if t.isDelim '(' then do
      let (_, _, after) ← enclosed t '(' rest
      if after.isEmpty || startsWithWord "and" after || startsWithWord "or" after then
        nested stop ts
      else comparison operand stop ts
    else comparison operand stop ts
  | [] => comparison operand stop ts

/-- Tests for which there is so much room. -/
def tests : Room → Rule Value :=
  Room.descend fun room deeper => alternatives (operand room) fun o =>
    (deeper o).map fun (inner, nested) => enclosedTest (operand inner) nested

theorem tests_eq (room : Room) :
    tests room = alternatives (operand room)
      (room.below fun inner => enclosedTest (operand inner) (tests inner)) :=
  Room.descend_map (fun room => alternatives (operand room))
    (fun p => enclosedTest (operand p.1) p.2) room

/-- The conditions of a guard, with commas between them. -/
def guard (room : Room) (stop : Token) (ts : List Token) : Except Fault (List Value) :=
  if ts.isEmpty then .error (.malformed .missingGuard stop.line)
  else (pieces ',' stop ts).bind (eachPiece (whole (tests room)))

end StyleTally.Stylesheet.Grammar
