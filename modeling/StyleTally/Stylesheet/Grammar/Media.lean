import StyleTally.Stylesheet.Grammar.Value

/-!
# Media queries

A media query is a row of words, features in parentheses and other values.
-/

namespace StyleTally.Stylesheet.Grammar

/-- The text of a number without a unit. -/
def bareNumber? (t : Token) : Option String :=
  match t.lexeme with
  | .number text _ unit => if unit.isEmpty then some text else none
  | _ => none

def ratio? (ts : List Token) : Option Value :=
  match ts with
  | [first, slash, second] => do
    let a ← bareNumber? first
    let b ← bareNumber? second
    if slash.isDelim '/' then some (.ratio (a ++ "/" ++ b)) else none
  | _ => none

def featureValue (operand : Rule Value) : Rule Value := fun stop ts =>
  match ratio? ts with
  | some ratio => .ok (ratio, [])
  | none => value operand false stop ts

/-- What the parentheses of a feature enclose; anything but a feature is a value. -/
def featureBody (operand : Rule Value) : Rule Value := fun stop ts =>
  let other : Except Fault (Value × List Token) := do
    let (v, rest) ← value operand false stop ts
    return (.paren v, rest)
  match ts with
  | t :: rest =>
    match t.lexeme with
    | .ident name =>
      if startsWithDelim ':' rest then
        match rest.drop 1 with
        | [] => .error (.malformed (.missingFeatureValue name) stop.line)
        | rest => do
          let (v, rest) ← featureValue operand stop rest
          return (.feature name (some v), rest)
      else if rest.isEmpty then .ok (.feature name none, [])
      else other
    | _ => other
  | [] => other

def feature (room : Room) (bracket : Token) (rest : List Token) :
    Except Fault (Value × List Token) := do
  let (inner, close, after) ← enclosed bracket '(' rest
  let operand ← enter (room.below operand) .feature bracket.line
  let v ← whole (featureBody operand) close inner
  return (v, after)

def mediaItem (room : Room) : Rule Value := fun stop ts =>
  match ts with
  | [] => primary (room.below operand) stop ts
  | t :: rest =>
    match t.lexeme with
    | .delim '(' => feature room t rest
    | .ident s =>
      if startsWithDelim '(' rest then primary (room.below operand) stop ts
      else .ok (.keyword s, rest)
    | _ => primary (room.below operand) stop ts

def mediaItems (room : Room) (stop : Token) (ts : List Token) : Except Fault (List Value) :=
  match ts with
  | [] => .ok []
  | t :: rest => do
    let (v, after) ← mediaItem room stop (t :: rest)
    if after.length ≤ rest.length then (mediaItems room stop after).map (v :: ·)
    else return [v]
termination_by ts.length

def mediaQuery (room : Room) (stop : Token) (ts : List Token) : Except Fault Value := do
  let vs ← mediaItems room stop ts
  if vs.isEmpty then throw (.malformed .emptyMediaQuery stop.line)
  return collect .expression vs

/-- Media queries with commas between them, over a whole range. -/
def mediaQueries (room : Room) (stop : Token) (ts : List Token) : Except Fault (List Value) :=
  (pieces ',' stop ts).bind (eachPiece (mediaQuery room))

end StyleTally.Stylesheet.Grammar
