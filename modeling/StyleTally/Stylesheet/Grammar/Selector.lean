import StyleTally.Stylesheet.Grammar.Value

/-!
# Selectors

A selector is a row of simple selectors. The combinator in front of each is the last of the signs
written there, or a blank where only space stands.
-/

namespace StyleTally.Stylesheet.Grammar

/-- Whether a token names a pseudo-class or pseudo-element when it follows the colons. -/
def namesPseudo (t : Token) : Bool :=
  match t.lexeme with
  | .ident _ | .interpolation _ => !t.spaced
  | _ => false

/-- The name of a pseudo-class or pseudo-element, after its colons; any argument is kept as it is
written. -/
def pseudo (colons : List Token) (stop : Token) : List Token → Except Fault (Part × List Token)
  | [] => .error (.malformed .missingPseudoName stop.line)
  | t :: rest =>
    if !namesPseudo t then .error (.malformed .missingPseudoName t.line)
    else
      match rest with
      | p :: rest' =>
        if opensCall rest then do
          let (inner, close, after) ← enclosed p '(' rest'
          return (.text (textOf (colons ++ t :: p :: inner ++ [close])), after)
        else .ok (.text (textOf (colons ++ [t])), rest)
      | [] => .ok (.text (textOf (colons ++ [t])), rest)

def isAttributeSign (t : Token) : Bool :=
  match t.lexeme with
  | .delim c => ['~', '|', '^', '$', '*', '='].contains c
  | _ => false

/-- The value that an attribute is compared with. -/
def attributeValue? (t : Token) : Option Value :=
  match t.lexeme with
  | .quoted s quote => some (.quoted s quote false)
  | .ident s => some (.keyword s)
  | .interpolation name => some (.var name .curly)
  | .number _ x unit => some (.dimension x unit)
  | _ => none

def attributeName? (t : Token) : Option Value :=
  match t.lexeme with
  | .ident s => some (.keyword s)
  | .interpolation name => some (.var name .curly)
  | _ => none

/-- The name, operator and value between brackets; a mark on the case of letters is passed over. -/
def attributeTest : Rule (List Value) := fun stop ts =>
  match ts with
  | [] => .error (.malformed .missingAttributeName stop.line)
  | t :: rest =>
    match attributeName? t with
    | none => .error (.malformed .missingAttributeName t.line)
    | some name =>
      let signs := rest.takeWhile isAttributeSign
      if rest.isEmpty then .ok ([name], [])
      else if signs.isEmpty then .error (.malformed .missingAttributeOperator (lineAt stop rest))
      else
        match rest.drop signs.length with
        | [] => .error (.malformed .missingAttributeValue stop.line)
        | u :: rest =>
          match attributeValue? u with
          | none => .error (.malformed .missingAttributeValue u.line)
          | some v =>
            let marked := startsWithWord "i" rest || startsWithWord "s" rest
            .ok ([name, .keyword (textOf signs), v], if marked then rest.drop 1 else rest)

def isQuoted : List Token → Bool
  | ⟨.quoted _ _, _, _, _, _⟩ :: _ => true
  | _ => false

/-- A class name, or an interpolated class or id, after its sign. -/
def marked? (sign : Token) : List Token → Option (Part × List Token)
  | [] => none
  | t :: rest =>
    if t.spaced then none
    else
      match sign.lexeme, t.lexeme with
      | .delim '.', .ident name => some (.text ("." ++ name), rest)
      | .delim '.', .interpolation name | .delim '#', .interpolation name =>
        some (.value (.var name .curly), rest)
      | _, _ => none

/-- A simple selector that opens with the token `t`. -/
def part (stop t : Token) (rest : List Token) : Except Fault (Part × List Token) :=
  match marked? t rest with
  | some found => .ok found
  | none =>
    match t.lexeme with
    | .hash s | .ident s | .number s _ _ => .ok (.text s, rest)
    | .delim '&' => .ok (.text "&", rest)
    | .delim '*' => .ok (.text "*", rest)
    | .interpolation name => .ok (.value (.var name .curly), rest)
    | .delim ':' =>
      match rest with
      | u :: rest' =>
        if u.isDelim ':' && !u.spaced then pseudo [t, u] stop rest' else pseudo [t] stop rest
      | [] => pseudo [t] stop rest
    | .delim '[' => do
      let (inner, close, after) ← enclosed t '[' rest
      let parts ← whole attributeTest close inner
      return (.attribute parts, after)
    | .delim '~' =>
      match rest with
      | ⟨.quoted s quote, _, _, _, _⟩ :: rest => .ok (.value (.quoted s quote true), rest)
      | _ => .error (.malformed (.unexpectedInSelector (foundAt [t])) t.line)
    | _ => .error (.malformed (.unexpectedInSelector (foundAt [t])) t.line)

def combinator? (t : Token) (rest : List Token) : Option Char :=
  if t.isDelim '>' then some '>'
  else if t.isDelim '+' then some '+'
  else if t.isDelim '~' && !isQuoted rest then some '~'
  else none

/-- The elements of a whole range. `first` holds before the first element; `pending` is the
combinator that has been read. -/
def elementsFrom (pending : Option Char) (first : Bool) (stop : Token) (ts : List Token) :
    Except Fault (List Element) :=
  match ts with
  | [] => .ok []
  | t :: rest =>
    match combinator? t rest with
    | some c => elementsFrom (some c) first stop rest
    | none => do
      let (part, after) ← part stop t rest
      let element := ⟨part, pending.or (if !first && t.spaced then some ' ' else none)⟩
      if after.length ≤ rest.length then
        (elementsFrom none false stop after).map (element :: ·)
      else return [element]
termination_by ts.length

def selector (stop : Token) (ts : List Token) : Except Fault Selector := do
  let elements ← elementsFrom none true stop ts
  if elements.isEmpty then throw (.malformed .emptySelector stop.line)
  return elements

/-- Selectors with commas between them, over a whole range. -/
def selectors (stop : Token) (ts : List Token) : Except Fault (List Selector) :=
  if ts.isEmpty then .error (.malformed .missingSelector stop.line)
  else (pieces ',' stop ts).bind (eachPiece selector)

end StyleTally.Stylesheet.Grammar
