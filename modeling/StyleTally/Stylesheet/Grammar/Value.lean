import StyleTally.Stylesheet.Range
import StyleTally.Stylesheet.Tree

/-!
# Values

Values in order of how tightly they bind: an operand with its signs, products, sums, comparisons,
expressions of values side by side, and lists with commas. A slash divides inside parentheses and
function calls, and pairs two values anywhere else. Every rule is built from the rule for operands;
that rule goes down into the room behind every opening.
-/

namespace StyleTally.Stylesheet.Grammar

open Text

def textOf (ts : List Token) : String := String.ofList (trimChars (spannedChars ts))

section Levels

variable (operand : Rule Value)

def productJoin (divides : Bool) : Token → List Token →
    Option ((Value → Value → Value) × List Token)
  | _, [] => none
  | _, t :: rest =>
    if t.isDelim '*' then some (.operation .multiply, rest)
    else if divides && t.isDelim '/' then some (.operation .divide, rest)
    else none

def product (divides : Bool) : Rule Value := chained (productJoin divides) operand

/-- A sign with blank space in front of it and none behind it opens a new value. -/
def sumJoin (stop : Token) : List Token → Option ((Value → Value → Value) × List Token)
  | [] => none
  | t :: rest =>
    if t.spaced && !spacedAt stop rest then none
    else if t.isDelim '+' then some (.operation .add, rest)
    else if t.isDelim '-' then some (.operation .subtract, rest)
    else none

def sum (divides : Bool) : Rule Value := chained sumJoin (product operand divides)

def slashJoin : Token → List Token → Option ((Value → Value → Value) × List Token)
  | _, [] => none
  | _, t :: rest => if t.isDelim '/' then some (.shorthand, rest) else none

def shorthand : Rule Value := chained slashJoin (sum operand false)

/-- Two delimiters that make up one comparison. -/
def compound? (a b : Char) : Option Operator :=
  match a, b with
  | '>', '=' | '=', '>' => some .greaterOrEqual
  | '<', '=' | '=', '<' => some .lessOrEqual
  | '!', '=' => some .notEqual
  | _, _ => none

def simple? (t : Token) : Option Operator :=
  if t.isDelim '>' then some .greater
  else if t.isDelim '<' then some .less
  else if t.isDelim '=' then some .equal
  else none

/-- The comparison that two tokens make up when nothing stands between them. -/
def compoundOf? (t u : Token) : Option Operator :=
  match t.lexeme, u.lexeme with
  | .delim a, .delim b => if u.spaced then none else compound? a b
  | _, _ => none

def comparisonOperator? : List Token → Option (Operator × List Token)
  | [] => none
  | [t] => (simple? t).map (·, [])
  | t :: u :: rest => ((compoundOf? t u).map (·, rest)).or ((simple? t).map (·, u :: rest))

def comparison : Rule Value := fun stop ts => do
  let (left, rest) ← sum operand true stop ts
  match comparisonOperator? rest with
  | none => return (left, rest)
  | some (op, rest) =>
    let (right, rest) ← sum operand true stop rest
    return (.operation op left right, rest)

/-- Values up to the end of the range or a comma. -/
def items (item : Rule Value) (stop : Token) (ts : List Token) :
    Except Fault (List Value × List Token) :=
  if ts.isEmpty || startsWithDelim ',' ts then .ok ([], ts)
  else do
    let (v, rest) ← item stop ts
    if rest.length < ts.length then
      (items item stop rest).map fun (vs, rest) => (v :: vs, rest)
    else return ([v], rest)
termination_by ts.length

def collect (several : List Value → Value) : List Value → Value
  | [v] => v
  | vs => several vs

def expression (divides : Bool) : Rule Value := fun stop ts => do
  let (vs, rest) ← items (if divides then comparison operand else shorthand operand) stop ts
  if vs.isEmpty then throw (.malformed .missingExpression (lineAt stop rest))
  return (collect .expression vs, rest)

/-- Expressions with commas between them. -/
def listed (item : Rule Value) (stop : Token) (ts : List Token) :
    Except Fault (List Value × List Token) := do
  let (v, rest) ← item stop ts
  match rest with
  | [] => return ([v], [])
  | t :: rest =>
    if t.isDelim ',' && rest.length < ts.length then
      (listed item stop rest).map fun (vs, rest) => (v :: vs, rest)
    else return ([v], t :: rest)
termination_by ts.length
decreasing_by simp_all

def value (divides : Bool) : Rule Value := fun stop ts => do
  let (vs, rest) ← listed (expression operand divides) stop ts
  return (collect .expressionList vs, rest)

/-- An argument of a function call; a name before a single equals sign gives it a name. -/
def functionArg : Rule Value := fun stop ts =>
  match ts with
  | t :: u :: rest =>
    match t.lexeme with
    | .ident name =>
      if u.isDelim '=' && !startsWithDelim '=' rest then do
        let (v, rest) ← expression operand true stop rest
        return (.assignment name v, rest)
      else expression operand true stop ts
    | _ => expression operand true stop ts
  | _ => expression operand true stop ts

/-- The arguments of a function call, over a whole range. -/
def functionArgs (stop : Token) (ts : List Token) : Except Fault (List Value) :=
  if ts.isEmpty then .ok [] else (pieces ',' stop ts).bind (eachPiece (whole (functionArg operand)))

end Levels

/-- A call of a function, from its opening parenthesis on. -/
def callFrom (deeper : Deeper (Rule Value)) (o : Opening) (name : String) (bracket : Token)
    (rest : List Token) : Except Fault (Value × List Token) := do
  let (inner, close, after) ← enclosed bracket '(' rest
  let operand ← enter deeper o bracket.line
  let args ← functionArgs operand close inner
  return (.call name args, after)

/-- A word that is not a call. -/
def word (text : String) : Value :=
  let small := text.toList.map Char.toLower
  if small == "true".toList then .truth true text
  else if small == "false".toList then .truth false text
  else if Color.isName text then .colorName text
  else .keyword text

def variableNamed (name : String) : Value :=
  match name.toList with
  | '@' :: cs => .var (String.ofList cs) .indirect
  | _ => .var name .direct

def opensCall : List Token → Bool
  | p :: _ => p.isDelim '(' && !p.spaced
  | [] => false

/-- A value without signs or operators. -/
def primary (deeper : Deeper (Rule Value)) : Rule Value
  | stop, [] => .error (unexpectedAt stop [])
  | stop, t :: rest =>
    match t.lexeme with
    | .number _ x unit => .ok (.dimension x unit, rest)
    | .quoted s quote => .ok (.quoted s quote false, rest)
    | .url s => .ok (.url s, rest)
    | .unicodeRange s => .ok (.unicodeRange s, rest)
    | .atKeyword name => .ok (variableNamed name, rest)
    | .interpolation name => .ok (.var name .curly, rest)
    | .hash s => .ok (((Color.ofHex? s).map Value.color).getD (.keyword s), rest)
    | .ident s =>
      match rest with
      | p :: after => if opensCall rest then callFrom deeper .call s p after else .ok (word s, rest)
      | [] => .ok (word s, rest)
    | .delim '(' => do
      let (inner, close, after) ← enclosed t '(' rest
      let operand ← enter deeper .parenthesis t.line
      let v ← whole (value operand true) close inner
      return (.paren v, after)
    | .delim '~' =>
      match rest with
      | ⟨.quoted s quote, _, _, _, _⟩ :: after => .ok (.quoted s quote true, after)
      | _ => .error (unexpectedAt stop (t :: rest))
    | .delim '%' =>
      match rest with
      | p :: after =>
        if opensCall rest then callFrom deeper .percentCall "%" p after
        else .error (unexpectedAt stop (t :: rest))
      | [] => .error (unexpectedAt stop (t :: rest))
    | .delim '[' => do
      let (inner, close, after) ← enclosed t '[' rest
      return (.keyword (textOf (t :: inner ++ [close])), after)
    | _ => .error (unexpectedAt stop (t :: rest))

/-- A value with its signs. A plus sign leaves no trace but its level of nesting. -/
def signed (deeper : Deeper (Rule Value)) : Rule Value := fun stop ts =>
  match ts with
  | [] => primary deeper stop ts
  | t :: rest =>
    if t.isDelim '-' then do
      let operand ← enter deeper .sign (lineAt stop rest)
      let (v, rest) ← operand stop rest
      return (.negative v, rest)
    else if t.isDelim '+' then do
      let operand ← enter deeper .sign (lineAt stop rest)
      operand stop rest
    else primary deeper stop ts

/-- Operands for which there is so much room. -/
def operand : Room → Rule Value :=
  Room.descend fun _ deeper => signed fun o => (deeper o).map Prod.snd

theorem operand_eq (room : Room) : operand room = signed (room.below operand) :=
  Room.descend_map (fun _ => signed) Prod.snd room

end StyleTally.Stylesheet.Grammar
