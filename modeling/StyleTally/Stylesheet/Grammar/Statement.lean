import StyleTally.Stylesheet.Grammar.Guard
import StyleTally.Stylesheet.Grammar.Media
import StyleTally.Stylesheet.Grammar.Mixin

/-!
# Statements

What follows a statement decides what it is: the first brace or semicolon outside brackets tells
rulesets, mixins and at-rules with a body from declarations, calls and at-rules without one. The
rule for bodies goes down into the room behind the brace.
-/

namespace StyleTally.Stylesheet.Grammar

/-- Reads a body in braces, behind what opens it. -/
abbrev Body : Type := Opening → Rule (List Statement)

/-- What comes before the brace or semicolon that bounds a statement, and what follows. -/
def head (ts : List Token) : List Token × List Token := cut [';', '{', '}'] 0 ts

def endStatement (ts : List Token) : Except Fault (List Token) :=
  match ts with
  | [] => .ok []
  | t :: rest =>
    if t.isDelim ';' then .ok rest
    else if t.isDelim '}' then .ok ts
    else .error (.malformed (.expected ';' (foundAt ts)) t.line)

/-- Whether a mark of importance ends a range, and the range in front of it with its stop token. -/
def splitImportant (stop : Token) (ts : List Token) : Bool × Token × List Token :=
  match ts.reverse with
  | u :: t :: front =>
    if t.isDelim '!' && u.isWord "important" then (true, t, front.reverse) else (false, stop, ts)
  | _ => (false, stop, ts)

/-- A value over a whole range, if the range holds anything. -/
def valueIfAny (room : Room) (stop : Token) (ts : List Token) : Except Fault (Option Value) :=
  if ts.isEmpty then .ok none else (whole (value (operand room) false) stop ts).map some

/-- The value of a declaration over a whole range, and whether a mark of importance ends it. -/
def declarationValue (room : Room) (stop : Token) (ts : List Token) :
    Except Fault (Option Value × Bool) :=
  let (important, stop, ts) := splitImportant stop ts
  (valueIfAny room stop ts).map (·, important)

/-- A declaration over a whole range; `line` is the line that it starts on. -/
def declaration (room : Room) (line : Nat) (stop : Token) (ts : List Token) :
    Except Fault Statement :=
  match cut [':'] 0 ts with
  | (_, []) => .error (.malformed .missingColon line)
  | (name, colon :: rest) =>
    if !colon.isDelim ':' then .error (.malformed .missingColon line)
    else if name.isEmpty then .error (.malformed .missingPropertyName line)
    else do
      let (v, important) ← declarationValue room stop rest
      return .declaration (textOf name) v important

/-- The selectors after `&:extend(`, where the text at hand starts with that. -/
def extendBody? : List Token → Option (Token × List Token)
  | amp :: colon :: name :: bracket :: rest =>
    if amp.isDelim '&' && colon.isDelim ':' && !colon.spaced && name.isWord "extend" &&
        bracket.isDelim '(' then some (bracket, rest) else none
  | _ => none

/-- Whether the word `all` ends a range, and the range in front of it with its stop token. -/
def splitAll (stop : Token) (ts : List Token) : Bool × Token × List Token :=
  match ts.reverse with
  | last :: t :: front =>
    if last.isWord "all" && last.spaced then (true, last, (t :: front).reverse)
    else (false, stop, ts)
  | _ => (false, stop, ts)

/-- An extension from its bracket on; `all` after the selectors is a mark of its own. -/
def extend (bracket : Token) (rest : List Token) : Except Fault (Statement × List Token) := do
  let (inner, close, after) ← enclosed bracket '(' rest
  let (all, stop, inner) := splitAll close inner
  let selectors ← selectors stop inner
  return (.extend selectors all, after)

/-- The tokens before and after the `when` that opens a guard. -/
def splitGuard (depth : Int) : List Token → Option (List Token × Token × List Token)
  | [] => none
  | t :: ts =>
    let further (depth : Int) :=
      (splitGuard depth ts).map fun (before, w, after) => (t :: before, w, after)
    if t.isDelim '(' || t.isDelim '[' then further (depth + 1)
    else if t.isDelim ')' || t.isDelim ']' then further (depth - 1)
    else if depth == 0 && t.isWord "when" && t.spaced then some ([], t, ts)
    else further depth

/-- The selectors and the guard in front of the brace of a ruleset. -/
def rulesetHead (room : Room) (brace : Token) (front : List Token) :
    Except Fault (List Selector × Option (List Value)) :=
  match splitGuard 0 front with
  | none => (selectors brace front).map (·, none)
  | some (before, w, after) => do
    let selectors ← selectors w before
    let conditions ← guard room brace after
    return (selectors, some conditions)

def ruleset (room : Room) (body : Body) (stop brace : Token)
    (front tail : List Token) : Except Fault (Statement × List Token) := do
  let (selectors, guard) ← rulesetHead room brace front
  let (statements, rest) ← body .ruleset stop tail
  return (.ruleset selectors guard statements, rest)

/-- The parameters and the guard from the bracket on, if the mixin definition ends before the
brace. A closing parenthesis may lie beyond the brace; a guard that would have to start there has no
test. -/
def signature? (room : Room) (brace : Token) (front ts : List Token) (bracket : Token)
    (rest : List Token) : Except Fault (Option (List Parameter × Option (List Value))) := do
  let (inner, close, after) ← enclosed bracket '(' rest
  let used := ts.length - after.length
  if used != front.length && !startsWithWord "when" after then return none
  else
    let operand ← enter (room.below operand) .parameters (lineAt brace ts)
    let params ← parameters operand close inner
    if used == front.length then return some (params, none)
    else if front.length < used then throw (unexpectedAt brace [])
    else
      let conditions ← guard room brace (front.drop (used + 1))
      return some (params, some conditions)

/-- The name, the parameters and the guard of a mixin definition, if the text before the brace is
one. -/
def mixinHead? (room : Room) (brace : Token) (front ts : List Token) :
    Except Fault (Option (String × List Parameter × Option (List Value))) :=
  match mixinName? ts with
  | some (name, bracket :: rest) =>
    if bracket.isDelim '(' then
      (signature? room brace front ts bracket rest).map fun found => found.map (name, ·)
    else .ok none
  | _ => .ok none

/-- A ruleset, a mixin definition or a bare block, whose brace follows `front`. -/
def withBody (room : Room) (body : Body) (stop brace : Token)
    (front tail ts : List Token) : Except Fault (Statement × List Token) := do
  if front.isEmpty then
    let (statements, rest) ← body .block stop ts
    return (.block none statements, rest)
  match ← mixinHead? room brace front ts with
  | some (name, params, guard) =>
    let (statements, rest) ← body .ruleset stop tail
    return (.mixin name params guard statements, rest)
  | none => ruleset room body stop brace front tail

def isImportName (name : String) : Bool :=
  ["import", "import-once", "import-multiple"].contains name

/-- The words between the parentheses after an import. -/
def importOptions (ts : List Token) : Except Fault (List String × List Token) :=
  match ts with
  | t :: rest =>
    if t.isDelim '(' then do
      let (inner, _, after) ← enclosed t '(' rest
      let words := inner.filterMap fun t =>
        match t.lexeme with
        | .ident s => some s
        | _ => none
      return (words, after)
    else .ok ([], ts)
  | [] => .ok ([], ts)

/-- Media queries over a whole range, if the range holds anything. -/
def mediaQueriesIfAny (room : Room) (stop : Token) (ts : List Token) :
    Except Fault (Option (List Value)) :=
  if ts.isEmpty then .ok none else (mediaQueries room stop ts).map some

def imported (room : Room) (stop : Token) (ts : List Token) :
    Except Fault (Statement × List Token) := do
  let (options, ts) ← importOptions ts
  let (front, tail) := head ts
  if front.isEmpty then throw (.malformed .missingImportPath (lineAt stop ts))
  let stopAt := tail.headD stop
  let (path, rest) ← primary (room.below operand) stopAt front
  let features ← mediaQueriesIfAny room stopAt rest
  let rest ← endStatement tail
  return (.imported path features options, rest)

def media (room : Room) (body : Body) (stop : Token) (ts : List Token) :
    Except Fault (Statement × List Token) := do
  let (front, tail) := head ts
  if !startsWithDelim '{' tail then throw (.malformed .missingMediaBody (lineAt stop ts))
  let features ← mediaQueriesIfAny room (tail.headD stop) front
  let (statements, rest) ← body .atRule stop tail
  return (.media features statements, rest)

/-- The definition of a variable, or of a block with a name, after the colon. -/
def definition (room : Room) (body : Body) (name : String) (stop : Token)
    (ts : List Token) : Except Fault (Statement × List Token) :=
  if startsWithDelim '{' ts then do
    let (statements, rest) ← body .atRule stop ts
    return (.block (some name) statements, rest)
  else do
    let (front, tail) := head ts
    match ← declarationValue room (tail.headD stop) front with
    | (none, _) => throw (.malformed (.missingValue name) (lineAt stop tail))
    | (some v, important) =>
      let rest ← endStatement tail
      return (.definition name v important, rest)

/-- Any other at-rule, after its name. -/
def directive (room : Room) (body : Body) (name : String) (stop : Token)
    (ts : List Token) : Except Fault (Statement × List Token) := do
  let (front, tail) := head ts
  if startsWithDelim '{' tail then
    let (statements, rest) ← body .atRule stop tail
    return (.blockDirective ("@" ++ name) (textOf front) statements, rest)
  else
    let v ← valueIfAny room (tail.headD stop) front
    let rest ← endStatement tail
    return (.directive ("@" ++ name) v, rest)

/-- A call of a block with a name, from its parenthesis on. -/
def blockCall (room : Room) (name : String) (bracket : Token) (rest : List Token) :
    Except Fault (Statement × List Token) := do
  let (args, after) ← argumentsFrom room bracket rest
  let rest ← endStatement after
  return (.mixinCall [⟨.text ("@" ++ name), none⟩] (some args) false, rest)

def atRule (room : Room) (body : Body) (name : String) (stop : Token)
    (ts : List Token) : Except Fault (Statement × List Token) :=
  let small := Text.lowerCase name
  if small == "media" then media room body stop ts
  else if isImportName small then imported room stop ts
  else
    match ts with
    | [] => directive room body name stop ts
    | t :: rest =>
      if t.isDelim ':' then
        if startsWithDelim '{' rest || !startsWithDelim '{' (head rest).2 then
          definition room body name stop rest
        else directive room body name stop ts
      else if t.isDelim '(' && !t.spaced then blockCall room name t rest
      else directive room body name stop ts

def opensMixinCall (t : Token) : Bool :=
  match t.lexeme with
  | .delim c => c == '.'
  | .hash _ => true
  | _ => false

/-- A mixin call or a declaration over a whole range. -/
def callOrDeclaration (room : Room) (stop : Token) (t : Token) (ts : List Token) :
    Except Fault Statement :=
  if opensMixinCall t then mixinCall room stop ts else declaration room t.line stop ts

/-- A statement without a body, and the tokens from the one that ends it on. -/
def unendedStatement (room : Room) (stop : Token) (t : Token) (rest : List Token) :
    Except Fault (Statement × List Token) :=
  match extendBody? (t :: rest) with
  | some (bracket, rest) => extend bracket rest
  | none =>
    let (front, tail) := head (t :: rest)
    (callOrDeclaration room (tail.headD stop) t front).map (·, tail)

/-- A statement without a body. -/
def simpleStatement (room : Room) (stop : Token) (t : Token) (rest : List Token) :
    Except Fault (Statement × List Token) := do
  let (statement, tail) ← unendedStatement room stop t rest
  let rest ← endStatement tail
  return (statement, rest)

/-- A statement that opens with the token `t`. -/
def statement (room : Room) (body : Body) (stop t : Token) (rest : List Token) :
    Except Fault (Statement × List Token) :=
  match t.lexeme with
  | .atKeyword name => atRule room body name stop rest
  | _ =>
    match head (t :: rest) with
    | (front, brace :: after) =>
      if brace.isDelim '{' then withBody room body stop brace front (brace :: after) (t :: rest)
      else simpleStatement room stop t rest
    | _ => simpleStatement room stop t rest

/-- Statements up to a closing brace or the end. -/
def statements (room : Room) (body : Body) (stop : Token) (ts : List Token) :
    Except Fault (List Statement × List Token) :=
  match ts with
  | [] => .ok ([], [])
  | t :: rest =>
    if t.isDelim '}' then .ok ([], t :: rest)
    else if t.isDelim ';' then
      (statements room body stop rest).map fun (more, rest) => (.empty :: more, rest)
    else do
      let (s, after) ← statement room body stop t rest
      if after.length ≤ rest.length then
        (statements room body stop after).map fun (more, rest) => (s :: more, rest)
      else return ([s], after)
termination_by ts.length

/-- A body in braces; `deeper` reads its statements. -/
def bodyWith (deeper : Deeper (Rule (List Statement))) : Body := fun o stop ts =>
  match ts with
  | [] => .error (.malformed (.expected '{' .endOfInput) stop.line)
  | t :: rest =>
    if !t.isDelim '{' then .error (.malformed (.expected '{' (foundAt ts)) t.line)
    else do
      let read ← enter deeper o (lineAt stop rest)
      match ← read stop rest with
      | (_, []) => throw (.malformed .unclosedBlock stop.line)
      | (inside, _ :: rest) => return (inside, rest)

/-- Bodies for which there is so much room, the level that they open included. -/
def body : Room → Body :=
  Room.descend fun _ deeper => bodyWith fun o =>
    (deeper o).map fun (inner, nested) => statements inner nested

theorem body_eq (room : Room) :
    body room = bodyWith (room.below fun inner => statements inner (body inner)) :=
  Room.descend_map (fun _ => bodyWith) (fun p => statements p.1 p.2) room

/-- The statements of a whole stylesheet. -/
def sheet (room : Room) (stop : Token) (ts : List Token) : Except Fault Sheet := do
  let (inner, rest) ← statements room (body room) stop ts
  if rest.isEmpty then return inner
  throw (unexpectedAt stop rest)

end StyleTally.Stylesheet.Grammar
