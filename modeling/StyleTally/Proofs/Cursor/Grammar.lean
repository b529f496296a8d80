import StyleTally.Proofs.Cursor.Tape
import StyleTally.Stylesheet.Grammar.Statement

/-!
# The grammar by position

Each rule of the grammar as a move from one position to another. A move looks at the tokens that it
needs, one by one; what it makes of them it leaves to the rules for single tokens.
-/

namespace StyleTally.Stylesheet.Tape

open Grammar (collect)

variable (tape : Tape)

section Values

variable (operand : Move Value)

def productJoin (divides : Bool) (limit pos : Int) :
    Except Halt (Option ((Value → Value → Value) × Int)) := do
  let t ← tape.peek limit pos
  if t.isDelim '*' || divides && t.isDelim '/' then
    let op ← operatorOf t.lexeme.value
    return some (.operation op, pos + 1)
  else return none

def product (divides : Bool) : Move Value := Move.chained (tape.productJoin divides) operand

def sumJoin (limit pos : Int) : Except Halt (Option ((Value → Value → Value) × Int)) := do
  let t ← tape.peek limit pos
  if t.isDelim '+' || t.isDelim '-' then
    let u ← tape.peek limit (pos + 1)
    if t.spaced && !u.spaced then return none
    else
      let op ← operatorOf t.lexeme.value
      return some (.operation op, pos + 1)
  else return none

def sum (divides : Bool) : Move Value := Move.chained tape.sumJoin (tape.product operand divides)

def slashJoin (limit pos : Int) : Except Halt (Option ((Value → Value → Value) × Int)) := do
  let t ← tape.peek limit pos
  if t.isDelim '/' then return some (.shorthand, pos + 1) else return none

def shorthand : Move Value := Move.chained tape.slashJoin (tape.sum operand false)

def compoundComparisons : List String := [">=", "=>", "<=", "=<", "!="]

def comparisonOperator? (limit pos : Int) : Except Halt (Option Operator × Int) := do
  let t ← tape.peek limit pos
  if ['>', '<', '=', '!'].any t.isDelim then
    let u ← tape.peek limit (pos + 1)
    let pair := t.lexeme.value ++ u.lexeme.value
    if u.lexeme.kind == "delim" && !u.spaced && compoundComparisons.contains pair then
      let op ← operatorOf pair
      return (some op, pos + 2)
    else if t.isDelim '!' then return (none, pos)
    else
      let op ← operatorOf t.lexeme.value
      return (some op, pos + 1)
  else return (none, pos)

def comparison : Move Value := fun limit pos => do
  let (left, pos) ← tape.sum operand true limit pos
  match ← tape.comparisonOperator? limit pos with
  | (none, pos) => return (left, pos)
  | (some op, pos) =>
    let (right, pos) ← tape.sum operand true limit pos
    return (.operation op left right, pos)

/-- Values up to the end of the range or a comma. -/
def items (item : Move Value) (limit pos : Int) : Except Halt (List Value × Int) := do
  let t ← tape.peek limit pos
  if t.isEnd || t.isDelim ',' then return ([], pos)
  else
    let (v, after) ← item limit pos
    if _h : remaining limit after < remaining limit pos then
      (items item limit after).map fun (vs, last) => (v :: vs, last)
    else .error (.stalled pos)
termination_by remaining limit pos

def expression (divides : Bool) : Move Value := fun limit pos => do
  let item := if divides then tape.comparison operand else tape.shorthand operand
  let (vs, pos) ← tape.items item limit pos
  if vs.isEmpty then
    let t ← tape.peek limit pos
    refuse .missingExpression t
  else return (collect .expression vs, pos)

/-- Expressions with commas between them. -/
def listed (item : Move Value) (limit pos : Int) : Except Halt (List Value × Int) := do
  let (v, after) ← item limit pos
  let t ← tape.peek limit after
  if t.isDelim ',' then
    if _h : remaining limit (after + 1) < remaining limit pos then
      (listed item limit (after + 1)).map fun (vs, last) => (v :: vs, last)
    else .error (.stalled pos)
  else return ([v], after)
termination_by remaining limit pos

def value (divides : Bool) : Move Value := fun limit pos => do
  let (vs, pos) ← tape.listed (tape.expression operand divides) limit pos
  return (collect .expressionList vs, pos)

def functionArg : Move Value := fun limit pos => do
  let t ← tape.peek limit pos
  match t.lexeme with
  | .ident name =>
    let u ← tape.peek limit (pos + 1)
    let w ← tape.peek limit (pos + 2)
    if u.isDelim '=' && !w.isDelim '=' then
      let (v, pos) ← tape.expression operand true limit (pos + 2)
      return (.assignment name v, pos)
    else tape.expression operand true limit pos
  | _ => tape.expression operand true limit pos

def functionArgs (start stop : Int) : Except Halt (List Value) :=
  if stop ≤ start then .ok []
  else do
    let parts ← tape.split ',' stop start
    Move.eachRange (tape.within (tape.functionArg operand)) parts

end Values

/-- A call of a function, from its opening parenthesis on. -/
def callFrom (deeper : Deeper (Move Value)) (o : Opening) (name : String) : Move Value :=
  fun limit pos => do
    let close ← tape.closing limit pos
    let operand ← tape.nested deeper o limit pos
    let args ← tape.functionArgs operand (pos + 1) close
    return (.call name args, close + 1)

def opensCall (t : Token) : Bool := t.isDelim '(' && !t.spaced

def primary (deeper : Deeper (Move Value)) : Move Value := fun limit pos => do
  let t ← tape.peek limit pos
  match t.lexeme with
  | .number _ x unit => return (.dimension x unit, pos + 1)
  | .quoted s quote => return (.quoted s quote false, pos + 1)
  | .url s => return (.url s, pos + 1)
  | .unicodeRange s => return (.unicodeRange s, pos + 1)
  | .atKeyword name => return (Grammar.variableNamed name, pos + 1)
  | .interpolation name => return (.var name .curly, pos + 1)
  | .hash s => return (((Color.ofHex? s).map Value.color).getD (.keyword s), pos + 1)
  | .ident s =>
    let u ← tape.peek limit (pos + 1)
    if opensCall u then tape.callFrom deeper .call s limit (pos + 1)
    else return (Grammar.word s, pos + 1)
  | .delim '(' =>
    let close ← tape.closing limit pos
    let operand ← tape.nested deeper .parenthesis limit pos
    let v ← tape.within (tape.value operand true) (pos + 1) close
    return (.paren v, close + 1)
  | .delim '~' =>
    let u ← tape.peek limit (pos + 1)
    match u.lexeme with
    | .quoted s quote => return (.quoted s quote true, pos + 2)
    | _ => refuseToken t
  | .delim '%' =>
    let u ← tape.peek limit (pos + 1)
    if opensCall u then tape.callFrom deeper .percentCall "%" limit (pos + 1) else refuseToken t
  | .delim '[' =>
    let close ← tape.closing limit pos
    let text ← tape.spelled pos (close + 1)
    return (.keyword text, close + 1)
  | _ => refuseToken t

def signed (deeper : Deeper (Move Value)) : Move Value := fun limit pos => do
  let t ← tape.peek limit pos
  if t.isDelim '-' then
    let operand ← tape.nested deeper .sign limit (pos + 1)
    let (v, pos) ← operand limit (pos + 1)
    return (.negative v, pos)
  else if t.isDelim '+' then
    let operand ← tape.nested deeper .sign limit (pos + 1)
    operand limit (pos + 1)
  else tape.primary deeper limit pos

/-- Operands for which there is so much room. -/
def operand : Room → Move Value :=
  Room.descend fun _ deeper => tape.signed fun o => (deeper o).map Prod.snd

theorem operand_eq (room : Room) : tape.operand room = tape.signed (room.below tape.operand) :=
  Room.descend_map (fun _ => tape.signed) Prod.snd room

section Guards

def wordJoin (word : String) (op : Operator) (limit pos : Int) :
    Except Halt (Option ((Value → Value → Value) × Int)) := do
  let t ← tape.peek limit pos
  if t.isWord word then return some (.operation op, pos + 1) else return none

def plainTest (operand : Move Value) (deeper : Deeper (Move Value)) (negated : Bool) :
    Move Value := fun limit pos => do
  let t ← tape.peek limit pos
  if t.isDelim '(' then
    let close ← tape.closing limit pos
    let test ← tape.nested deeper .test limit pos
    let v ← tape.within test (pos + 1) close
    return (.condition v negated, close + 1)
  else
    let (v, pos) ← tape.comparison operand limit pos
    return (.condition v negated, pos)

def test (operand : Move Value) (deeper : Deeper (Move Value)) : Move Value := fun limit pos => do
  let t ← tape.peek limit pos
  if t.isWord "not" then tape.plainTest operand deeper true limit (pos + 1)
  else tape.plainTest operand deeper false limit pos

def alternatives (operand : Move Value) (deeper : Deeper (Move Value)) : Move Value :=
  Move.chained (tape.wordJoin "or" .either)
    (Move.chained (tape.wordJoin "and" .both) (tape.test operand deeper))

def enclosedTest (operand nested : Move Value) : Move Value := fun limit pos => do
  let t ← tape.peek limit pos
  if t.isWord "not" then nested limit pos
  else if t.isDelim '(' then
    let close ← tape.closing limit pos
    let after ← tape.peek limit (close + 1)
    if after.isEnd || after.isWord "and" || after.isWord "or" then nested limit pos
    else tape.comparison operand limit pos
  else tape.comparison operand limit pos

/-- Tests for which there is so much room. -/
def tests : Room → Move Value :=
  Room.descend fun room deeper => tape.alternatives (tape.operand room) fun o =>
    (deeper o).map fun (inner, nested) => tape.enclosedTest (tape.operand inner) nested

theorem tests_eq (room : Room) :
    tape.tests room = tape.alternatives (tape.operand room)
      (room.below fun inner => tape.enclosedTest (tape.operand inner) (tape.tests inner)) :=
  Room.descend_map (fun room => tape.alternatives (tape.operand room))
    (fun p => tape.enclosedTest (tape.operand p.1) p.2) room

/-- The conditions of a guard, up to the limit. -/
def guard (room : Room) : Move (List Value) :=
  tape.commaSeparated .missingGuard (tape.within (tape.tests room))

end Guards

section Media

def featureValue (operand : Move Value) : Move Value := fun limit pos => do
  let first ← tape.peek limit pos
  let slash ← tape.peek limit (pos + 1)
  let second ← tape.peek limit (pos + 2)
  let after ← tape.peek limit (pos + 3)
  match Grammar.ratio? [first, slash, second] with
  | some ratio =>
    if after.isEnd then return (ratio, pos + 3) else tape.value operand false limit pos
  | none => tape.value operand false limit pos

def featureBody (operand : Move Value) : Move Value := fun limit pos => do
  let other : Except Halt (Value × Int) := do
    let (v, pos) ← tape.value operand false limit pos
    return (.paren v, pos)
  let t ← tape.peek limit pos
  match t.lexeme with
  | .ident name =>
    let u ← tape.peek limit (pos + 1)
    if u.isDelim ':' then
      let w ← tape.peek limit (pos + 2)
      if w.isEnd then refuse (.missingFeatureValue name) w
      else
        let (v, pos) ← tape.featureValue operand limit (pos + 2)
        return (.feature name (some v), pos)
    else if u.isEnd then return (.feature name none, pos + 1)
    else other
  | _ => other

def feature (room : Room) : Move Value := fun limit pos => do
  let close ← tape.closing limit pos
  let operand ← tape.nested (room.below tape.operand) .feature limit pos
  let v ← tape.within (tape.featureBody operand) (pos + 1) close
  return (v, close + 1)

def mediaItem (room : Room) : Move Value := fun limit pos => do
  let t ← tape.peek limit pos
  match t.lexeme with
  | .delim '(' => tape.feature room limit pos
  | .ident s =>
    let u ← tape.peek limit (pos + 1)
    if u.isDelim '(' then tape.primary (room.below tape.operand) limit pos
    else return (.keyword s, pos + 1)
  | _ => tape.primary (room.below tape.operand) limit pos

def mediaItems (room : Room) (limit pos : Int) : Except Halt (List Value × Int) := do
  let t ← tape.peek limit pos
  if t.isEnd then return ([], pos)
  else
    let (v, after) ← tape.mediaItem room limit pos
    if _h : remaining limit after < remaining limit pos then
      (mediaItems room limit after).map fun (vs, last) => (v :: vs, last)
    else .error (.stalled pos)
termination_by remaining limit pos

def mediaQuery (room : Room) : Move Value := fun limit pos => do
  let (vs, pos) ← tape.mediaItems room limit pos
  if vs.isEmpty then
    let t ← tape.peek limit pos
    refuse .emptyMediaQuery t
  else return (collect .expression vs, pos)

def mediaQueries (room : Room) (start stop : Int) : Except Halt (List Value) := do
  let parts ← tape.split ',' stop start
  Move.eachRange (tape.within (tape.mediaQuery room)) parts

end Media

section Selectors

/-- The name of a pseudo-class or pseudo-element whose first colon stands at `start`. -/
def pseudoName (start : Int) : Move Part := fun limit pos => do
  let name ← tape.peek limit pos
  if !Grammar.namesPseudo name then refuse .missingPseudoName name
  else
    let u ← tape.peek limit (pos + 1)
    if opensCall u then
      let close ← tape.closing limit (pos + 1)
      let text ← tape.spelled start (close + 1)
      return (.text text, close + 1)
    else
      let text ← tape.spelled start (pos + 1)
      return (.text text, pos + 1)

/-- A pseudo-class or pseudo-element, after its first colon. -/
def pseudo : Move Part := fun limit pos => do
  let t ← tape.peek limit pos
  if t.isDelim ':' && !t.spaced then tape.pseudoName (pos - 1) limit (pos + 1)
  else tape.pseudoName (pos - 1) limit pos

/-- The index behind the signs of an operator. -/
def signsEnd (limit index : Int) : Except Halt Int := do
  let t ← tape.peek limit index
  if Grammar.isAttributeSign t then
    if _h : remaining limit (index + 1) < remaining limit index then signsEnd limit (index + 1)
    else .error (.stalled index)
  else return index
termination_by remaining limit index

def attributeTest : Move (List Value) := fun limit pos => do
  let (t, pos) ← tape.next limit pos
  match Grammar.attributeName? t with
  | none => refuse .missingAttributeName t
  | some name =>
    let u ← tape.peek limit pos
    if u.isEnd then return ([name], pos)
    else
      let index ← tape.signsEnd limit pos
      if index = pos then refuse .missingAttributeOperator u
      else
        let signs ← tape.spelled pos index
        let (w, pos) ← tape.next limit index
        match Grammar.attributeValue? w with
        | none => refuse .missingAttributeValue w
        | some v =>
          let mark ← tape.peek limit pos
          let marked := mark.isWord "i" || mark.isWord "s"
          return ([name, .keyword signs, v], if marked then pos + 1 else pos)

/-- The test of an attribute, after its bracket. -/
def attributePart : Move Part := fun limit pos => do
  let close ← tape.closing limit (pos - 1)
  let parts ← tape.within tape.attributeTest pos close
  return (.attribute parts, close + 1)

def part : Move Part := fun limit pos => do
  let (t, pos) ← tape.next limit pos
  let u ← tape.peek limit pos
  match Grammar.marked? t [u] with
  | some (part, _) => return (part, pos + 1)
  | none =>
    match t.lexeme with
    | .hash s | .ident s | .number s _ _ => return (.text s, pos)
    | .delim '&' => return (.text "&", pos)
    | .delim '*' => return (.text "*", pos)
    | .interpolation name => return (.value (.var name .curly), pos)
    | .delim ':' => tape.pseudo limit pos
    | .delim '[' => tape.attributePart limit pos
    | .delim '~' =>
      match u.lexeme with
      | .quoted s quote => return (.value (.quoted s quote true), pos + 1)
      | _ => refuse (.unexpectedInSelector t.found) t
    | _ => refuse (.unexpectedInSelector t.found) t

def combinator? (t : Token) (limit pos : Int) : Except Halt (Option Char) := do
  if t.isDelim '>' then return some '>'
  else if t.isDelim '+' then return some '+'
  else if t.isDelim '~' then
    let u ← tape.peek limit (pos + 1)
    return if Grammar.isQuoted [u] then none else some '~'
  else return none

/-- The elements of a selector. `first` holds before the first element; `pending` is the combinator
that has been read. -/
def elementsFrom (pending : Option Char) (first : Bool) (limit pos : Int) :
    Except Halt (List Element × Int) := do
  let t ← tape.peek limit pos
  if t.isEnd then return ([], pos)
  else
    match ← tape.combinator? t limit pos with
    | some c =>
      if _h : remaining limit (pos + 1) < remaining limit pos then
        elementsFrom (some c) first limit (pos + 1)
      else .error (.stalled pos)
    | none =>
      let (part, after) ← tape.part limit pos
      let element : Element := ⟨part, pending.or (if !first && t.spaced then some ' ' else none)⟩
      if _h : remaining limit after < remaining limit pos then
        (elementsFrom none false limit after).map fun (es, last) => (element :: es, last)
      else .error (.stalled pos)
termination_by remaining limit pos

def selector : Move Selector := fun limit pos => do
  let (elements, pos) ← tape.elementsFrom none true limit pos
  if elements.isEmpty then
    let t ← tape.peek limit pos
    refuse .emptySelector t
  else return (elements, pos)

/-- Selectors with commas between them, up to the limit. -/
def selectors : Move (List Selector) :=
  tape.commaSeparated .missingSelector (tape.within tape.selector)

end Selectors

section Mixins

def delimiterOf (limit start : Int) : Except Halt Char := do
  let index ← tape.scan [';'] 0 limit start
  if limit ≤ index then return ','
  else
    let t ← tape.tokenAt index
    return if t.isDelim ';' then ';' else ','

def parameter (operand : Move Value) : Move Parameter := fun limit pos => do
  let plain : Except Halt (Parameter × Int) := do
    let (v, pos) ← tape.value operand false limit pos
    return (⟨none, some v, false⟩, pos)
  let t ← tape.peek limit pos
  match t.lexeme with
  | .ellipsis => return (⟨none, none, true⟩, pos + 1)
  | .atKeyword name =>
    let u ← tape.peek limit (pos + 1)
    match u.lexeme with
    | .delim ':' =>
      let (v, pos) ← tape.value operand false limit (pos + 2)
      return (⟨some name, some v, false⟩, pos)
    | .ellipsis => return (⟨some name, none, true⟩, pos + 2)
    | .endOfInput => return (⟨some name, none, false⟩, pos + 1)
    | _ => plain
  | _ => plain

def argument (operand : Move Value) : Move Argument := fun limit pos => do
  let plain : Except Halt (Argument × Int) := do
    let (v, pos) ← tape.value operand false limit pos
    return (⟨v, none⟩, pos)
  let t ← tape.peek limit pos
  match t.lexeme with
  | .atKeyword name =>
    let u ← tape.peek limit (pos + 1)
    if u.isDelim ':' then
      let (v, pos) ← tape.value operand false limit (pos + 2)
      return (⟨v, some name⟩, pos)
    else plain
  | _ => plain

/-- The ranges between delimiters that hold anything. -/
def filledRanges (delimiter : Char) (limit start : Int) : Except Halt (List (Int × Int)) :=
  (tape.split delimiter limit start).map fun parts => parts.filter fun (a, b) => decide (a < b)

def parameters (operand : Move Value) : Move (List Parameter) := fun limit pos =>
  if limit ≤ pos then .ok ([], limit)
  else do
    let delimiter ← tape.delimiterOf limit pos
    let parts ← tape.filledRanges delimiter limit pos
    let ps ← Move.eachRange (tape.within (tape.parameter operand)) parts
    return (ps, limit)

def arguments (operand : Move Value) : Move Arguments := fun limit pos =>
  if limit ≤ pos then .ok (⟨[], ','⟩, limit)
  else do
    let delimiter ← tape.delimiterOf limit pos
    let parts ← tape.filledRanges delimiter limit pos
    let items ← Move.eachRange (tape.within (tape.argument operand)) parts
    return (⟨items, delimiter⟩, limit)

/-- The arguments of a call, from the opening parenthesis on. -/
def argumentsFrom (room : Room) : Move Arguments := fun limit pos => do
  let close ← tape.closing limit pos
  let operand ← tape.nested (room.below tape.operand) .arguments limit pos
  let args ← tape.within (tape.arguments operand) (pos + 1) close
  return (args, close + 1)

/-- A class or id, and the index behind it. -/
def mixinName? (limit pos : Int) : Except Halt (Option (String × Int)) := do
  let t ← tape.peek limit pos
  match t.lexeme with
  | .hash name => return some (name, pos + 1)
  | .delim '.' =>
    let u ← tape.peek limit (pos + 1)
    return (Grammar.className? [u]).map fun (name, _) => (name, pos + 2)
  | _ => return none

def callPath (pending : Option Char) (first : Bool) (limit pos : Int) :
    Except Halt (List Element × Int) := do
  let t ← tape.peek limit pos
  if t.isEnd || t.isDelim '(' || t.isDelim '!' then return ([], pos)
  else if t.isDelim '>' then
    if _h : remaining limit (pos + 1) < remaining limit pos then
      callPath (some '>') first limit (pos + 1)
    else .error (.stalled pos)
  else
    match ← tape.mixinName? limit pos with
    | none => refuse (.unexpectedInMixinCall t.found) t
    | some (name, after) =>
      let combinator := pending.or (if !first && t.spaced then some ' ' else none)
      if _h : remaining limit after < remaining limit pos then
        (callPath none false limit after).map fun (more, last) =>
          (⟨.text name, combinator⟩ :: more, last)
      else .error (.stalled pos)
termination_by remaining limit pos

def callArguments (room : Room) : Move (Option Arguments) := fun limit pos => do
  let t ← tape.peek limit pos
  if t.isDelim '(' then (tape.argumentsFrom room limit pos).map fun (args, pos) => (some args, pos)
  else return (none, pos)

def dropImportant : Move Bool := fun limit pos => do
  let t ← tape.peek limit pos
  let u ← tape.peek limit (pos + 1)
  return if t.isDelim '!' && u.isWord "important" then (true, pos + 2) else (false, pos)

/-- A mixin call from a position up to `stop`. -/
def mixinCall (room : Room) (limit pos stop : Int) : Except Halt Statement := do
  let (path, pos) ← tape.callPath none true stop pos
  let (args, pos) ← tape.callArguments room stop pos
  let (important, pos) ← tape.dropImportant stop pos
  let t ← tape.peek stop pos
  if !t.isEnd then refuse (.unexpectedAfterMixinCall t.found) t
  else if path.isEmpty then
    let t ← tape.peek limit pos
    refuse .missingMixinName t
  else return .mixinCall path args important

end Mixins

section Statements

/-- Reads a body in braces, behind what opens it. -/
abbrev Body : Type := Opening → Move (List Statement)

/-- The index of the brace or semicolon that bounds a statement, or of an unmatched closer. -/
def statementEnd (limit pos : Int) : Except Halt Int := tape.scan [';', '{', '}'] 0 limit pos

def isBrace (limit index : Int) : Except Halt Bool :=
  if index < limit then (tape.tokenAt index).map (·.isDelim '{') else .ok false

def endStatement (limit pos : Int) : Except Halt Int := do
  let t ← tape.peek limit pos
  if t.isDelim ';' then return pos + 1
  else if t.isDelim '}' || t.isEnd then return pos
  else refuse (.expected ';' t.found) t

/-- A value from one position up to another, if there is anything between them. -/
def valueIfAny (room : Room) (start stop : Int) : Except Halt (Option Value) :=
  if stop ≤ start then .ok none
  else (tape.within (tape.value (tape.operand room) false) start stop).map some

def textIfAny (start stop : Int) : Except Halt String :=
  if stop ≤ start then .ok "" else tape.spelled start stop

/-- Whether a mark of importance stands in front of the limit. -/
def endsImportant (limit pos : Int) : Except Halt Bool :=
  if 2 ≤ limit - pos then do
    let t ← tape.tokenAt (limit - 2)
    let u ← tape.tokenAt (limit - 1)
    return t.isDelim '!' && u.isWord "important"
  else .ok false

def declarationValue (room : Room) : Move (Option Value × Bool) := fun limit pos => do
  let important ← tape.endsImportant limit pos
  (tape.valueIfAny room pos (if important then limit - 2 else limit)).map fun v =>
    ((v, important), limit)

/-- A declaration from a position up to `stop`. -/
def declaration (room : Room) (pos stop : Int) : Except Halt Statement := do
  let colon ← tape.scan [':'] 0 stop pos
  let first ← tape.tokenAt pos
  if stop ≤ colon then refuse .missingColon first
  else
    let t ← tape.tokenAt colon
    if !t.isDelim ':' then refuse .missingColon first
    else if colon = pos then refuse .missingPropertyName first
    else
      let name ← tape.spelled pos colon
      let (v, important) ← tape.within (tape.declarationValue room) (colon + 1) stop
      return .declaration name v important

/-- Whether `&:extend(` stands at a position. -/
def atExtend (limit pos : Int) : Except Halt Bool := do
  let amp ← tape.peek limit pos
  let colon ← tape.peek limit (pos + 1)
  let name ← tape.peek limit (pos + 2)
  let bracket ← tape.peek limit (pos + 3)
  return amp.isDelim '&' && colon.isDelim ':' && !colon.spaced && name.isWord "extend" &&
    bracket.isDelim '('

/-- An extension, from its first token on. -/
def extend : Move Statement := fun limit pos => do
  let bracket := pos + 3
  let close ← tape.closing limit bracket
  let last ← tape.tokenAt (close - 1)
  let all := decide (bracket + 1 < close - 1) && last.isWord "all" && last.spaced
  let selectors ← tape.within tape.selectors (bracket + 1) (if all then close - 1 else close)
  return (.extend selectors all, close + 1)

/-- The index of the `when` that opens a guard. -/
def findWhen (depth : Int) (stop index : Int) : Except Halt (Option Int) :=
  if _h : stop ≤ index then .ok none
  else do
    let t ← tape.tokenAt index
    if t.isDelim '(' || t.isDelim '[' then findWhen (depth + 1) stop (index + 1)
    else if t.isDelim ')' || t.isDelim ']' then findWhen (depth - 1) stop (index + 1)
    else if depth == 0 && t.isWord "when" && t.spaced then return some index
    else findWhen depth stop (index + 1)
termination_by (stop - index).toNat
decreasing_by all_goals omega

/-- The selectors and the guard of a ruleset, from a position up to the brace. -/
def rulesetHead (room : Room) (pos brace : Int) :
    Except Halt (List Selector × Option (List Value)) := do
  match ← tape.findWhen 0 brace pos with
  | none => (tape.within tape.selectors pos brace).map (·, none)
  | some index =>
    let selectors ← tape.within tape.selectors pos index
    let conditions ← tape.within (tape.guard room) (index + 1) brace
    return (selectors, some conditions)

/-- The parameters and the guard of a mixin definition, from the bracket on, if the definition ends
before the brace. -/
def signature? (room : Room) (limit pos bracket brace : Int) :
    Except Halt (Option (List Parameter × Option (List Value))) := do
  let close ← tape.closing limit bracket
  let after := close + 1
  let params : Except Halt (List Parameter) := do
    let operand ← tape.nested (room.below tape.operand) .parameters limit pos
    tape.within (tape.parameters operand) (bracket + 1) close
  if after = brace then
    let params ← params
    return some (params, none)
  else
    let t ← tape.tokenAt after
    if t.isWord "when" then
      let params ← params
      let conditions ← tape.within (tape.guard room) (after + 1) brace
      return some (params, some conditions)
    else return none

def mixinHead? (room : Room) (limit pos brace : Int) :
    Except Halt (Option (String × List Parameter × Option (List Value))) := do
  match ← tape.mixinName? limit pos with
  | none => return none
  | some (name, bracket) =>
    if brace ≤ bracket then return none
    else
      let t ← tape.tokenAt bracket
      if t.isDelim '(' then
        (tape.signature? room limit pos bracket brace).map fun found => found.map (name, ·)
      else return none

/-- A ruleset, a mixin definition or a bare block, whose brace has an index. -/
def withBody (room : Room) (body : Body) (limit pos brace : Int) :
    Except Halt (Statement × Int) :=
  if brace = pos then do
    let (statements, pos) ← body .block limit pos
    return (.block none statements, pos)
  else do
    match ← tape.mixinHead? room limit pos brace with
    | some (name, params, guard) =>
      let (statements, pos) ← body .ruleset limit brace
      return (.mixin name params guard statements, pos)
    | none =>
      let (selectors, guard) ← tape.rulesetHead room pos brace
      let (statements, pos) ← body .ruleset limit brace
      return (.ruleset selectors guard statements, pos)

/-- The words between parentheses after an import. -/
def importOptions : Move (List String) := fun limit pos => do
  let t ← tape.peek limit pos
  if t.isDelim '(' then
    let close ← tape.closing limit pos
    let inner := (tape.tokens.take close.toNat).drop (pos + 1).toNat
    let words := inner.filterMap fun t =>
      match t.lexeme with
      | .ident s => some s
      | _ => none
    return (words, close + 1)
  else return ([], pos)

def mediaQueriesIfAny (room : Room) (start stop : Int) : Except Halt (Option (List Value)) :=
  if stop ≤ start then .ok none else (tape.mediaQueries room start stop).map some

def imported (room : Room) : Move Statement := fun limit pos => do
  let (options, pos) ← tape.importOptions limit pos
  let stop ← tape.statementEnd limit pos
  if stop = pos then
    let t ← tape.peek limit pos
    refuse .missingImportPath t
  else
    let (path, pos) ← tape.primary (room.below tape.operand) stop pos
    let features ← tape.mediaQueriesIfAny room pos stop
    let pos ← tape.endStatement limit stop
    return (.imported path features options, pos)

def media (room : Room) (body : Body) : Move Statement := fun limit pos => do
  let stop ← tape.statementEnd limit pos
  if ← tape.isBrace limit stop then
    let features ← tape.mediaQueriesIfAny room pos stop
    let (statements, pos) ← body .atRule limit stop
    return (.media features statements, pos)
  else
    let t ← tape.peek limit pos
    refuse .missingMediaBody t

/-- The definition of a variable, or of a block with a name, after the colon. -/
def definition (room : Room) (body : Body) (name : String) : Move Statement :=
  fun limit pos => do
    let t ← tape.peek limit pos
    if t.isDelim '{' then
      let (statements, pos) ← body .atRule limit pos
      return (.block (some name) statements, pos)
    else
      let stop ← tape.statementEnd limit pos
      match ← tape.within (tape.declarationValue room) pos stop with
      | (none, _) =>
        let t ← tape.peek limit stop
        refuse (.missingValue name) t
      | (some v, important) =>
        let pos ← tape.endStatement limit stop
        return (.definition name v important, pos)

/-- Any other at-rule, after its name. -/
def directive (room : Room) (body : Body) (name : String) : Move Statement :=
  fun limit pos => do
    let stop ← tape.statementEnd limit pos
    if ← tape.isBrace limit stop then
      let params ← tape.textIfAny pos stop
      let (statements, pos) ← body .atRule limit stop
      return (.blockDirective ("@" ++ name) params statements, pos)
    else
      let v ← tape.valueIfAny room pos stop
      let pos ← tape.endStatement limit stop
      return (.directive ("@" ++ name) v, pos)

def blockCall (room : Room) (name : String) : Move Statement := fun limit pos => do
  let (args, pos) ← tape.argumentsFrom room limit pos
  let pos ← tape.endStatement limit pos
  return (.mixinCall [⟨.text ("@" ++ name), none⟩] (some args) false, pos)

def atRule (room : Room) (body : Body) (name : String) : Move Statement :=
  fun limit pos =>
    let small := Text.lowerCase name
    if small == "media" then tape.media room body limit pos
    else if Grammar.isImportName small then tape.imported room limit pos
    else do
      let t ← tape.peek limit pos
      if t.isDelim ':' then
        let u ← tape.peek limit (pos + 1)
        let stop ← tape.statementEnd limit (pos + 1)
        if u.isDelim '{' || !(← tape.isBrace limit stop) then
          tape.definition room body name limit (pos + 1)
        else tape.directive room body name limit pos
      else if opensCall t then tape.blockCall room name limit pos
      else tape.directive room body name limit pos

/-- A mixin call or a declaration from a position up to `stop`. -/
def callOrDeclaration (room : Room) (limit pos stop : Int) : Except Halt Statement := do
  let t ← tape.peek limit pos
  if Grammar.opensMixinCall t then tape.mixinCall room limit pos stop
  else tape.declaration room pos stop

/-- A statement without a body whose end has an index, without what ends it. -/
def unendedStatement (room : Room) (limit pos stop : Int) : Except Halt (Statement × Int) := do
  if ← tape.atExtend limit pos then tape.extend limit pos
  else (tape.callOrDeclaration room limit pos stop).map (·, stop)

def statement (room : Room) (body : Body) : Move Statement := fun limit pos => do
  let t ← tape.peek limit pos
  match t.lexeme with
  | .atKeyword name => tape.atRule room body name limit (pos + 1)
  | _ =>
    let stop ← tape.statementEnd limit pos
    if ← tape.isBrace limit stop then tape.withBody room body limit pos stop
    else
      let (statement, pos) ← tape.unendedStatement room limit pos stop
      let pos ← tape.endStatement limit pos
      return (statement, pos)

/-- Statements up to a closing brace or the end. -/
def statements (room : Room) (body : Body) (limit pos : Int) :
    Except Halt (List Statement × Int) := do
  let t ← tape.peek limit pos
  if t.isEnd || t.isDelim '}' then return ([], pos)
  else if t.isDelim ';' then
    if _h : remaining limit (pos + 1) < remaining limit pos then
      (statements room body limit (pos + 1)).map fun (more, last) => (.empty :: more, last)
    else .error (.stalled pos)
  else
    let (s, after) ← tape.statement room body limit pos
    if _h : remaining limit after < remaining limit pos then
      (statements room body limit after).map fun (more, last) => (s :: more, last)
    else .error (.stalled pos)
termination_by remaining limit pos

/-- A body in braces; `deeper` reads its statements. -/
def bodyWith (deeper : Deeper (Move (List Statement))) : Body := fun o limit pos => do
  let t ← tape.peek limit pos
  if !t.isDelim '{' then refuse (.expected '{' t.found) t
  else
    let read ← tape.nested deeper o limit (pos + 1)
    let (inside, pos) ← read limit (pos + 1)
    let u ← tape.peek limit pos
    if u.isEnd then refuse .unclosedBlock u else return (inside, pos + 1)

/-- Bodies for which there is so much room, the level that they open included. -/
def body : Room → Body :=
  Room.descend fun _ deeper => tape.bodyWith fun o =>
    (deeper o).map fun (inner, nested) => tape.statements inner nested

theorem body_eq (room : Room) :
    tape.body room =
      tape.bodyWith (room.below fun inner => tape.statements inner (tape.body inner)) :=
  Room.descend_map (fun _ => tape.bodyWith) (fun p => tape.statements p.1 p.2) room

/-- The statements of the whole tape. The last token stands for the end. -/
def sheet (room : Room) : Except Halt Sheet := do
  let limit : Int := (tape.tokens.length : Int) - 1
  let (inner, pos) ← tape.statements room (tape.body room) limit 0
  let t ← tape.peek limit pos
  if t.isEnd then return inner else refuseToken t

end Statements

end StyleTally.Stylesheet.Tape
