import StyleTally.Proofs.Lexer.Tiling
import StyleTally.Stylesheet.Operator
import StyleTally.Stylesheet.Range

/-!
# Reading by position

A second reading of the grammar, which keeps positions in the token list where the rules pass ranges
of tokens on. Positions are integers and every look at a token is checked against the list; a range
is a position with a limit, and at the limit stands the end of input, on the line of the token
there. What must not happen has an outcome of its own, apart from the faults of a stylesheet: a look
outside the list, a symbol that stands for no operator, a pass of a loop that reads nothing.
-/

namespace StyleTally.Stylesheet

/-- Why a reading by position stops. -/
inductive Halt where
  /-- The stylesheet has a fault. -/
  | refused (fault : Fault)
  | outOfRange (index : Int)
  | unknownOperator (symbol : String)
  /-- A pass of a loop read no token. -/
  | stalled (index : Int)
  deriving DecidableEq, Repr

/-- A text with its tokens. -/
structure Tape where
  source : String
  tokens : List Token
  tiled : Tiled source tokens

/-- Reads from a position on, up to a limit; gives the position that it reaches. The limit comes
first. -/
abbrev Move (α : Type) := Int → Int → Except Halt (α × Int)

namespace Token

def isEnd (t : Token) : Bool := t.lexeme == .endOfInput

/-- The end of input at the place of a token. -/
def ended (t : Token) : Token := { t with lexeme := .endOfInput, text := [] }

def found (t : Token) : Found := if t.isEnd then .endOfInput else .text t.lexeme.value

end Token

/-- The opener that an opening bracket is. -/
def openerOf (bracket : Token) : Char := if bracket.isDelim '(' then '(' else '['

def refuse {α : Type} (cause : Cause) (t : Token) : Except Halt α :=
  .error (.refused (.malformed cause t.line))

def refuseToken {α : Type} (t : Token) : Except Halt α := refuse (.unexpected t.found) t

/-- How many tokens are left in front of a limit. -/
def remaining (limit pos : Int) : Nat := (limit - pos).toNat

def operatorOf (symbol : String) : Except Halt Operator :=
  match Operator.ofSymbol? symbol with
  | some op => .ok op
  | none => .error (.unknownOperator symbol)

namespace Move

variable {α : Type}

/-- Reads one range after the other. -/
def eachRange (read : Int → Int → Except Halt α) : List (Int × Int) → Except Halt (List α)
  | [] => .ok []
  | (start, stop) :: rest => do
    let a ← read start stop
    let as ← eachRange read rest
    return a :: as

/-- Reads operands that joining tokens combine from the left. -/
def chain (join? : Int → Int → Except Halt (Option ((α → α → α) × Int))) (operand : Move α)
    (left : α) (limit pos : Int) : Except Halt (α × Int) := do
  match ← join? limit pos with
  | none => return (left, pos)
  | some (join, index) =>
    let (right, after) ← operand limit index
    if _h : remaining limit after < remaining limit pos then
      chain join? operand (join left right) limit after
    else .error (.stalled pos)
termination_by remaining limit pos

def chained (join? : Int → Int → Except Halt (Option ((α → α → α) × Int))) (operand : Move α) :
    Move α := fun limit pos => do
  let (left, after) ← operand limit pos
  chain join? operand left limit after

end Move

namespace Tape

variable (tape : Tape) {α : Type}

def tokenAt (index : Int) : Except Halt Token :=
  if index < 0 then .error (.outOfRange index)
  else
    match tape.tokens[index.toNat]? with
    | some t => .ok t
    | none => .error (.outOfRange index)

/-- The token at an index, or the end of input from the limit on. -/
def peek (limit index : Int) : Except Halt Token :=
  if limit ≤ index then (tape.tokenAt limit).map Token.ended else tape.tokenAt index

/-- The token at a position, and the position behind it; nothing stands behind the end. -/
def next : Move Token := fun limit pos => do
  let t ← tape.peek limit pos
  return (t, if t.isEnd then pos else pos + 1)

/-- The text from one index up to another. -/
def spelled (start stop : Int) : Except Halt String := do
  let first ← tape.tokenAt start
  let last ← tape.tokenAt (stop - 1)
  return String.ofList (Text.trimChars (slice tape.source.toList first.start last.stop))

/-- The index of the first stop at depth zero or of a closer of a bracket which was not opened; the
limit if there is neither. -/
def scan (stops : List Char) (depth : Nat) (limit index : Int) : Except Halt Int :=
  if _h : limit ≤ index then .ok limit
  else do
    let t ← tape.tokenAt index
    match depthAfter? stops depth t with
    | none => return index
    | some depth => scan stops depth limit (index + 1)
termination_by (limit - index).toNat
decreasing_by omega

/-- The index of the closer of the bracket at an index. -/
def closing (limit index : Int) : Except Halt Int := do
  let bracket ← tape.tokenAt index
  let close ← tape.scan [closerOf (openerOf bracket)] 0 limit (index + 1)
  if limit ≤ close then refuse (.unclosed (openerOf bracket)) bracket
  else
    let t ← tape.tokenAt close
    if t.isDelim (closerOf (openerOf bracket)) then return close
    else refuse (.unclosed (openerOf bracket)) bracket

/-- The parts of a range between its separators at depth zero, each from its first index up to the
one behind its last. -/
def split (separator : Char) (limit start : Int) : Except Halt (List (Int × Int)) := do
  let index ← tape.scan [separator] 0 limit start
  if limit ≤ index then return [(start, limit)]
  else
    let t ← tape.tokenAt index
    if !t.isDelim separator then refuseToken t
    else if _h : remaining limit (index + 1) < remaining limit start then
      (split separator limit (index + 1)).map ((start, index) :: ·)
    else .error (.stalled start)
termination_by remaining limit start

/-- Reads what stands between commas up to the limit; nothing at all is a fault. -/
def commaSeparated (missing : Cause) (read : Int → Int → Except Halt α) : Move (List α) :=
  fun limit pos =>
    if pos = limit then do
      let t ← tape.peek limit pos
      refuse missing t
    else do
      let parts ← tape.split ',' limit pos
      let as ← Move.eachRange read parts
      return (as, limit)

/-- Reads a range to its end. -/
def within (move : Move α) (start stop : Int) : Except Halt α := do
  let (a, pos) ← move stop start
  let t ← tape.peek stop pos
  if t.isEnd then return a else refuseToken t

/-- The move behind an opening; the line of a fault is that of the position. -/
def nested (deeper : Deeper α) (o : Opening) (limit pos : Int) : Except Halt α :=
  match deeper o with
  | .ok move => .ok move
  | .error .levels => do
    let t ← tape.peek limit pos
    .error (.refused (.tooDeep t.line))
  | .error .calls => .error (.refused .overflow)

end Tape

end StyleTally.Stylesheet
