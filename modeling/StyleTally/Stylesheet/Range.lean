import StyleTally.Stylesheet.Room

/-!
# Token ranges

A rule of the grammar reads from a range of tokens. The range ends before a stop token, which the
rule never reads: past the last token of the range it finds the end of input, on the line of the
stop token. `cut` looks ahead for the end of a range, `enclosed` takes what a bracket encloses, and
`pieces` splits a range at a separator.
-/

namespace StyleTally.Stylesheet

/-- Reads from the front of a range with the given stop token; gives the tokens it leaves. -/
abbrev Rule (α : Type) := Token → List Token → Except Fault (α × List Token)

def lineAt (stop : Token) (ts : List Token) : Nat := (ts.headD stop).line

def spacedAt (stop : Token) (ts : List Token) : Bool := (ts.headD stop).spaced

def foundAt : List Token → Found
  | [] => .endOfInput
  | t :: _ => .text t.lexeme.value

def unexpectedAt (stop : Token) (ts : List Token) : Fault :=
  .malformed (.unexpected (foundAt ts)) (lineAt stop ts)

def startsWithDelim (c : Char) : List Token → Bool
  | [] => false
  | t :: _ => t.isDelim c

def startsWithWord (word : String) : List Token → Bool
  | [] => false
  | t :: _ => t.isWord word

/-- The bracket depth after a token, or none if the range is cut before it: at a stop at depth
zero, and at a closer of a bracket which was not opened. Braces do not count as brackets; as stops
they match at any depth. -/
def depthAfter? (stops : List Char) (depth : Nat) (t : Token) : Option Nat :=
  match t.lexeme with
  | .delim c =>
    if c == '{' || c == '}' then if stops.contains c then none else some depth
    else if depth == 0 && stops.contains c then none
    else if c == '(' || c == '[' then some (depth + 1)
    else if c == ')' || c == ']' then if depth == 0 then none else some (depth - 1)
    else some depth
  | _ => some depth

def cut (stops : List Char) : Nat → List Token → List Token × List Token
  | _, [] => ([], [])
  | depth, t :: ts =>
    match depthAfter? stops depth t with
    | none => ([], t :: ts)
    | some depth =>
      let (before, after) := cut stops depth ts
      (t :: before, after)

theorem cut_append (stops : List Char) (depth : Nat) (ts : List Token) :
    (cut stops depth ts).1 ++ (cut stops depth ts).2 = ts := by
  induction ts generalizing depth with
  | nil => simp [cut]
  | cons t ts ih =>
    rw [cut]
    split
    · rfl
    · simp [ih]

theorem length_cut (stops : List Char) (depth : Nat) (ts : List Token) :
    (cut stops depth ts).1.length + (cut stops depth ts).2.length = ts.length := by
  rw [← List.length_append, cut_append]

def closerOf (opener : Char) : Char := if opener == '(' then ')' else ']'

/-- The tokens that a bracket encloses, its closer, and the tokens after the closer. -/
def enclosed (bracket : Token) (opener : Char) (ts : List Token) :
    Except Fault (List Token × Token × List Token) :=
  match cut [closerOf opener] 0 ts with
  | (inner, close :: after) =>
    if close.isDelim (closerOf opener) then .ok (inner, close, after)
    else .error (.malformed (.unclosed opener) bracket.line)
  | (_, []) => .error (.malformed (.unclosed opener) bracket.line)

/-- The parts of a range between its separators at depth zero, each with its stop token. -/
def pieces (separator : Char) (stop : Token) (ts : List Token) :
    Except Fault (List (List Token × Token)) :=
  match _h : cut [separator] 0 ts with
  | (part, []) => .ok [(part, stop)]
  | (part, t :: rest) =>
    if t.isDelim separator then
      (pieces separator stop rest).map ((part, t) :: ·)
    else .error (.malformed (.unexpected (.text t.lexeme.value)) t.line)
termination_by ts.length
decreasing_by
  have := length_cut [separator] 0 ts
  simp only [_h, List.length_cons] at this
  omega

/-- Reads a range to its end. -/
def whole {α : Type} (rule : Rule α) (stop : Token) (ts : List Token) : Except Fault α := do
  let (a, rest) ← rule stop ts
  match rest with
  | [] => .ok a
  | _ => .error (unexpectedAt stop rest)

/-- Reads one piece after the other. -/
def eachPiece {α : Type} (read : Token → List Token → Except Fault α) :
    List (List Token × Token) → Except Fault (List α)
  | [] => .ok []
  | (ts, stop) :: rest => do
    let a ← read stop ts
    let as ← eachPiece read rest
    return a :: as

theorem eachPiece_cons_eq_ok {α : Type} {read : Token → List Token → Except Fault α}
    {part : List Token} {t : Token} {x : Except Fault (List (List Token × Token))} {as : List α} :
    (x.map ((part, t) :: ·)).bind (eachPiece read) = .ok as ↔
      ∃ a bs, read t part = .ok a ∧ x.bind (eachPiece read) = .ok bs ∧ as = a :: bs := by
  cases x with
  | error e => simp [Except.map, Except.bind]
  | ok ps =>
    simp only [Except.map, Except.bind, eachPiece]
    cases hread : read t part with
    | error e => simp [bind, Except.bind]
    | ok a =>
      cases hps : eachPiece read ps with
      | error e => simp [bind, Except.bind]
      | ok bs => simp [bind, Except.bind, pure, Except.pure, eq_comm]

/-- Reads operands that joining tokens combine from the left. -/
def chain {α : Type} (join? : Token → List Token → Option ((α → α → α) × List Token))
    (operand : Rule α) (left : α) (stop : Token) (ts : List Token) :
    Except Fault (α × List Token) :=
  match join? stop ts with
  | none => .ok (left, ts)
  | some (join, rest) => do
    let (right, rest) ← operand stop rest
    if rest.length < ts.length then chain join? operand (join left right) stop rest
    else return (join left right, rest)
termination_by ts.length

def chained {α : Type} (join? : Token → List Token → Option ((α → α → α) × List Token))
    (operand : Rule α) : Rule α := fun stop ts => do
  let (left, rest) ← operand stop ts
  chain join? operand left stop rest

end StyleTally.Stylesheet
