import StyleTally.Stylesheet.Grammar.Selector

/-!
# Mixin parameters and arguments

Parameters and arguments have commas between them, or semicolons if there is one outside brackets.
-/

namespace StyleTally.Stylesheet.Grammar

def delimiterOf (ts : List Token) : Char :=
  if startsWithDelim ';' (cut [';'] 0 ts).2 then ';' else ','

/-- A named value, after the name and the colon, or a value alone. -/
def named? (ts : List Token) : Option (String × List Token) :=
  match ts with
  | t :: u :: rest =>
    match t.lexeme with
    | .atKeyword name => if u.isDelim ':' then some (name, rest) else none
    | _ => none
  | _ => none

/-- A parameter without a value: a lone name, or one that takes all further arguments. -/
def bareParameter? (ts : List Token) : Option (Parameter × List Token) :=
  match ts with
  | [] => none
  | [t] =>
    match t.lexeme with
    | .ellipsis => some (⟨none, none, true⟩, [])
    | .atKeyword name => some (⟨some name, none, false⟩, [])
    | _ => none
  | t :: u :: rest =>
    match t.lexeme, u.lexeme with
    | .ellipsis, _ => some (⟨none, none, true⟩, u :: rest)
    | .atKeyword name, .ellipsis => some (⟨some name, none, true⟩, rest)
    | _, _ => none

def parameter (operand : Rule Value) : Rule Parameter := fun stop ts =>
  match named? ts with
  | some (name, rest) => do
    let (v, rest) ← value operand false stop rest
    return (⟨some name, some v, false⟩, rest)
  | none =>
    match bareParameter? ts with
    | some found => .ok found
    | none => do
      let (v, rest) ← value operand false stop ts
      return (⟨none, some v, false⟩, rest)

def argument (operand : Rule Value) : Rule Argument := fun stop ts =>
  match named? ts with
  | some (name, rest) => do
    let (v, rest) ← value operand false stop rest
    return (⟨v, some name⟩, rest)
  | none => do
    let (v, rest) ← value operand false stop ts
    return (⟨v, none⟩, rest)

/-- The pieces of a range that hold anything. -/
def filledPieces (delimiter : Char) (stop : Token) (ts : List Token) :
    Except Fault (List (List Token × Token)) :=
  (pieces delimiter stop ts).map fun parts => parts.filter fun (part, _) => !part.isEmpty

def parameters (operand : Rule Value) (stop : Token) (ts : List Token) :
    Except Fault (List Parameter) :=
  if ts.isEmpty then .ok []
  else (filledPieces (delimiterOf ts) stop ts).bind (eachPiece (whole (parameter operand)))

def arguments (operand : Rule Value) (stop : Token) (ts : List Token) : Except Fault Arguments :=
  if ts.isEmpty then .ok ⟨[], ','⟩
  else do
    let items ← (filledPieces (delimiterOf ts) stop ts).bind (eachPiece (whole (argument operand)))
    return ⟨items, delimiterOf ts⟩

/-- The arguments after an opening parenthesis, and the tokens after the closing one. -/
def argumentsFrom (room : Room) (bracket : Token) (rest : List Token) :
    Except Fault (Arguments × List Token) := do
  let (inner, close, after) ← enclosed bracket '(' rest
  let operand ← enter (room.below operand) .arguments bracket.line
  let args ← arguments operand close inner
  return (args, after)

/-- The class that a point opens. -/
def className? : List Token → Option (String × List Token)
  | [] => none
  | t :: rest =>
    match t.lexeme with
    | .ident name => if t.spaced then none else some ("." ++ name, rest)
    | _ => none

/-- A class or id at the front of a mixin's name, and the tokens after it. -/
def mixinName? : List Token → Option (String × List Token)
  | [] => none
  | t :: rest =>
    match t.lexeme with
    | .hash name => some (name, rest)
    | .delim c => if c == '.' then className? rest else none
    | _ => none

theorem length_className? {ts rest : List Token} {name : String}
    (h : className? ts = some (name, rest)) : rest.length < ts.length := by
  cases ts with
  | nil => cases h
  | cons t ts =>
    simp only [className?] at h
    split at h
    · split at h
      · cases h
      · cases h
        simp
    · cases h

theorem length_mixinName? {ts rest : List Token} {name : String}
    (h : mixinName? ts = some (name, rest)) : rest.length < ts.length := by
  cases ts with
  | nil => cases h
  | cons t ts =>
    simp only [mixinName?] at h
    split at h
    · cases h
      simp
    · split at h
      · have := length_className? h
        simp only [List.length_cons]
        omega
      · cases h
    · cases h

/-- The classes and ids of a mixin call, up to its arguments or its mark of importance. -/
def callPath (pending : Option Char) (first : Bool) (ts : List Token) :
    Except Fault (List Element × List Token) :=
  match ts with
  | [] => .ok ([], [])
  | t :: rest =>
    if t.isDelim '(' || t.isDelim '!' then .ok ([], t :: rest)
    else if t.isDelim '>' then callPath (some '>') first rest
    else
      match _h : mixinName? (t :: rest) with
      | none => .error (.malformed (.unexpectedInMixinCall (foundAt [t])) t.line)
      | some (name, after) =>
        let combinator := pending.or (if !first && t.spaced then some ' ' else none)
        (callPath none false after).map fun (more, rest) => (⟨.text name, combinator⟩ :: more, rest)
termination_by ts.length
decreasing_by
  · simp
  · exact length_mixinName? _h

/-- An exclamation mark and the word `important` at the front of a range. -/
def dropImportant (ts : List Token) : Bool × List Token :=
  match ts with
  | t :: u :: rest => if t.isDelim '!' && u.isWord "important" then (true, rest) else (false, ts)
  | _ => (false, ts)

/-- The arguments of a call, if a parenthesis opens any. -/
def callArguments (room : Room) : List Token → Except Fault (Option Arguments × List Token)
  | [] => .ok (none, [])
  | t :: rest =>
    if t.isDelim '(' then (argumentsFrom room t rest).map fun (args, rest) => (some args, rest)
    else .ok (none, t :: rest)

/-- A mixin call over a whole range. -/
def mixinCall (room : Room) (stop : Token) (ts : List Token) : Except Fault Statement := do
  let (path, rest) ← callPath none true ts
  let (args, rest) ← callArguments room rest
  let (important, rest) := dropImportant rest
  if !rest.isEmpty then
    throw (.malformed (.unexpectedAfterMixinCall (foundAt rest)) (lineAt stop rest))
  if path.isEmpty then throw (.malformed .missingMixinName stop.line)
  return .mixinCall path args important

end StyleTally.Stylesheet.Grammar
