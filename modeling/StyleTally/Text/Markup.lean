import StyleTally.Text.CellWidth

/-!
# Console markup

Console text carries style tags in square brackets. `escape` writes a text so that none of it is
taken for a tag, and `shown` gives the text that a reader sees: tags vanish, a backslash in front
of a bracket is dropped, and emoji codes are drawn.

The rules stand in for those of a console library. No result rests on them.
-/

namespace StyleTally.Text.Markup

def opensTag (c : Char) : Bool :=
  ('a' ≤ c && c ≤ 'z') || c == '#' || c == '/' || c == '@'

/-- The characters after an opening bracket, up to the closing one, when they form a tag. -/
def tagBody? : List Char → Option (List Char × List Char)
  | [] => none
  | c :: cs => if opensTag c then (upToBracket cs).map fun (body, rest) => (c :: body, rest) else none
where
  upToBracket : List Char → Option (List Char × List Char)
    | [] => none
    | c :: cs =>
      if c == ']' then some ([], cs)
      else if c == '[' then none
      else (upToBracket cs).map fun (body, rest) => (c :: body, rest)

/-- Escapes the text that follows a run of backslashes. -/
def escapeFrom (run : Nat) : List Char → List Char
  | [] => List.replicate run '\\'
  | c :: cs =>
    if c == '\\' then escapeFrom (run + 1) cs
    else if c == '[' && (tagBody? cs).isSome then
      List.replicate (2 * run + 1) '\\' ++ '[' :: escapeFrom 0 cs
    else List.replicate run '\\' ++ c :: escapeFrom 0 cs

/-- A lone backslash at the end is doubled, so that it cannot escape a tag that follows. -/
def closeEnd (cs : List Char) : List Char :=
  match cs.reverse with
  | '\\' :: '\\' :: _ => cs
  | '\\' :: _ => cs ++ ['\\']
  | _ => cs

def escape (s : String) : String :=
  String.ofList (closeEnd (escapeFrom 0 s.toList))

/-- Puts text in front of the first piece. -/
def prepend (cs : List Char) : List (List Char) → List (List Char)
  | [] => [cs]
  | piece :: pieces => (cs ++ piece) :: pieces

/-- The pieces of text that tags, and brackets that are no tags, part; `run` backslashes stand in
front, and `skip` characters belong to a bracket that has been dealt with. -/
def piecesFrom (run skip : Nat) : List Char → List (List Char)
  | [] => [List.replicate run '\\']
  | c :: cs =>
    match skip with
    | skip + 1 => piecesFrom 0 skip cs
    | 0 =>
      if c == '\\' then piecesFrom (run + 1) 0 cs
      else if c == '[' then
        match tagBody? cs with
        | some (body, _) =>
          let bracket := if run % 2 = 1 then '[' :: body ++ [']'] else []
          [] :: List.replicate (run / 2) '\\' :: bracket :: piecesFrom 0 (body.length + 1) cs
        | none => prepend (List.replicate (run - 1) '\\' ++ ['[']) (piecesFrom 0 0 cs)
      else prepend (List.replicate run '\\' ++ [c]) (piecesFrom 0 0 cs)

/-- Bell, backspace, vertical tab, form feed and carriage return are not shown. -/
def isHidden (c : Char) : Bool := [7, 8, 11, 12, 13].contains c.toNat

/-- The text as a console shows it: emoji codes are drawn piece by piece, and tabs give way to
blanks. -/
def shown (s : String) : String :=
  let drawn := (piecesFrom 0 0 s.toList).flatMap Emoji.replace
  String.ofList (expandTabs (drawn.filter fun c => !isHidden c))

end StyleTally.Text.Markup
