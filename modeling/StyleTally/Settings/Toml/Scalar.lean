import StyleTally.Decimal.Reading
import StyleTally.Settings.Datum

/-!
# Scalars of TOML

Texts, numbers, points in time and truth values as a TOML document writes them. A reader takes the
characters from where the scalar starts and gives its datum with the characters after it.
-/

namespace StyleTally.Toml

abbrev Reader (α : Type) := List Char → Option (α × List Char)

def isGap (c : Char) : Bool := c == ' ' || c == '\t'

def skipGap (cs : List Char) : List Char := cs.dropWhile isGap

/-- Control characters stand nowhere in a line, the tab apart. -/
def isControl (c : Char) : Bool := (c.toNat < 0x20 && c != '\t') || c.toNat == 0x7F

/-- What a text on several lines may not hold. -/
def isBarred (c : Char) : Bool := isControl c && c != '\n'

/-- A text between single quotes, of which the first has been read. -/
def literalText : Reader String := fun cs =>
  let body := cs.takeWhile (· != '\'')
  match cs.dropWhile (· != '\'') with
  | _ :: rest => if body.any isControl then none else some (String.ofList body, rest)
  | [] => none

/-- Up to two more quotes after the three that close a text belong to the text. -/
def closing (quote : Char) (cs : List Char) : List Char × List Char :=
  match cs with
  | a :: b :: rest =>
    if a == quote && b == quote then ([quote, quote], rest)
    else if a == quote then ([quote], b :: rest)
    else ([], cs)
  | [a] => if a == quote then ([quote], []) else ([], cs)
  | [] => ([], [])

def literalLines : Reader (List Char)
  | '\'' :: '\'' :: '\'' :: cs => some (closing '\'' cs)
  | c :: cs =>
    if isBarred c then none
    else (literalLines cs).map fun (body, rest) => (c :: body, rest)
  | [] => none

def isScalarValue (n : Nat) : Bool := n < 0xD800 || (0xE000 ≤ n && n < 0x110000)

def hexChar? (digits : List Char) : Option Char :=
  let n := digits.foldl (fun n c => 16 * n + Text.hexValue c) 0
  if digits.all Text.isHexDigit && isScalarValue n then some (Char.ofNat n) else none

def escaped? : Char → Option Char
  | 'b' => some '\x08'
  | 't' => some '\t'
  | 'n' => some '\n'
  | 'f' => some '\x0c'
  | 'r' => some '\r'
  | '"' => some '"'
  | '\\' => some '\\'
  | _ => none

/-- How blank space is read within a text on several lines. -/
inductive Spacing where
  | kept
  /-- After a backslash, up to the end of the line. -/
  | lineEnd
  /-- On the lines after that one. -/
  | nextLines
  deriving DecidableEq

/-- The rest of a text between double quotes, with `many` for one on several lines. -/
def basicText (many : Bool) (spacing : Spacing) : Reader (List Char)
  | [] => none
  | c :: cs =>
    let keep (c : Char) (r : Option (List Char × List Char)) : Option (List Char × List Char) :=
      r.map fun (body, rest) => (c :: body, rest)
    if spacing = .lineEnd && isGap c then basicText many .lineEnd cs
    else if spacing = .lineEnd then if c == '\n' then basicText many .nextLines cs else none
    else if spacing = .nextLines && (isGap c || c == '\n') then basicText many .nextLines cs
    else if c == '"' then
      if !many then some ([], cs)
      else
        match cs with
        | '"' :: '"' :: rest => some (closing '"' rest)
        | _ => keep '"' (basicText many .kept cs)
    else if c == '\\' then
      match cs with
      | 'u' :: a :: b :: c :: d :: rest => do
        keep (← hexChar? [a, b, c, d]) (basicText many .kept rest)
      | 'U' :: a :: b :: c :: d :: e :: f :: g :: h :: rest => do
        keep (← hexChar? [a, b, c, d, e, f, g, h]) (basicText many .kept rest)
      | e :: rest =>
        if many && isGap e then basicText many .lineEnd rest
        else if many && e == '\n' then basicText many .nextLines rest
        else do keep (← escaped? e) (basicText many .kept rest)
      | [] => none
    else if if many then isBarred c else isControl c then none
    else keep c (basicText many .kept cs)

/-- A line end right after the opening quotes is no part of the text. -/
def dropLineEnd : List Char → List Char
  | '\n' :: cs => cs
  | cs => cs

def quotedText : Reader String
  | '"' :: '"' :: '"' :: cs =>
    (basicText true .kept (dropLineEnd cs)).map fun (s, rest) => (String.ofList s, rest)
  | '"' :: cs => (basicText false .kept cs).map fun (s, rest) => (String.ofList s, rest)
  | '\'' :: '\'' :: '\'' :: cs =>
    (literalLines (dropLineEnd cs)).map fun (s, rest) => (String.ofList s, rest)
  | '\'' :: cs => literalText cs
  | _ => none

/-- Digits, each but the first with at most one underscore in front. -/
def moreDigits (isDigit : Char → Bool) : List Char → List Char × List Char
  | '_' :: c :: cs =>
    if isDigit c then
      let (ds, rest) := moreDigits isDigit cs
      (c :: ds, rest)
    else ([], '_' :: c :: cs)
  | c :: cs =>
    if isDigit c then
      let (ds, rest) := moreDigits isDigit cs
      (c :: ds, rest)
    else ([], c :: cs)
  | [] => ([], [])

def digits (isDigit : Char → Bool) : List Char → Option (List Char × List Char)
  | c :: cs =>
    if isDigit c then
      let (ds, rest) := moreDigits isDigit cs
      some (c :: ds, rest)
    else none
  | [] => none

def valueIn (base : Nat) (ds : List Char) : Nat :=
  ds.foldl (fun n c => base * n + Text.hexValue c) 0

def based (base : Nat) (isDigit : Char → Bool) : Reader Datum := fun cs =>
  (digits isDigit cs).map fun (ds, rest) => (.integer (valueIn base ds), rest)

def splitSign : List Char → Bool × List Char
  | '-' :: cs => (true, cs)
  | '+' :: cs => (false, cs)
  | cs => (false, cs)

/-- A whole part has no zeros in front. -/
def wholePart : Reader (List Char)
  | '0' :: cs => some (['0'], cs)
  | cs => digits Char.isDigit cs

def fraction : List Char → List Char × List Char
  | '.' :: cs => (digits Char.isDigit cs).getD ([], '.' :: cs)
  | cs => ([], cs)

/-- The power of ten, if one is written. -/
def exponent (cs : List Char) : Option Int × List Char :=
  match cs with
  | [] => (none, [])
  | e :: rest =>
    if e == 'e' || e == 'E' then
      let (negative, rest) := splitSign rest
      match digits Char.isDigit rest with
      | some (ds, rest) =>
        let n : Int := valueIn 10 ds
        (some (if negative then -n else n), rest)
      | none => (none, cs)
    else (none, cs)

def decimalNumber : Reader Datum := fun cs => do
  let (negative, cs) := splitSign cs
  let (whole, cs) ← wholePart cs
  let (places, cs) := fraction cs
  let (power?, cs) := exponent cs
  if places.isEmpty && power?.isNone then
    let n : Int := valueIn 10 whole
    if Decimal.maxIntegerDigits < whole.length then none
    else return (.integer (if negative then -n else n), cs)
  else
    let x := Binary64.ofDecimal negative (valueIn 10 (whole ++ places))
      (power?.getD 0 - places.length)
    return (.real x, cs)

def number : Reader Datum := fun cs =>
  let alone := match cs with
    | '0' :: 'x' :: cs => based 16 Text.isHexDigit cs
    | '0' :: 'o' :: cs => based 8 (fun c => '0' ≤ c && c ≤ '7') cs
    | '0' :: 'b' :: cs => based 2 (fun c => c == '0' || c == '1') cs
    | _ => none
  alone <|> decimalNumber cs

def special : Reader Datum := fun cs =>
  let (negative, rest) := splitSign cs
  match rest with
  | 'i' :: 'n' :: 'f' :: rest => some (.real (.infinite negative), rest)
  | 'n' :: 'a' :: 'n' :: rest => some (.real .nan, rest)
  | _ => none

/-- A number of exactly `count` digits within bounds. -/
def twoDigits (low high : Nat) : Reader Nat
  | a :: b :: cs =>
    let n := valueIn 10 [a, b]
    if a.isDigit && b.isDigit && low ≤ n && n ≤ high then some (n, cs) else none
  | _ => none

def isLeap (year : Nat) : Bool := year % 4 = 0 && (year % 100 ≠ 0 || year % 400 = 0)

def daysIn (year month : Nat) : Nat :=
  if month = 2 then if isLeap year then 29 else 28
  else if month = 4 || month = 6 || month = 9 || month = 11 then 30
  else 31

/-- A date in its written form: a year, a month and a day, which may not be in the calendar. -/
def date : Reader (Nat × Nat × Nat)
  | a :: b :: c :: d :: '-' :: cs => do
    if !([a, b, c, d].all Char.isDigit) then none
    match ← twoDigits 1 12 cs with
    | (month, '-' :: cs) =>
      let (day, cs) ← twoDigits 1 31 cs
      return ((valueIn 10 [a, b, c, d], month, day), cs)
    | _ => none
  | _ => none

def clock : Reader Unit := fun cs => do
  match ← twoDigits 0 23 cs with
  | (_, ':' :: cs) =>
    match ← twoDigits 0 59 cs with
    | (_, ':' :: cs) =>
      let (_, cs) ← twoDigits 0 59 cs
      match cs with
      | '.' :: d :: rest => if d.isDigit then return ((), rest.dropWhile Char.isDigit) else return ((), cs)
      | _ => return ((), cs)
    | _ => none
  | _ => none

/-- The characters after an offset from universal time, if one is written. -/
def skipOffset (cs : List Char) : List Char :=
  match cs with
  | c :: rest =>
    if c == 'Z' || c == 'z' then rest
    else if c == '+' || c == '-' then
      match twoDigits 0 23 rest with
      | some (_, ':' :: more) => ((twoDigits 0 59 more).map Prod.snd).getD cs
      | _ => cs
    else cs
  | [] => []

/-- What stands between two places of one text. -/
def written (start rest : List Char) : String :=
  String.ofList (start.take (start.length - rest.length))

def isTimeMark (c : Char) : Bool := c == 'T' || c == 't' || c == ' '

/-- A date with or without a time. A date beyond the calendar is none at all. -/
def dated (cs : List Char) (day : Nat × Nat × Nat) (rest : List Char) : Option (Datum × List Char) :=
  let (y, m, d) := day
  if y = 0 || daysIn y m < d then none
  else
    let timed := match rest with
      | c :: more => if isTimeMark c then clock more else none
      | [] => none
    match timed with
    | some (_, more) =>
      let more := skipOffset more
      some (.moment .dateAndTime (written cs more), more)
    | none => some (.moment .date (written cs rest), rest)

def timeOfDay : Reader Datum := fun cs =>
  (clock cs).map fun (_, rest) => (.moment .time (written cs rest), rest)

def truth : Reader Datum
  | 't' :: 'r' :: 'u' :: 'e' :: cs => some (.flag true, cs)
  | 'f' :: 'a' :: 'l' :: 's' :: 'e' :: cs => some (.flag false, cs)
  | _ => none

/-- Any datum but a list or a table. -/
def scalar : Reader Datum := fun cs =>
  match cs with
  | '"' :: _ | '\'' :: _ => (quotedText cs).map fun (s, rest) => (.text s, rest)
  | _ =>
    match date cs with
    | some (day, rest) => dated cs day rest
    | none => truth cs <|> timeOfDay cs <|> number cs <|> special cs

end StyleTally.Toml
