import StyleTally.Decimal.Binary64
import StyleTally.Text.Quoted

/-!
# Reading numbers

Whole numbers and doubles as people write them in settings: with blank space around them, a sign,
digits of any script, and single underscores between digits.
-/

namespace StyleTally.Decimal

inductive NumberFault where
  | notInteger
  | notNumber
  | tooManyDigits (count : Nat)
  deriving DecidableEq, Repr

/-- The longest run of digits that is read as a whole number. -/
def maxIntegerDigits : Nat := 4300

def NumberFault.message (text : String) : NumberFault → String
  | notInteger => "invalid literal for int() with base 10: " ++
      String.ofList ((Text.quotedChars text.toList).take 200)
  | notNumber => "could not convert string to float: " ++ Text.quoted text
  | tooManyDigits count =>
      s!"Exceeds the limit ({maxIntegerDigits} digits) for integer string conversion: " ++
      s!"value has {count} digits; use sys.set_int_max_str_digits() to increase the limit"

/-- Digits of any script become ASCII digits, and other characters beyond ASCII a blank or a
question mark, which no number holds. -/
def plainChar (c : Char) : Char :=
  if c.toNat < 0x80 then c
  else
    match Text.decimalDigit? c with
    | some d => Char.ofNat (48 + d)
    | none => if Text.isBlank c then ' ' else '?'

def isMargin (c : Char) : Bool := c == ' ' || (9 ≤ c.toNat && c.toNat ≤ 13)

def body (s : String) : List Char :=
  Text.dropEndWhile isMargin ((s.toList.map plainChar).dropWhile isMargin)

def splitSign : List Char → Bool × List Char
  | '-' :: cs => (true, cs)
  | '+' :: cs => (false, cs)
  | cs => (false, cs)

def digitsValue (cs : List Char) : Nat :=
  cs.foldl (fun n c => 10 * n + (c.toNat - 48)) 0

/-- The text without its underscores, if each stands between two digits. -/
def withoutUnderscores? : Bool → List Char → Option (List Char)
  | _, [] => some []
  | afterDigit, '_' :: c :: cs =>
    if afterDigit && c.isDigit then (withoutUnderscores? true cs).map (c :: ·) else none
  | _, ['_'] => none
  | _, c :: cs => (withoutUnderscores? c.isDigit cs).map (c :: ·)

def readInteger (s : String) : Except NumberFault Int := do
  let (negative, cs) := splitSign (body s)
  let isPart (c : Char) := c.isDigit || c == '_'
  let some digits := withoutUnderscores? false (cs.takeWhile isPart) | throw .notInteger
  if maxIntegerDigits < digits.length then throw (.tooManyDigits digits.length)
  if digits.isEmpty || !(cs.dropWhile isPart).isEmpty then throw .notInteger
  let n : Int := digitsValue digits
  return if negative then -n else n

/-- The power of ten after an `e`, or none if the text is no exponent. -/
def readExponent? : List Char → Option Int
  | [] => some 0
  | e :: cs =>
    let (negative, digits) := splitSign cs
    if (e == 'e' || e == 'E') && !digits.isEmpty && digits.all Char.isDigit then
      let n : Int := digitsValue digits
      some (if negative then -n else n)
    else none

/-- A number without a sign. -/
def readMagnitude? (negative : Bool) (cs : List Char) : Option Binary64 :=
  let word := cs.map Char.toLower
  if word = "inf".toList || word = "infinity".toList then some (.infinite negative)
  else if word = "nan".toList then some .nan
  else
    let whole := cs.takeWhile Char.isDigit
    let rest := cs.dropWhile Char.isDigit
    let (places, rest) :=
      match rest with
      | '.' :: rest => (rest.takeWhile Char.isDigit, rest.dropWhile Char.isDigit)
      | rest => ([], rest)
    if whole.isEmpty && places.isEmpty then none
    else
      (readExponent? rest).map fun e =>
        .ofDecimal negative (digitsValue (whole ++ places)) (e - places.length)

def readNumber (s : String) : Except NumberFault Binary64 :=
  let found := do
    let cs ← withoutUnderscores? false (body s)
    let (negative, cs) := splitSign cs
    readMagnitude? negative cs
  found.elim (.error .notNumber) .ok

end StyleTally.Decimal
