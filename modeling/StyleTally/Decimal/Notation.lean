import StyleTally.Decimal.Shortest
import StyleTally.Text.Trim

/-!
# Written numbers

The general form of a number writes the shortest decimal, with a point among the digits where its
size is moderate and with an exponent elsewhere. The plain form is for whole numbers their digits
alone. The fixed form has a set number of places.
-/

namespace StyleTally.Decimal

/-- How the general form of a number looks. -/
structure Style where
  /-- The least exponent of the leading digit that is written with a point. -/
  leastPositional : Int
  /-- The least exponent above these that is written with an exponent. -/
  leastExponential : Int
  /-- A whole number keeps a point and a zero. -/
  keepsPoint : Bool
  /-- The least number of digits of an exponent. -/
  exponentDigits : Nat

/-- Numbers from `0.0001` up to `10^16` are written with a point. -/
def Style.general : Style := ⟨-4, 16, true, 2⟩

def digitsOf (n : Nat) : List Char := Nat.toDigits 10 n

def positional (style : Style) (digits : List Char) (lead : Int) : List Char :=
  if lead < 0 then
    '0' :: '.' :: List.replicate (lead.natAbs - 1) '0' ++ digits
  else
    let whole := digits.take (lead.toNat + 1)
    let rest := digits.drop (lead.toNat + 1)
    let whole := whole ++ List.replicate (lead.toNat + 1 - whole.length) '0'
    if rest.isEmpty then if style.keepsPoint then whole ++ ['.', '0'] else whole
    else whole ++ '.' :: rest

def exponential (style : Style) (digits : List Char) (lead : Int) : List Char :=
  let sign := if lead < 0 then '-' else '+'
  let power := Text.padLeft style.exponentDigits '0' (digitsOf lead.natAbs)
  match digits with
  | [] => []
  | [d] => d :: 'e' :: sign :: power
  | d :: ds => d :: '.' :: ds ++ 'e' :: sign :: power

def magnitudeText (style : Style) (m : Nat) (e : Int) : List Char :=
  if m = 0 then positional style ['0'] 0
  else
    let c := shortest m e
    let digits := digitsOf c.digits
    let lead := c.exponent + (digits.length - 1 : Nat)
    if style.leastPositional ≤ lead && lead < style.leastExponential then
      positional style digits lead
    else exponential style digits lead

def signed (negative : Bool) (cs : List Char) : String :=
  String.ofList (if negative then '-' :: cs else cs)

/-- The shortest text that reads back as the number. -/
def general : Binary64 → String
  | .nan => "nan"
  | .infinite negative => signed negative ['i', 'n', 'f']
  | .finite negative m e => signed negative (magnitudeText .general m e)

/-- The digits alone for a whole number, the general form for any other. -/
def plain (x : Binary64) : String :=
  match x.toInt? with
  | some n => Text.decimal n
  | none => general x

/-- The number with `places` digits after the point; a half goes to the even digit. -/
def fixed (places : Nat) : Binary64 → String
  | .nan => "nan"
  | .infinite negative => signed negative ['i', 'n', 'f']
  | x@(.finite negative _ _) =>
    let (n, d) := x.magnitude
    let digits := Text.padLeft (places + 1) '0' (digitsOf (roundHalfEven (n * Nat.pow 10 places) d))
    let whole := digits.take (digits.length - places)
    let rest := digits.drop (digits.length - places)
    signed negative (if rest.isEmpty then whole else whole ++ '.' :: rest)

/-- The share `part / whole` in percent, with one place. -/
def percent (part whole : Int) : String :=
  let share := if whole = 0 then Binary64.zero
    else Binary64.ofRatio ((part < 0) != (whole < 0)) part.natAbs whole.natAbs
  fixed 1 (share.scale 100 1) ++ "%"

end StyleTally.Decimal
