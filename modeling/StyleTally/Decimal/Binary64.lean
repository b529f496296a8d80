/-!
# Double-precision numbers

A double is a dyadic number with a significand below `2^53`, an infinity, or not a number. Doubles
are built from exact quotients, rounded to the nearest, and a tie goes to the even neighbour.
-/

namespace StyleTally

/-- The whole number nearest to `num / den`; of two equally near ones, the even. -/
def roundHalfEven (num den : Nat) : Nat :=
  let q := num / den
  let r := num % den
  if 2 * r < den then q
  else if den < 2 * r then q + 1
  else q + q % 2

/-- `finite negative m e` is `± m * 2^e`. -/
inductive Binary64 where
  | nan
  | infinite (negative : Bool)
  | finite (negative : Bool) (significand : Nat) (exponent : Int)
  deriving DecidableEq, Repr, Inhabited

namespace Binary64

def minExponent : Int := -1074

def maxExponent : Int := 971

def zero : Binary64 := finite false 0 minExponent

/-- The quotient `num / den * 2^(-e)` as numerator and denominator. -/
def scaled (num den : Nat) (e : Int) : Nat × Nat :=
  if e < 0 then (num * Nat.pow 2 e.natAbs, den) else (num, den * Nat.pow 2 e.natAbs)

/-- The exponent that gives `num / den` a significand of 53 bits, where the range allows it. -/
def exponentFor (num den : Nat) : Int :=
  let e := (num.log2 : Int) - den.log2 - 52
  let (n, d) := scaled num den e
  max minExponent (if n < Nat.pow 2 52 * d then e - 1 else e)

/-- The double nearest to `± num / den`. -/
def ofRatio (negative : Bool) (num den : Nat) : Binary64 :=
  if num = 0 || den = 0 then finite negative 0 minExponent
  else
    let e := exponentFor num den
    let (n, d) := scaled num den e
    let m := roundHalfEven n d
    let (m, e) := if m = Nat.pow 2 53 then (Nat.pow 2 52, e + 1) else (m, e)
    if maxExponent < e then infinite negative else finite negative m e

def ofNat (n : Nat) : Binary64 := ofRatio false n 1

def ofInt (n : Int) : Binary64 := ofRatio (n < 0) n.natAbs 1

/-- The double nearest to `m * 10^e`. Decimals far outside the range are decided by their size. -/
def ofDecimal (negative : Bool) (m : Nat) (e : Int) : Binary64 :=
  if m = 0 then finite negative 0 minExponent
  else
    let magnitude : Int := (Nat.log2 m * 30103 / 100000 : Nat) + e
    if 400 < magnitude then infinite negative
    else if magnitude < -400 then finite negative 0 minExponent
    else if e < 0 then ofRatio negative m (Nat.pow 10 e.natAbs)
    else ofRatio negative (m * Nat.pow 10 e.natAbs) 1

/-- The exact magnitude as a quotient; zero for what is not finite. -/
def magnitude : Binary64 → Nat × Nat
  | finite _ m e => if e < 0 then (m, Nat.pow 2 e.natAbs) else (m * Nat.pow 2 e.natAbs, 1)
  | _ => (0, 1)

def isNegative : Binary64 → Bool
  | nan => false
  | infinite negative => negative
  | finite negative _ _ => negative

/-- The whole number that a finite double is, if it is one. -/
def toInt? : Binary64 → Option Int
  | x@(finite negative _ _) =>
    let (n, d) := x.magnitude
    if n % d = 0 then some (if negative then -(n / d : Nat) else (n / d : Nat)) else none
  | _ => none

/-- A finite double without its fraction. -/
def truncate? : Binary64 → Option Int
  | x@(finite negative _ _) =>
    let (n, d) := x.magnitude
    some (if negative then -(n / d : Nat) else (n / d : Nat))
  | _ => none

/-- The product with `num / den`, rounded. -/
def scale (x : Binary64) (num den : Nat) : Binary64 :=
  match x with
  | finite negative _ _ =>
    let (n, d) := x.magnitude
    ofRatio negative (n * num) (d * den)
  | x => x

/-- The double nearest to the multiple of `10^(-places)` that is nearest to `x`. -/
def roundPlaces (x : Binary64) (places : Nat) : Binary64 :=
  match x with
  | finite negative _ _ =>
    let (n, d) := x.magnitude
    ofRatio negative (roundHalfEven (n * Nat.pow 10 places) d) (Nat.pow 10 places)
  | x => x

/-- The order of the numbers; nothing is below or above what is not a number. -/
def lt : Binary64 → Binary64 → Bool
  | nan, _ | _, nan => false
  | infinite a, infinite b => a && !b
  | infinite a, finite _ _ _ => a
  | finite _ _ _, infinite b => !b
  | x@(finite a _ _), y@(finite b _ _) =>
    let (n, d) := x.magnitude
    let (k, l) := y.magnitude
    let left : Int := if a then -(n * l : Nat) else (n * l : Nat)
    let right : Int := if b then -(k * d : Nat) else (k * d : Nat)
    left < right

def le (x y : Binary64) : Bool :=
  match x, y with
  | nan, _ | _, nan => false
  | _, _ => !y.lt x

end Binary64

end StyleTally
