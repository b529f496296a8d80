import StyleTally.Decimal.Binary64

/-!
# Arithmetic of doubles

Sums, products and quotients are those of the exact numbers, rounded once. The binary logarithm is
found bit by bit, well beyond the precision of a double. Long sums are split into halves, and short
ones run in eight lanes, so that rounding errors stay small.
-/

namespace StyleTally.Binary64

def signedZero (negative : Bool) : Binary64 := finite negative 0 minExponent

/-- The double nearest to `num / den`. -/
def ofQuotient (num : Int) (den : Nat) : Binary64 := ofRatio (num < 0) num.natAbs den

/-- The exact value of a finite double as a quotient. -/
def signedMagnitude (x : Binary64) : Int × Nat :=
  let (n, d) := x.magnitude
  (if x.isNegative then -(n : Int) else n, d)

def isZero : Binary64 → Bool
  | finite _ m _ => m == 0
  | _ => false

def neg : Binary64 → Binary64
  | nan => nan
  | infinite negative => infinite !negative
  | finite negative m e => finite (!negative) m e

def add (x y : Binary64) : Binary64 :=
  match x, y with
  | nan, _ | _, nan => nan
  | infinite a, infinite b => if a = b then infinite a else nan
  | infinite a, finite _ _ _ => infinite a
  | finite _ _ _, infinite b => infinite b
  | finite a _ _, finite b _ _ =>
    if x.isZero && y.isZero then signedZero (a && b)
    else
      let (n, d) := x.signedMagnitude
      let (k, l) := y.signedMagnitude
      ofQuotient (n * l + k * d) (d * l)

def sub (x y : Binary64) : Binary64 := x.add y.neg

def mul (x y : Binary64) : Binary64 :=
  let negative := x.isNegative != y.isNegative
  match x, y with
  | nan, _ | _, nan => nan
  | infinite _, _ => if y.isZero then nan else infinite negative
  | _, infinite _ => if x.isZero then nan else infinite negative
  | finite _ _ _, finite _ _ _ =>
    let (n, d) := x.magnitude
    let (k, l) := y.magnitude
    ofRatio negative (n * k) (d * l)

def div (x y : Binary64) : Binary64 :=
  let negative := x.isNegative != y.isNegative
  match x, y with
  | nan, _ | _, nan => nan
  | infinite _, infinite _ => nan
  | infinite _, finite _ _ _ => infinite negative
  | finite _ _ _, infinite _ => signedZero negative
  | finite _ _ _, finite _ _ _ =>
    if y.isZero then if x.isZero then nan else infinite negative
    else
      let (n, d) := x.magnitude
      let (k, l) := y.magnitude
      ofRatio negative (n * l) (d * k)

/-- The number, or the nearer bound when it lies outside the bounds. -/
def clamp (x low high : Binary64) : Binary64 :=
  let x := if x.lt high then x else high
  if low.lt x then x else low

/-- The bits after the point of the binary logarithm that are found. -/
def logPlaces : Nat := 140

/-- The bits after the point that the squarings keep. -/
def workPlaces : Nat := 320

/-- For a number `y / 2^workPlaces` from 1 up to 2, the first bits of its binary logarithm, put
behind the bits at hand: squaring doubles the logarithm, and a square of 2 or more sets a bit. -/
def logBits : Nat → Nat → Nat → Nat
  | 0, _, found => found
  | places + 1, y, found =>
    let square := y * y / Nat.pow 2 workPlaces
    if Nat.pow 2 (workPlaces + 1) ≤ square then logBits places (square / 2) (2 * found + 1)
    else logBits places square (2 * found)

/-- The binary logarithm of a positive number; of any other, not a number. -/
def log2 : Binary64 → Binary64
  | infinite false => infinite false
  | finite false m e =>
    if m = 0 then infinite true
    else
      let whole : Int := m.log2 + e
      let found := logBits logPlaces (m * Nat.pow 2 (workPlaces - m.log2)) 0
      ofQuotient (whole * Nat.pow 2 logPlaces + found) (Nat.pow 2 logPlaces)
  | _ => nan

/-- Adds up eight lanes at a time; gives the lanes and the numbers that are left. -/
def addLanes (lanes : List Binary64) : List Binary64 → List Binary64 × List Binary64
  | a :: b :: c :: d :: e :: f :: g :: h :: rest =>
    addLanes (List.zipWith add lanes [a, b, c, d, e, f, g, h]) rest
  | rest => (lanes, rest)

/-- Adds neighbours until one number is left. -/
def foldPairs : List Binary64 → Binary64
  | [a, b, c, d, e, f, g, h] =>
    ((a.add b).add (c.add d)).add ((e.add f).add (g.add h))
  | xs => xs.foldl add zero

def sumBlock (xs : List Binary64) : Binary64 :=
  if xs.length < 8 then xs.foldl add zero
  else
    let (lanes, rest) := addLanes (xs.take 8) (xs.drop 8)
    rest.foldl add (foldPairs lanes)

/-- The length of the longest list that is not split. -/
def blockLength : Nat := 128

/-- The sum of the numbers. A long list is split near its middle, at a multiple of eight. -/
def sum (xs : List Binary64) : Binary64 :=
  if h : xs.length ≤ blockLength then sumBlock xs
  else
    let half := xs.length / 2 - xs.length / 2 % 8
    (sum (xs.take half)).add (sum (xs.drop half))
termination_by xs.length
decreasing_by
  all_goals simp only [blockLength] at h
  · simp only [List.length_take]; omega
  · simp only [List.length_drop]; omega

end StyleTally.Binary64
