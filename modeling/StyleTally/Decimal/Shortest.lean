import StyleTally.Decimal.Binary64

/-!
# Shortest decimals

The shortest decimal of a double has the fewest digits among those that are nearer to it than to
any other double, and is the nearest of these. On a grid of decimals with a fixed number of digits
only the two neighbours of the double need to be tried.
-/

namespace StyleTally.Decimal

/-- The decimal `digits * 10^exponent`. -/
structure Numeral where
  digits : Nat
  exponent : Int
  deriving DecidableEq, Repr

/-- The numerator and denominator of `num / den * 10^(-e)`. -/
def shifted (num den : Nat) (e : Int) : Nat × Nat :=
  if e < 0 then (num * Nat.pow 10 e.natAbs, den) else (num, den * Nat.pow 10 e.natAbs)

/-- The greatest `e` with `10^e ≤ num / den`, for a positive quotient. -/
def leadingExponent (num den : Nat) : Int :=
  let estimate := ((num.log2 : Int) - den.log2 - 1) * 30103 / 100000 - 1
  let step (e : Int) : Int :=
    let (n, d) := shifted num den (e + 1)
    if d ≤ n then e + 1 else e
  step (step (step estimate))

/-- The quotients, over four times the denominator of the double, between which decimals read back
as `m * 2^e`; the ends are among them when `m` is even. -/
def interval (m : Nat) (e : Int) : Nat × Nat × Nat :=
  let unit := if e < 0 then 1 else Nat.pow 2 e.natAbs
  let den := if e < 0 then Nat.pow 2 e.natAbs else 1
  let below := if m = Nat.pow 2 52 && Binary64.minExponent < e then 1 else 2
  ((4 * m - below) * unit, (4 * m + 2) * unit, 4 * den)

def readsBack (m : Nat) (e : Int) (c : Numeral) : Bool :=
  let (low, high, den) := interval m e
  let n := if c.exponent < 0 then c.digits else c.digits * Nat.pow 10 c.exponent.natAbs
  let d := if c.exponent < 0 then Nat.pow 10 c.exponent.natAbs else 1
  if m % 2 = 0 then low * d ≤ n * den && n * den ≤ high * d
  else low * d < n * den && n * den < high * d

/-- The decimal with `count` digits that is nearest to the double and reads back as it. -/
def nearest? (m : Nat) (e : Int) (num den : Nat) (lead : Int) (count : Nat) : Option Numeral :=
  let exponent := lead - (count - 1 : Nat)
  let (n, d) := shifted num den exponent
  let below : Numeral := ⟨n / d, exponent⟩
  let above : Numeral := ⟨n / d + 1, exponent⟩
  match readsBack m e below, readsBack m e above with
  | true, true => some (if roundHalfEven n d = n / d then below else above)
  | true, false => some below
  | false, true => some above
  | false, false => none

def dropZeros : Nat → Numeral → Numeral
  | 0, c => c
  | fuel + 1, c =>
    if c.digits % 10 = 0 && c.digits ≠ 0 then dropZeros fuel ⟨c.digits / 10, c.exponent + 1⟩ else c

/-- The shortest decimal of `m * 2^e`, for a positive significand. Seventeen digits always do. -/
def shortest (m : Nat) (e : Int) : Numeral :=
  let (num, den) := (Binary64.finite false m e).magnitude
  let lead := leadingExponent num den
  let found := (List.range 17).findSome? fun i => nearest? m e num den lead (i + 1)
  dropZeros 18 (found.getD ⟨0, 0⟩)

end StyleTally.Decimal
