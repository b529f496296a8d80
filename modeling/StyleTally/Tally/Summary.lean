import StyleTally.Decimal.Arithmetic
import StyleTally.Tally.Store

/-!
# Summaries

What a section holds in figures: how many keys and counts there are, how evenly the counts are
spread over the keys (entropy), how far few keys dominate (Gini coefficient), the most frequent keys
and the rare ones. Counts are words of 64 bits, and their total wraps as words do.
-/

namespace StyleTally

/-- The limits of a summary: how many of the most frequent keys it lists, and up to which count a key
is rare. A negative number of keys leaves that many of the least frequent out. -/
structure SummaryLimits where
  top : Int
  rare : Int
  deriving DecidableEq, Repr

def SummaryLimits.standard : SummaryLimits := ⟨10, 1⟩

structure Summary where
  name : String
  distinct : Nat
  total : Int
  singletons : Nat
  entropy : Binary64
  normalizedEntropy : Binary64
  gini : Binary64
  top : List (String × Int)
  rare : List String
  deriving DecidableEq, Repr

namespace Summary

/-- The total of words of 64 bits. -/
def wordTotal (counts : List Int) : Int := (counts.foldr (· + ·) 0).bmod 0x10000000000000000

/-- The entropy, in bits, of the positive counts as shares of the total. -/
def entropyOf (counts : List Int) : Binary64 :=
  let total := wordTotal counts
  if total ≤ 0 then .zero
  else
    let shares := (counts.filter (0 < ·)).map fun n => (Binary64.ofInt n).div (.ofInt total)
    (Binary64.sum (shares.map fun p => p.mul p.log2)).neg

/-- The entropy as a share of the greatest that the counts other than zero could have. -/
def normalizedEntropyOf (counts : List Int) : Binary64 :=
  let n := counts.countP (· != 0)
  if n ≤ 1 then .zero else (entropyOf counts).div (Binary64.ofNat n).log2

def ascending (counts : List Int) : List Int := counts.mergeSort fun a b => a ≤ b

/-- `2 * Σ i * xᵢ / (n * Σ xᵢ) - (n + 1) / n` for the counts in ascending order, kept within 0 and 1;
zero when all keys are equally common. -/
def giniOf (counts : List Int) : Binary64 :=
  let n := counts.length
  let total := wordTotal counts
  if n ≤ 1 || total = 0 then .zero
  else
    let weighted := (ascending counts).mapIdx fun i x =>
      (Binary64.ofNat (i + 1)).mul (.ofInt x)
    let spread := ((Binary64.ofNat 2).mul (.sum weighted)).div
      ((Binary64.ofNat n).mul (.ofInt total))
    (spread.sub (.ofRatio false (n + 1) n)).clamp .zero (.ofNat 1)

/-- The first entries, or all but the last ones for a negative number. -/
def leading (top : Int) (es : List (String × Int)) : List (String × Int) :=
  if top < 0 then es.take (es.length - top.natAbs) else es.take top.toNat

end Summary

def isWord (n : Int) : Bool := -0x8000000000000000 ≤ n && n < 0x8000000000000000

/-- The summary of a counter under a name; none when a count is no word of 64 bits. -/
def Counter.summary? (c : Counter) (limits : SummaryLimits) (name : String) : Option Summary :=
  let counts := c.entries.map Prod.snd
  if counts.all isWord then
    some
      { name
        distinct := c.size
        total := Summary.wordTotal counts
        singletons := counts.count 1
        entropy := (Summary.entropyOf counts).roundPlaces 4
        normalizedEntropy := (Summary.normalizedEntropyOf counts).roundPlaces 4
        gini := (Summary.giniOf counts).roundPlaces 4
        top := Summary.leading limits.top c.ranked
        rare := (c.entries.filter fun (_, n) => n ≤ limits.rare).map Prod.fst }
  else none

/-- The summaries of all sections, in their order. -/
def Store.summaries? (s : Store) (limits : SummaryLimits) : Option (List Summary) :=
  Section.all.mapM fun part => (s.counter part).summary? limits part.name

end StyleTally
