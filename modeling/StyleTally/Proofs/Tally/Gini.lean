import Mathlib.Algebra.BigOperators.Ring.List
import Mathlib.Algebra.Order.BigOperators.Group.List
import Mathlib.Tactic.Ring
import Mathlib.Tactic.FieldSimp
import Mathlib.Tactic.Linarith
import Mathlib.Tactic.Positivity
import StyleTally.Tally.Summary

/-!
# The Gini coefficient

The coefficient is one formula over the sorted counts. Doubles round every step of it; with exact
quotients it gives the mean difference of two counts as a share of twice their mean. So it lies
between 0 and `(n - 1) / n`, the bounds that the doubles are kept within are never passed, and the
two ends stand for equal counts and for a single one that is not zero.

The differences are added up as whole numbers, by recursion over the counts: the first count of an
ascending list is the smaller one of each of its pairs.
-/

namespace StyleTally.Summary

/-- What the formula computes with. -/
structure Arithmetic (α : Type) where
  ofNat : Nat → α
  ofInt : Int → α
  ratio : Nat → Nat → α
  mul : α → α → α
  div : α → α → α
  sub : α → α → α
  sum : List α → α

/-- Each step rounds to the nearest double. -/
def Arithmetic.doubles : Arithmetic Binary64 where
  ofNat := .ofNat
  ofInt := .ofInt
  ratio := .ofRatio false
  mul := .mul
  div := .div
  sub := .sub
  sum := .sum

def Arithmetic.exact : Arithmetic ℚ where
  ofNat n := n
  ofInt n := n
  ratio m n := m / n
  mul := (· * ·)
  div := (· / ·)
  sub := (· - ·)
  sum := List.sum

/-- `2 * Σ i * xᵢ / (n * Σ xᵢ) - (n + 1) / n` for the counts in ascending order. -/
def giniFormula {α : Type} (A : Arithmetic α) (counts : List Int) : α :=
  let n := counts.length
  let weighted := (ascending counts).mapIdx fun i x => A.mul (A.ofNat (i + 1)) (A.ofInt x)
  let spread := A.div (A.mul (A.ofNat 2) (A.sum weighted)) (A.mul (A.ofNat n) (A.ofInt counts.sum))
  A.sub spread (A.ratio (n + 1) n)

/-- The differences of a number from the others. -/
def distance (x : Int) (xs : List Int) : Int := (xs.map fun y => |x - y|).sum

/-- The differences `|xᵢ - xⱼ|` over all `i` and `j`. -/
def spread (xs : List Int) : Int := (xs.map fun x => distance x xs).sum

/-- The smaller number of each pair. -/
def overlap : List Int → Int
  | [] => 0
  | x :: xs => (xs.map (min x)).sum + overlap xs

/-- The numbers, each times its place. -/
def placedSum (xs : List Int) : Int := (xs.mapIdx fun i x => ((i + 1 : Nat) : Int) * x).sum

section Ascending

variable {counts other : List Int}

theorem perm_ascending (counts : List Int) : (ascending counts).Perm counts :=
  List.mergeSort_perm _ _

theorem pairwise_ascending (counts : List Int) : (ascending counts).Pairwise (· ≤ ·) := by
  have htrans (a b c : Int) (hab : decide (a ≤ b) = true) (hbc : decide (b ≤ c) = true) :
      decide (a ≤ c) = true := by
    simp only [decide_eq_true_eq] at hab hbc ⊢
    omega
  have htotal (a b : Int) : (decide (a ≤ b) || decide (b ≤ a)) = true := by
    simp only [Bool.or_eq_true, decide_eq_true_eq]
    omega
  exact (List.pairwise_mergeSort htrans htotal counts).imp of_decide_eq_true

theorem ascending_eq_of_perm (h : other.Perm counts) : ascending other = ascending counts := by
  have hperm : (ascending other).Perm (ascending counts) :=
    (perm_ascending other).trans (h.trans (perm_ascending counts).symm)
  exact hperm.eq_of_pairwise (fun _ _ _ _ => Int.le_antisymm) (pairwise_ascending other)
    (pairwise_ascending counts)

/-- The order of the counts is nothing to the formula, rounded or exact. -/
theorem giniFormula_perm {α : Type} (A : Arithmetic α) (h : other.Perm counts) :
    giniFormula A other = giniFormula A counts := by
  simp only [giniFormula, ascending_eq_of_perm h, h.length_eq, h.sum_eq]

end Ascending

section Differences

variable {x y : Int} {xs ys : List Int}

theorem spread_nil : spread [] = 0 := rfl

theorem distance_cons (x y : Int) (ys : List Int) :
    distance x (y :: ys) = |x - y| + distance x ys := by
  simp only [distance, List.map_cons, List.sum_cons]

theorem spread_cons (x : Int) (xs : List Int) : spread (x :: xs) = spread xs + 2 * distance x xs := by
  have hrow : (xs.map fun z => distance z (x :: xs)).sum = distance x xs + spread xs := by
    simp only [distance_cons, abs_sub_comm _ x, List.sum_map_add]
    rfl
  rw [spread, List.map_cons, List.sum_cons, hrow, distance_cons, sub_self, abs_zero]
  ring

theorem distance_nonneg (x : Int) (xs : List Int) : 0 ≤ distance x xs := by
  refine List.sum_nonneg fun d hd => ?_
  obtain ⟨y, -, rfl⟩ := List.mem_map.mp hd
  exact abs_nonneg _

theorem distance_eq_zero : distance x xs = 0 ↔ ∀ y ∈ xs, y = x := by
  induction xs with
  | nil => simp [distance]
  | cons y ys ih =>
    have hy := abs_nonneg (x - y)
    have hys := distance_nonneg x ys
    rw [distance_cons, List.forall_mem_cons, ← ih]
    constructor
    · intro hsum
      have hzero : |x - y| = 0 := by omega
      exact ⟨by rw [abs_eq_zero] at hzero; omega, by omega⟩
    · rintro ⟨rfl, hrest⟩
      rw [hrest, sub_self, abs_zero, add_zero]

theorem spread_nonneg (xs : List Int) : 0 ≤ spread xs := by
  induction xs with
  | nil => exact le_rfl
  | cons x xs ih =>
    have := distance_nonneg x xs
    rw [spread_cons]
    omega

theorem spread_eq_zero : spread xs = 0 ↔ ∀ x ∈ xs, ∀ y ∈ xs, x = y := by
  constructor
  · intro hzero x hx y hy
    have hmem : distance x xs ∈ xs.map fun x => distance x xs := List.mem_map_of_mem hx
    have hle : distance x xs ≤ spread xs := by
      refine List.single_le_sum (fun d hd => ?_) _ hmem
      obtain ⟨z, -, rfl⟩ := List.mem_map.mp hd
      exact distance_nonneg z xs
    have hrow : distance x xs = 0 := le_antisymm (hzero ▸ hle) (distance_nonneg x xs)
    exact (distance_eq_zero.mp hrow y hy).symm
  · intro hall
    refine List.sum_eq_zero fun d hd => ?_
    obtain ⟨x, hx, rfl⟩ := List.mem_map.mp hd
    exact distance_eq_zero.mpr fun y hy => hall y hy x hx

theorem distance_perm (x : Int) (h : xs.Perm ys) : distance x xs = distance x ys :=
  (h.map _).sum_eq

theorem spread_perm (h : xs.Perm ys) : spread xs = spread ys := by
  have hrows : xs.map (fun x => distance x xs) = xs.map fun x => distance x ys :=
    List.map_congr_left fun x _ => distance_perm x h
  rw [spread, hrows]
  exact (h.map _).sum_eq

theorem sum_map_scale (k : Int) (xs : List Int) : (xs.map (k * ·)).sum = k * xs.sum := by
  simpa using List.sum_map_mul_left xs id k

theorem distance_scale {k : Int} (hk : 0 < k) (x : Int) (xs : List Int) :
    distance (k * x) (xs.map (k * ·)) = k * distance x xs := by
  simp only [distance, List.map_map, Function.comp_def, ← mul_sub, abs_mul, abs_of_pos hk,
    List.sum_map_mul_left]

theorem spread_scale {k : Int} (hk : 0 < k) (xs : List Int) :
    spread (xs.map (k * ·)) = k * spread xs := by
  induction xs with
  | nil => rw [List.map_nil, spread_nil, mul_zero]
  | cons x xs ih =>
    rw [List.map_cons, spread_cons, spread_cons, ih, distance_scale hk]
    ring

/-- From a lower bound, the differences are what the numbers exceed it by. -/
theorem distance_of_le (h : ∀ y ∈ xs, x ≤ y) : distance x xs = xs.sum - xs.length * x := by
  induction xs with
  | nil => simp [distance]
  | cons y ys ih =>
    obtain ⟨hy, hys⟩ := List.forall_mem_cons.mp h
    rw [distance_cons, ih hys, abs_sub_comm, abs_of_nonneg (Int.sub_nonneg.mpr hy), List.sum_cons,
      List.length_cons]
    push_cast
    ring

end Differences

section Places

theorem sum_mapIdx_add (f : Nat → Int → Int) (xs : List Int) :
    (xs.mapIdx fun i x => f i x + x).sum = (xs.mapIdx f).sum + xs.sum := by
  induction xs generalizing f with
  | nil => rfl
  | cons x xs ih =>
    simp only [List.mapIdx_cons, List.sum_cons, ih fun i => f (i + 1)]
    ring

theorem placedSum_cons (x : Int) (xs : List Int) :
    placedSum (x :: xs) = x + (placedSum xs + xs.sum) := by
  have hshift : (fun (i : Nat) (y : Int) => ((i + 1 + 1 : Nat) : Int) * y) =
      fun i y => ((i + 1 : Nat) : Int) * y + y := by
    funext i y
    push_cast
    ring
  rw [placedSum, List.mapIdx_cons, List.sum_cons, hshift, sum_mapIdx_add, placedSum]
  simp

/-- The differences within an ascending list, from the places of its numbers. -/
theorem spread_of_ascending {xs : List Int} (h : xs.Pairwise (· ≤ ·)) :
    spread xs = 4 * placedSum xs - 2 * (xs.length + 1) * xs.sum := by
  induction xs with
  | nil => rfl
  | cons x xs ih =>
    obtain ⟨hfirst, hrest⟩ := List.pairwise_cons.mp h
    rw [spread_cons, ih hrest, distance_of_le hfirst, placedSum_cons, List.sum_cons,
      List.length_cons]
    push_cast
    ring

end Places

section Overlap

variable {x : Int} {xs : List Int}

theorem distance_add_min (x : Int) (xs : List Int) :
    distance x xs + 2 * (xs.map (min x)).sum = xs.length * x + xs.sum := by
  induction xs with
  | nil => simp [distance]
  | cons y ys ih =>
    have hpair : |x - y| + 2 * min x y = x + y := by
      rcases le_total x y with hle | hle
      · rw [min_eq_left hle, abs_of_nonpos (by omega)]
        ring
      · rw [min_eq_right hle, abs_of_nonneg (by omega)]
        ring
    rw [distance_cons, List.map_cons, List.sum_cons, List.sum_cons, List.length_cons]
    push_cast
    linarith

/-- What two numbers share counts neither for their difference nor against it. -/
theorem spread_add_overlap (xs : List Int) :
    spread xs + 4 * overlap xs = 2 * (xs.length - 1) * xs.sum := by
  induction xs with
  | nil => rfl
  | cons x xs ih =>
    have hrow := distance_add_min x xs
    rw [spread_cons, overlap, List.sum_cons, List.length_cons]
    push_cast
    linarith

theorem min_sum_nonneg (hx : 0 ≤ x) (h : ∀ y ∈ xs, 0 ≤ y) : 0 ≤ (xs.map (min x)).sum := by
  refine List.sum_nonneg fun m hm => ?_
  obtain ⟨y, hy, rfl⟩ := List.mem_map.mp hm
  exact le_min hx (h y hy)

theorem overlap_nonneg (h : ∀ y ∈ xs, 0 ≤ y) : 0 ≤ overlap xs := by
  induction xs with
  | nil => exact le_rfl
  | cons x xs ih =>
    obtain ⟨hx, hxs⟩ := List.forall_mem_cons.mp h
    exact add_nonneg (min_sum_nonneg hx hxs) (ih hxs)

theorem min_sum_eq_zero (hx : 0 ≤ x) (h : ∀ y ∈ xs, 0 ≤ y) :
    (xs.map (min x)).sum = 0 ↔ x = 0 ∨ xs.countP (· ≠ 0) = 0 := by
  induction xs with
  | nil => simp
  | cons y ys ih =>
    obtain ⟨hy, hys⟩ := List.forall_mem_cons.mp h
    have hrest := min_sum_nonneg hx hys
    have hpair := le_min hx hy
    have hmin : min x y = 0 ↔ x = 0 ∨ y = 0 := by omega
    have hsplit : min x y + (ys.map (min x)).sum = 0 ↔
        min x y = 0 ∧ (ys.map (min x)).sum = 0 := by omega
    rw [List.map_cons, List.sum_cons, hsplit, hmin, ih hys, List.countP_cons]
    by_cases hzero : y = 0
    · simp [hzero]
    · simp only [hzero, or_false, ne_eq, not_false_eq_true, decide_true, if_true]
      omega

/-- Counts share nothing when at most one of them is not zero. -/
theorem overlap_eq_zero (h : ∀ y ∈ xs, 0 ≤ y) : overlap xs = 0 ↔ xs.countP (· ≠ 0) ≤ 1 := by
  induction xs with
  | nil => simp [overlap]
  | cons x xs ih =>
    obtain ⟨hx, hxs⟩ := List.forall_mem_cons.mp h
    have hrow := min_sum_nonneg hx hxs
    have hrest := overlap_nonneg hxs
    have hsplit : (xs.map (min x)).sum + overlap xs = 0 ↔
        (xs.map (min x)).sum = 0 ∧ overlap xs = 0 := by omega
    rw [overlap, hsplit, min_sum_eq_zero hx hxs, ih hxs, List.countP_cons]
    by_cases hzero : x = 0
    · simp [hzero]
    · simp only [hzero, false_or, ne_eq, not_false_eq_true, decide_true, if_true]
      omega

theorem countP_pos_of_sum_pos (h : 0 < xs.sum) : 0 < xs.countP (· ≠ 0) := by
  by_contra hnone
  have hzero : ∀ x ∈ xs, x = 0 := by
    have hcount : xs.countP (· ≠ 0) = 0 := by omega
    simpa [List.countP_eq_zero] using hcount
  rw [List.sum_eq_zero hzero] at h
  exact lt_irrefl 0 h

end Overlap

section Exact

variable {counts : List Int}

theorem sum_mapIdx_cast (f : Nat → Int → Int) (xs : List Int) :
    (((xs.mapIdx f).sum : Int) : ℚ) = (xs.mapIdx fun i (x : Int) => (f i x : ℚ)).sum := by
  induction xs generalizing f with
  | nil => rfl
  | cons x xs ih =>
    simp only [List.mapIdx_cons, List.sum_cons, Int.cast_add, ih fun i => f (i + 1)]

/-- With exact quotients the formula adds up the differences of the counts. -/
theorem giniFormula_exact (hn : counts ≠ []) (hsum : counts.sum ≠ 0) :
    giniFormula .exact counts = spread counts / (2 * counts.length * counts.sum) := by
  have hlength : (counts.length : ℚ) ≠ 0 := by
    simpa using hn
  have htotal : (counts.sum : ℚ) ≠ 0 := by
    exact_mod_cast hsum
  have hspread : (spread counts : ℚ) =
      4 * placedSum (ascending counts) - 2 * (counts.length + 1) * counts.sum := by
    have h := spread_of_ascending (pairwise_ascending counts)
    rw [spread_perm (perm_ascending counts), (perm_ascending counts).length_eq,
      (perm_ascending counts).sum_eq] at h
    exact_mod_cast h
  have hformula : giniFormula .exact counts =
      2 * placedSum (ascending counts) / (counts.length * counts.sum) -
        (counts.length + 1) / counts.length := by
    rw [placedSum, sum_mapIdx_cast]
    simp only [giniFormula, Arithmetic.exact, Int.cast_mul, Int.cast_natCast]
    push_cast
    rfl
  rw [hformula, hspread]
  field_simp
  ring

/-- What the coefficient falls short of its bound by is what the counts share. -/
theorem giniFormula_shortfall (hne : counts ≠ []) (hsum : counts.sum ≠ 0) :
    (counts.length - 1 : ℚ) / counts.length - giniFormula .exact counts =
      4 * overlap counts / (2 * counts.length * counts.sum) := by
  have hlength : (counts.length : ℚ) ≠ 0 := by
    simpa using hne
  have htotal : (counts.sum : ℚ) ≠ 0 := by
    exact_mod_cast hsum
  have hspread : (spread counts : ℚ) + 4 * overlap counts =
      2 * (counts.length - 1) * counts.sum := by
    exact_mod_cast spread_add_overlap counts
  rw [giniFormula_exact hne hsum, eq_sub_of_add_eq hspread]
  field_simp
  ring

/-- What a coefficient says about how the counts differ. -/
structure Concentration (counts : List Int) (g : ℚ) : Prop where
  differences : g = spread counts / (2 * counts.length * counts.sum)
  nonneg : 0 ≤ g
  bounded : g ≤ (counts.length - 1) / counts.length
  unclamped : max 0 (min 1 g) = g
  equal : g = 0 ↔ ∀ x ∈ counts, ∀ y ∈ counts, x = y
  single : g = (counts.length - 1) / counts.length ↔ counts.countP (· ≠ 0) = 1

theorem concentration (hnonneg : ∀ x ∈ counts, 0 ≤ x) (hpos : 0 < counts.sum) :
    Concentration counts (giniFormula .exact counts) := by
  have hne : counts ≠ [] := by
    rintro rfl
    exact lt_irrefl 0 hpos
  have hlength : (0 : ℚ) < counts.length := by
    exact_mod_cast List.length_pos_iff.mpr hne
  have htotal : (0 : ℚ) < counts.sum := by
    exact_mod_cast hpos
  have hscale : (0 : ℚ) < 2 * counts.length * counts.sum := by positivity
  have hdifferences := giniFormula_exact hne hpos.ne'
  have hshort := giniFormula_shortfall hne hpos.ne'
  have hnonneg' : 0 ≤ giniFormula .exact counts := by
    have : (0 : ℚ) ≤ spread counts := by exact_mod_cast spread_nonneg counts
    rw [hdifferences]
    positivity
  have hbounded : giniFormula .exact counts ≤ (counts.length - 1) / counts.length := by
    have : (0 : ℚ) ≤ overlap counts := by exact_mod_cast overlap_nonneg hnonneg
    rw [← sub_nonneg, hshort]
    positivity
  have hone : (counts.length - 1 : ℚ) / counts.length ≤ 1 := by
    rw [div_le_one hlength]
    linarith
  refine ⟨hdifferences, hnonneg', hbounded, ?_, ?_, ?_⟩
  · rw [min_eq_right (hbounded.trans hone), max_eq_right hnonneg']
  · rw [hdifferences, div_eq_zero_iff, or_iff_left hscale.ne', Int.cast_eq_zero]
    exact spread_eq_zero
  · have hzero : giniFormula .exact counts = (counts.length - 1) / counts.length ↔
        overlap counts = 0 := by
      rw [eq_comm, ← sub_eq_zero, hshort, div_eq_zero_iff, or_iff_left hscale.ne']
      norm_num
    have hcount := countP_pos_of_sum_pos hpos
    rw [hzero, overlap_eq_zero hnonneg]
    omega

theorem giniFormula_scale {k : Int} (hk : 0 < k) (hne : counts ≠ []) (hsum : counts.sum ≠ 0) :
    giniFormula .exact (counts.map (k * ·)) = giniFormula .exact counts := by
  have htotal : (counts.sum : ℚ) ≠ 0 := by
    exact_mod_cast hsum
  have hfactor : (k : ℚ) ≠ 0 := by
    exact_mod_cast hk.ne'
  have hlength : (counts.length : ℚ) ≠ 0 := by
    simpa using hne
  have hscaled : (counts.map (k * ·)).sum ≠ 0 := by
    rw [sum_map_scale]
    exact mul_ne_zero hk.ne' hsum
  rw [giniFormula_exact hne hsum, giniFormula_exact (by simpa using hne) hscaled,
    spread_scale hk, sum_map_scale, List.length_map]
  push_cast
  field_simp

end Exact

section Rounded

variable {counts other : List Int}

theorem wordTotal_eq_sum (h : ∀ x ∈ counts, 0 ≤ x) (hword : counts.sum < 2 ^ 63) :
    wordTotal counts = counts.sum := by
  have hnonneg : 0 ≤ counts.sum := List.sum_nonneg h
  rw [wordTotal, ← List.sum_eq_foldr]
  exact Int.bmod_eq_of_le (by omega) (by omega)

/-- The coefficient of the doubles is the same formula, rounded and kept within its bounds. -/
theorem giniOf_eq (hn : 2 ≤ counts.length) (hnonneg : ∀ x ∈ counts, 0 ≤ x) (hpos : 0 < counts.sum)
    (hword : counts.sum < 2 ^ 63) :
    giniOf counts = (giniFormula .doubles counts).clamp .zero (.ofNat 1) := by
  have hmany : ¬counts.length ≤ 1 := by omega
  have htotal : ¬counts.sum = 0 := by omega
  simp only [giniOf, giniFormula, Arithmetic.doubles, wordTotal_eq_sum hnonneg hword, hmany, htotal,
    decide_false, Bool.or_false, Bool.false_eq_true, if_false]

theorem giniOf_perm (h : other.Perm counts) : giniOf other = giniOf counts := by
  have htotal : wordTotal other = wordTotal counts := by
    rw [wordTotal, wordTotal, ← List.sum_eq_foldr, ← List.sum_eq_foldr, h.sum_eq]
  simp only [giniOf, htotal, h.length_eq, ascending_eq_of_perm h]

end Rounded

/-- The coefficient of two counts or more: the doubles compute the formula and keep it within 0 and
1, and without rounding the formula needs no bounds. It is the mean difference of the counts as a
share of twice their mean, whatever their order and scale. -/
theorem gini_exact (counts : List Int) (hn : 2 ≤ counts.length) (hnonneg : ∀ x ∈ counts, 0 ≤ x)
    (hpos : 0 < counts.sum) (hword : counts.sum < 2 ^ 63) :
    giniOf counts = (giniFormula .doubles counts).clamp .zero (.ofNat 1) ∧
      Concentration counts (giniFormula .exact counts) ∧
      (∀ other : List Int, other.Perm counts →
        giniOf other = giniOf counts ∧ giniFormula .exact other = giniFormula .exact counts) ∧
      ∀ k : Int, 0 < k → giniFormula .exact (counts.map (k * ·)) = giniFormula .exact counts := by
  refine ⟨giniOf_eq hn hnonneg hpos hword, concentration hnonneg hpos, ?_, ?_⟩
  · intro other hperm
    exact ⟨giniOf_perm hperm, giniFormula_perm .exact hperm⟩
  · intro k hk
    have hne : counts ≠ [] := List.ne_nil_of_length_pos (by omega)
    exact giniFormula_scale hk hne hpos.ne'

/-- One count out of three that is not zero: the coefficient is at its upper end, `2 / 3`. -/
theorem gini_exact_single :
    2 ≤ [0, 5, 0].length ∧ (∀ x ∈ [0, 5, 0], (0 : Int) ≤ x) ∧ (0 : Int) < [0, 5, 0].sum ∧
      ([0, 5, 0].sum : Int) < 2 ^ 63 ∧ giniFormula .exact [0, 5, 0] = 2 / 3 := by
  have hn : 2 ≤ ([0, 5, 0] : List Int).length := by decide
  have hnonneg : ∀ x ∈ ([0, 5, 0] : List Int), 0 ≤ x := by decide
  have hpos : 0 < ([0, 5, 0] : List Int).sum := by decide
  have hword : ([0, 5, 0] : List Int).sum < 2 ^ 63 := by decide
  have hexact := (gini_exact [0, 5, 0] hn hnonneg hpos hword).2.1
  have htop := hexact.single.mpr (by decide)
  refine ⟨hn, hnonneg, hpos, hword, htop.trans ?_⟩
  norm_num

end StyleTally.Summary
