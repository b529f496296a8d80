import StyleTally.Decimal.Reading
import StyleTally.Report.Json

/-!
# Numerals that are read back

A numeral has a whole part without zeros in front, and behind it places after a point, a power of
ten, or both. A whole number is written as its digits alone. The general form of a double always has
places or a power, and so a reader never takes one for the other.
-/

namespace StyleTally

namespace Text

theorem repr_injective {k l : Nat} (h : Nat.repr k = Nat.repr l) : k = l := by
  have hdigits := congrArg (fun s => Nat.ofDigitChars 10 s.toList 0) h
  simpa only [Nat.toList_repr, Nat.ofDigitChars_ten_toDigits] using hdigits

theorem minus_ne_repr (k l : Nat) : "-" ++ Nat.repr k ≠ Nat.repr l := by
  intro h
  have hdigit : '-' ∈ Nat.toDigits 10 l := by
    rw [← Nat.toList_repr, ← h, String.toList_append]
    simp
  exact absurd (Nat.isDigit_of_mem_toDigits (by decide) (by decide) hdigit) (by decide)

theorem decimal_injective {m n : Int} (h : decimal m = decimal n) : m = n := by
  simp only [decimal] at h
  split at h <;> split at h
  · have hmagnitude := repr_injective ((String.append_right_inj _).mp h)
    omega
  · exact absurd h (minus_ne_repr _ _)
  · exact absurd h.symm (minus_ne_repr _ _)
  · have hmagnitude := repr_injective h
    omega

/-- A whole part has no zeros in front. -/
def IsWhole (cs : List Char) : Prop :=
  cs = ['0'] ∨ ∃ d ds, cs = d :: ds ∧ d ≠ '0' ∧ ∀ c ∈ cs, c.isDigit

/-- What no numeral goes on with. -/
def EndsNumeral (cs : List Char) : Prop :=
  ∀ c ∈ cs.head?, c.isDigit = false ∧ c ≠ '.' ∧ c ≠ 'e' ∧ c ≠ 'E'

def IsDigits (cs : List Char) : Prop := cs ≠ [] ∧ ∀ c ∈ cs, c.isDigit

theorem not_mem_of_isDigit {c : Char} (hc : c.isDigit = false) {cs : List Char}
    (h : ∀ d ∈ cs, d.isDigit) : c ∉ cs := by
  intro hmem
  have hdigit := h c hmem
  simp [hc] at hdigit

theorem isDigits_toDigits (n : Nat) : IsDigits (Nat.toDigits 10 n) :=
  ⟨Nat.toDigits_ne_nil, fun _ hc => Nat.isDigit_of_mem_toDigits (by decide) (by decide) hc⟩

theorem exists_head_toDigits {n : Nat} (h : n ≠ 0) :
    ∃ d ds, Nat.toDigits 10 n = d :: ds ∧ d ≠ '0' := by
  induction n using Nat.strongRecOn with
  | ind n ih =>
    by_cases hn : n < 10
    · exact ⟨_, _, Nat.toDigits_of_lt_base hn, by simpa using h⟩
    · obtain ⟨d, ds, hds, hd⟩ := ih (n / 10) (by omega) (by omega)
      refine ⟨d, ds ++ [Nat.digitChar (n % 10)], ?_, hd⟩
      rw [Nat.toDigits_of_base_le (by decide) (by omega), hds, List.cons_append]

theorem isWhole_toDigits (n : Nat) : IsWhole (Nat.toDigits 10 n) := by
  by_cases h : n = 0
  · subst h
    exact .inl (Nat.toDigits_zero 10)
  · obtain ⟨d, ds, hds, hd⟩ := exists_head_toDigits h
    exact .inr ⟨d, ds, hds, hd, (isDigits_toDigits n).2⟩

/-- What follows the whole part of a numeral that is not whole. -/
inductive IsTail : List Char → Prop where
  | places {ps : List Char} (hps : IsDigits ps) : IsTail ('.' :: ps)
  | power {sign : Char} {ds : List Char} (hsign : sign = '+' ∨ sign = '-') (hds : IsDigits ds) :
      IsTail ('e' :: sign :: ds)
  | both {ps : List Char} {sign : Char} {ds : List Char} (hps : IsDigits ps)
      (hsign : sign = '+' ∨ sign = '-') (hds : IsDigits ds) :
      IsTail ('.' :: ps ++ 'e' :: sign :: ds)

end Text

namespace Decimal

theorem readsBack_digits {m : Nat} (hm : m ≠ 0) {e : Int} {c : Numeral}
    (h : readsBack m e c = true) : c.digits ≠ 0 := by
  intro hzero
  have hlow : 0 < (interval m e).1 := by
    simp only [interval]
    apply Nat.mul_pos
    · split <;> omega
    · split
      · exact Nat.one_pos
      · exact Nat.pow_pos (by decide)
  have hden : 0 < (if c.exponent < 0 then Nat.pow 10 c.exponent.natAbs else 1) := by
    split
    · exact Nat.pow_pos (by decide)
    · exact Nat.one_pos
  have hpos := Nat.mul_pos hlow hden
  simp only [readsBack, hzero, Nat.zero_mul, ite_self] at h
  split at h
  · simp only [Bool.and_eq_true, decide_eq_true_eq] at h
    omega
  · simp only [Bool.and_eq_true, decide_eq_true_eq] at h
    omega

theorem nearest?_digits {m : Nat} (hm : m ≠ 0) {e : Int} {num den : Nat} {lead : Int} {count : Nat}
    {c : Numeral} (h : nearest? m e num den lead count = some c) : c.digits ≠ 0 := by
  simp only [nearest?] at h
  split at h
  · rename_i hbelow habove
    split at h
    · cases h
      exact readsBack_digits hm hbelow
    · cases h
      exact readsBack_digits hm habove
  · rename_i hbelow _
    cases h
    exact readsBack_digits hm hbelow
  · rename_i _ habove
    cases h
    exact readsBack_digits hm habove
  · cases h

theorem dropZeros_digits (fuel : Nat) {c : Numeral} (h : c.digits ≠ 0) :
    (dropZeros fuel c).digits ≠ 0 := by
  induction fuel generalizing c with
  | zero => exact h
  | succ fuel ih =>
    rw [dropZeros]
    split
    · rename_i hzero
      simp only [Bool.and_eq_true, decide_eq_true_eq] at hzero
      exact ih (by simp only; omega)
    · exact h

/-- The shortest decimal has no zero in front, unless no decimal was found. -/
theorem shortest_cases {m : Nat} (hm : m ≠ 0) (e : Int) :
    (shortest m e).digits ≠ 0 ∨ shortest m e = ⟨0, 0⟩ := by
  simp only [shortest]
  cases hfound : (List.range 17).findSome? fun i => nearest? m e (Binary64.finite false m e).magnitude.1
      (Binary64.finite false m e).magnitude.2 (leadingExponent (Binary64.finite false m e).magnitude.1
      (Binary64.finite false m e).magnitude.2) (i + 1) with
  | none => exact .inr rfl
  | some c =>
    obtain ⟨i, -, hi⟩ := List.exists_of_findSome?_eq_some hfound
    exact .inl (dropZeros_digits 18 (nearest?_digits hm hi))

/-- Digits that may be written with a point: a lone zero has nothing behind it. -/
def IsLeading (ds : List Char) (lead : Int) : Prop :=
  ds = ['0'] ∧ lead = 0 ∨ ∃ d rest, ds = d :: rest ∧ d ≠ '0'

theorem positional_parts {ds : List Char} {lead : Int} (hds : Text.IsDigits ds)
    (hlead : IsLeading ds lead) :
    ∃ whole tail, positional .general ds lead = whole ++ tail ∧ Text.IsWhole whole ∧
      Text.IsTail tail := by
  have hzeros (n : Nat) : ∀ c ∈ List.replicate n '0', c.isDigit := by
    intro c hc
    rw [List.eq_of_mem_replicate hc]
    rfl
  by_cases hneg : lead < 0
  · have hplaces : Text.IsDigits (List.replicate (lead.natAbs - 1) '0' ++ ds) := by
      refine ⟨by simp [hds.1], fun c hc => ?_⟩
      rcases List.mem_append.mp hc with hc | hc
      · exact hzeros _ c hc
      · exact hds.2 c hc
    exact ⟨['0'], _, by simp [positional, hneg], .inl rfl, .places hplaces⟩
  · let whole := ds.take (lead.toNat + 1) ++
      List.replicate (lead.toNat + 1 - (ds.take (lead.toNat + 1)).length) '0'
    have hwhole : Text.IsWhole whole := by
      have hall : ∀ c ∈ whole, c.isDigit := by
        intro c hc
        rcases List.mem_append.mp hc with hc | hc
        · exact hds.2 c (List.mem_of_mem_take hc)
        · exact hzeros _ c hc
      rcases hlead with ⟨rfl, rfl⟩ | ⟨d, rest, rfl, hd⟩
      · exact .inl rfl
      · exact .inr ⟨d, _, rfl, hd, hall⟩
    by_cases hrest : ds.drop (lead.toNat + 1) = []
    · refine ⟨whole, ['.', '0'], ?_, hwhole, .places ⟨by simp, by simp⟩⟩
      simp [positional, hneg, hrest, Style.general, whole]
    · refine ⟨whole, '.' :: ds.drop (lead.toNat + 1), ?_, hwhole, .places ⟨hrest, ?_⟩⟩
      · simp [positional, hneg, List.isEmpty_iff, hrest, whole]
      · exact fun c hc => hds.2 c (List.mem_of_mem_drop hc)

theorem exponential_parts {ds : List Char} (hds : Text.IsDigits ds) (lead : Int) :
    ∃ whole tail, exponential .general ds lead = whole ++ tail ∧ Text.IsWhole whole ∧
      Text.IsTail tail := by
  have hpower : Text.IsDigits (Text.padLeft Style.general.exponentDigits '0'
      (digitsOf lead.natAbs)) := by
    refine ⟨by simp [Text.padLeft, digitsOf], fun c hc => ?_⟩
    rcases List.mem_append.mp hc with hc | hc
    · rw [List.eq_of_mem_replicate hc]
      rfl
    · exact (Text.isDigits_toDigits _).2 c hc
  have hsign : (if lead < 0 then '-' else '+') = '+' ∨ (if lead < 0 then '-' else '+') = '-' := by
    split <;> simp
  obtain ⟨hne, hdigits⟩ := hds
  cases ds with
  | nil => exact absurd rfl hne
  | cons d ds =>
    have hwhole : Text.IsWhole [d] := by
      by_cases hd : d = '0'
      · exact .inl (by rw [hd])
      · exact .inr ⟨d, [], rfl, hd, fun c hc => hdigits c (by simp_all)⟩
    cases ds with
    | nil => exact ⟨[d], _, by simp [exponential], hwhole, .power hsign hpower⟩
    | cons d' ds =>
      have hplaces : Text.IsDigits (d' :: ds) :=
        ⟨List.cons_ne_nil d' ds, fun c hc => hdigits c (List.mem_cons_of_mem d hc)⟩
      exact ⟨[d], _, by simp [exponential], hwhole, .both hplaces hsign hpower⟩

theorem magnitudeText_parts (m : Nat) (e : Int) :
    ∃ whole tail, magnitudeText .general m e = whole ++ tail ∧ Text.IsWhole whole ∧
      Text.IsTail tail := by
  rw [magnitudeText]
  split
  · exact positional_parts ⟨by simp, by simp⟩ (.inl ⟨rfl, rfl⟩)
  · rename_i hm
    have hds : Text.IsDigits (digitsOf (shortest m e).digits) := Text.isDigits_toDigits _
    have hlead : IsLeading (digitsOf (shortest m e).digits) ((shortest m e).exponent +
        ((digitsOf (shortest m e).digits).length - 1 : Nat)) := by
      rcases shortest_cases hm e with hne | hzero
      · exact .inr (Text.exists_head_toDigits hne)
      · rw [hzero]
        exact .inl ⟨rfl, rfl⟩
    simp only
    split
    · exact positional_parts hds hlead
    · exact exponential_parts hds _

end Decimal

namespace Json

/-- A reader takes characters from the front and gives what they stand for with those left. -/
abbrev Reader (α : Type) := List Char → Option (α × List Char)

def digits : Reader (List Char) := fun cs =>
  let ds := cs.takeWhile Char.isDigit
  if ds.isEmpty then none else some (ds, cs.dropWhile Char.isDigit)

def whole : Reader (List Char)
  | '0' :: cs => some (['0'], cs)
  | cs => digits cs

/-- The places behind a point, if there are any. -/
def places (cs : List Char) : List Char × List Char :=
  match cs with
  | '.' :: rest => (digits rest).getD ([], cs)
  | _ => ([], cs)

def signed (negative : Bool) (n : Nat) : Int := if negative then -n else n

/-- The power of ten, if one is written. -/
def power (cs : List Char) : Option Int × List Char :=
  match cs with
  | c :: rest =>
    if c = 'e' ∨ c = 'E' then
      let (negative, rest) := Decimal.splitSign rest
      match digits rest with
      | some (ds, rest) => (some (signed negative (Nat.ofDigitChars 10 ds 0)), rest)
      | none => (none, cs)
    else (none, cs)
  | [] => (none, cs)

/-- A numeral without its sign. One with places or a power of ten is read as a double. -/
def magnitude (negative : Bool) : Reader Json := fun cs => do
  let (whole, cs) ← whole cs
  let (places, cs) := places cs
  let (power?, cs) := power cs
  if places.isEmpty && power?.isNone then
    return (.integer (signed negative (Nat.ofDigitChars 10 whole 0)), cs)
  else
    let x := Binary64.ofDecimal negative (Nat.ofDigitChars 10 (whole ++ places) 0)
      (power?.getD 0 - places.length)
    return (.real x, cs)

/-- A numeral, or one of the words for doubles that have none. -/
def number (cs : List Char) : Option (Json × List Char) :=
  match cs with
  | 'N' :: 'a' :: 'N' :: rest => some (.real .nan, rest)
  | 'I' :: 'n' :: 'f' :: 'i' :: 'n' :: 'i' :: 't' :: 'y' :: rest =>
    some (.real (.infinite false), rest)
  | '-' :: 'I' :: 'n' :: 'f' :: 'i' :: 'n' :: 'i' :: 't' :: 'y' :: rest =>
    some (.real (.infinite true), rest)
  | '-' :: rest => magnitude true rest
  | _ => magnitude false cs

variable {rest : List Char}

theorem digits_append {ds : List Char} (hds : Text.IsDigits ds)
    (hrest : ∀ c ∈ rest.head?, c.isDigit = false) : digits (ds ++ rest) = some (ds, rest) := by
  have htake : (ds ++ rest).takeWhile Char.isDigit = ds := by
    rw [List.takeWhile_append_of_pos hds.2]
    cases rest with
    | nil => simp
    | cons c rest => simp [hrest c rfl]
  have hdrop : (ds ++ rest).dropWhile Char.isDigit = rest := by
    rw [List.dropWhile_append_of_pos hds.2]
    cases rest with
    | nil => rfl
    | cons c rest => simp [hrest c rfl]
  simp [digits, htake, hdrop, hds.1]

theorem whole_append {cs : List Char} (hcs : Text.IsWhole cs)
    (hrest : ∀ c ∈ rest.head?, c.isDigit = false) : whole (cs ++ rest) = some (cs, rest) := by
  obtain rfl | ⟨d, ds, rfl, hd, hdigits⟩ := hcs
  · rfl
  · rw [← digits_append ⟨List.cons_ne_nil d ds, hdigits⟩ hrest, List.cons_append, whole]
    rintro cs ⟨⟩
    exact hd rfl

theorem places_of_ends (hrest : Text.EndsNumeral rest) : places rest = ([], rest) := by
  cases rest with
  | nil => rfl
  | cons c rest =>
    rw [places]
    rintro cs ⟨⟩
    exact (hrest _ rfl).2.1 rfl

theorem power_of_ends (hrest : Text.EndsNumeral rest) : power rest = (none, rest) := by
  cases rest with
  | nil => rfl
  | cons c rest =>
    obtain ⟨-, -, he, hE⟩ := hrest c rfl
    simp [power, he, hE]

theorem power_append {sign : Char} (hsign : sign = '+' ∨ sign = '-') {ds : List Char}
    (hds : Text.IsDigits ds) (hrest : Text.EndsNumeral rest) :
    power ('e' :: sign :: (ds ++ rest)) =
      (some (signed (sign == '-') (Nat.ofDigitChars 10 ds 0)), rest) := by
  have hdigits := digits_append hds fun c hc => (hrest c hc).1
  rcases hsign with rfl | rfl <;> simp [power, Decimal.splitSign, hdigits]

theorem magnitude_whole (negative : Bool) (n : Nat) (hrest : Text.EndsNumeral rest) :
    magnitude negative (Nat.toDigits 10 n ++ rest) =
      some (.integer (signed negative n), rest) := by
  simp [magnitude, whole_append (Text.isWhole_toDigits n) fun c hc => (hrest c hc).1,
    places_of_ends hrest, power_of_ends hrest]

/-- A numeral with places or a power of ten is read as one and the same double, whatever follows. -/
theorem magnitude_tail (negative : Bool) {cs tail : List Char} (hcs : Text.IsWhole cs)
    (htail : Text.IsTail tail) :
    ∃ x, ∀ rest, Text.EndsNumeral rest →
      magnitude negative (cs ++ tail ++ rest) = some (.real x, rest) := by
  cases htail with
  | @places ps hps =>
    refine ⟨.ofDecimal negative (Nat.ofDigitChars 10 (cs ++ ps) 0) (0 - ps.length), ?_⟩
    intro rest hrest
    have hwhole : whole (cs ++ '.' :: (ps ++ rest)) = some (cs, '.' :: (ps ++ rest)) :=
      whole_append hcs (by simp)
    have hplaces := digits_append hps fun c hc => (hrest c hc).1
    simp [magnitude, hwhole, Json.places, hplaces, power_of_ends hrest, hps.1]
  | @power sign ds hsign hds =>
    refine ⟨.ofDecimal negative (Nat.ofDigitChars 10 cs 0)
      (signed (sign == '-') (Nat.ofDigitChars 10 ds 0)), ?_⟩
    intro rest hrest
    have hwhole : whole (cs ++ 'e' :: sign :: (ds ++ rest)) = some (cs, 'e' :: sign :: (ds ++ rest)) :=
      whole_append hcs (by simp)
    simp [magnitude, hwhole, Json.places, power_append hsign hds hrest]
  | @both ps sign ds hps hsign hds =>
    refine ⟨.ofDecimal negative (Nat.ofDigitChars 10 (cs ++ ps) 0)
      (signed (sign == '-') (Nat.ofDigitChars 10 ds 0) - ps.length), ?_⟩
    intro rest hrest
    have hwhole : whole (cs ++ '.' :: (ps ++ 'e' :: sign :: (ds ++ rest))) =
        some (cs, '.' :: (ps ++ 'e' :: sign :: (ds ++ rest))) :=
      whole_append hcs (by simp)
    have hplaces : digits (ps ++ 'e' :: sign :: (ds ++ rest)) =
        some (ps, 'e' :: sign :: (ds ++ rest)) :=
      digits_append hps (by simp)
    simp [magnitude, hwhole, Json.places, hplaces, power_append hsign hds hrest]

/-- A numeral starts with a digit, and so with neither a sign nor a letter. -/
theorem number_digit (negative : Bool) {cs : List Char} (hcs : Text.IsWhole cs)
    (rest : List Char) :
    number ((if negative then ['-'] else []) ++ (cs ++ rest)) = magnitude negative (cs ++ rest) := by
  obtain ⟨d, ds, rfl, hd⟩ : ∃ d ds, cs = d :: ds ∧ d.isDigit := by
    obtain rfl | ⟨d, ds, rfl, -, hdigits⟩ := hcs
    · exact ⟨'0', [], rfl, rfl⟩
    · exact ⟨d, ds, rfl, hdigits d (by simp)⟩
  have hN : d ≠ 'N' := by rintro rfl; cases hd
  have hI : d ≠ 'I' := by rintro rfl; cases hd
  have hminus : d ≠ '-' := by rintro rfl; cases hd
  cases negative
  · rw [if_neg (by simp), List.nil_append, List.cons_append, number.eq_def]
    split <;> simp_all
  · rw [if_pos rfl, List.cons_append, List.cons_append, number.eq_def]
    split <;> simp_all

theorem toList_decimal (n : Int) :
    (Text.decimal n).toList = (if n < 0 then ['-'] else []) ++ Nat.toDigits 10 n.natAbs := by
  rw [Text.decimal]
  split <;> simp

/-- The text of an integer holds nothing but digits and the sign. -/
theorem not_mem_decimal {c : Char} (hc : c.isDigit = false) (hsign : c ≠ '-') (n : Int) :
    c ∉ (Text.decimal n).toList := by
  rw [toList_decimal, List.mem_append, not_or]
  exact ⟨by split <;> simp [hsign], Text.not_mem_of_isDigit hc (Text.isDigits_toDigits _).2⟩

theorem number_integer (n : Int) (hrest : Text.EndsNumeral rest) :
    number ((Text.decimal n).toList ++ rest) = some (.integer n, rest) := by
  have hread := number_digit (decide (n < 0)) (Text.isWhole_toDigits n.natAbs) rest
  rw [magnitude_whole _ _ hrest] at hread
  have hsigned : signed (decide (n < 0)) n.natAbs = n := by
    by_cases hn : n < 0
    · rw [signed, if_pos (by simpa using hn)]
      omega
    · rw [signed, if_neg (by simpa using hn)]
      omega
  rw [toList_decimal, List.append_assoc, ← hsigned]
  simpa [hsigned] using hread

theorem realChars_finite (negative : Bool) (m : Nat) (e : Int) :
    realChars (.finite negative m e) =
      (if negative then ['-'] else []) ++ Decimal.magnitudeText .general m e := by
  cases negative <;> simp [realChars, Decimal.general, Decimal.signed]

/-- The text of a double is read as one and the same double, whatever follows. -/
theorem number_real (x : Binary64) :
    ∃ y, ∀ rest, Text.EndsNumeral rest → number (realChars x ++ rest) = some (.real y, rest) := by
  cases x with
  | nan => exact ⟨.nan, fun _ _ => rfl⟩
  | infinite negative => cases negative <;> exact ⟨_, fun _ _ => rfl⟩
  | finite negative m e =>
    obtain ⟨cs, tail, htext, hcs, htail⟩ := Decimal.magnitudeText_parts m e
    obtain ⟨y, hy⟩ := magnitude_tail negative hcs htail
    refine ⟨y, fun rest hrest => ?_⟩
    rw [realChars_finite, htext, List.append_assoc, List.append_assoc, number_digit negative hcs,
      ← List.append_assoc, hy rest hrest]

end Json

end StyleTally
