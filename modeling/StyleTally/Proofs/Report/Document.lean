import StyleTally.Proofs.Report.Numeral

/-!
# JSON documents that are read back

A reader of JSON takes a value from the front of a text and knows nothing of how the text was
written. What a document is written as is read as the document, with each of its doubles as the
double that its numeral stands for. A reader's rounds are bounded by the length of the text, as
every round takes a character. Null and the truth values, which no document holds, are refused.
-/

namespace StyleTally.Json

/-- Four hexadecimal digits. -/
def unit : Reader Nat
  | a :: b :: c :: d :: cs =>
    if [a, b, c, d].all Text.isHexDigit then
      some ([a, b, c, d].foldl (fun n c => 16 * n + Text.hexValue c) 0, cs)
    else none
  | _ => none

/-- The character of one unit, or of two of which the first is an upper surrogate. -/
def codedChar : Reader Char := fun cs => do
  let (n, cs) ← unit cs
  if 0xD800 ≤ n ∧ n < 0xDC00 then
    match cs with
    | '\\' :: 'u' :: cs =>
      let (k, cs) ← unit cs
      if 0xDC00 ≤ k ∧ k < 0xE000 then
        return (Char.ofNat (0x10000 + 0x400 * (n - 0xD800) + (k - 0xDC00)), cs)
      else none
    | _ => none
  else if 0xDC00 ≤ n ∧ n < 0xE000 then none
  else return (Char.ofNat n, cs)

/-- What follows a backslash. -/
def escape : Reader Char
  | '"' :: cs => some ('"', cs)
  | '\\' :: cs => some ('\\', cs)
  | '/' :: cs => some ('/', cs)
  | 'b' :: cs => some ('\x08', cs)
  | 'f' :: cs => some ('\x0c', cs)
  | 'n' :: cs => some ('\n', cs)
  | 'r' :: cs => some ('\r', cs)
  | 't' :: cs => some ('\t', cs)
  | 'u' :: cs => codedChar cs
  | _ => none

/-- A character of a text. Control characters stand in it only by their escapes. -/
def textChar : Reader Char
  | '\\' :: cs => escape cs
  | c :: cs => if c = '"' ∨ c.toNat < 0x20 then none else some (c, cs)
  | [] => none

/-- The characters up to the quote that closes a text. -/
def textBody : Nat → Reader (List Char)
  | 0, _ => none
  | rounds + 1, cs =>
    match cs with
    | '"' :: cs => some ([], cs)
    | cs => do
      let (c, cs) ← textChar cs
      let (body, cs) ← textBody rounds cs
      return (c :: body, cs)

def quotedText (rounds : Nat) : Reader String
  | '"' :: cs => (textBody rounds cs).map fun (body, cs) => (String.ofList body, cs)
  | _ => none

def isBlank (c : Char) : Bool := c == ' ' || c == '\n' || c == '\r' || c == '\t'

def skipBlank (cs : List Char) : List Char := cs.dropWhile isBlank

mutual

def value : Nat → Reader Json
  | 0, _ => none
  | rounds + 1, cs =>
    match cs with
    | '"' :: cs => (quotedText rounds ('"' :: cs)).map fun (s, cs) => (.text s, cs)
    | '[' :: cs =>
      match skipBlank cs with
      | ']' :: cs => some (.list [], cs)
      | cs => (items rounds cs).map fun (items, cs) => (.list items, cs)
    | '\x7b' :: cs =>
      match skipBlank cs with
      | '\x7d' :: cs => some (.object [], cs)
      | cs => (fields rounds cs).map fun (fields, cs) => (.object fields, cs)
    | cs => number cs

/-- The items of a list, of which there is at least one. -/
def items : Nat → Reader (List Json)
  | 0, _ => none
  | rounds + 1, cs => do
    let (item, cs) ← value rounds cs
    match skipBlank cs with
    | ']' :: cs => return ([item], cs)
    | ',' :: cs =>
      let (more, cs) ← items rounds (skipBlank cs)
      return (item :: more, cs)
    | _ => none

/-- The fields of an object, of which there is at least one. -/
def fields : Nat → Reader (List (String × Json))
  | 0, _ => none
  | rounds + 1, cs => do
    let (name, cs) ← quotedText rounds cs
    match skipBlank cs with
    | ':' :: cs =>
      let (doc, cs) ← value rounds (skipBlank cs)
      match skipBlank cs with
      | '\x7d' :: cs => return ([(name, doc)], cs)
      | ',' :: cs =>
        let (more, cs) ← fields rounds (skipBlank cs)
        return ((name, doc) :: more, cs)
      | _ => none
    | _ => none

end

/-- The document that a text is written as, with blank space around it. -/
def read (s : String) : Option Json := do
  let (doc, cs) ← value (s.toList.length + 1) (skipBlank s.toList)
  if (skipBlank cs).isEmpty then return doc else none

/-- The double that the numeral of a double stands for. -/
def reread (x : Binary64) : Binary64 :=
  match number (realChars x) with
  | some (.real y, _) => y
  | _ => x

mutual

/-- A document with each double as its numeral gives it. -/
def reading : Json → Json
  | integer n => integer n
  | real x => real (reread x)
  | text s => text s
  | list items => list (readingItems items)
  | object fields => object (readingFields fields)

def readingItems : List Json → List Json
  | [] => []
  | item :: items => reading item :: readingItems items

def readingFields : List (String × Json) → List (String × Json)
  | [] => []
  | (name, doc) :: fields => (name, reading doc) :: readingFields fields

end

section Characters

variable (rest : List Char)

theorem hexValue_digitChar {d : Nat} (hd : d < 16) :
    Text.isHexDigit d.digitChar = true ∧ Text.hexValue d.digitChar = d := by
  have hall : ∀ d < 16, Text.isHexDigit (Nat.digitChar d) = true ∧
      Text.hexValue (Nat.digitChar d) = d := by decide
  exact hall d hd

/-- Four digits, zeros in front among them. -/
theorem hexPadded_eq {n : Nat} (hn : n < 0x10000) :
    Text.hexPadded 4 n = [(n / 0x1000).digitChar, (n / 0x100 % 16).digitChar,
      (n / 0x10 % 16).digitChar, (n % 16).digitChar] := by
  have hstep {k : Nat} (hk : 16 ≤ k) :
      Nat.toDigits 16 k = Nat.toDigits 16 (k / 16) ++ [(k % 16).digitChar] :=
    Nat.toDigits_of_base_le (by decide) hk
  have hlast {k : Nat} (hk : k < 16) : Nat.toDigits 16 k = [k.digitChar] :=
    Nat.toDigits_of_lt_base hk
  have hdiv2 : n / 16 / 16 = n / 0x100 := Nat.div_div_eq_div_mul n 16 16
  have hdiv3 : n / 0x100 / 16 = n / 0x1000 := Nat.div_div_eq_div_mul n 0x100 16
  have hzero {k : Nat} (hk : k = 0) : k.digitChar = '0' := by rw [hk]; rfl
  rw [Text.hexPadded, Text.padLeft]
  by_cases h1 : n < 16
  · rw [hlast h1, hzero (k := n / 0x1000) (by omega), hzero (k := n / 0x100 % 16) (by omega),
      hzero (k := n / 0x10 % 16) (by omega), Nat.mod_eq_of_lt h1]
    rfl
  rw [hstep (by omega)]
  by_cases h2 : n / 16 < 16
  · rw [hlast h2, hzero (k := n / 0x1000) (by omega), hzero (k := n / 0x100 % 16) (by omega),
      Nat.mod_eq_of_lt h2]
    rfl
  rw [hstep (by omega), hdiv2]
  by_cases h3 : n / 0x100 < 16
  · rw [hlast h3, hzero (k := n / 0x1000) (by omega), Nat.mod_eq_of_lt h3]
    rfl
  rw [hstep (by omega), hdiv3, hlast (by omega)]
  rfl

theorem unit_escaped {n : Nat} (hn : n < 0x10000) :
    unit (Text.hexPadded 4 n ++ rest) = some (n, rest) := by
  obtain ⟨ha, ha'⟩ := hexValue_digitChar (d := n / 0x1000) (by omega)
  obtain ⟨hb, hb'⟩ := hexValue_digitChar (d := n / 0x100 % 16) (by omega)
  obtain ⟨hc, hc'⟩ := hexValue_digitChar (d := n / 0x10 % 16) (by omega)
  obtain ⟨hd, hd'⟩ := hexValue_digitChar (d := n % 16) (by omega)
  rw [hexPadded_eq hn]
  simp only [List.cons_append, List.nil_append, unit, List.all_cons, List.all_nil, ha, hb, hc, hd,
    Bool.and_self, if_true, List.foldl_cons, List.foldl_nil, ha', hb', hc', hd']
  congr 2
  omega

theorem toNat_cases (c : Char) :
    c.toNat < 0xD800 ∨ 0xDFFF < c.toNat ∧ c.toNat < 0x110000 := c.valid

theorem codedChar_unit {c : Char} (hc : c.toNat < 0x10000) :
    codedChar (Text.hexPadded 4 c.toNat ++ rest) = some (c, rest) := by
  have hupper : ¬(0xD800 ≤ c.toNat ∧ c.toNat < 0xDC00) := by
    have := toNat_cases c
    omega
  have hlower : ¬(0xDC00 ≤ c.toNat ∧ c.toNat < 0xE000) := by
    have := toNat_cases c
    omega
  simp [codedChar, unit_escaped rest hc, hupper, hlower]

theorem codedChar_surrogates {n k : Nat} (hn : 0xD800 ≤ n ∧ n < 0xDC00)
    (hk : 0xDC00 ≤ k ∧ k < 0xE000) :
    codedChar (Text.hexPadded 4 n ++ '\\' :: 'u' :: (Text.hexPadded 4 k ++ rest)) =
      some (Char.ofNat (0x10000 + 0x400 * (n - 0xD800) + (k - 0xDC00)), rest) := by
  simp [codedChar, unit_escaped _ (show n < 0x10000 by omega),
    unit_escaped _ (show k < 0x10000 by omega), hn, hk]

/-- A character beyond the first plane is read from its two surrogates. -/
theorem codedChar_pair {c : Char} (hc : 0x10000 ≤ c.toNat) :
    codedChar (Text.hexPadded 4 (0xD800 + (c.toNat - 0x10000) / 0x400) ++
        '\\' :: 'u' :: (Text.hexPadded 4 (0xDC00 + (c.toNat - 0x10000) % 0x400) ++ rest)) =
      some (c, rest) := by
  have hbound := toNat_cases c
  rw [codedChar_surrogates rest (by omega) (by omega)]
  have hvalue : 0x10000 + 0x400 * (0xD800 + (c.toNat - 0x10000) / 0x400 - 0xD800) +
      (0xDC00 + (c.toNat - 0x10000) % 0x400 - 0xDC00) = c.toNat := by omega
  rw [hvalue, Char.ofNat_toNat]

theorem escapedUnit_append (n : Nat) :
    escapedUnit n ++ rest = '\\' :: 'u' :: (Text.hexPadded 4 n ++ rest) := by
  rw [escapedUnit, List.cons_append, List.cons_append]

theorem textChar_coded (cs : List Char) : textChar ('\\' :: 'u' :: cs) = codedChar cs := by
  rw [textChar, escape]

/-- The characters with an escape of their own. -/
def named : List Char := ['"', '\\', '\n', '\r', '\t', '\x08', '\x0c']

theorem textChar_named {c : Char} (hc : c ∈ named) :
    textChar (escapedChar c ++ rest) = some (c, rest) := by
  simp only [named, List.mem_cons, List.not_mem_nil, or_false] at hc
  rcases hc with rfl | rfl | rfl | rfl | rfl | rfl | rfl <;> rfl

theorem escapedChar_of_not_named {c : Char} (hc : c ∉ named) :
    escapedChar c =
      if 0x20 ≤ c.toNat ∧ c.toNat < 0x7F then [c]
      else if c.toNat < 0x10000 then escapedUnit c.toNat
      else escapedUnit (0xD800 + (c.toNat - 0x10000) / 0x400) ++
        escapedUnit (0xDC00 + (c.toNat - 0x10000) % 0x400) := by
  simp only [named, List.mem_cons, List.not_mem_nil, or_false, not_or] at hc
  simp [escapedChar, hc]

theorem textChar_plain {c : Char} (hc : c ∉ named) (hplain : 0x20 ≤ c.toNat) :
    textChar (c :: rest) = some (c, rest) := by
  have hquote : c ≠ '"' := by rintro rfl; exact hc (by decide)
  have hbackslash : c ≠ '\\' := by rintro rfl; exact hc (by decide)
  have hcontrol : ¬(c = '"' ∨ c.toNat < 0x20) := by
    rintro (h | h)
    · exact hquote h
    · omega
  rw [textChar]
  · rw [if_neg hcontrol]
  · exact hbackslash

/-- Each escape is read as its character. -/
theorem textChar_escaped (c : Char) : textChar (escapedChar c ++ rest) = some (c, rest) := by
  by_cases hc : c ∈ named
  · exact textChar_named rest hc
  rw [escapedChar_of_not_named hc]
  by_cases hplain : 0x20 ≤ c.toNat ∧ c.toNat < 0x7F
  · rw [if_pos hplain]
    exact textChar_plain rest hc hplain.1
  rw [if_neg hplain]
  by_cases hunit : c.toNat < 0x10000
  · rw [if_pos hunit, escapedUnit_append, textChar_coded, codedChar_unit rest hunit]
  · rw [if_neg hunit, List.append_assoc, escapedUnit_append, escapedUnit_append, textChar_coded,
      codedChar_pair rest (Nat.le_of_not_lt hunit)]

/-- No escape starts with the quote that would close its text. -/
theorem exists_head_escapedChar (c : Char) : ∃ d ds, escapedChar c = d :: ds ∧ d ≠ '"' := by
  have hread := textChar_escaped [] c
  cases h : escapedChar c with
  | nil => simp [h, textChar] at hread
  | cons d ds =>
    refine ⟨d, ds, rfl, ?_⟩
    rintro rfl
    simp [h, textChar] at hread

theorem textBody_escaped (cs : List Char) {rounds : Nat} (hrounds : cs.length < rounds) :
    textBody rounds (cs.flatMap escapedChar ++ '"' :: rest) = some (cs, rest) := by
  induction cs generalizing rounds with
  | nil =>
    obtain _ | rounds := rounds
    · cases hrounds
    · rfl
  | cons c cs ih =>
    obtain _ | rounds := rounds
    · cases hrounds
    · have hchar := textChar_escaped (cs.flatMap escapedChar ++ '"' :: rest) c
      obtain ⟨d, ds, hd, hquote⟩ := exists_head_escapedChar c
      rw [hd, List.cons_append] at hchar
      rw [List.flatMap_cons, List.append_assoc, hd, List.cons_append, textBody.eq_def]
      simp [hquote, hchar, ih (Nat.lt_of_succ_lt_succ hrounds)]

theorem quotedText_textChars (s : String) {rounds : Nat} (hrounds : s.toList.length < rounds) :
    quotedText rounds (textChars s ++ rest) = some (s, rest) := by
  simp [quotedText, textChars, textBody_escaped rest s.toList hrounds]

theorem length_lt_textChars (s : String) : s.toList.length + 1 < (textChars s).length := by
  have hlength (cs : List Char) : cs.length ≤ (cs.flatMap escapedChar).length := by
    induction cs with
    | nil => simp
    | cons c cs ih =>
      obtain ⟨d, ds, hd, -⟩ := exists_head_escapedChar c
      simp only [List.flatMap_cons, hd, List.length_cons, List.length_append]
      omega
  have := hlength s.toList
  simp only [textChars, List.cons_append, List.length_cons, List.length_append, List.length_nil]
  omega

end Characters

section Values

theorem newLine_eq (depth : Nat) :
    ∃ blanks, newLine depth = '\n' :: blanks ∧ ∀ c ∈ blanks, isBlank c = true := by
  refine ⟨_, rfl, fun c hc => ?_⟩
  rw [List.eq_of_mem_replicate hc]
  rfl

theorem skipBlank_cons {c : Char} (hc : isBlank c = false) (cs : List Char) :
    skipBlank (c :: cs) = c :: cs := by
  simp [skipBlank, hc]

theorem skipBlank_newLine (depth : Nat) {c : Char} (hc : isBlank c = false) (cs : List Char) :
    skipBlank (newLine depth ++ c :: cs) = c :: cs := by
  obtain ⟨blanks, hline, hblanks⟩ := newLine_eq depth
  have hall : ∀ d ∈ '\n' :: blanks, isBlank d = true := by
    intro d hd
    rcases List.mem_cons.mp hd with rfl | hd
    · rfl
    · exact hblanks d hd
  rw [hline, skipBlank, List.dropWhile_append_of_pos hall]
  exact skipBlank_cons hc cs

/-- Line ends and commas end a numeral. -/
theorem ends_of_newLine (depth : Nat) (cs : List Char) :
    Text.EndsNumeral (newLine depth ++ cs) := by
  obtain ⟨blanks, hline, -⟩ := newLine_eq depth
  rw [hline]
  rintro c ⟨⟩
  decide

theorem ends_of_comma (cs : List Char) : Text.EndsNumeral (',' :: cs) := by
  rintro c ⟨⟩
  decide

/-- A character that a value may start with. -/
def isFirst (c : Char) : Bool := !isBlank c && c != ']' && c != '\x7d'

theorem number_eq_none {c : Char} (hdigit : c.isDigit = false) (hminus : c ≠ '-') (hN : c ≠ 'N')
    (hI : c ≠ 'I') (cs : List Char) : number (c :: cs) = none := by
  have hwhole : whole (c :: cs) = none := by
    rw [whole]
    · simp [digits, hdigit]
    · rintro cs ⟨⟩
      cases hdigit
  rw [number.eq_def]
  split <;> simp_all [magnitude]

/-- A numeral starts as no other value does, and not as what ends a list or an object. -/
theorem number_head {c : Char} {cs : List Char} (h : number (c :: cs) ≠ none) :
    isFirst c = true ∧ c ≠ '"' ∧ c ≠ '[' ∧ c ≠ '\x7b' := by
  have hne {d : Char} (hdigit : d.isDigit = false) (hminus : d ≠ '-') (hN : d ≠ 'N')
      (hI : d ≠ 'I') : c ≠ d := by
    rintro rfl
    exact h (number_eq_none hdigit hminus hN hI cs)
  have hblank := hne (d := ' ') (by decide) (by decide) (by decide) (by decide)
  have hline := hne (d := '\n') (by decide) (by decide) (by decide) (by decide)
  have hreturn := hne (d := '\r') (by decide) (by decide) (by decide) (by decide)
  have htab := hne (d := '\t') (by decide) (by decide) (by decide) (by decide)
  have hitems := hne (d := ']') (by decide) (by decide) (by decide) (by decide)
  have hfields := hne (d := '\x7d') (by decide) (by decide) (by decide) (by decide)
  refine ⟨?_, ?_, ?_, ?_⟩
  · simp [isFirst, isBlank, hblank, hline, hreturn, htab, hitems, hfields]
  all_goals exact hne (by decide) (by decide) (by decide) (by decide)

/-- A numeral is a value. -/
theorem value_number {cs rest : List Char} {doc : Json} (h : number cs = some (doc, rest))
    (rounds : Nat) : value (rounds + 1) cs = some (doc, rest) := by
  cases cs with
  | nil => cases h
  | cons c cs =>
    obtain ⟨-, hquote, hlist, hobject⟩ := number_head (by rw [h]; simp)
    rw [value]
    · exact h
    · rintro cs ⟨⟩
      exact hquote rfl
    · rintro cs ⟨⟩
      exact hlist rfl
    · rintro cs ⟨⟩
      exact hobject rfl

theorem exists_head_chars (depth : Nat) (doc : Json) :
    ∃ c cs, doc.chars depth = c :: cs ∧ isFirst c = true := by
  have hnumeral {cs : List Char} (h : number cs ≠ none) : ∃ c ds, cs = c :: ds ∧ isFirst c = true := by
    cases cs with
    | nil => exact absurd rfl h
    | cons c cs => exact ⟨c, cs, rfl, (number_head h).1⟩
  have hends : Text.EndsNumeral [] := by simp [Text.EndsNumeral]
  cases doc with
  | integer n =>
    have hread := number_integer n hends
    exact hnumeral (by rw [chars, ← List.append_nil (Text.decimal n).toList, hread]; simp)
  | real x =>
    obtain ⟨y, hy⟩ := number_real x
    exact hnumeral (by rw [chars, ← List.append_nil (realChars x), hy [] hends]; simp)
  | text s => exact ⟨'"', _, rfl, by decide⟩
  | list items => cases items <;> exact ⟨'[', _, rfl, by decide⟩
  | object fields => cases fields <;> exact ⟨'\x7b', _, rfl, by decide⟩

theorem isBlank_of_isFirst {c : Char} (hc : isFirst c = true) : isBlank c = false := by
  simp only [isFirst, Bool.and_eq_true, Bool.not_eq_true'] at hc
  exact hc.1.1

theorem value_text (s : String) (rest : List Char) {rounds : Nat}
    (hrounds : s.toList.length < rounds) :
    value (rounds + 1) (textChars s ++ rest) = some (.text s, rest) := by
  have hread := quotedText_textChars rest s hrounds
  simp only [textChars, List.cons_append] at hread ⊢
  rw [value, hread]
  rfl

theorem skipBlank_chars (doc : Json) (depth : Nat) (rest : List Char) :
    skipBlank (doc.chars depth ++ rest) = doc.chars depth ++ rest := by
  obtain ⟨c, cs, hhead, hc⟩ := exists_head_chars depth doc
  rw [hhead]
  exact skipBlank_cons (isBlank_of_isFirst hc) _

theorem skipBlank_newLine_chars (outer : Nat) (doc : Json) (depth : Nat) (rest : List Char) :
    skipBlank (newLine outer ++ (doc.chars depth ++ rest)) = doc.chars depth ++ rest := by
  obtain ⟨c, cs, hhead, hc⟩ := exists_head_chars depth doc
  rw [hhead]
  exact skipBlank_newLine outer (isBlank_of_isFirst hc) _

theorem skipBlank_newLine_textChars (outer : Nat) (name : String) (rest : List Char) :
    skipBlank (newLine outer ++ (textChars name ++ rest)) = textChars name ++ rest := by
  rw [textChars]
  exact skipBlank_newLine outer (by decide) _

theorem value_list (item : Json) (depth outer rounds : Nat) (rest : List Char) :
    value (rounds + 1) ('[' :: (newLine outer ++ (item.chars depth ++ rest))) =
      (items rounds (item.chars depth ++ rest)).map fun (items, cs) => (.list items, cs) := by
  obtain ⟨c, cs, hhead, hc⟩ := exists_head_chars depth item
  rw [value, skipBlank_newLine_chars, hhead]
  split
  · rename_i heq
    cases heq
    cases hc
  · rfl

theorem value_object (name : String) (outer rounds : Nat) (rest : List Char) :
    value (rounds + 1) ('\x7b' :: (newLine outer ++ (textChars name ++ rest))) =
      (fields rounds (textChars name ++ rest)).map fun (fields, cs) => (.object fields, cs) := by
  rw [value, skipBlank_newLine_textChars]
  rfl

/-- Within so many rounds, what is written is read, whatever follows that no numeral goes on
with. -/
structure Legible (rounds : Nat) : Prop where
  value (doc : Json) (depth : Nat) (rest : List Char)
    (hrounds : (doc.chars depth).length ≤ rounds) (hrest : Text.EndsNumeral rest) :
    value rounds (doc.chars depth ++ rest) = some (reading doc, rest)
  items (item : Json) (items : List Json) (depth outer : Nat) (rest : List Char)
    (hrounds : (item.chars depth ++ itemChars depth items).length < rounds) :
    Json.items rounds (item.chars depth ++ (itemChars depth items ++
        (newLine outer ++ ']' :: rest))) =
      some (reading item :: readingItems items, rest)
  fields (name : String) (doc : Json) (fields : List (String × Json)) (depth outer : Nat)
    (rest : List Char)
    (hrounds : (textChars name ++ doc.chars depth ++ fieldChars depth fields).length < rounds) :
    Json.fields rounds (textChars name ++ ':' :: ' ' :: (doc.chars depth ++
        (fieldChars depth fields ++ (newLine outer ++ '\x7d' :: rest)))) =
      some ((name, reading doc) :: readingFields fields, rest)

namespace Legible

variable {rounds : Nat} (h : Legible rounds)
include h

theorem value_succ (doc : Json) (depth : Nat) (rest : List Char)
    (hrounds : (doc.chars depth).length ≤ rounds + 1) (hrest : Text.EndsNumeral rest) :
    Json.value (rounds + 1) (doc.chars depth ++ rest) = some (reading doc, rest) := by
  cases doc with
  | integer n =>
    rw [chars, value_number (number_integer n hrest), reading]
  | real x =>
    obtain ⟨y, hy⟩ := number_real x
    have hreread : reread x = y := by
      have hends : Text.EndsNumeral [] := by simp [Text.EndsNumeral]
      rw [reread, ← List.append_nil (realChars x), hy [] hends]
    rw [chars, value_number (hy rest hrest), reading, hreread]
  | text s =>
    have hlength := length_lt_textChars s
    rw [chars] at hrounds ⊢
    rw [value_text s rest (by omega), reading]
  | list items =>
    cases items with
    | nil => rfl
    | cons item items =>
      have hchars : (list (item :: items)).chars depth ++ rest =
          '[' :: (newLine (depth + 1) ++ (item.chars (depth + 1) ++
            (itemChars (depth + 1) items ++ (newLine depth ++ ']' :: rest)))) := by
        simp [chars]
      have hlength : (item.chars (depth + 1) ++ itemChars (depth + 1) items).length < rounds := by
        simp only [chars, List.length_cons, List.length_append] at hrounds ⊢
        omega
      rw [hchars, value_list, h.items item items (depth + 1) depth rest hlength, reading,
        readingItems]
      rfl
  | object fields =>
    cases fields with
    | nil => rfl
    | cons field fields =>
      obtain ⟨name, doc⟩ := field
      have hchars : (object ((name, doc) :: fields)).chars depth ++ rest =
          '\x7b' :: (newLine (depth + 1) ++ (textChars name ++ ':' :: ' ' ::
            (doc.chars (depth + 1) ++ (fieldChars (depth + 1) fields ++
              (newLine depth ++ '\x7d' :: rest))))) := by
        simp [chars]
      have hlength : (textChars name ++ doc.chars (depth + 1) ++
          fieldChars (depth + 1) fields).length < rounds := by
        simp only [chars, List.length_cons, List.length_append] at hrounds ⊢
        omega
      rw [hchars, value_object, h.fields name doc fields (depth + 1) depth rest hlength, reading,
        readingFields]
      rfl

theorem items_succ (item : Json) (items : List Json) (depth outer : Nat) (rest : List Char)
    (hrounds : (item.chars depth ++ itemChars depth items).length < rounds + 1) :
    Json.items (rounds + 1) (item.chars depth ++ (itemChars depth items ++
        (newLine outer ++ ']' :: rest))) =
      some (reading item :: readingItems items, rest) := by
  simp only [List.length_append] at hrounds
  cases items with
  | nil =>
    have hread := h.value item depth _ (by omega)
      (ends_of_newLine outer (']' :: rest))
    rw [itemChars, List.nil_append, Json.items, hread]
    simp [skipBlank_newLine outer (c := ']') (by decide), readingItems]
  | cons next more =>
    simp only [itemChars, List.cons_append, List.length_cons, List.length_append,
      List.append_assoc] at hrounds ⊢
    have hread := h.value item depth _ (by omega)
      (ends_of_comma (newLine depth ++ (next.chars depth ++ (itemChars depth more ++
        (newLine outer ++ ']' :: rest)))))
    have hlength : (next.chars depth ++ itemChars depth more).length < rounds := by
      rw [List.length_append]
      omega
    have hmore := h.items next more depth outer rest hlength
    rw [Json.items, hread]
    simp [skipBlank_cons (c := ',') (by decide), skipBlank_newLine_chars, hmore, readingItems]

theorem fields_succ (name : String) (doc : Json) (fields : List (String × Json))
    (depth outer : Nat) (rest : List Char)
    (hrounds : (textChars name ++ doc.chars depth ++ fieldChars depth fields).length <
      rounds + 1) :
    Json.fields (rounds + 1) (textChars name ++ ':' :: ' ' :: (doc.chars depth ++
        (fieldChars depth fields ++ (newLine outer ++ '\x7d' :: rest)))) =
      some ((name, reading doc) :: readingFields fields, rest) := by
  have hname := length_lt_textChars name
  have hskip (rest : List Char) : skipBlank (' ' :: (doc.chars depth ++ rest)) =
      doc.chars depth ++ rest := by
    rw [skipBlank, List.dropWhile_cons_of_pos (by decide)]
    exact skipBlank_chars doc depth rest
  simp only [List.length_append] at hrounds
  cases fields with
  | nil =>
    have hread := h.value doc depth _ (by omega)
      (ends_of_newLine outer ('\x7d' :: rest))
    rw [fieldChars, List.nil_append, Json.fields, quotedText_textChars _ name (by omega)]
    simp [skipBlank_cons (c := ':') (by decide), hskip, hread,
      skipBlank_newLine outer (c := '\x7d') (by decide), readingFields]
  | cons next more =>
    obtain ⟨name', doc'⟩ := next
    simp only [fieldChars, List.cons_append, List.length_cons, List.length_append,
      List.append_assoc] at hrounds ⊢
    have hread := h.value doc depth _ (by omega)
      (ends_of_comma (newLine depth ++ (textChars name' ++ ':' :: ' ' :: (doc'.chars depth ++
        (fieldChars depth more ++ (newLine outer ++ '\x7d' :: rest))))))
    have hlength : (textChars name' ++ doc'.chars depth ++ fieldChars depth more).length <
        rounds := by
      simp only [List.length_append]
      omega
    have hmore := h.fields name' doc' more depth outer rest hlength
    rw [Json.fields, quotedText_textChars _ name (by omega)]
    simp [skipBlank_cons (c := ':') (by decide), hskip, hread,
      skipBlank_cons (c := ',') (by decide), skipBlank_newLine_textChars, hmore, readingFields]

end Legible

theorem legible (rounds : Nat) : Legible rounds := by
  induction rounds with
  | zero =>
    constructor
    · intro doc depth rest hrounds
      obtain ⟨c, cs, hchars, -⟩ := exists_head_chars depth doc
      simp [hchars] at hrounds
    · intro item items depth outer rest hrounds
      cases hrounds
    · intro name doc fields depth outer rest hrounds
      cases hrounds
  | succ rounds ih => exact ⟨ih.value_succ, ih.items_succ, ih.fields_succ⟩

end Values

theorem read_append (doc : Json) {cs : List Char} (hcs : cs = [] ∨ cs = ['\n']) :
    read (String.ofList (doc.chars 0 ++ cs)) = some (reading doc) := by
  have hends : Text.EndsNumeral cs := by
    rcases hcs with rfl | rfl
    · simp [Text.EndsNumeral]
    · exact ends_of_newLine 0 []
  have hrest : skipBlank cs = [] := by rcases hcs with rfl | rfl <;> rfl
  have hlength : (doc.chars 0).length ≤ (doc.chars 0 ++ cs).length + 1 := by
    rw [List.length_append]
    omega
  have hvalue := (legible _).value doc 0 cs hlength hends
  rw [read, String.toList_ofList, skipBlank_chars, hvalue]
  simp [hrest]

/-- A document is read from its text, also with a line feed behind it. -/
theorem read_render (doc : Json) :
    read doc.render = some (reading doc) ∧ read (doc.render ++ "\n") = some (reading doc) := by
  have hline : doc.render ++ "\n" = String.ofList (doc.chars 0 ++ ['\n']) := by
    rw [render, String.ofList_append]
  constructor
  · have hread := read_append doc (.inl rfl)
    rwa [List.append_nil] at hread
  · rw [hline]
    exact read_append doc (.inr rfl)

section Ascii

def IsAscii (cs : List Char) : Prop := ∀ c ∈ cs, c.toNat < 128

theorem isAscii_cons {c : Char} {cs : List Char} :
    IsAscii (c :: cs) ↔ c.toNat < 128 ∧ IsAscii cs := List.forall_mem_cons

theorem isAscii_append {cs ds : List Char} : IsAscii (cs ++ ds) ↔ IsAscii cs ∧ IsAscii ds :=
  List.forall_mem_append

theorem isAscii_of_isDigits {cs : List Char} (h : ∀ c ∈ cs, c.isDigit) : IsAscii cs :=
  fun c hc => Text.toNat_lt_of_isDigit (h c hc)

theorem isAscii_hexPadded {n : Nat} (hn : n < 0x10000) : IsAscii (Text.hexPadded 4 n) := by
  have hdigit {d : Nat} (hd : d < 16) : d.digitChar.toNat < 128 := by
    have hall : ∀ d < 16, (Nat.digitChar d).toNat < 128 := by decide
    exact hall d hd
  rw [hexPadded_eq hn]
  simp only [isAscii_cons]
  exact ⟨hdigit (by omega), hdigit (by omega), hdigit (by omega), hdigit (by omega), by simp [IsAscii]⟩

theorem isAscii_escapedUnit {n : Nat} (hn : n < 0x10000) : IsAscii (escapedUnit n) := by
  rw [escapedUnit, isAscii_cons, isAscii_cons]
  exact ⟨by decide, by decide, isAscii_hexPadded hn⟩

theorem isAscii_escapedChar (c : Char) : IsAscii (escapedChar c) := by
  by_cases hc : c ∈ named
  · simp only [named, List.mem_cons, List.not_mem_nil, or_false] at hc
    rcases hc with rfl | rfl | rfl | rfl | rfl | rfl | rfl <;>
      simp [escapedChar, IsAscii]
  rw [escapedChar_of_not_named hc]
  by_cases hplain : 0x20 ≤ c.toNat ∧ c.toNat < 0x7F
  · rw [if_pos hplain, isAscii_cons]
    exact ⟨by omega, by simp [IsAscii]⟩
  rw [if_neg hplain]
  by_cases hunit : c.toNat < 0x10000
  · rw [if_pos hunit]
    exact isAscii_escapedUnit hunit
  · have hbound := toNat_cases c
    rw [if_neg hunit, isAscii_append]
    exact ⟨isAscii_escapedUnit (by omega), isAscii_escapedUnit (by omega)⟩

theorem isAscii_textChars (s : String) : IsAscii (textChars s) := by
  have hbody : IsAscii (s.toList.flatMap escapedChar) := by
    intro c hc
    obtain ⟨d, -, hd⟩ := List.mem_flatMap.mp hc
    exact isAscii_escapedChar d c hd
  rw [textChars, List.cons_append, isAscii_cons, isAscii_append]
  exact ⟨by decide, hbody, by simp [IsAscii]⟩

theorem isAscii_newLine (depth : Nat) : IsAscii (newLine depth) := by
  intro c hc
  rcases List.mem_cons.mp hc with rfl | hc
  · decide
  · rw [List.eq_of_mem_replicate hc]
    decide

theorem isAscii_sign (negative : Bool) : IsAscii (if negative then ['-'] else []) := by
  cases negative <;> simp [IsAscii]

theorem isAscii_of_isWhole {cs : List Char} (h : Text.IsWhole cs) : IsAscii cs := by
  obtain rfl | ⟨-, -, -, -, hdigits⟩ := h
  · simp [IsAscii]
  · exact isAscii_of_isDigits hdigits

theorem isAscii_of_isTail {cs : List Char} (h : Text.IsTail cs) : IsAscii cs := by
  have hpower {sign : Char} {ds : List Char} (hsign : sign = '+' ∨ sign = '-')
      (hds : Text.IsDigits ds) : IsAscii ('e' :: sign :: ds) := by
    rw [isAscii_cons, isAscii_cons]
    exact ⟨by decide, by rcases hsign with rfl | rfl <;> decide, isAscii_of_isDigits hds.2⟩
  have hplaces {ps : List Char} (hps : Text.IsDigits ps) : IsAscii ('.' :: ps) :=
    isAscii_cons.mpr ⟨by decide, isAscii_of_isDigits hps.2⟩
  cases h with
  | places hps => exact hplaces hps
  | power hsign hds => exact hpower hsign hds
  | both hps hsign hds => exact isAscii_append.mpr ⟨hplaces hps, hpower hsign hds⟩

theorem isAscii_realChars (x : Binary64) : IsAscii (realChars x) := by
  cases x with
  | nan => simp [realChars, IsAscii]
  | infinite negative => cases negative <;> simp [realChars, IsAscii]
  | finite negative m e =>
    obtain ⟨cs, tail, htext, hcs, htail⟩ := Decimal.magnitudeText_parts m e
    rw [realChars_finite, htext]
    exact isAscii_append.mpr ⟨isAscii_sign negative,
      isAscii_append.mpr ⟨isAscii_of_isWhole hcs, isAscii_of_isTail htail⟩⟩

mutual

/-- A document is written in ASCII. -/
theorem isAscii_chars (depth : Nat) (doc : Json) : IsAscii (doc.chars depth) := by
  cases doc with
  | integer n =>
    have hsign : IsAscii (if n < 0 then ['-'] else []) := by
      simpa using isAscii_sign (decide (n < 0))
    rw [chars, toList_decimal, isAscii_append]
    exact ⟨hsign, isAscii_of_isDigits (Text.isDigits_toDigits _).2⟩
  | real x => exact isAscii_realChars x
  | text s => exact isAscii_textChars s
  | list items =>
    cases items with
    | nil => simp [chars, IsAscii]
    | cons item items =>
      have hitem := isAscii_chars (depth + 1) item
      have hitems := isAscii_itemChars (depth + 1) items
      simp only [chars, List.cons_append, isAscii_cons, isAscii_append, isAscii_newLine, hitem,
        hitems]
      simp [IsAscii]
  | object fields =>
    cases fields with
    | nil => simp [chars, IsAscii]
    | cons field fields =>
      obtain ⟨name, doc⟩ := field
      have hdoc := isAscii_chars (depth + 1) doc
      have hfields := isAscii_fieldChars (depth + 1) fields
      simp only [chars, List.cons_append, isAscii_cons, isAscii_append, isAscii_newLine,
        isAscii_textChars, hdoc, hfields]
      simp [IsAscii]

theorem isAscii_itemChars (depth : Nat) (items : List Json) : IsAscii (itemChars depth items) := by
  cases items with
  | nil => simp [itemChars, IsAscii]
  | cons item items =>
    have hitem := isAscii_chars depth item
    have hitems := isAscii_itemChars depth items
    simp only [itemChars, List.cons_append, isAscii_cons, isAscii_append, isAscii_newLine, hitem,
      hitems]
    simp

theorem isAscii_fieldChars (depth : Nat) (fields : List (String × Json)) :
    IsAscii (fieldChars depth fields) := by
  cases fields with
  | nil => simp [fieldChars, IsAscii]
  | cons field fields =>
    obtain ⟨name, doc⟩ := field
    have hdoc := isAscii_chars depth doc
    have hfields := isAscii_fieldChars depth fields
    simp only [fieldChars, List.cons_append, isAscii_cons, isAscii_append, isAscii_newLine,
      isAscii_textChars, hdoc, hfields]
    simp

end

end Ascii

end StyleTally.Json
