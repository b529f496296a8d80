import StyleTally.Proofs.Report.Numeral
import StyleTally.Report.Format

/-!
# Comma-separated records that are read back

A reader goes through the text once, character by character. Outside quotes a comma ends a field and
a line feed ends a record; a field that starts with a quote runs to the quote that closes it, and
two quotes within it stand for one. Behind every field the reader is where it started, and so what
it reads of a ranking is the header, and the keys with their counts in order.
-/

namespace StyleTally

namespace Csv

/-- Where in a field a reader stands. -/
inductive Mode where
  | atStart
  | bare
  | quoted
  /-- Behind a quote within quotes: it closes them, or it is the first of two. -/
  | afterQuote
  deriving DecidableEq, Repr

/-- A reader with the field at hand, the fields of the record before it, and the records before. -/
structure Reader where
  mode : Mode
  field : List Char
  fields : List String
  records : List (List String)
  deriving DecidableEq, Repr

namespace Reader

def fresh : Reader := ⟨.atStart, [], [], []⟩

def take (r : Reader) (mode : Mode) (c : Char) : Reader :=
  { r with mode, field := r.field ++ [c] }

def endField (r : Reader) : Reader :=
  ⟨.atStart, [], r.fields ++ [String.ofList r.field], r.records⟩

def endRecord (r : Reader) : Reader :=
  ⟨.atStart, [], [], r.records ++ [r.fields ++ [String.ofList r.field]]⟩

def stepOutside (r : Reader) (c : Char) : Reader :=
  if c = ',' then r.endField else if c = '\n' then r.endRecord else r.take .bare c

/-- Behind quotes that are closed, nothing but the end of the field may stand. -/
def step (r : Reader) (c : Char) : Option Reader :=
  match r.mode with
  | .atStart => some (if c = '"' then { r with mode := .quoted } else r.stepOutside c)
  | .bare => some (r.stepOutside c)
  | .quoted => some (if c = '"' then { r with mode := .afterQuote } else r.take .quoted c)
  | .afterQuote =>
    if c = '"' then some (r.take .quoted c)
    else if c = ',' ∨ c = '\n' then some (r.stepOutside c)
    else none

def run (r : Reader) (cs : List Char) : Option Reader := cs.foldlM step r

/-- The records at the end of the text. The last one may lack its line feed. -/
def close (r : Reader) : Option (List (List String)) :=
  match r.mode with
  | .quoted => none
  | .atStart => some (if r.fields.isEmpty then r.records else r.endRecord.records)
  | .bare | .afterQuote => some r.endRecord.records

@[simp] theorem run_nil (r : Reader) : r.run [] = some r := rfl

@[simp] theorem run_cons (r : Reader) (c : Char) (cs : List Char) :
    r.run (c :: cs) = (r.step c).bind fun r => r.run cs := rfl

theorem run_append (r : Reader) (cs ds : List Char) :
    r.run (cs ++ ds) = (r.run cs).bind fun r => r.run ds := by
  rw [run, List.foldlM_append]
  rfl

end Reader

def read (s : String) : Option (List (List String)) :=
  (Reader.fresh.run s.toList).bind Reader.close

variable {quoting : Quoting}

namespace Reader

/-- A character of a bare field. -/
theorem step_bare {r : Reader} (hmode : r.mode = .atStart ∨ r.mode = .bare) {c : Char}
    (hc : Ranking.needsQuotes quoting c = false) : r.step c = some (r.take .bare c) := by
  simp only [Ranking.needsQuotes, Bool.or_eq_false_iff, beq_eq_false_iff_ne] at hc
  obtain ⟨⟨⟨hcomma, hquote⟩, hline⟩, -⟩ := hc
  rcases hmode with hmode | hmode <;> simp [step, hmode, stepOutside, hcomma, hquote, hline]

/-- The sign behind a field ends it, whether the field is bare or its quotes are closed. -/
theorem step_end {r : Reader} (hmode : r.mode ≠ .quoted) {c : Char} (hc : c = ',' ∨ c = '\n') :
    r.step c = some (r.stepOutside c) := by
  have hquote : c ≠ '"' := by rcases hc with rfl | rfl <;> decide
  cases h : r.mode with
  | quoted => exact absurd h hmode
  | atStart | bare => simp [step, h, hquote]
  | afterQuote => simp [step, h, hquote, hc]

theorem stepOutside_mode (r : Reader) (mode : Mode) {c : Char} (hc : c = ',' ∨ c = '\n') :
    stepOutside { r with mode } c = r.stepOutside c := by
  rcases hc with rfl | rfl <;> rfl

theorem run_bare {r : Reader} (hmode : r.mode = .atStart ∨ r.mode = .bare) {cs : List Char}
    (hcs : ∀ c ∈ cs, Ranking.needsQuotes quoting c = false) {c : Char} (hc : c = ',' ∨ c = '\n') :
    r.run (cs ++ [c]) = some (stepOutside { r with field := r.field ++ cs } c) := by
  induction cs generalizing r with
  | nil =>
    have hquoted : r.mode ≠ .quoted := by rcases hmode with h | h <;> simp [h]
    simp [step_end hquoted hc]
  | cons d cs ih =>
    rw [List.cons_append, run_cons, step_bare hmode (hcs d (by simp)), Option.bind_some,
      ih (.inr rfl) fun c hc => hcs c (by simp [hc])]
    simp only [take, List.append_assoc, List.singleton_append]
    rw [stepOutside_mode { r with field := r.field ++ d :: cs } .bare hc]

/-- What stands within quotes is read with each of its quotes twice. -/
theorem run_quoted {r : Reader} (hmode : r.mode = .quoted) (cs : List Char) :
    r.run (cs.flatMap fun c => if c == '"' then ['"', '"'] else [c]) =
      some { r with field := r.field ++ cs } := by
  induction cs generalizing r with
  | nil => simp
  | cons c cs ih =>
    have hchar : r.run (if c == '"' then ['"', '"'] else [c]) = some (r.take .quoted c) := by
      by_cases hc : c = '"'
      · subst hc
        simp [step, hmode, take]
      · simp [step, hmode, hc]
    rw [List.flatMap_cons, run_append, hchar, Option.bind_some, ih rfl]
    simp [take, hmode]

/-- A field and the sign behind it. -/
theorem run_field {r : Reader} (hmode : r.mode = .atStart) (hfield : r.field = [])
    (cs : List Char) {c : Char} (hc : c = ',' ∨ c = '\n') :
    r.run (Ranking.field quoting cs ++ [c]) = some (stepOutside { r with field := cs } c) := by
  rw [Ranking.field]
  split
  · have hopen : r.step '"' = some { r with mode := .quoted } := by simp [step, hmode]
    have hclose : step { r with mode := .quoted, field := cs } '"' =
        some { r with mode := .afterQuote, field := cs } := rfl
    have hend := step_end (r := { r with mode := .afterQuote, field := cs }) (by simp) hc
    rw [List.cons_append, List.cons_append, run_cons, hopen, Option.bind_some, List.append_assoc,
      run_append, run_quoted rfl, Option.bind_some]
    simp only [hfield, List.nil_append, List.cons_append, run_cons, hclose, Option.bind_some, hend,
      run_nil]
    rw [stepOutside_mode { r with field := cs } .afterQuote hc]
  · rename_i hbare
    have hcs : ∀ d ∈ cs, Ranking.needsQuotes quoting d = false := by simpa using hbare
    rw [run_bare (.inl hmode) hcs hc, hfield, List.nil_append]

theorem run_record (records : List (List String)) (key value : String) :
    run ⟨.atStart, [], [], records⟩ (Ranking.record quoting key.toList value.toList) =
      some ⟨.atStart, [], [], records ++ [[key, value]]⟩ := by
  have hsplit : Ranking.record quoting key.toList value.toList =
      (Ranking.field quoting key.toList ++ [',']) ++
        (Ranking.field quoting value.toList ++ ['\n']) := by
    simp [Ranking.record]
  rw [hsplit, run_append, run_field rfl rfl _ (.inl rfl), Option.bind_some,
    run_field rfl rfl _ (.inr rfl)]
  simp [stepOutside, endField, endRecord]

theorem run_records (records : List (List String)) (r : Ranking) :
    run ⟨.atStart, [], [], records⟩
        (r.flatMap fun (key, n) => Ranking.record quoting key.toList (Text.decimal n).toList) =
      some ⟨.atStart, [], [], records ++ r.map fun (key, n) => [key, Text.decimal n]⟩ := by
  induction r generalizing records with
  | nil => simp
  | cons e r ih =>
    rw [List.flatMap_cons, run_append, run_record, Option.bind_some, ih]
    simp

end Reader

theorem read_render (r : Ranking) (quoting : Quoting) :
    read (Format.csv.render r quoting) =
      some (["key", "count"] :: r.map fun (key, n) => [key, Text.decimal n]) := by
  have htext : (Format.csv.render r quoting).toList = r.csvChars quoting := by
    simp [Format.render]
  rw [read, htext, Ranking.csvChars, Reader.fresh, Reader.run_append, Reader.run_record,
    Option.bind_some, Reader.run_records, Option.bind_some]
  simp [Reader.close]

end Csv

namespace Ranking

/-- The records of a ranking are read back in order whatever the library quotes for, and so no two
rankings have one text. -/
theorem csv_reads_back :
    (∀ (r : Ranking) (quoting : Quoting), Csv.read (Format.csv.render r quoting) =
      some (["key", "count"] :: r.map fun (key, n) => [key, Text.decimal n])) ∧
    ∀ (r r' : Ranking) (quoting quoting' : Quoting),
      Format.csv.render r quoting = Format.csv.render r' quoting' → r = r' := by
  refine ⟨Csv.read_render, fun r r' quoting quoting' h => ?_⟩
  have hrecords := congrArg Csv.read h
  rw [Csv.read_render, Csv.read_render] at hrecords
  have hrows := (List.cons.inj (Option.some.inj hrecords)).2
  have hrow (e e' : String × Int) (hpair : [e.1, Text.decimal e.2] = [e'.1, Text.decimal e'.2]) :
      e = e' := by
    obtain ⟨key, n⟩ := e
    obtain ⟨key', n'⟩ := e'
    simp only [List.cons.injEq, and_true] at hpair
    rw [hpair.1, Text.decimal_injective hpair.2]
  exact (List.map_inj_right hrow).mp hrows

/-- A carriage return alone is quoted for where every end of a line is. -/
example :
    Format.csv.render [("a\r\",b", -2), ("\r", 3)] .lineEnd =
      "key,count\n\"a\r\"\",b\",-2\n\"\r\",3\n" ∧
    Format.csv.render [("a\r\",b", -2), ("\r", 3)] .recordEnd =
      "key,count\n\"a\r\"\",b\",-2\n\r,3\n" := by
  constructor <;> rfl

example : Csv.read (Format.csv.render [("a\r\",b", -2), ("", 1), ("\r", 3)] .lineEnd) =
    some [["key", "count"], ["a\r\",b", "-2"], ["", "1"], ["\r", "3"]] := by
  rfl

end Ranking

end StyleTally
