import StyleTally.Report.Json

/-!
# Report formats

The text of one section's ranked keys: as a JSON list of pairs, as comma-separated records under a
header, or as one line for each key with its count and a tab in front.
-/

namespace StyleTally

/-- Keys with their counts, the most frequent first. -/
abbrev Ranking := List (String × Int)

/-- What the CSV library puts a field in quotes for, beside commas and quotes. Its releases differ:
some quote for the characters that end a record, some for every character that ends a line. -/
inductive Quoting where
  | recordEnd
  | lineEnd
  deriving DecidableEq, Repr

inductive Format where
  | csv
  | json
  | plain
  deriving DecidableEq, Repr

namespace Format

def all : List Format := [csv, json, plain]

/-- The name of a format, which its files have as their extension. -/
def name : Format → String
  | csv => "csv"
  | json => "json"
  | plain => "txt"

def ofName? (name : String) : Option Format := all.find? fun f => f.name == name

def unknownMessage (name : String) : String :=
  "Unknown formatter: " ++ Text.quoted name ++ ". Choose from: " ++
    String.intercalate ", " (all.map Format.name)

end Format

namespace Ranking

def json (r : Ranking) : Json := .list (r.map fun (key, n) => .list [.text key, .integer n])

/-- Characters that force a field into quotes. -/
def needsQuotes (quoting : Quoting) (c : Char) : Bool :=
  c == ',' || c == '"' || c == '\n' || (quoting == .lineEnd && c == '\r')

/-- A field of a record; within quotes, a quote is written twice. -/
def field (quoting : Quoting) (cs : List Char) : List Char :=
  if cs.any (needsQuotes quoting) then
    '"' :: cs.flatMap (fun c => if c == '"' then ['"', '"'] else [c]) ++ ['"']
  else cs

def record (quoting : Quoting) (key value : List Char) : List Char :=
  field quoting key ++ ',' :: field quoting value ++ ['\n']

def csvChars (quoting : Quoting) (r : Ranking) : List Char :=
  record quoting "key".toList "count".toList ++
    r.flatMap fun (key, n) => record quoting key.toList (Text.decimal n).toList

def plainChars (r : Ranking) : List Char :=
  r.flatMap fun (key, n) => (Text.decimal n).toList ++ '\t' :: key.toList ++ ['\n']

end Ranking

/-- The text of a ranking. Where nothing is said, the CSV library quotes for the end of a record. -/
def Format.render (f : Format) (r : Ranking) (quoting : Quoting := .recordEnd) : String :=
  match f with
  | json => r.json.render ++ "\n"
  | csv => String.ofList (r.csvChars quoting)
  | plain => String.ofList r.plainChars

end StyleTally
