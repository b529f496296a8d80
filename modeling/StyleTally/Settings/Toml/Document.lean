import StyleTally.Settings.Toml.Branch
import StyleTally.Settings.Toml.Scalar

/-!
# TOML documents

A document is read statement by statement: pairs of a key and a value, headers that name a table,
and headers that start the next table of a list.
-/

namespace StyleTally.Toml

/-- The characters after a comment, if one starts here. -/
def skipComment (cs : List Char) : Option (List Char) :=
  match cs with
  | '#' :: rest =>
    if (rest.takeWhile (· != '\n')).any isControl then none
    else some (rest.dropWhile (· != '\n'))
  | _ => some cs

/-- Skips blank space, line ends and comments; every round but the last skips a character. -/
def skipFiller : Nat → List Char → Option (List Char)
  | 0, cs => some cs
  | rounds + 1, cs => do
    let cs := cs.dropWhile fun c => isGap c || c == '\n'
    match cs with
    | '#' :: _ => skipFiller rounds (← skipComment cs)
    | _ => return cs

def filler (cs : List Char) : Option (List Char) := skipFiller (cs.length + 1) cs

def isBareKey (c : Char) : Bool := c.isAlphanum || c == '-' || c == '_'

def keyPart : Reader String := fun cs =>
  match cs with
  | '"' :: rest => (basicText false .kept rest).map fun (s, rest) => (String.ofList s, rest)
  | '\'' :: rest => literalText rest
  | _ =>
    let bare := cs.takeWhile isBareKey
    if bare.isEmpty then none else some (String.ofList bare, cs.dropWhile isBareKey)

/-- A key and its parts between points. There are fewer parts than characters. -/
def keyParts : Nat → Reader (List String)
  | 0, _ => none
  | rounds + 1, cs => do
    let (part, cs) ← keyPart cs
    match skipGap cs with
    | '.' :: cs =>
      let (parts, cs) ← keyParts rounds (skipGap cs)
      return (part :: parts, cs)
    | cs => return ([part], cs)

def key : Reader (List String) := fun cs => keyParts cs.length cs

mutual

/-- A value; `depth` bounds the steps, of which two characters take no more than four. -/
def value : Nat → Reader Datum
  | 0, _ => none
  | depth + 1, cs =>
    match cs with
    | '[' :: cs => do
      match ← filler cs with
      | ']' :: cs => return (.list [], cs)
      | cs =>
        let (items, cs) ← items depth cs
        return (.list items, cs)
    | '\x7b' :: cs =>
      match skipGap cs with
      | '\x7d' :: cs => some (.table [], cs)
      | cs => do
        let (fields, cs) ← pairs depth [] cs
        return (.table (fieldData fields), cs)
    | cs => scalar cs

def items : Nat → Reader (List Datum)
  | 0, _ => none
  | depth + 1, cs => do
    let (item, cs) ← value depth cs
    match ← filler cs with
    | ']' :: cs => return ([item], cs)
    | ',' :: cs =>
      match ← filler cs with
      | ']' :: cs => return ([item], cs)
      | cs =>
        let (more, cs) ← items depth cs
        return (item :: more, cs)
    | _ => none

/-- The pairs of a table in braces, put behind the fields at hand. -/
def pairs : Nat → Fields → Reader Fields
  | 0, _, _ => none
  | depth + 1, fields, cs => do
    let (name, cs) ← key cs
    match cs with
    | '=' :: cs =>
      let (d, cs) ← value depth (skipGap cs)
      let fields ← addPair 0 [] name d fields
      match skipGap cs with
      | '\x7d' :: cs => return (fields, cs)
      | ',' :: cs => pairs depth fields (skipGap cs)
      | _ => none
    | _ => none

end

/-- A document at one of its statements. -/
structure State where
  fields : Fields
  /-- The number of headers so far, and the path of the last one. -/
  headers : Nat
  path : List String

def statement (st : State) (cs : List Char) : Option (State × List Char) :=
  match cs with
  | '[' :: '[' :: cs => do
    let (path, cs) ← key (skipGap cs)
    match cs with
    | ']' :: ']' :: cs => return (⟨← addItem path st.fields, st.headers + 1, path⟩, cs)
    | _ => none
  | '[' :: cs => do
    let (path, cs) ← key (skipGap cs)
    match cs with
    | ']' :: cs =>
      return (⟨← addTable (st.headers + 1) path st.fields, st.headers + 1, path⟩, cs)
    | _ => none
  | cs => do
    let (name, cs) ← key cs
    match cs with
    | '=' :: cs =>
      let (d, cs) ← value (2 * cs.length + 2) (skipGap cs)
      return ({ st with fields := ← addPair st.headers st.path name d st.fields }, cs)
    | _ => none

/-- Reads the statements; every one but the last ends with its line. -/
def statements : Nat → State → List Char → Option Fields
  | 0, _, _ => none
  | rounds + 1, st, cs => do
    let cs := skipGap cs
    let (st, cs) ← match cs with
      | [] | '\n' :: _ | '#' :: _ => some (st, cs)
      | _ => statement st cs
    match ← skipComment (skipGap cs) with
    | [] => return st.fields
    | '\n' :: cs => statements rounds st cs
    | _ => none

/-- A carriage return before a line feed is no part of a document. -/
def joinLineEnds : List Char → List Char
  | '\r' :: '\n' :: cs => '\n' :: joinLineEnds cs
  | c :: cs => c :: joinLineEnds cs
  | [] => []

def read (cs : List Char) : Option DataTable :=
  let cs := joinLineEnds cs
  (statements (cs.length + 1) ⟨[], 0, []⟩ cs).map fieldData

end StyleTally.Toml
