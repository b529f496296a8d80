import StyleTally.Settings.Datum

/-!
# Growing a TOML document

The tables of a document grow statement by statement. Statements are numbered by the header that
they stand under: a table that a header or a dotted key has named takes further entries under that
header only, and a value takes none.
-/

namespace StyleTally.Toml

inductive Branch where
  | leaf (d : Datum)
  /-- A table and the number of the header under which it was named, if it was. -/
  | table (named : Option Nat) (fields : List (String × Branch))
  /-- A list of tables, of which the last still grows. -/
  | tables (earlier : List (List (String × Branch))) (last : List (String × Branch))

abbrev Fields := List (String × Branch)

def isClosed (named : Option Nat) (header : Nat) : Bool :=
  match named with
  | some n => n < header
  | none => false

/-- Changes the field with the name; one that is missing comes last. -/
def alter (f : Option Branch → Option Branch) (name : String) : Fields → Option Fields
  | [] => (f none).map fun b => [(name, b)]
  | (k, b) :: rest =>
    if k = name then (f (some b)).map fun b => (k, b) :: rest
    else (alter f name rest).map ((k, b) :: ·)

/-- Changes the fields of the table at the path of a header. -/
def within (change : Fields → Option Fields) : List String → Fields → Option Fields
  | [], fields => change fields
  | name :: names, fields =>
    alter (fun
      | none => (within change names []).map (.table none)
      | some (.table named fs) => (within change names fs).map (.table named)
      | some (.tables earlier last) => (within change names last).map (.tables earlier)
      | some (.leaf _) => none) name fields

/-- Changes the fields of the table at the front part of a dotted key. -/
def dotted (header : Nat) (change : Fields → Option Fields) :
    List String → Fields → Option Fields
  | [], fields => change fields
  | name :: names, fields =>
    alter (fun
      | none => (dotted header change names []).map (.table (some header))
      | some (.table named fs) =>
        if isClosed named header then none
        else (dotted header change names fs).map (.table (some header))
      | _ => none) name fields

def setLast (path : List String) (f : Option Branch → Option Branch)
    (go : (Fields → Option Fields) → List String → Fields → Option Fields) (fields : Fields) :
    Option Fields :=
  match path.getLast? with
  | some name => go (alter f name) path.dropLast fields
  | none => none

def addPair (header : Nat) (path key : List String) (d : Datum) (fields : Fields) :
    Option Fields :=
  let fresh : Option Branch → Option Branch
    | none => some (.leaf d)
    | some _ => none
  within (setLast key fresh (dotted header)) path fields

/-- Names a table by a header. -/
def addTable (header : Nat) (path : List String) (fields : Fields) : Option Fields :=
  setLast path (fun
    | none => some (.table (some header) [])
    | some (.table named fs) =>
      if isClosed named header then none else some (.table (some header) fs)
    | _ => none) within fields

/-- Starts the next table of a list of tables. -/
def addItem (path : List String) (fields : Fields) : Option Fields :=
  setLast path (fun
    | none => some (.tables [] [])
    | some (.tables earlier last) => some (.tables (earlier ++ [last]) [])
    | _ => none) within fields

mutual

def Branch.datum : Branch → Datum
  | .leaf d => d
  | .table _ fields => .table (fieldData fields)
  | .tables earlier last => .list (itemData earlier ++ [.table (fieldData last)])

def fieldData : List (String × Branch) → DataTable
  | [] => []
  | (name, b) :: fields => (name, b.datum) :: fieldData fields

def itemData : List (List (String × Branch)) → List Datum
  | [] => []
  | fields :: rest => .table (fieldData fields) :: itemData rest

end

end StyleTally.Toml
