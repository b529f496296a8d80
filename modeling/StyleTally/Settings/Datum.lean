import StyleTally.Decimal.Notation
import StyleTally.Text.Quoted

/-!
# Data

Values of any kind that a setting may be given, and tables of them. A table keeps its keys in the
order in which they first came.
-/

namespace StyleTally

/-- The kinds of points in time. -/
inductive Moment where
  | date
  | time
  | dateAndTime
  deriving DecidableEq, Repr

inductive Datum where
  | nothing
  | flag (b : Bool)
  | integer (n : Int)
  | real (x : Binary64)
  | text (s : String)
  | moment (kind : Moment) (written : String)
  | list (items : List Datum)
  | table (fields : List (String × Datum))
  deriving Repr, Inhabited

/-- The name of a kind without the group that it belongs to. -/
def Moment.shortName : Moment → String
  | date => "date"
  | time => "time"
  | dateAndTime => "datetime"

def Moment.name (kind : Moment) : String := "datetime." ++ kind.shortName

namespace Datum

/-- The kind of a datum as messages name it. -/
def kindName : Datum → String
  | nothing => "NoneType"
  | flag _ => "bool"
  | integer _ => "int"
  | real _ => "float"
  | text _ => "str"
  | moment kind _ => kind.name
  | list _ => "list"
  | table _ => "dict"

def shortKindName : Datum → String
  | moment kind _ => kind.shortName
  | d => d.kindName

/-- Nothing, zero and whatever is empty does not hold. -/
def holds : Datum → Bool
  | nothing => false
  | flag b => b
  | integer n => n != 0
  | real (.finite _ m _) => m != 0
  | real _ => true
  | text s => !s.isEmpty
  | moment _ _ => true
  | list items => !items.isEmpty
  | table fields => !fields.isEmpty

mutual

/-- A datum as messages show it. -/
def shown : Datum → String
  | nothing => "None"
  | flag b => if b then "True" else "False"
  | integer n => Text.decimal n
  | real x => Decimal.general x
  | text s => Text.quoted s
  | moment _ written => written
  | list items => "[" ++ String.intercalate ", " (shownItems items) ++ "]"
  | table fields => "\x7b" ++ String.intercalate ", " (shownFields fields) ++ "\x7d"

def shownItems : List Datum → List String
  | [] => []
  | d :: ds => shown d :: shownItems ds

def shownFields : List (String × Datum) → List String
  | [] => []
  | (name, d) :: fields => (Text.quoted name ++ ": " ++ shown d) :: shownFields fields

end

/-- The number that a datum is. -/
def real? : Datum → Option Binary64
  | integer n => some (.ofInt n)
  | flag b => some (.ofNat (if b then 1 else 0))
  | real x => some x
  | _ => none

def ofText? : Option String → Datum
  | some s => text s
  | none => nothing

def ofInt? : Option Int → Datum
  | some n => integer n
  | none => nothing

end Datum

abbrev DataTable := List (String × Datum)

namespace DataTable

/-- A key that is there keeps its place. -/
def put (t : DataTable) (name : String) (d : Datum) : DataTable :=
  match t with
  | [] => [(name, d)]
  | (k, old) :: rest => if k = name then (k, d) :: rest else (k, old) :: put rest name d

/-- Puts every entry of `u`. -/
def update (t u : DataTable) : DataTable := u.foldl (fun t (name, d) => t.put name d) t

def erase (t : DataTable) (name : String) : DataTable := t.filter fun (k, _) => k != name

def get? (t : DataTable) (name : String) : Option Datum := t.lookup name

end DataTable

end StyleTally
