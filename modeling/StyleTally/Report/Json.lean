import StyleTally.Decimal.Notation
import StyleTally.Text.Quoted

/-!
# JSON documents

A document is written in ASCII, every item of a list and every field of an object on a line of its
own, two blanks further in than what holds it. Lists and objects without content are written in
place.
-/

namespace StyleTally

inductive Json where
  | integer (n : Int)
  | real (x : Binary64)
  | text (s : String)
  | list (items : List Json)
  | object (fields : List (String × Json))
  deriving Repr

namespace Json

/-- A unit of UTF-16, escaped. -/
def escapedUnit (n : Nat) : List Char := '\\' :: 'u' :: Text.hexPadded 4 n

def escapedChar (c : Char) : List Char :=
  if c == '"' then ['\\', '"']
  else if c == '\\' then ['\\', '\\']
  else if c == '\n' then ['\\', 'n']
  else if c == '\r' then ['\\', 'r']
  else if c == '\t' then ['\\', 't']
  else if c == '\x08' then ['\\', 'b']
  else if c == '\x0c' then ['\\', 'f']
  else if 0x20 ≤ c.toNat && c.toNat < 0x7F then [c]
  else if c.toNat < 0x10000 then escapedUnit c.toNat
  else
    let n := c.toNat - 0x10000
    escapedUnit (0xD800 + n / 0x400) ++ escapedUnit (0xDC00 + n % 0x400)

def textChars (s : String) : List Char :=
  '"' :: s.toList.flatMap escapedChar ++ ['"']

def realChars (x : Binary64) : List Char :=
  match x with
  | .nan => "NaN".toList
  | .infinite negative => (if negative then ['-'] else []) ++ "Infinity".toList
  | x => (Decimal.general x).toList

def newLine (depth : Nat) : List Char := '\n' :: List.replicate (2 * depth) ' '

mutual

def chars (depth : Nat) : Json → List Char
  | integer n => (Text.decimal n).toList
  | real x => realChars x
  | text s => textChars s
  | list [] => ['[', ']']
  | list (item :: items) =>
    '[' :: newLine (depth + 1) ++ chars (depth + 1) item ++ itemChars (depth + 1) items ++
      newLine depth ++ [']']
  | object [] => ['\x7b', '\x7d']
  | object ((name, value) :: fields) =>
    '\x7b' :: newLine (depth + 1) ++ textChars name ++ ':' :: ' ' :: chars (depth + 1) value ++
      fieldChars (depth + 1) fields ++ newLine depth ++ ['\x7d']

/-- The items after the first one. -/
def itemChars (depth : Nat) : List Json → List Char
  | [] => []
  | item :: items => ',' :: newLine depth ++ chars depth item ++ itemChars depth items

/-- The fields after the first one. -/
def fieldChars (depth : Nat) : List (String × Json) → List Char
  | [] => []
  | (name, value) :: fields =>
    ',' :: newLine depth ++ textChars name ++ ':' :: ' ' :: chars depth value ++
      fieldChars depth fields

end

def render (doc : Json) : String := String.ofList (doc.chars 0)

end Json

end StyleTally
