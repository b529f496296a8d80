import StyleTally.Text.LowerCase
import StyleTally.Text.Trim

/-!
# Paths

A path is a list of names behind a root, which a relative path has not. Empty names and single dots
in a written path mean nothing; two dots stay, as a link may stand before them.
-/

namespace StyleTally

structure Path where
  root : String
  names : List String
  deriving DecidableEq, Repr

namespace Path

/-- Exactly two slashes in front are a root of their own. -/
def rootOf : List Char → String
  | '/' :: '/' :: '/' :: _ => "/"
  | ['/', '/'] | '/' :: '/' :: _ => "//"
  | '/' :: _ => "/"
  | _ => ""

def ofText (s : String) : Path :=
  ⟨rootOf s.toList, (Text.splitAt '/' s).filter fun name => name ≠ "" && name ≠ "."⟩

def text (p : Path) : String :=
  if p.names.isEmpty && p.root.isEmpty then "." else p.root ++ String.intercalate "/" p.names

def child (p : Path) (name : String) : Path := { p with names := p.names ++ [name] }

def below (p : Path) (names : List String) : Path := { p with names := p.names ++ names }

def parent (p : Path) : Path := { p with names := p.names.dropLast }

/-- The path in which two dots take back the name in front of them, whatever it leads to. -/
def collapsed (p : Path) : Path :=
  let step (done : List String) (name : String) : List String :=
    if name = ".." && !done.all (· = "..") then done.tail else name :: done
  { p with names := (p.names.foldl step []).reverse }

def normal (s : String) : String := (ofText s).text

/-- The names on the way that a written path tells. A slash at its end adds an empty name, and a
dot there a dot: both ask for a folder. -/
def steps (s : String) : List String :=
  let ending :=
    match (Text.splitAt '/' s).getLast? with
    | some "" => [""]
    | some "." => ["."]
    | _ => []
  (ofText s).names ++ ending

/-- The part of a name from its last point on, unless the point is its first or last character. -/
def suffixChars (name : List Char) : List Char :=
  let afterPoint := (name.reverse.takeWhile (· != '.')).reverse
  let stem := name.length - afterPoint.length - 1
  if afterPoint.length < name.length && stem ≠ 0 && !afterPoint.isEmpty then '.' :: afterPoint
  else []

/-- The suffix of the last name, in lower case. -/
def suffix (p : Path) : String :=
  Text.lowerCase (String.ofList (suffixChars ((p.names.getLast?.getD "").toList)))

/-- Names in order: name by name, each by its characters. -/
def namesLe : List String → List String → Bool
  | [], _ => true
  | _ :: _, [] => false
  | a :: as, b :: bs => if a = b then namesLe as bs else a < b

def le (p q : Path) : Bool := if p.root = q.root then namesLe p.names q.names else p.root < q.root

end Path

end StyleTally
