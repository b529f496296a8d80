import StyleTally.Files.Tree

/-!
# Discovery

Which files a census scans. A file that is named is scanned itself, a folder stands for its files,
and a path that leads nowhere is reported. A file that is met again, by whatever path, is passed
over; a file that a folder brings in is passed over when it is too large.
-/

namespace StyleTally

/-- What a path comes to. -/
inductive Finding where
  | found (p : Path)
  | missing (p : Path)
  | oversized (p : Path) (size : Nat)
  deriving DecidableEq, Repr

namespace Finding

def warning? : Finding → Option String
  | found _ => none
  | missing p => some s!"Skipping {p.text}: no such file or directory"
  | oversized p size => some s!"Skipping {p.text}: {size} bytes exceeds size limit"

def found? : Finding → Option Path
  | found p => some p
  | _ => none

def missing? : Finding → Option Path
  | missing p => some p
  | _ => none

def oversized? : Finding → Option Path
  | oversized p _ => some p
  | _ => none

end Finding

/-- Which entries of folders take part. -/
structure Filter where
  /-- The suffixes of the entries; without any, all entries take part. -/
  extensions : List String
  isRecursive : Bool
  /-- The greatest size of an entry. -/
  limit : Option Int
  deriving DecidableEq, Repr

namespace Filter

def accepts (f : Filter) (p : Path) : Bool :=
  f.extensions.isEmpty || (f.extensions.map Text.lowerCase).contains p.suffix

def exceeds (f : Filter) (size : Nat) : Bool :=
  match f.limit with
  | some limit => limit < size
  | none => false

end Filter

/-- A path to look at: one that leads nowhere, or a file with its place without links. -/
inductive Candidate where
  | nowhere (p : Path)
  | file (p : Path) (place : List String) (size : Nat) (isNamed : Bool)
  deriving DecidableEq, Repr

namespace FileTree

def candidate? (t : FileTree) (isNamed : Bool) (p : Path) : Option Candidate :=
  match t.find p.text with
  | .ok (place, .file content) => some (.file p place content.length isNamed)
  | _ => none

def candidates (t : FileTree) (f : Filter) (argument : String) : List Candidate :=
  let p := Path.ofText argument
  match t.candidate? true p with
  | some c => [c]
  | none =>
    if t.isFolder p.text then
      ((t.list f.isRecursive p).filter f.accepts).filterMap (t.candidate? false)
    else [.nowhere p]

end FileTree

namespace Discovery

/-- Goes through the candidates; `seen` holds the places of files that have come before. -/
def sift (f : Filter) (seen : List (List String)) : List Candidate → List Finding
  | [] => []
  | .nowhere p :: cs => .missing p :: sift f seen cs
  | .file p place size isNamed :: cs =>
    if seen.contains place then sift f seen cs
    else
      let finding : Finding := if !isNamed && f.exceeds size then .oversized p size else .found p
      finding :: sift f (place :: seen) cs

end Discovery

/-- The first path, among the arguments and the entries of their folders, that cannot even be
looked for. -/
def FileTree.unreachable? (t : FileTree) (f : Filter) (arguments : List String) :
    Option FileProblem :=
  let paths := arguments.flatMap fun argument =>
    let p := Path.ofText argument
    p :: t.list f.isRecursive p
  paths.findSome? fun p =>
    match t.find p.text with
    | .error .nameTooLong => some ⟨.nameTooLong, p.text⟩
    | _ => none

/-- What the arguments of a census come to, in their order. -/
def discover (t : FileTree) (f : Filter) (arguments : List String) : List Finding :=
  Discovery.sift f [] (arguments.flatMap (t.candidates f))

/-- What the arguments come to, unless one of the paths cannot even be looked for. -/
def FileTree.survey (t : FileTree) (f : Filter) (arguments : List String) :
    Except FileProblem (List Finding) :=
  match t.unreachable? f arguments with
  | some problem => .error problem
  | none => .ok (discover t f arguments)

end StyleTally
