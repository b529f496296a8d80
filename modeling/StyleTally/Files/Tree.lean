import StyleTally.Files.Path
import StyleTally.Text.Encoding
import StyleTally.Text.Quoted

/-!
# File trees

A file tree holds files, folders and links below one folder, the working folder. Links are followed
wherever they stand in a path, up to a number of links. The folders above the working folder are
there, and the root, but of what else lies in them only what has been put there. What the working
folder and the folders above it are called is not known: no path leads from above into the working
folder again, neither a path from the root nor one by `..` and the name of the folder.
-/

namespace StyleTally

inductive FileEntry where
  | file (content : List UInt8)
  | folder
  | link (target : String)
  deriving DecidableEq, Repr

inductive FileFault where
  | missing
  | alreadyThere
  | notFolder
  | isFolder
  | nameTooLong
  | tooManyLinks
  /-- A path with a character that no path may hold. -/
  | badCharacter
  deriving DecidableEq, Repr

namespace FileFault

def reason : FileFault → String
  | missing => "No such file or directory"
  | alreadyThere => "File exists"
  | notFolder => "Not a directory"
  | isFolder => "Is a directory"
  | nameTooLong => "File name too long"
  | tooManyLinks => "Too many levels of symbolic links"
  | badCharacter => "embedded null byte"

/-- The number of a fault, for those that have one. -/
def number? : FileFault → Option Nat
  | missing => some 2
  | alreadyThere => some 17
  | notFolder => some 20
  | isFolder => some 21
  | nameTooLong => some 36
  | tooManyLinks => some 40
  | badCharacter => none

def describe (fault : FileFault) (path : String) : String :=
  match fault.number? with
  | some n => s!"[Errno {n}] " ++ fault.reason ++ ": " ++ Text.quoted path
  | none => fault.reason

end FileFault

/-- A fault at a path. -/
structure FileProblem where
  fault : FileFault
  path : String
  deriving DecidableEq, Repr

def FileProblem.message (p : FileProblem) : String := p.fault.describe p.path

/-- The entries of the tree by their place, seen from the working folder. -/
structure FileTree where
  entries : List (List String × FileEntry)
  deriving Repr

/-- Where a path leads: to an entry, or to a place in a folder that has no entry yet. -/
inductive Place where
  | taken (names : List String)
  | free (names : List String)
  deriving DecidableEq, Repr

namespace FileTree

def empty : FileTree := ⟨[]⟩

/-- The name of the root, which no entry has. -/
def rootName : String := "/"

/-- The working folder, the folders above it and the root. -/
def isOnTop (names : List String) : Bool := names.all fun name => name = ".." || name = rootName

/-- The folder that a path starts from. -/
def startOf (p : Path) : List String := if p.root.isEmpty then [] else [rootName]

/-- The folder that a folder lies in; the root lies in itself. -/
def up (names : List String) : List String :=
  if names = [rootName] then names else if isOnTop names then ".." :: names else names.dropLast

def entry? (t : FileTree) (names : List String) : Option FileEntry :=
  if isOnTop names then some .folder else t.entries.lookup names

def put (t : FileTree) (names : List String) (e : FileEntry) : FileTree :=
  if (t.entry? names).isSome then
    ⟨t.entries.map fun (place, old) => if place = names then (place, e) else (place, old)⟩
  else ⟨t.entries ++ [(names, e)]⟩

/-- Adds an entry and the folders that it lies in. -/
def add (t : FileTree) (names : List String) (e : FileEntry) : FileTree :=
  let parents := (List.range names.length).map names.take
  let t := parents.foldl (fun t names =>
    if (t.entry? names).isSome then t else t.put names .folder) t
  t.put names e

/-- The links that are followed on the way to one entry. -/
def maxLinks : Nat := 40

/-- The greatest number of bytes that a name has. -/
def maxNameSize : Nat := 255

/-- The number of bytes that no path reaches. -/
def pathSizeBound : Nat := 4096

/-- Follows the names from a folder. Where an entry is to be made, a slash behind its name is
refused, as it asks for a folder. -/
def walk (t : FileTree) (making : Bool) (links : Nat) (here names : List String) :
    Except FileFault Place :=
  match names with
  | [] => .ok (.taken here)
  | name :: rest =>
    if name = "" || name = "." then walk t making links here rest
    else if making && rest = [""] then .error .isFolder
    else if name = ".." then walk t making links (up here) rest
    else if maxNameSize < name.utf8ByteSize then .error .nameTooLong
    else
      match t.entry? (here ++ [name]) with
      | none => if rest.isEmpty then .ok (.free (here ++ [name])) else .error .missing
      | some .folder => walk t making links (here ++ [name]) rest
      | some (.file _) =>
        if rest.isEmpty then .ok (.taken (here ++ [name])) else .error .notFolder
      | some (.link target) =>
        match links with
        | 0 => .error .tooManyLinks
        | links + 1 =>
          let start := if (Path.ofText target).root.isEmpty then here else [rootName]
          walk t making links start (Path.steps target ++ rest)
termination_by (links, names.length)

def checkText (s : String) : Except FileFault Unit :=
  if s.toList.contains '\x00' then .error .badCharacter
  else if pathSizeBound ≤ s.utf8ByteSize then .error .nameTooLong
  else .ok ()

def place (t : FileTree) (making : Bool) (s : String) : Except FileFault Place := do
  checkText s
  if s.isEmpty then throw .missing
  t.walk making maxLinks (startOf (.ofText s)) (Path.steps s)

/-- The entry at a path and its place without links. -/
def find (t : FileTree) (s : String) : Except FileFault (List String × FileEntry) := do
  match ← t.place false s with
  | .taken names =>
    match t.entry? names with
    | some e => return (names, e)
    | none => throw .missing
  | .free _ => throw .missing

def isFile (t : FileTree) (s : String) : Bool :=
  match t.find s with
  | .ok (_, .file _) => true
  | _ => false

def isFolder (t : FileTree) (s : String) : Bool :=
  match t.find s with
  | .ok (_, .folder) => true
  | _ => false

def contains (t : FileTree) (s : String) : Bool := t.isFile s || t.isFolder s

def read (t : FileTree) (s : String) : Except FileFault (List UInt8) := do
  match ← t.find s with
  | (_, .file content) => return content
  | _ => throw .isFolder

def write (t : FileTree) (s : String) (content : List UInt8) : Except FileFault FileTree := do
  match ← t.place true s with
  | .free names => return t.put names (.file content)
  | .taken names =>
    match t.entry? names with
    | some (.file _) => return t.put names (.file content)
    | _ => throw .isFolder

/-- Puts the content behind what the file holds. -/
def append (t : FileTree) (s : String) (content : List UInt8) : Except FileFault FileTree :=
  let before := match t.read s with
    | .ok before => before
    | .error _ => []
  t.write s (before ++ content)

def makeFolder (t : FileTree) (p : Path) : Except FileFault FileTree := do
  checkText p.text
  match p.names.getLast? with
  | none => throw .alreadyThere
  | some ".." =>
    let _ ← t.walk false maxLinks (startOf p) p.names
    throw .alreadyThere
  | some name =>
    match ← t.walk false maxLinks (startOf p) p.names.dropLast with
    | .free _ => throw .missing
    | .taken here =>
      match t.entry? here with
      | some (.file _) => throw .notFolder
      | _ =>
        if maxNameSize < name.utf8ByteSize then throw .nameTooLong
        else if (t.entry? (here ++ [name])).isSome then throw .alreadyThere
        else return t.put (here ++ [name]) .folder

/-- Makes a folder where there is none yet. -/
def ensureFolder (t : FileTree) (p : Path) : Except FileProblem FileTree :=
  match t.makeFolder p with
  | .ok t => .ok t
  | .error fault => if t.isFolder p.text then .ok t else .error ⟨fault, p.text⟩

/-- Makes a folder and the folders that it lies in, where there are none yet. -/
def ensureFolders (t : FileTree) (p : Path) : Except FileProblem FileTree :=
  match t.makeFolder p with
  | .error .missing =>
    if _h : p.names = [] then .error ⟨.missing, p.text⟩
    else do
      let t ← ensureFolders t p.parent
      t.ensureFolder p
  | _ => t.ensureFolder p
termination_by p.names.length
decreasing_by
  have := List.length_pos_iff.mpr _h
  simp only [Path.parent, List.length_dropLast]
  omega

/-- The names below a place, relative to it, of its entries at any depth. -/
def below (t : FileTree) (here : List String) : List (List String) :=
  t.entries.filterMap fun (names, _) =>
    if names.take here.length = here && here.length < names.length then
      some (names.drop here.length)
    else none

/-- The entries of a folder as paths, of all folders below it too when `deep` holds. -/
def list (t : FileTree) (deep : Bool) (p : Path) : List Path :=
  match t.find p.text with
  | .ok (here, .folder) =>
    let found := t.below here
    let found := if deep then found else found.filter fun names => names.length = 1
    (found.map p.below).mergeSort Path.le
  | _ => []

end FileTree

end StyleTally
