import StyleTally.Files.Tree
import StyleTally.Report.Outcome

/-!
# Report folders

The report files of a store are written into one folder, which is made where it is missing.
-/

namespace StyleTally

def Text.encode (s : String) : List UInt8 := s.toUTF8.toList

/-- The files after writing, and the problem that ended it early. -/
structure Written where
  files : FileTree
  problem : Option FileProblem

namespace FileTree

/-- Writes the files, which have a name and a text, into a folder that is there. -/
def writeAll (t : FileTree) (folder : Path) : List (String × String) → Written
  | [] => ⟨t, none⟩
  | (name, text) :: files =>
    let path := (folder.child name).text
    match t.write path (Text.encode text) with
    | .ok t => t.writeAll folder files
    | .error fault => ⟨t, some ⟨fault, path⟩⟩

def writeReport (t : FileTree) (folder : Path) (files : List (String × String)) : Written :=
  match t.ensureFolders folder with
  | .ok t => t.writeAll folder files
  | .error problem => ⟨t, some problem⟩

end FileTree

end StyleTally
