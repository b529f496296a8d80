import StyleTally.Files.Tree
import StyleTally.Problem
import StyleTally.Settings.Basic
import StyleTally.Settings.Toml.Document

/-!
# Loading settings

Settings come from files, from the environment and from overrides. What comes later in this order
wins: the file in the home folder, the file in the working folder, the file that is named, the
environment, the overrides.
-/

namespace StyleTally

/-- Where a program runs: the files below the working folder, the home folder, and the environment
variables. The two folders have a name for messages. -/
structure Surroundings where
  files : FileTree
  folderName : String
  /-- The tree that the home folder lies in. -/
  homeFiles : FileTree
  /-- The path of the home folder in its tree. -/
  home : String
  homeName : String
  environment : List (String × String)

/-- Why settings cannot be loaded. -/
inductive LoadFault where
  | problem (p : Problem)
  /-- A value of a kind that is not provided for. -/
  | unforeseen (fault : SettingFault)
  /-- A file that cannot even be looked for. -/
  | file (p : FileProblem)
  deriving Repr

namespace Settings

/-- The name of the file in the working folder. -/
def fileName : String := "less-census.toml"

/-- The name of the file in the home folder. -/
def homeFileName : String := "." ++ fileName

/-- A file of settings: its path, the path in messages, and what messages call it. -/
structure Source where
  path : String
  shown : String
  title : String

def Source.invalid (src : Source) (detail : String) : Problem :=
  .configuration ("Invalid " ++ src.title ++ " '" ++ src.shown ++ "'" ++ detail) []

/-- The entries of a document; those of the table `census` come last and win. -/
def mergeCensus (t : DataTable) : DataTable :=
  match t.get? "census" with
  | some (.table fields) => (t.erase "census").update fields
  | _ => t.erase "census"

def readFile (files : FileTree) (src : Source) : Except Problem DataTable :=
  match files.read src.path with
  | .error fault => .error (src.invalid (": " ++ fault.describe src.shown))
  | .ok bytes =>
    match Text.decodeUtf8 bytes with
    | .error _ => .error (src.invalid "")
    | .ok cs =>
      match Toml.read cs with
      | none => .error (src.invalid "")
      | some t => .ok (mergeCensus t)

/-- The settings in a file; none where there is no file. -/
def readAt (files : FileTree) (src : Source) : Except LoadFault (Option DataTable) :=
  match files.find src.path with
  | .ok _ => ((readFile files src).mapError .problem).map some
  | .error .nameTooLong => .error (.file ⟨.nameTooLong, src.shown⟩)
  | .error _ => .ok none

def readIfThere (files : FileTree) (src : Source) : Except LoadFault DataTable :=
  (readAt files src).map (·.getD [])

def readNamed (files : FileTree) (src : Source) : Except LoadFault DataTable := do
  match ← readAt files src with
  | some t => return t
  | none => throw (.problem (.configuration ("Config file not found: " ++ src.shown) []))

/-- The settings that environment variables give. -/
def readEnvironment (environment : List (String × String)) : List Setting → Except Problem DataTable
  | [] => .ok []
  | s :: rest =>
    match environment.lookup s.variableName with
    | none => readEnvironment environment rest
    | some text =>
      match s.kind.read text with
      | .error fault => .error (.invalidSetting s.variableName text (fault.message text))
      | .ok d => (readEnvironment environment rest).map ((s.name, d) :: ·)

/-- A flag that holds sets the verbosity; the flag itself is no setting. -/
def applyFlag (flag : String) (t : DataTable) : DataTable :=
  match t.get? flag with
  | some d => (if d.holds then t.put "verbosity" (.text flag) else t).erase flag
  | none => t

/-- The overrides that take part: `quiet` wins over `verbose`, and nothing overrides nothing. -/
def effective (overrides : DataTable) : DataTable :=
  let t := applyFlag "quiet" (applyFlag "verbose" overrides)
  t.filter fun (_, d) => match d with
    | .nothing => false
    | _ => true

def ofMerged (t : DataTable) : Except LoadFault Settings :=
  match ofTable t with
  | .ok s => .ok s
  | .error fault =>
    match fault with
    | .notText _ => .error (.unforeseen fault)
    | fault => .error (.problem (.configuration ("Invalid configuration: " ++ fault.message) []))

/-- The file in the home folder. -/
def homeSource (here : Surroundings) : Source :=
  ⟨here.home ++ "/" ++ homeFileName, here.homeName ++ "/" ++ homeFileName, "global config"⟩

/-- The file in the working folder. -/
def projectSource (here : Surroundings) : Source :=
  ⟨fileName, here.folderName ++ "/" ++ fileName, "project config"⟩

/-- The file that is named. -/
def namedSource (path : String) : Source := ⟨Path.normal path, Path.normal path, "config file"⟩

def load (here : Surroundings) (named : Option String) (overrides : DataTable) :
    Except LoadFault Settings := do
  let home ← readIfThere here.homeFiles (homeSource here)
  let project ← readIfThere here.files (projectSource here)
  let explicit ← match named with
    | some path => readNamed here.files (namedSource path)
    | none => .ok []
  let fromEnvironment ← (readEnvironment here.environment Setting.all).mapError .problem
  let merged :=
    (((DataTable.update [] home).update project).update explicit).update fromEnvironment
  ofMerged (merged.update (effective overrides))

end Settings

end StyleTally
