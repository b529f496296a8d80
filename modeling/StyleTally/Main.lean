import StyleTally.Command.Run

/-!
# The program

Reads the files that a command needs, runs the command, prints, and writes the files that have
changed. Paths lead below the working folder.
-/

namespace StyleTally.Program

def location (names : List String) := (IO.FS.DirEntry.mk "." (String.intercalate "/" names)).path

/-- Where a link leads to, seen from the folder that it stands in. -/
def linkTarget (folder : Path) (names : List String) : IO String := do
  try
    let target := Path.ofText (← IO.FS.realPath (location names)).toString
    let back := List.replicate (names.length - 1) ".."
    if folder.names.isPrefixOf target.names then
      return String.intercalate "/" (back ++ target.names.drop folder.names.length)
    else return target.text
  catch _ => return "/"

/-- All entries below a folder, put in front of `found`; files are left empty. -/
partial def survey (folder : Path) (names : List String) (found : List (List String × FileEntry)) :
    IO (List (List String × FileEntry)) := do
  let entries ← try (location names).readDir catch _ => pure #[]
  let mut found := found
  for entry in entries do
    let names := names ++ [entry.fileName]
    match (← entry.path.symlinkMetadata).type with
    | .dir => found ← survey folder names ((names, .folder) :: found)
    | .file => found := (names, .file []) :: found
    | .symlink => found := (names, .link (← linkTarget folder names)) :: found
    | .other => pure ()
  return found

def readContent (names : List String) : IO (List UInt8) := do
  try return (← IO.FS.readBinFile (location names)).toList
  catch _ => return []

/-- Fills the files at and below the places that the paths lead to, and those that links lead to. -/
def load (files : FileTree) (paths : List String) : IO FileTree := do
  let placeOf (path : String) : Option (List String) :=
    match files.find path with
    | .ok (place, _) => some place
    | .error _ => none
  let linked := files.entries.filterMap fun (names, e) =>
    match e with
    | .link _ => placeOf (String.intercalate "/" names)
    | _ => none
  let places := paths.filterMap placeOf ++ linked
  let fill (entry : List String × FileEntry) : IO (List String × FileEntry) := do
    match entry with
    | (names, .file []) =>
      if places.any fun place => place.isPrefixOf names then
        return (names, .file (← readContent names))
      else return entry
    | entry => return entry
  return ⟨← files.entries.mapM fill⟩

def homeFiles (home : String) : IO FileTree := do
  try
    let content ← IO.FS.readBinFile (home ++ "/" ++ Settings.homeFileName)
    return FileTree.empty.put [Settings.homeFileName] (.file content.toList)
  catch _ => return .empty

def surroundings : IO Surroundings := do
  let folder := (← IO.currentDir).toString
  let home := (← IO.getEnv "HOME").getD "/"
  let environment ← Setting.all.filterMapM fun s => do
    return (← IO.getEnv s.variableName).map fun value => (s.variableName, value)
  return {
    files := ⟨(← survey (.ofText folder) [] []).reverse⟩
    folderName := folder
    homeFiles := ← homeFiles home
    home := "."
    homeName := home
    environment }

def cpuCount : IO Int := do
  try
    let lines ← IO.FS.lines "/proc/cpuinfo"
    return max 1 (lines.toList.filter fun line => Text.startsWith line "processor").length
  catch _ => return 1

/-- Runs a command; the outcome of a scan says how long the counting took. -/
def runTimed (here : Surroundings) (cpus : Int) : Command → IO Transcript
  | .scan r => do
    let start ← IO.monoMsNow
    match ← IO.lazyPure fun _ => r.count here cpus with
    | .error transcript => return transcript
    | .ok counted =>
      let elapsed := Binary64.ofRatio false ((← IO.monoMsNow) - start) 1000
      return ({ counted with outcome := { counted.outcome with elapsed } }).report r.asJson
  | command => return command.run here cpus

def writeChanges (old new : FileTree) : IO Unit :=
  new.entries.forM fun (names, e) => do
    if old.entry? names ≠ some e then
      match e with
      | .file content => IO.FS.writeBinFile (location names) ⟨content.toArray⟩
      | .folder => IO.FS.createDirAll (location names)
      | .link _ => pure ()

def main (arguments : List String) : IO UInt32 := do
  let here ← surroundings
  match Command.ofArguments here.files arguments with
  | .error fault =>
    IO.eprintln ("Error: " ++ fault.message)
    return fault.exitCode.toUInt32
  | .ok command =>
    let here := { here with files := ← load here.files command.settingsFiles }
    let here := { here with files := ← load here.files (command.sources here) }
    let transcript ← runTimed here (← cpuCount) command
    writeChanges here.files transcript.files
    transcript.log.forM fun r => IO.eprintln (r.level.name ++ " " ++ r.message)
    transcript.errors.forM IO.eprintln
    (transcript.uncaught.map SourceFault.message).toList.forM IO.eprintln
    IO.print transcript.output
    return transcript.exitCode.toUInt32

end StyleTally.Program

def main (arguments : List String) : IO UInt32 := StyleTally.Program.main arguments
