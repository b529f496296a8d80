import StyleTally.Command.Switch
import StyleTally.Settings.Options
import StyleTally.Settings.Use

/-!
# Commands

A command line as a command: `scan` counts in files and folders, `tree` shows the syntax tree of one
file. A command line that makes no command is a usage fault. The values of switches are checked in
the order in which the switches are first given, and operands after them.
-/

namespace StyleTally

inductive UsageFault where
  | argument (fault : ArgumentFault)
  | missingCommand
  | unknownCommand (name : String)
  | missingOperand (name : String)
  | extraOperands (operands : List String)
  | notInteger (option value : String)
  | tooSmall (option : String) (value least : Int)
  | notAmong (option value : String) (choices : List String)
  | missingFile (path : String)
  | isFolder (path : String)
  | isFile (path : String)
  /-- A path with a character that no path may hold. -/
  | badPath
  deriving DecidableEq, Repr

def UsageFault.message : UsageFault → String
  | argument fault => fault.message
  | missingCommand => "Missing command."
  | unknownCommand name => "No such command " ++ Text.quoted name ++ "."
  | missingOperand name => "Missing argument '" ++ name ++ "'."
  | extraOperands operands =>
    "Got unexpected extra argument(s) (" ++ String.intercalate " " operands ++ ")"
  | notInteger option value =>
    "Invalid value for '--" ++ option ++ "': " ++ Text.quoted value ++ " is not a valid integer."
  | tooSmall option value least =>
    s!"Invalid value for '--{option}': {value} is not in the range x>={least}."
  | notAmong option value choices =>
    "Invalid value for '--" ++ option ++ "': " ++ Text.quoted value ++ " is not one of " ++
      String.intercalate ", " (choices.map Text.quoted) ++ "."
  | missingFile path => "File " ++ Text.quoted path ++ " does not exist."
  | isFolder path => "File " ++ Text.quoted path ++ " is a directory."
  | isFile path => "Directory " ++ Text.quoted path ++ " is a file."
  | badPath => FileFault.badCharacter.reason

structure ScanRequest where
  paths : List String
  options : Options
  /-- The whole outcome goes to the output as JSON. -/
  asJson : Bool
  deriving Repr

structure TreeRequest where
  path : String
  maxDepth : DepthLimit
  encoding : Option String
  deriving Repr

inductive Command where
  | help
  | version
  | scan (r : ScanRequest)
  | tree (r : TreeRequest)
  deriving Repr

/-- What stands in front of the name of a command. -/
inductive GeneralSwitch where
  | help
  | version
  deriving DecidableEq, Repr

inductive ScanSwitch where
  | help
  | workers
  | backend
  | output
  | format
  | top
  | json
  | statements
  | recursive
  | extension
  | noProgress
  | config
  | verbose
  | quiet
  | logFile
  deriving DecidableEq, Repr

inductive TreeSwitch where
  | help
  | maxDepth
  | encoding
  deriving DecidableEq, Repr

def GeneralSwitch.known : List (Switch GeneralSwitch) :=
  [⟨.version, "version", none, false⟩, ⟨.help, "help", none, false⟩]

def ScanSwitch.known : List (Switch ScanSwitch) :=
  [⟨.workers, "workers", some 'w', true⟩, ⟨.backend, "backend", none, true⟩,
   ⟨.output, "output", some 'o', true⟩, ⟨.format, "format", none, true⟩,
   ⟨.top, "top", none, true⟩, ⟨.json, "json", none, false⟩,
   ⟨.statements, "statements", none, false⟩, ⟨.recursive, "recursive", some 'r', false⟩,
   ⟨.extension, "ext", none, true⟩, ⟨.noProgress, "no-progress", none, false⟩,
   ⟨.config, "config", some 'c', true⟩, ⟨.verbose, "verbose", some 'v', false⟩,
   ⟨.quiet, "quiet", some 'q', false⟩, ⟨.logFile, "log-file", none, true⟩,
   ⟨.help, "help", none, false⟩]

def TreeSwitch.known : List (Switch TreeSwitch) :=
  [⟨.maxDepth, "max-depth", none, true⟩, ⟨.encoding, "encoding", none, true⟩,
   ⟨.help, "help", none, false⟩]

namespace Command

def readInteger (option : String) (least : Int) (value : String) : Except UsageFault Int :=
  match Decimal.readInteger value with
  | .error _ => .error (.notInteger option value)
  | .ok n => if n < least then .error (.tooSmall option n least) else .ok n

/-- Letters of a choice count without regard to case; a long s is an s, and a sharp s is two. -/
def foldChar (c : Char) : List Char :=
  if c == 'ſ' then ['s']
  else if c == 'ß' || c == 'ẞ' then ['s', 's']
  else [c.toLower]

def readChoice (option : String) (choices : List String) (value : String) :
    Except UsageFault String :=
  match choices.find? fun choice => choice.toList = value.toList.flatMap foldChar with
  | some choice => .ok choice
  | none => .error (.notAmong option value choices)

/-- A path that may lead anywhere. -/
def readPath (path : String) : Except UsageFault String :=
  if path.toList.contains '\x00' then .error .badPath else .ok path

/-- The path of a file that is there. -/
def readFilePath (files : FileTree) (path : String) : Except UsageFault String := do
  let path ← readPath path
  if files.isFile path then return path
  else if files.isFolder path then throw (.isFolder path)
  else throw (.missingFile path)

/-- A path at which a folder is or may be made. -/
def readFolderPath (files : FileTree) (path : String) : Except UsageFault String := do
  let path ← readPath path
  if files.isFile path then throw (.isFile path) else return path

/-- A path at which a file is or may be made. -/
def readFreePath (files : FileTree) (path : String) : Except UsageFault String := do
  let path ← readPath path
  if files.isFolder path then throw (.isFolder path) else return path

/-- Checks the values that count, in the order in which their switches are first given. -/
def checkInOrder {α : Type} [DecidableEq α] (a : Arguments α)
    (check : α → String → Except UsageFault Unit) : Except UsageFault Unit :=
  a.given.forM fun g => check g.key ((a.value? g.key).getD g.value)

def checkScan (files : FileTree) (switch : ScanSwitch) (value : String) :
    Except UsageFault Unit := do
  match switch with
  | .workers => let _ ← readInteger "workers" 1 value
  | .backend => let _ ← readChoice "backend" Setting.backendNames value
  | .output => let _ ← readFolderPath files value
  | .format => let _ ← readChoice "format" Setting.formatNames value
  | .top => let _ ← readInteger "top" 0 value
  | .config => let _ ← readFilePath files value
  | .logFile => let _ ← readFreePath files value
  | _ => return

def scanOfArguments (files : FileTree) (a : Arguments ScanSwitch) : Except UsageFault Command := do
  if a.has .help then return .help
  checkInOrder a (checkScan files)
  if a.operands.isEmpty then throw (.missingOperand "PATHS...")
  let paths ← a.operands.mapM readPath
  let options : Options := {
    workers := ← (a.value? .workers).mapM (readInteger "workers" 1)
    backend := ← (a.value? .backend).mapM (readChoice "backend" Setting.backendNames)
    output := ← (a.value? .output).mapM (readFolderPath files)
    format := ← (a.value? .format).mapM (readChoice "format" Setting.formatNames)
    top := ← (a.value? .top).mapM (readInteger "top" 0)
    config := ← (a.value? .config).mapM (readFilePath files)
    logFile := ← (a.value? .logFile).mapM (readFreePath files)
    statements := a.has .statements
    recursive := a.has .recursive
    extensions := a.values .extension
    verbose := a.has .verbose
    quiet := a.has .quiet }
  return .scan ⟨paths, options, a.has .json⟩

def treeOfArguments (files : FileTree) (a : Arguments TreeSwitch) : Except UsageFault Command := do
  if a.has .help then return .help
  let maxDepth ← (a.value? .maxDepth).mapM (readInteger "max-depth" 1)
  match a.operands with
  | [] => throw (.missingOperand "FILE")
  | path :: rest =>
    let path ← readFilePath files path
    if !rest.isEmpty then throw (.extraOperands rest)
    return .tree ⟨Path.normal path, (maxDepth.map DepthLimit.ofInt).getD .standard,
      (a.value? .encoding).or (Settings.standard.text? .encoding)⟩

/-- The command of a command line. Whether a path fits depends on the files. -/
def ofArguments (files : FileTree) (arguments : List String) : Except UsageFault Command := do
  let general ← (Switch.read GeneralSwitch.known true arguments).mapError .argument
  match general.given with
  | ⟨.version, _⟩ :: _ => return .version
  | ⟨.help, _⟩ :: _ => return .help
  | [] =>
    match general.operands with
    | [] => throw .missingCommand
    | "scan" :: rest =>
      scanOfArguments files (← (Switch.read ScanSwitch.known false rest).mapError .argument)
    | "tree" :: rest =>
      treeOfArguments files (← (Switch.read TreeSwitch.known false rest).mapError .argument)
    | name :: _ => throw (.unknownCommand name)

end Command

end StyleTally
