import StyleTally.Census.Discovery
import StyleTally.Census.Pool
import StyleTally.Command.Basic
import StyleTally.Log
import StyleTally.Report.Folder
import StyleTally.Report.Page
import StyleTally.Stylesheet.Outline

/-!
# Running commands

What a command leaves behind: an exit code, what it prints, its log, and the files. A scan keeps to
one order: settings, log file, discovery, census, report files, and then what it prints.
-/

namespace StyleTally

structure Transcript where
  exitCode : Nat
  output : String
  /-- What a reader is told of a failure. -/
  errors : List String
  /-- The log records that the verbosity keeps. -/
  log : List Log.Record
  files : FileTree
  /-- A fault that no command reports itself. -/
  uncaught : Option SourceFault

/-- Why a scan ends early. -/
inductive ScanFault where
  | problem (p : Problem)
  | unforeseen (message : String)
  deriving DecidableEq, Repr

namespace ScanFault

def ofLoad : LoadFault → ScanFault
  | .problem p => problem p
  | .unforeseen fault => unforeseen fault.message
  | .file p => unforeseen p.message

def ofUse (fault : UseFault) : ScanFault := unforeseen fault.message

def ofCensus : CensusFault → ScanFault
  | .problem p => problem p
  | .unusable fault => ofUse fault

def line : ScanFault → String
  | problem p => "[red]Error:[/red] " ++ Text.Markup.escape p.text
  | unforeseen message => "[red]Unexpected error:[/red] " ++ Text.Markup.escape message

def record : ScanFault → Log.Record
  | problem p => ⟨Log.mainUnit, Log.rootLogger, .error, p.kind ++ ": " ++ p.text⟩
  | unforeseen _ => ⟨Log.mainUnit, Log.rootLogger, .error, "Unexpected error during census"⟩

end ScanFault

/-- A scan under way: its settings, its log file, the files as they are by now, and the log so
far. -/
structure Scan where
  settings : Settings
  logPath : Option Path
  files : FileTree
  log : List Log.Record

namespace Scan

def verbosity (s : Scan) : Verbosity :=
  ((s.settings.text? .verbosity).bind Verbosity.ofName?).getD .normal

def note (s : Scan) (records : List Log.Record) : Scan :=
  { s with log := s.log ++ records.filter (Log.isKept s.verbosity) }

/-- The path of the log file; two dots take back a name. -/
def logPath? (s : Settings) : Except UseFault (Option Path) :=
  (s.path? .logFile).map fun written? =>
    written?.map fun written => (Path.ofText written).collapsed

/-- The place of a path as messages show it. -/
def shownPlace (here : Surroundings) (p : Path) : String :=
  if p.root ≠ "" then p.text
  else if p.names.isEmpty then here.folderName
  else here.folderName ++ "/" ++ p.text

/-- Opens the log file, which is made where it is missing. -/
def start (here : Surroundings) (settings : Settings) : Except ScanFault Scan := do
  match ← (logPath? settings).mapError ScanFault.ofUse with
  | none => return ⟨settings, none, here.files, []⟩
  | some path =>
    match here.files.append path.text [] with
    | .ok files => return ⟨settings, some path, files, []⟩
    | .error fault => throw (.unforeseen (fault.describe (shownPlace here path)))

/-- The end of a scan; the kept records go to the log file. -/
def finish (s : Scan) (exitCode : Nat) (output : String) (errors : List String) : Transcript :=
  let lines := String.join (s.log.map fun r => r.line ++ "\n")
  let files := match s.logPath with
    | none => s.files
    | some path =>
      match s.files.append path.text (Text.encode lines) with
      | .ok files => files
      | .error _ => s.files
  ⟨exitCode, output, errors, s.log, files, none⟩

def fail (s : Scan) (fault : ScanFault) : Transcript :=
  (s.note [fault.record]).finish 1 "" [Text.Markup.shown fault.line]

def discovery : String := Log.loggerName (some "less_census.scanning.discovery")

def coordinator : String := Log.loggerName (some "less_census.scanning.coordinator")

def warnings (logger : String) (messages : List String) : List Log.Record :=
  messages.map fun message => ⟨Log.mainUnit, logger, .warning, message⟩

/-- The findings among the paths, and the scan with its warnings. -/
def discover (s : Scan) (paths : List String) : Except ScanFault (List Finding × Scan) := do
  let limit ← s.settings.sizeLimit.mapError ScanFault.ofUse
  let filter : Filter := ⟨s.settings.extensions, s.settings.isRecursive, some limit⟩
  let findings ← (s.files.survey filter paths).mapError fun problem =>
    .unforeseen problem.message
  let nothing :=
    if findings.any fun f => f.found?.isSome then [] else ["No stylesheets found"]
  return (findings, (s.note (warnings discovery (findings.filterMap Finding.warning?))).note
    (warnings Log.rootLogger nothing))

end Scan

/-- A scan whose counts are there and whose report is due. -/
structure Counted where
  scan : Scan
  outcome : Outcome

namespace ScanRequest

/-- Counts; a run that ends early leaves its transcript. -/
def count (r : ScanRequest) (here : Surroundings) (cpus : Int) : Except Transcript Counted := do
  let flags := Options.flagVerbosity r.options.verbose r.options.quiet
  let unset : Scan := ⟨Settings.standard.set .verbosity (.text flags), none, here.files, []⟩
  let settings ← (r.options.settings here).mapError fun fault => unset.fail (.ofLoad fault)
  let scan ← (Scan.start here settings).mapError unset.fail
  let (findings, scan) ← (scan.discover r.paths).mapError scan.fail
  let paths := findings.filterMap fun f => f.found?.map Path.text
  let collected ← (Pool.run settings cpus scan.files paths).mapError fun fault =>
    scan.fail (.ofCensus fault)
  let outcome := collected.outcome paths.length
  let missing := findings.filterMap fun f => f.missing?.map Path.text
  let scan := scan.note (Scan.warnings Scan.coordinator (outcome.skipped.map Pool.skipWarning))
  return ⟨scan, { outcome with missing }⟩

end ScanRequest

namespace Counted

/-- What a reader at the console gets after the report files have been written. -/
def reportNote (folder? : Option String) : List Block :=
  (folder?.map fun folder =>
    .line ("[dim]Reports written to " ++ Text.Markup.escape folder ++ "[/dim]")).toList

/-- Writes the report files, if there is a folder for them, and prints the outcome. -/
def publish (c : Counted) (asJson : Bool) (limits : SummaryLimits) (folder? : Option String)
    (quoting : Quoting) : Transcript :=
  let summaries := (c.outcome.store.summaries? limits).getD []
  let reports := c.outcome.store.reportFiles c.scan.settings.format (some summaries) quoting
  let written : Written := match folder? with
    | none => ⟨c.scan.files, none⟩
    | some folder => c.scan.files.writeReport (Path.ofText folder) reports
  let scan : Scan := { c.scan with files := written.files }
  match written.problem with
  | some problem => scan.fail (.unforeseen problem.message)
  | none =>
    if asJson then scan.finish 0 ((c.outcome.json (some summaries)).render ++ "\n") []
    else if scan.verbosity = .quiet then scan.finish 0 "" []
    else
      let blocks := Console.report c.outcome summaries limits.top
      scan.finish 0 (Console.page (blocks ++ reportNote folder?)) []

/-- Publishes the outcome, if the settings are of use for it. -/
def report (c : Counted) (asJson : Bool) (quoting : Quoting := .recordEnd) : Transcript :=
  match c.scan.settings.limits with
  | .error fault => c.scan.fail (.ofUse fault)
  | .ok limits =>
    match c.scan.settings.path? .outputFolder with
    | .error fault => c.scan.fail (.ofUse fault)
    | .ok folder? => c.publish asJson limits folder? quoting

end Counted

def ScanRequest.run (r : ScanRequest) (here : Surroundings) (cpus : Int) (quoting : Quoting) :
    Transcript :=
  match r.count here cpus with
  | .ok counted => counted.report r.asJson quoting
  | .error transcript => transcript

namespace TreeRequest

def lines (r : TreeRequest) (sheet : Stylesheet.Sheet) : List String :=
  let title := "[bold]" ++ Text.Markup.escape r.path ++ "[/bold]"
  let drawing : Stylesheet.Outline := .entry title [(Stylesheet.Node.sheet sheet).outline]
  drawing.lines.map Text.Markup.shown

def run (r : TreeRequest) (files : FileTree) : Transcript :=
  let failed (p : Problem) : Transcript :=
    ⟨1, Text.Markup.shown (ScanFault.problem p).line ++ "\n", [], [(ScanFault.problem p).record],
      files, none⟩
  match readSource files r.encoding r.path with
  | .error (.problem p) => failed p
  | .error fault => ⟨1, "", [], [], files, some fault⟩
  | .ok source =>
    match parseSheet r.maxDepth (some r.path) source with
    | .error p => failed p
    | .ok sheet => ⟨0, String.join ((r.lines sheet).map fun l => l ++ "\n"), [], [], files, none⟩

end TreeRequest

namespace Command

def versionLine : String := "less-census version 0.3.0"

def usage : String :=
  "Usage: less-census [--version] [--help] COMMAND\n\n" ++
  "Commands:\n" ++
  "  scan PATHS...  Scan stylesheets and report how often each language feature is used.\n" ++
  "  tree FILE      Parse one file and print its syntax tree.\n"

/-- The files that settings may come from. -/
def settingsFiles : Command → List String
  | scan r => Settings.fileName :: r.options.config.toList
  | _ => []

/-- The files and folders, beside the files of settings, whose content counts. -/
def sources (here : Surroundings) : Command → List String
  | scan r =>
    match (r.options.settings here).toOption.map Scan.logPath? with
    | some (.ok (some logPath)) => r.paths ++ [logPath.text]
    | _ => r.paths
  | tree r => [r.path]
  | _ => []

def run (here : Surroundings) (cpus : Int) (c : Command) (quoting : Quoting := .recordEnd) :
    Transcript :=
  match c with
  | help => ⟨0, usage, [], [], here.files, none⟩
  | version => ⟨0, versionLine ++ "\n", [], [], here.files, none⟩
  | scan r => r.run here cpus quoting
  | tree r => r.run here.files

end Command

/-- The exit code of a usage fault; a path that cannot be one is no fault of usage. -/
def UsageFault.exitCode : UsageFault → Nat
  | badPath => 1
  | _ => 2

end StyleTally
