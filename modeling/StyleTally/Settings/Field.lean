import StyleTally.Decimal.Reading
import StyleTally.Settings.Datum
import StyleTally.Text.LowerCase

/-!
# The settings of a census

Every setting has a name, a default, a kind of value that its environment variable gives, and at
most one rule that its value must keep.
-/

namespace StyleTally

inductive Setting where
  | workers
  | backend
  | startMethod
  | pollInterval
  | joinTimeout
  | extensions
  | recursive
  | maxFileSize
  | encoding
  | maxDepth
  | scanStatements
  | outputFolder
  | reportFormat
  | top
  | rareThreshold
  | verbosity
  | logFile
  deriving DecidableEq, Repr

/-- What the text of an environment variable is read as. -/
inductive SettingKind where
  | integer
  | real
  | flag
  | text
  | list
  deriving DecidableEq, Repr

namespace Setting

def all : List Setting :=
  [workers, backend, startMethod, pollInterval, joinTimeout, extensions, recursive, maxFileSize,
   encoding, maxDepth, scanStatements, outputFolder, reportFormat, top, rareThreshold, verbosity,
   logFile]

def name : Setting → String
  | workers => "workers"
  | backend => "backend"
  | startMethod => "start_method"
  | pollInterval => "poll_interval_seconds"
  | joinTimeout => "join_timeout_seconds"
  | extensions => "extensions"
  | recursive => "recursive"
  | maxFileSize => "max_file_size_mb"
  | encoding => "encoding"
  | maxDepth => "max_depth"
  | scanStatements => "scan_statements"
  | outputFolder => "output_dir"
  | reportFormat => "report_format"
  | top => "top"
  | rareThreshold => "rare_threshold"
  | verbosity => "verbosity"
  | logFile => "log_file"

/-- The name that stands for the settings as a whole; no setting has it. -/
def wholeName : String := "self"

def ofName? (name : String) : Option Setting := all.find? fun s => s.name == name

def default : Setting → Datum
  | workers | startMethod | outputFolder | logFile => .nothing
  | backend => .text "process"
  | pollInterval => .real (.ofRatio false 1 5)
  | joinTimeout => .real (.ofNat 5)
  | extensions => .list []
  | recursive | scanStatements => .flag false
  | maxFileSize => .real (.ofNat 10)
  | encoding => .text "utf-8"
  | maxDepth => .integer 64
  | reportFormat => .text "json"
  | top => .integer 10
  | rareThreshold => .integer 1
  | verbosity => .text "normal"

def kind : Setting → SettingKind
  | workers | maxDepth | top | rareThreshold => .integer
  | pollInterval | joinTimeout | maxFileSize => .real
  | recursive | scanStatements => .flag
  | extensions => .list
  | backend | startMethod | encoding | outputFolder | reportFormat | verbosity | logFile => .text

/-- The name of the environment variable of a setting. -/
def variableName (s : Setting) : String :=
  "LESS_CENSUS_" ++ String.ofList (s.name.toList.map Char.toUpper)

theorem mem_all (s : Setting) : s ∈ all := by cases s <;> decide

theorem ofName?_name (s : Setting) : ofName? s.name = some s := by cases s <;> decide

end Setting

/-- The bound that a number must keep. -/
structure Bound where
  least : Int
  /-- The least value itself is excluded. -/
  isStrict : Bool
  deriving DecidableEq, Repr

namespace Bound

def describe (b : Bound) : String :=
  if b.isStrict then "must be positive"
  else if b.least = 0 then "must be non-negative"
  else s!"must be at least {b.least}"

def sign (b : Bound) : String := if b.isStrict then "<=" else "<"

/-- Whether a datum is below the bound; none for a datum that is no number. -/
def isBroken? (b : Bound) : Datum → Option Bool
  | .integer n => some (if b.isStrict then n ≤ b.least else n < b.least)
  | .flag f =>
    let n : Int := if f then 1 else 0
    some (if b.isStrict then n ≤ b.least else n < b.least)
  | .real x => some (if b.isStrict then x.le (.ofInt b.least) else x.lt (.ofInt b.least))
  | _ => none

end Bound

inductive SettingRule where
  | bounded (b : Bound)
  | boundedIfGiven (b : Bound)
  | among (choices : List String)
  | amongIfGiven (choices : List String)
  | suffixes
  deriving DecidableEq, Repr

def Setting.backendNames : List String := ["process", "thread"]

def Setting.formatNames : List String := ["json", "csv", "txt"]

def Setting.rule? : Setting → Option SettingRule
  | .workers => some (.boundedIfGiven ⟨1, false⟩)
  | .backend => some (.among backendNames)
  | .startMethod => some (.amongIfGiven ["fork", "spawn", "forkserver"])
  | .pollInterval => some (.bounded ⟨0, true⟩)
  | .joinTimeout => some (.bounded ⟨0, false⟩)
  | .maxFileSize => some (.bounded ⟨0, true⟩)
  | .extensions => some .suffixes
  | .maxDepth => some (.bounded ⟨1, false⟩)
  | .reportFormat => some (.among formatNames)
  | .top => some (.bounded ⟨0, false⟩)
  | .rareThreshold => some (.bounded ⟨0, false⟩)
  | .verbosity => some (.among ["quiet", "normal", "verbose"])
  | .recursive | .encoding | .scanStatements | .outputFolder | .logFile => none

/-- The settings with a rule, in the order in which the rules are checked. -/
def Setting.checked : List Setting :=
  [workers, backend, startMethod, pollInterval, joinTimeout, maxFileSize, extensions, maxDepth,
   reportFormat, top, rareThreshold, verbosity]

/-- Why values do not make up settings. -/
inductive SettingFault where
  | unknownName (name : String)
  /-- A name that stands for the settings as a whole. -/
  | takenName (name : String)
  | notComparable (sign kind : String)
  | notIterable (kind : String)
  /-- An extension of a kind that has no first character. -/
  | notText (kind : String)
  | outOfBounds (s : Setting) (b : Bound)
  | notAmong (s : Setting) (choices : List String)
  | badExtension (extension : String)
  deriving DecidableEq, Repr

def SettingFault.message : SettingFault → String
  | unknownName name =>
    "CensusConfig.__init__() got an unexpected keyword argument " ++ "'" ++ name ++ "'"
  | takenName name =>
    "CensusConfig.__init__() got multiple values for argument " ++ "'" ++ name ++ "'"
  | notComparable sign kind =>
    s!"'{sign}' not supported between instances of '{kind}' and 'int'"
  | notIterable kind => s!"'{kind}' object is not iterable"
  | notText kind => s!"'{kind}' object has no attribute 'startswith'"
  | outOfBounds s b => s.name ++ " " ++ b.describe
  | notAmong s choices => s.name ++ " must be one of " ++ String.intercalate ", " choices
  | badExtension extension => "extension '" ++ extension ++ "' must start with '.'"

/-- The members of a datum that has some: items, characters or keys. -/
def Datum.members? : Datum → Option (List Datum)
  | .list items => some items
  | .text s => some (s.toList.map fun c => .text (String.singleton c))
  | .table fields => some (fields.map fun (name, _) => .text name)
  | _ => none

namespace SettingRule

def checkBound (s : Setting) (b : Bound) (d : Datum) : Except SettingFault Unit :=
  match b.isBroken? d with
  | none => .error (.notComparable b.sign d.kindName)
  | some true => .error (.outOfBounds s b)
  | some false => .ok ()

def checkChoice (s : Setting) (choices : List String) (d : Datum) : Except SettingFault Unit :=
  match d with
  | .text t => if choices.contains t then .ok () else .error (.notAmong s choices)
  | _ => .error (.notAmong s choices)

def checkSuffix : Datum → Except SettingFault Unit
  | .text t => if Text.startsWith t "." then .ok () else .error (.badExtension t)
  | d => .error (.notText d.kindName)

def check (s : Setting) (d : Datum) : SettingRule → Except SettingFault Unit
  | bounded b => checkBound s b d
  | boundedIfGiven b =>
    match d with
    | .nothing => .ok ()
    | d => checkBound s b d
  | among choices => checkChoice s choices d
  | amongIfGiven choices =>
    match d with
    | .nothing => .ok ()
    | d => checkChoice s choices d
  | suffixes =>
    match d.members? with
    | some members => members.forM checkSuffix
    | none => .error (.notIterable d.kindName)

end SettingRule

namespace SettingKind

/-- Why the text of an environment variable gives no value. -/
inductive Fault where
  | notFlag
  | number (fault : Decimal.NumberFault)
  deriving DecidableEq, Repr

def Fault.message (written : String) : Fault → String
  | notFlag => "expected true/false, got '" ++ written ++ "'"
  | number fault => fault.message written

/-- The value that a text gives for a setting of the kind. -/
def read (kind : SettingKind) (written : String) : Except Fault Datum :=
  match kind with
  | integer => ((Decimal.readInteger written).mapError .number).map .integer
  | real => ((Decimal.readNumber written).mapError .number).map .real
  | flag =>
    let word := Text.lowerCase written
    if ["true", "1", "yes", "on"].contains word then .ok (.flag true)
    else if ["false", "0", "no", "off"].contains word then .ok (.flag false)
    else .error .notFlag
  | text => .ok (.text written)
  | list =>
    let parts := (Text.splitAt ',' written).map Text.trim
    .ok (.list ((parts.filter fun part => !part.isEmpty).map .text))

end SettingKind

end StyleTally
