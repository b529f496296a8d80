import StyleTally.Problem
import StyleTally.Report.Format
import StyleTally.Settings.Basic
import StyleTally.Tally.Summary

/-!
# The use of settings

What a census takes from its settings. A value may keep the rule of its setting and still be of no
use: a folder that is no text, a number of workers with a fraction, a wait that no clock can count.
-/

namespace StyleTally

/-- Why a value that keeps the rule of its setting is of no use. -/
inductive UseFault where
  | notPath (kind : String)
  | notEncoding (kind : String)
  /-- A number of workers with a fraction. -/
  | notWhole (kind : String)
  /-- A number of keys with a fraction. -/
  | notPosition
  | infinite
  | notANumber
  | beyondClock
  | beyondLongWord
  | beyondWord
  deriving DecidableEq, Repr

def UseFault.message : UseFault → String
  | notPath kind => "expected str, bytes or os.PathLike object, not " ++ kind
  | notEncoding kind => "open() argument 'encoding' must be str or None, not " ++ kind
  | notWhole kind => "'" ++ kind ++ "' object cannot be interpreted as an integer"
  | notPosition => "slice indices must be integers or None or have an __index__ method"
  | infinite => "cannot convert float infinity to integer"
  | notANumber => "cannot convert float NaN to integer"
  | beyondClock => "timestamp out of range for platform time_t"
  | beyondLongWord => "timestamp too large to convert to C _PyTime_t"
  | beyondWord => "timeout is too large"

namespace Settings

/-- The size in bytes beyond which a file is skipped: whole bytes of so many mebibytes. -/
def sizeLimit (s : Settings) : Except UseFault Int :=
  match s.get .maxFileSize with
  | .integer n => .ok (n * 1024 * 1024)
  | .flag b => .ok (if b then 1024 * 1024 else 0)
  | .real x =>
    let bytes := (x.scale 1024 1).scale 1024 1
    match bytes with
    | .nan => .error .notANumber
    | .infinite _ => .error .infinite
    | bytes => .ok (bytes.truncate?.getD 0)
  | _ => .ok 0

/-- A whole number; a number with a fraction loses it, and no number is beyond any limit. -/
def integer (s : Settings) (field : Setting) : Int :=
  match s.get field with
  | .integer n => n
  | .flag b => if b then 1 else 0
  | .real x => x.truncate?.getD (Nat.pow 2 1024)
  | _ => 0

/-- The path that a setting gives; a value that does not hold gives none. -/
def path? (s : Settings) (field : Setting) : Except UseFault (Option String) :=
  match s.get field with
  | .text t => .ok (if t.isEmpty then none else some t)
  | d => if d.holds then .error (.notPath d.shortKindName) else .ok none

def extensions (s : Settings) : List String :=
  (((s.get .extensions).members?).getD []).filterMap fun
    | .text t => some t
    | _ => none

def isRecursive (s : Settings) : Bool := (s.get .recursive).holds

def scansStatements (s : Settings) : Bool := (s.get .scanStatements).holds

/-- The name of the encoding, if there is one. -/
def encoding (s : Settings) : Except UseFault (Option String) :=
  match s.get .encoding with
  | .text name => .ok (some name)
  | .nothing => .ok none
  | d => .error (.notEncoding d.kindName)

def depthLimit (s : Settings) : DepthLimit := ⟨s.integer .maxDepth, (s.get .maxDepth).shown⟩

def format (s : Settings) : Format :=
  ((s.text? .reportFormat).bind Format.ofName?).getD .json

/-- No count is as low as what is no number. -/
def rareLimit (s : Settings) : Int :=
  match s.get .rareThreshold with
  | .real .nan => -1
  | _ => s.integer .rareThreshold

def limits (s : Settings) : Except UseFault SummaryLimits :=
  match s.get .top with
  | .real _ => .error .notPosition
  | _ => .ok ⟨s.integer .top, s.rareLimit⟩

/-- The number of workers; where none is set, there is one for each processor. -/
def workers (s : Settings) (cpus : Int) : Datum :=
  if (s.get .workers).holds then s.get .workers else .integer cpus

/-- Why threads cannot wait for so many seconds: they count nanoseconds in a word of 64 bits. -/
def threadWaitFault? (seconds : Binary64) : Option UseFault :=
  if (Binary64.ofNat 9223372037).le seconds then some .beyondClock else none

/-- Why processes cannot wait for so many seconds: they count whole milliseconds in a word of 32
bits. -/
def processWaitFault? : Binary64 → Option UseFault
  | .nan => some .notANumber
  | .infinite _ => some .infinite
  | seconds =>
    if (Binary64.ofRatio false 9223372036854 1000).lt seconds then some .beyondLongWord
    else if (Binary64.ofRatio false 2147483647 1000).lt seconds then some .beyondWord
    else none

/-- Whether the workers are threads of one process. -/
def usesThreads (s : Settings) : Bool := s.text? .backend = some "thread"

/-- Why workers cannot be waited for. What is no number waits for no worker to end. -/
def waitFault? (s : Settings) : Option UseFault :=
  let fault? (seconds : Binary64) : Option UseFault :=
    if s.usesThreads then threadWaitFault? seconds else processWaitFault? seconds
  let ending := match (s.get .joinTimeout).real? with
    | some .nan | none => none
    | some seconds => fault? seconds
  ending.or ((s.get .pollInterval).real?.bind fault?)

end Settings

end StyleTally
