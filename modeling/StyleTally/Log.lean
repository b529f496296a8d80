import StyleTally.Text.Trim

/-!
# Log records

Records have a level, a logger and a message. The verbosity sets the least level that is kept. In a
log file every line names the unit that wrote it: a worker by its number, or the main one.
-/

namespace StyleTally

inductive Level where
  | debug
  | info
  | warning
  | error
  | critical
  deriving DecidableEq, Repr

namespace Level

def all : List Level := [debug, info, warning, error, critical]

def rank : Level → Nat
  | debug => 10
  | info => 20
  | warning => 30
  | error => 40
  | critical => 50

def name : Level → String
  | debug => "DEBUG"
  | info => "INFO"
  | warning => "WARNING"
  | error => "ERROR"
  | critical => "CRITICAL"

end Level

inductive Verbosity where
  | quiet
  | normal
  | verbose
  deriving DecidableEq, Repr

namespace Verbosity

def ofName? : String → Option Verbosity
  | "quiet" => some quiet
  | "normal" => some normal
  | "verbose" => some verbose
  | _ => none

/-- The least level that is kept. -/
def threshold : Verbosity → Level
  | quiet => .error
  | normal => .warning
  | verbose => .debug

end Verbosity

namespace Log

def rootLogger : String := "less_census"

/-- The logger of a name: below the root logger, unless the name itself starts like it. -/
def loggerName : Option String → String
  | none => rootLogger
  | some name => if Text.startsWith name rootLogger then name else rootLogger ++ "." ++ name

def mainUnit : String := "main"

def workerStart : String := "less-census-worker-"

/-- The unit that a thread belongs to. -/
def unitOf (thread : String) : String :=
  if Text.startsWith thread workerStart then
    "worker-" ++ String.ofList (thread.toList.drop workerStart.length)
  else mainUnit

structure Record where
  unit : String
  logger : String
  level : Level
  message : String
  deriving DecidableEq, Repr

/-- A record as a line of a log file, without the time. -/
def Record.line (r : Record) : String :=
  Text.padRight 8 r.unit ++ " " ++ Text.padRight 7 r.level.name ++ " " ++ r.logger ++ ": " ++ r.message

def isKept (v : Verbosity) (r : Record) : Bool := v.threshold.rank ≤ r.level.rank

end Log

end StyleTally
