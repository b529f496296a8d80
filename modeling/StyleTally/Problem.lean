import StyleTally.Stylesheet.Parse

/-!
# Problems

What can go wrong, as a reader is told of it: a message and, in brackets, the details by name.
-/

namespace StyleTally

/-- A limit on nesting: the levels that it admits, and the number that it is written as. -/
structure DepthLimit where
  levels : Int
  written : String
  deriving DecidableEq, Repr

namespace DepthLimit

def ofInt (n : Int) : DepthLimit := ⟨n, Text.decimal n⟩

def standard : DepthLimit := ofInt Stylesheet.defaultDepth

end DepthLimit

inductive Problem where
  | general (message : String) (details : List (String × String))
  | analysis (message : String) (details : List (String × String))
  | configuration (message : String) (details : List (String × String))
  | worker (message : String) (details : List (String × String))
  | fileAccess (path reason : String)
  | parsing (reason : String) (path : Option String) (line : Option Int)
  | nesting (limit : DepthLimit) (path : Option String) (line : Option Int)
  | invalidSetting (key value reason : String)
  | missingPath (path : String)
  | transport (worker : Int) (reason : String) (exitCode : Option Int)
  | frozenStore (name : String)
  deriving DecidableEq, Repr

namespace Problem

def nestingReason (limit : DepthLimit) : String := s!"nesting deeper than {limit.written} levels"

def message : Problem → String
  | general message _ | analysis message _ | configuration message _ | worker message _ => message
  | fileAccess path _ => "Cannot access file: " ++ path
  | parsing _ none _ | nesting _ none _ => "Failed to parse"
  | parsing _ (some path) _ | nesting _ (some path) _ => "Failed to parse " ++ path
  | invalidSetting key value _ => s!"Invalid configuration for {key}: {value}"
  | missingPath path => "No such file or directory: " ++ path
  | transport id _ _ => s!"Worker {id} failed"
  | frozenStore _ => "Counter store is frozen"

def placed (reason : String) (path : Option String) (line : Option Int) : List (String × String) :=
  ("reason", reason) :: (path.map fun p => ("filepath", p)).toList ++
    (line.map fun l => ("line", Text.decimal l)).toList

def details : Problem → List (String × String)
  | general _ details | analysis _ details | configuration _ details | worker _ details => details
  | fileAccess path reason => [("filepath", path), ("reason", reason)]
  | parsing reason path line => placed reason path line
  | nesting limit path line => placed (nestingReason limit) path line
  | invalidSetting key value reason => [("key", key), ("value", value), ("reason", reason)]
  | missingPath path => [("path", path)]
  | transport id reason exitCode =>
    [("worker", Text.decimal id), ("reason", reason)] ++
      (exitCode.map fun c => ("exitcode", Text.decimal c)).toList
  | frozenStore name => [("section", name)]

def text (p : Problem) : String :=
  if p.details.isEmpty then p.message
  else
    let shown := p.details.map fun (k, v) => k ++ "=" ++ v
    p.message ++ " (" ++ String.intercalate ", " shown ++ ")"

/-- The kind of a problem and the kinds that it is a case of, the nearest first. -/
def kinds : Problem → List String
  | general _ _ => ["CensusError"]
  | analysis _ _ => ["AnalysisError", "CensusError"]
  | configuration _ _ => ["ConfigurationError", "CensusError"]
  | worker _ _ => ["WorkerError", "CensusError"]
  | fileAccess _ _ => ["FileAccessError", "AnalysisError", "CensusError"]
  | parsing _ _ _ => ["ParseError", "AnalysisError", "CensusError"]
  | nesting _ _ _ => ["NestingDepthError", "ParseError", "AnalysisError", "CensusError"]
  | invalidSetting _ _ _ => ["InvalidConfigError", "ConfigurationError", "CensusError"]
  | missingPath _ => ["MissingPathError", "ConfigurationError", "CensusError"]
  | transport _ _ _ => ["WorkerTransportError", "WorkerError", "CensusError"]
  | frozenStore _ => ["FrozenStoreError", "CensusError"]

def kind (p : Problem) : String := p.kinds.headD ""

/-- The same problem as one of the file at the path. -/
def inFile (path : String) : Problem → Problem
  | parsing reason _ line => parsing reason (some path) line
  | nesting limit _ line => nesting limit (some path) line
  | p => p

/-- The problem that a text which a limit on nesting applies to is refused for. -/
def ofRefusal (limit : DepthLimit) : Stylesheet.Refusal → Problem
  | .malformed cause line => parsing cause.message none (some line)
  | .beyondLimit _ line => nesting limit none (some line)
  | .exhausted => parsing Stylesheet.Refusal.exhausted.reason none none

end Problem

/-- Parses a stylesheet; the path, if there is one, is named in what goes wrong. -/
def parseSheet (limit : DepthLimit) (path : Option String) (source : String) :
    Except Problem Stylesheet.Sheet :=
  (Stylesheet.parse limit.levels source).mapError fun refusal =>
    let problem := Problem.ofRefusal limit refusal
    (path.map problem.inFile).getD problem

end StyleTally
