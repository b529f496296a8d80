import StyleTally.Settings.Load

/-!
# Options

The options of a command as overrides of the settings. An option that was not given overrides
nothing.
-/

namespace StyleTally

structure Options where
  config : Option String
  workers : Option Int
  backend : Option String
  output : Option String
  format : Option String
  top : Option Int
  statements : Bool
  recursive : Bool
  extensions : List String
  verbose : Bool
  quiet : Bool
  logFile : Option String
  deriving Repr

namespace Options

def none : Options :=
  { config := .none, workers := .none, backend := .none, output := .none, format := .none,
    top := .none, statements := false, recursive := false, extensions := [], verbose := false,
    quiet := false, logFile := .none }

instance : Inhabited Options := ⟨none⟩

/-- One part of an extension option as a suffix, if anything is left of it: blank space around it
and stars in front are dropped, and a missing point is put in front. -/
def suffix? (part : List Char) : Option String :=
  match (Text.trimChars part).dropWhile (· == '*') with
  | [] => .none
  | c :: cs => some (String.ofList (if c == '.' then c :: cs else '.' :: c :: cs))

/-- The suffixes that extension options name, `less`, `.less` and `*.less` meaning the same. -/
def suffixes (extensions : List String) : List String :=
  extensions.flatMap fun ext => (Text.splitChars ',' ext.toList).filterMap suffix?

/-- The suffixes, if there are any. -/
def suffixes? (extensions : List String) : Option (List String) :=
  let found := suffixes extensions
  if found.isEmpty then .none else some found

/-- The verbosity that the two flags name; `quiet` wins. -/
def flagVerbosity (verbose quiet : Bool) : String :=
  if quiet then "quiet" else if verbose then "verbose" else "normal"

def overrides (o : Options) : DataTable :=
  let suffixes : Datum :=
    match suffixes? o.extensions with
    | some found => .list (found.map .text)
    | .none => .nothing
  [("workers", .ofInt? o.workers), ("backend", .ofText? o.backend),
   ("output_dir", .ofText? (o.output.map Path.normal)), ("report_format", .ofText? o.format),
   ("top", .ofInt? o.top), ("extensions", suffixes), ("verbose", .flag o.verbose),
   ("quiet", .flag o.quiet), ("log_file", .ofText? (o.logFile.map Path.normal))] ++
    (if o.statements then [("scan_statements", .flag true)] else []) ++
    (if o.recursive then [("recursive", .flag true)] else [])

def settings (o : Options) (here : Surroundings) : Except LoadFault Settings :=
  Settings.load here o.config o.overrides

end Options

end StyleTally
