import StyleTally.Report.Outcome
import StyleTally.Text.Markup

/-!
# Console report

A run as a reader at the console sees it: an overview, the figures of the sections, the most
frequent keys of each, and the files that were skipped. All text carries markup.
-/

namespace StyleTally

structure Table where
  title : Option String
  headers : Option (List String)
  rows : List (List String)
  /-- The style of each row. -/
  styles : List (Option String)
  deriving DecidableEq, Repr

inductive Block where
  | line (markup : String)
  | panel (title : String) (body : Table)
  | table (t : Table)
  deriving DecidableEq, Repr

namespace Table

def plain (title : Option String) (headers : Option (List String)) (rows : List (List String)) :
    Table :=
  ⟨title, headers, rows, rows.map fun _ => none⟩

end Table

namespace Console

def styled (style text : String) : String := "[" ++ style ++ "]" ++ text ++ "[/]"

/-- The style of a number of files that should be zero. -/
def alertStyle (n : Nat) : String := if n = 0 then "green" else "yellow"

def overview (o : Outcome) : Table :=
  let missing :=
    if o.missing.isEmpty then []
    else [["Missing paths", styled "yellow" (Nat.repr o.missing.length)]]
  .plain none none
    ([["Files", Text.decimal o.dispatched],
      ["Parsed", styled "green" (Text.decimal o.parsed)],
      ["Skipped", styled (alertStyle o.skipped.length) (Nat.repr o.skipped.length)]] ++ missing ++
     [["Workers", Nat.repr o.workers], ["Elapsed", Decimal.fixed 2 o.elapsed ++ "s"]])

/-- Coefficients from 0.7 up are alarming, those from 0.4 up notable. -/
def giniLabel (g : Binary64) : String :=
  let style :=
    if (Binary64.ofRatio false 7 10).le g then "red"
    else if (Binary64.ofRatio false 4 10).le g then "yellow"
    else "green"
  s!"[{style}]{Decimal.fixed 2 g}[/{style}]"

def sectionRow (s : Summary) : List String :=
  if s.distinct = 0 then [s.name, "0", "0", "0", "-", "-", "-"]
  else
    [s.name, Nat.repr s.distinct, Text.decimal s.total, Nat.repr s.singletons,
     Decimal.fixed 2 s.entropy, Decimal.fixed 2 s.normalizedEntropy, giniLabel s.gini]

def sections (summaries : List Summary) : Table where
  title := some "Sections"
  headers := some ["Section", "Distinct", "Total", "Singletons", "Entropy", "Norm.", "Gini"]
  rows := summaries.map sectionRow
  styles := summaries.map fun s => if s.distinct = 0 then some "dim" else none

def topKeys (top : Nat) (s : Summary) : Table :=
  .plain (some s!"{s.name} (top {min top s.top.length})") (some ["Key", "Count", "Share"])
    ((s.top.take top).map fun (key, n) =>
      [Text.Markup.escape key, Text.decimal n, Decimal.percent n s.total])

def skipped (o : Outcome) : List Block :=
  if o.skipped.isEmpty then []
  else
    .line "" :: .line s!"[yellow]Skipped {o.skipped.length} file(s):[/yellow]" ::
      o.skipped.map fun s =>
        .line s!"  [dim]{Text.Markup.escape s.path}[/dim]: {Text.Markup.escape s.reason}"

/-- The report of a run; a number of keys that is not positive leaves the keys out. -/
def report (o : Outcome) (summaries : List Summary) (top : Int) : List Block :=
  let keys := summaries.filter fun s => 0 < top && !s.top.isEmpty
  [.panel "[bold cyan]LESS CENSUS[/bold cyan]" (overview o), .table (sections summaries)] ++
    keys.map (fun s => .table (topKeys top.toNat s)) ++ skipped o

end Console

end StyleTally
