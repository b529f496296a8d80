import StyleTally.Text.Markup
import StyleTally.Text.Trim

/-!
# Progress

A progress bar moves on by one file at a time. Its label names the current file and, once there are
any, the number of files that were skipped.
-/

namespace StyleTally

structure Progress where
  isEnabled : Bool
  done : Nat
  skipped : Nat
  /-- The label of the bar, in markup. -/
  label : String
  deriving DecidableEq, Repr

namespace Progress

/-- The longest name that is shown whole. -/
def nameWidth : Nat := 40

/-- A bar for so many files; without any there is no bar. -/
def start (total : Int) (wanted : Bool) : Progress := ⟨wanted && 0 < total, 0, 0, "Scanning"⟩

/-- The last name of a path, cut to the width. -/
def shortName (path : String) : String :=
  let name := (path.toList.reverse.takeWhile (· != '/')).reverse
  String.ofList (if nameWidth < name.length then name.take (nameWidth - 3) ++ "...".toList else name)

def describe (skipped : Nat) (path : String) : String :=
  let note := if skipped = 0 then "" else s!" [yellow]({skipped} skipped)[/yellow]"
  "Scanning [dim]" ++ Text.Markup.escape (shortName path) ++ "[/dim]" ++ note

/-- Moves on past a file. -/
def advance (p : Progress) (path : String) (isSkipped : Bool) : Progress :=
  let skipped := if isSkipped then p.skipped + 1 else p.skipped
  if p.isEnabled then ⟨true, p.done + 1, skipped, describe skipped path⟩
  else { p with skipped }

end Progress

end StyleTally
