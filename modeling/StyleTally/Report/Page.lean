import StyleTally.Report.Console

/-!
# Console pages

A console report as plain lines. Tags are resolved, and the columns of a table are as wide as their
widest cell.
-/

namespace StyleTally

namespace Table

/-- The widths that hold a row besides all rows that have given `widths`. -/
def widen : List Nat → List String → List Nat
  | widths, [] => widths
  | [], cells => cells.map String.length
  | w :: widths, cell :: cells => max w cell.length :: widen widths cells

/-- The cells but the first are flush right. -/
def layRow (widths : List Nat) (cells : List String) : String :=
  let fillers := (widths.zip cells).map fun (w, cell) => String.ofList (.replicate (w - cell.length) ' ')
  let laid := match cells, fillers with
    | first :: cells, filler :: fillers =>
      (first ++ filler) :: (fillers.zip cells).map fun (filler, cell) => filler ++ cell
    | _, _ => cells
  String.intercalate "  " laid

def lines (t : Table) : List String :=
  let rows := (t.headers.toList ++ t.rows).map fun row => row.map Text.Markup.shown
  let widths := rows.foldl widen []
  t.title.toList ++ rows.map (layRow widths)

end Table

namespace Block

def lines : Block → List String
  | line markup => [Text.Markup.shown markup]
  | panel title body => Text.Markup.shown title :: body.lines ++ [""]
  | table t => t.lines ++ [""]

end Block

def Console.page (blocks : List Block) : String :=
  String.join ((blocks.flatMap Block.lines).map fun l => l ++ "\n")

end StyleTally
