import StyleTally.Main
import StyleTally.Progress
import StyleTally.Proofs.Likeness.Range
import StyleTally.Proofs.Likeness.Value
import StyleTally.Proofs.Likeness.Selector
import StyleTally.Proofs.Likeness.Statement
import StyleTally.Proofs.Shape.Place
import StyleTally.Proofs.Shape.Range
import StyleTally.Proofs.Shape.Crossing
import StyleTally.Proofs.Shape.Value
import StyleTally.Proofs.Shape.Selector
import StyleTally.Proofs.Shape.Statement
import StyleTally.Proofs.Shape.Tree
import StyleTally.Proofs.Nesting.Levels
import StyleTally.Proofs.Nesting.Limit
import StyleTally.Proofs.Lexer.Runs
import StyleTally.Proofs.Lexer.Equations
import StyleTally.Proofs.Lexer.Shift
import StyleTally.Proofs.Lexer.Spelling
import StyleTally.Proofs.Lexer.Tiling
import StyleTally.Proofs.Lexer.Squeeze
import StyleTally.Proofs.Likeness.Squeeze
import StyleTally.Proofs.Concatenation.Range
import StyleTally.Proofs.Concatenation.Statement
import StyleTally.Proofs.Concatenation.Sheet
import StyleTally.Proofs.Lead.Sheet
import StyleTally.Proofs.Tally.Marks
import StyleTally.Proofs.Tally.Counting
import StyleTally.Proofs.Tally.Balance
import StyleTally.Proofs.Census.Schedule
import StyleTally.Proofs.Census.Sequential
import StyleTally.Proofs.Formula.Basic
import StyleTally.Proofs.Formula.Lexing
import StyleTally.Proofs.Formula.Tokens
import StyleTally.Proofs.Formula.Reading
import StyleTally.Proofs.Formula.RoundTrip
import StyleTally.Proofs.Tally.Merging
import StyleTally.Proofs.Census.Reproducible
import StyleTally.Proofs.Discovery.Named
import StyleTally.Proofs.Census.Source
import StyleTally.Proofs.Census.Session
import StyleTally.Proofs.Census.Breakdown
import StyleTally.Proofs.Tally.Walk
import StyleTally.Proofs.Tally.Entries
import StyleTally.Proofs.Tally.Laws
import StyleTally.Proofs.Guard.RoundTrip
import StyleTally.Proofs.Strand.Exceptions
import StyleTally.Proofs.Brackets.Sheet
import StyleTally.Proofs.Cursor.Outcome
import StyleTally.Proofs.Semicolon.Sheet
import StyleTally.Proofs.Report.Records
import StyleTally.Proofs.Report.Outcome
import StyleTally.Proofs.Settings.Validity
import StyleTally.Proofs.Lexer.OneLine
import StyleTally.Proofs.Excerpt.Range
import StyleTally.Proofs.Excerpt.Keys
import StyleTally.Proofs.Excerpt.Value
import StyleTally.Proofs.Excerpt.Selector
import StyleTally.Proofs.Excerpt.Statement
import StyleTally.Proofs.Report.Plain
import StyleTally.Proofs.Tally.Ranked
import StyleTally.Proofs.Tally.Gini
import StyleTally.Proofs.Color.Canonical
import StyleTally.Proofs.Settings.SizeLimit
import StyleTally.Proofs.Brackets.Depth
import StyleTally.Proofs.Settings.Suffixes
