import StyleTally.Report.Format
import StyleTally.Tally.Summary

/-!
# Outcomes of a census

What a census run has found, and its reports: a file for each section, a file of summaries, and one
document for the whole run.
-/

namespace StyleTally

/-- A file that was skipped, and why. -/
structure Skipped where
  path : String
  reason : String
  deriving DecidableEq, Repr

structure Outcome where
  store : Store
  dispatched : Int
  parsed : Int
  skipped : List Skipped
  /-- How many files each worker has answered for. -/
  perWorker : List (Int × Int)
  missing : List String
  /-- In seconds. -/
  elapsed : Binary64

namespace Summary

def json (s : Summary) : Json :=
  .object
    [("section", .text s.name), ("distinct", .integer s.distinct), ("total", .integer s.total),
     ("singletons", .integer s.singletons), ("entropy", .real s.entropy),
     ("normalized_entropy", .real s.normalizedEntropy), ("gini", .real s.gini),
     ("top", Ranking.json s.top), ("rare", .list (s.rare.map .text))]

def jsonOfAll (summaries : List Summary) : Json :=
  .object (summaries.map fun s => (s.name, s.json))

end Summary

namespace Outcome

def workers (o : Outcome) : Nat := o.perWorker.length

/-- The counts of the workers in the order of their numbers. -/
def sortedWorkers (o : Outcome) : List (Int × Int) := o.perWorker.mergeSort fun a b => a.1 ≤ b.1

def json (o : Outcome) (summaries? : Option (List Summary)) : Json :=
  .object
    ([("files_dispatched", .integer o.dispatched), ("files_parsed", .integer o.parsed),
      ("failures", .list (o.skipped.map fun s =>
        .object [("path", .text s.path), ("reason", .text s.reason)])),
      ("missing", .list (o.missing.map .text)),
      ("per_worker", .object (o.sortedWorkers.map fun (id, n) => (Text.decimal id, .integer n))),
      ("counters", .object (Section.all.map fun part =>
        (part.name, Ranking.json (o.store.counter part).ranked)))] ++
      (summaries?.map fun ss => ("summary", Summary.jsonOfAll ss)).toList)

end Outcome

/-- The report files of a store, by name and in the order in which they are written. -/
def Store.reportFiles (s : Store) (f : Format) (summaries? : Option (List Summary))
    (quoting : Quoting := .recordEnd) : List (String × String) :=
  (Section.all.map fun part =>
    (part.name ++ "." ++ f.name, f.render (s.counter part).ranked quoting)) ++
    (summaries?.map fun ss => ("summary.json", (Summary.jsonOfAll ss).render ++ "\n")).toList

end StyleTally
