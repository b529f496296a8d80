import StyleTally.Census.Worker
import StyleTally.Report.Outcome

/-!
# The worker pool

The files of a census go to the workers of a pool in turn, and every worker is asked for its report
at the end. The replies of all workers arrive in one stream: each worker's own in order, those of
different workers in any. A census is over when every worker has reported; a worker that fails or
ends without a report ends the census with a problem.
-/

namespace StyleTally

/-- What the coordinator meets when it waits for a reply: one, or none within its patience; then it
sees which workers are gone, and with which exit code. -/
inductive Event where
  | reply (r : Reply)
  | idle (gone : List (Int × Option Int))

/-- Why a census fails. -/
inductive CensusFault where
  | problem (p : Problem)
  | unusable (fault : UseFault)
  deriving Repr

namespace Pool

/-- Never more workers than tasks, and never fewer than one. -/
def size (workers : Int) (tasks : Nat) : Nat := (max 1 (min workers tasks)).toNat

/-- The size for any number of workers; one with a fraction counts where the tasks are fewer, or
where it is not above one. -/
def size? (workers : Datum) (tasks : Nat) : Except UseFault Nat :=
  match workers with
  | .real x =>
    if (Binary64.ofNat tasks).lt x then .ok (max 1 tasks)
    else if (Binary64.ofNat 1).lt x then .error (.notWhole workers.kindName)
    else .ok 1
  | .integer n => .ok (size n tasks)
  | _ => .ok 1

def workerIds (size : Nat) : List Nat := List.range size

/-- The paths at every `size`-th place, from the one at `start` on. -/
def share (size start : Nat) (paths : List String) : List String :=
  (paths.zipIdx.filter fun (_, i) => i % size = start).map Prod.fst

/-- What a worker finds in its inbox. -/
def inbox (size id : Nat) (paths : List String) : List Message :=
  (share size id paths).map .scan ++ [.report, .exit]

def replies (s : Settings) (files : FileTree) (size id : Nat) (paths : List String) : List Reply :=
  ((Worker.start id s).serve files (inbox size id paths)).replies

/-- The stream in which the workers reply one after the other. -/
def inTurn (s : Settings) (files : FileTree) (size : Nat) (paths : List String) : List Event :=
  (workerIds size).flatMap fun id => (replies s files size id paths).map .reply

structure Report where
  worker : Int
  store : Store
  filesScanned : Nat

/-- What has arrived so far. -/
structure Collection where
  reports : List Report
  skipped : List Skipped
  perWorker : List (Int × Int)
  notices : List Notice

namespace Collection

def start (size : Nat) : Collection :=
  ⟨[], [], (workerIds size).map fun (id : Nat) => ((id : Int), (0 : Int)), []⟩

def hasReport (c : Collection) (id : Int) : Bool := c.reports.any fun r => r.worker = id

def isComplete (c : Collection) (size : Nat) : Bool := size ≤ c.reports.length

/-- A later report of a worker replaces an earlier one. -/
def addReport (c : Collection) (r : Report) : Collection :=
  if c.hasReport r.worker then
    { c with reports := c.reports.map fun old => if old.worker = r.worker then r else old }
  else { c with reports := c.reports ++ [r] }

def addNotice (c : Collection) (n : Notice) : Collection :=
  { c with
    perWorker := c.perWorker.map fun (id, count) => if id = n.worker then (id, count + 1) else (id, count)
    skipped := c.skipped ++ (n.error.map fun e => ⟨n.path, e⟩).toList
    notices := c.notices ++ [n] }

/-- The first worker that is gone without a report. -/
def lost? (c : Collection) (size : Nat) (gone : List (Int × Option Int)) :
    Option (Int × Option Int) :=
  (workerIds size).findSome? fun (id : Nat) =>
    if c.hasReport id then none else (gone.lookup (id : Int)).map fun code => ((id : Int), code)

def step (c : Collection) (size : Nat) : Event → Except Problem Collection
  | .reply (.notice n) => .ok (c.addNotice n)
  | .reply (.report id store n) => .ok (c.addReport ⟨id, store, n⟩)
  | .reply (.failure id trace) => .error (.transport id trace none)
  | .reply (.other d) => .error (.transport (-1) ("unexpected reply: " ++ d.shown) none)
  | .idle gone =>
    match c.lost? size gone with
    | some (id, code) => .error (.transport id "worker exited before reporting" code)
    | none => .ok c

/-- Takes events until every worker has reported; none if the events end before that. -/
def collect (c : Collection) (size : Nat) (events : List Event) :
    Option (Except Problem Collection) :=
  if c.isComplete size then some (.ok c)
  else
    match events with
    | [] => none
    | e :: rest =>
      match c.step size e with
      | .ok c => c.collect size rest
      | .error p => some (.error p)

/-- The reports in the order of the workers. -/
def sortedReports (c : Collection) : List Report :=
  c.reports.mergeSort fun a b => a.worker ≤ b.worker

def outcome (c : Collection) (dispatched : Nat) : Outcome :=
  { store := Store.mergeAll (c.sortedReports.map Report.store)
    dispatched
    parsed := c.reports.foldr (fun r sum => (r.filesScanned : Int) + sum) 0
    skipped := c.skipped
    perWorker := c.perWorker
    missing := []
    elapsed := .zero }

end Collection

def skipWarning (s : Skipped) : String := s!"Skipping {s.path}: {s.reason}"

/-- The warning about a worker that does not end when it is told to. -/
def lingerWarning (id : Nat) : String := s!"Worker {id} did not exit, terminating"

/-- A census in which the workers reply in turn. Every worker replies to the end or fails. -/
def run (s : Settings) (cpus : Int) (files : FileTree) (paths : List String) :
    Except CensusFault Collection := do
  let size ← (size? (s.workers cpus) paths.length).mapError .unusable
  match s.waitFault? with
  | some fault => throw (.unusable fault)
  | none =>
    let collected := (Collection.start size).collect size (inTurn s files size paths)
    (collected.getD (.ok (.start size))).mapError .problem

end Pool

end StyleTally
