import StyleTally.Census.Source
import StyleTally.Settings.Use
import StyleTally.Tally.Classifier

/-!
# Workers

A worker answers messages one after the other with its own counts. A file that cannot be read or
parsed is skipped and changes nothing; whatever else goes wrong ends the worker.

The messages are given as a list of all that will ever come. A worker that reads from an inbox waits
where no message is there yet. A list that runs out before the worker is told to exit has nothing to
wait for, and ends the worker with a failure that no inbox gives.
-/

namespace StyleTally

inductive Message where
  | scan (path : String)
  | report
  | exit
  /-- A message of no kind that a worker knows. -/
  | other (d : Datum)

/-- A file that a worker has dealt with; the error tells why it was skipped. -/
structure Notice where
  worker : Int
  path : String
  error : Option String
  deriving DecidableEq, Repr

inductive Reply where
  | notice (n : Notice)
  | report (worker : Int) (store : Store) (filesScanned : Nat)
  | failure (worker : Int) (trace : String)
  /-- A reply of no kind that is provided for. -/
  | other (d : Datum)

/-- What ends a worker. -/
inductive Crash where
  /-- The list of messages has run out, and the worker has not been told to exit. With an inbox it
  would wait. -/
  | noMessage
  | unexpected (d : Datum)
  | setting (fault : UseFault)
  | source (fault : SourceFault)
  | store (fault : StoreFault)

namespace Crash

def describe : Crash → String
  | noMessage => "IndexError: pop from empty list"
  | setting fault => "TypeError: " ++ fault.message
  | unexpected d => "TypeError: unexpected message: " ++ d.shown
  | source (.unknownEncoding name) => "LookupError: " ++ (SourceFault.unknownEncoding name).message
  | source .noByteOrder => "UnicodeError: " ++ SourceFault.noByteOrder.message
  | source .badPath => "ValueError: " ++ SourceFault.badPath.message
  | source .badEncodingName => "ValueError: " ++ SourceFault.badEncodingName.message
  | source (.problem p) => p.kind ++ ": " ++ p.text
  | store (.frozen name) => (Problem.frozenStore name).kind ++ ": " ++ (Problem.frozenStore name).text
  | store fault => "KeyError: " ++ Text.quoted fault.key

/-- The report of a crash, cut to its first line and its last, which says what happened. The calls
that were under way, which a full report lists between the two, are left out. -/
def trace (c : Crash) : String := "Traceback (most recent call last):\n" ++ c.describe ++ "\n"

end Crash

structure Worker where
  id : Int
  encoding : Except UseFault (Option String)
  maxDepth : DepthLimit
  classifier : Classifier

namespace Worker

def start (id : Int) (s : Settings) : Worker :=
  ⟨id, s.encoding, s.depthLimit, .fresh s.scansStatements⟩

def parse (w : Worker) (files : FileTree) (path : String) : Except Crash Stylesheet.Sheet := do
  let encoding ← w.encoding.mapError .setting
  let source ← (readSource files encoding path).mapError .source
  (parseSheet w.maxDepth (some path) source).mapError fun p => .source (.problem p)

def scan (w : Worker) (files : FileTree) (path : String) : Except Crash (Worker × Notice) :=
  match w.parse files path with
  | .error (.source (.problem p)) => .ok (w, ⟨w.id, path, some p.text⟩)
  | .error crash => .error crash
  | .ok sheet =>
    match w.classifier.scan sheet with
    | .ok classifier => .ok ({ w with classifier }, ⟨w.id, path, none⟩)
    | .error fault => .error (.store fault)

/-- The replies to messages and the messages that are left when the worker ends. -/
structure Session where
  replies : List Reply
  unread : List Message

def Session.after (r : Reply) (s : Session) : Session := { s with replies := r :: s.replies }

/-- Serves messages to the end of their list, or until one ends the worker. -/
def serve (w : Worker) (files : FileTree) : List Message → Session
  | [] => ⟨[.failure w.id Crash.noMessage.trace], []⟩
  | .scan path :: rest =>
    match w.scan files path with
    | .ok (w, notice) => (w.serve files rest).after (.notice notice)
    | .error crash => ⟨[.failure w.id crash.trace], rest⟩
  | .report :: rest =>
    (w.serve files rest).after (.report w.id w.classifier.snapshot w.classifier.filesScanned)
  | .exit :: rest => ⟨[], rest⟩
  | .other d :: rest => ⟨[.failure w.id (Crash.unexpected d).trace], rest⟩

end Worker

end StyleTally
