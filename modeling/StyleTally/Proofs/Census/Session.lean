import StyleTally.Proofs.Census.Sequential
import StyleTally.Proofs.Census.Source

/-!
# Sessions of a worker

A worker answers the requests that it finds one after the other, each with one reply, until it is
told to exit or meets a message that it does not know. A report counts the files that were read and
parsed before it, and a file that was skipped leaves no trace. Only a fatal file ends a session
before its requests are answered.
-/

namespace StyleTally

open Stylesheet

/-- Whether a message asks for a reply. -/
def Message.isRequest : Message → Bool
  | scan _ | report => true
  | exit | other _ => false

/-- The paths of the files that messages ask to scan. -/
def Message.paths (messages : List Message) : List String :=
  messages.filterMap fun
    | scan path => some path
    | _ => none

theorem Message.paths_append (first second : List Message) :
    paths (first ++ second) = paths first ++ paths second := List.filterMap_append

/-- Whether a reply tells that a file was read and parsed. -/
def Reply.isSuccess : Reply → Bool
  | notice n => n.error.isNone
  | _ => false

namespace Pool

variable {s : Settings} {files : FileTree}

theorem isSuccess_noticeOf {path : String} {paths : List String} (id : Int)
    (h : Steady s files (path :: paths)) :
    (if (Reply.notice (noticeOf s files id path)).isSuccess then 1 else 0) =
      (sheets s files [path]).length := by
  obtain ⟨⟨sheet, hattempt⟩ | ⟨p, hattempt⟩, -⟩ := h.cons_cases
  · simp [Reply.isSuccess, noticeOf, reason?, sheets, hattempt, Except.toOption]
  · simp [Reply.isSuccess, noticeOf, reason?, sheets, hattempt, Except.toOption]

section Requests

variable {w : Worker} (hw : Follows s w) {requests : List Message}
  (hrequests : ∀ m ∈ requests, m.isRequest) (hsteady : Steady s files (Message.paths requests))
include hw hrequests hsteady

/-- A session answers its first requests one by one, and goes on as the worker that has dealt with
their files. -/
theorem serve_requests (rest : List Message) :
    ∃ answers : List Reply, answers.length = requests.length ∧
      answers.countP Reply.isSuccess = (sheets s files (Message.paths requests)).length ∧
      w.serve files (requests ++ rest) =
        ⟨answers ++ ((workerAfter s files w (Message.paths requests)).serve files rest).replies,
          ((workerAfter s files w (Message.paths requests)).serve files rest).unread⟩ := by
  induction requests generalizing w with
  | nil => exact ⟨[], rfl, rfl, rfl⟩
  | cons m requests ih =>
    have hmore : ∀ m ∈ requests, m.isRequest := fun m hm => hrequests m (List.mem_cons_of_mem _ hm)
    cases m with
    | scan path =>
      have hpaths : Message.paths (.scan path :: requests) = path :: Message.paths requests := rfl
      rw [hpaths] at hsteady
      obtain ⟨answers, hlength, hcount, hserve⟩ :=
        ih (hw.after files [path]) hmore hsteady.cons_cases.2
      refine ⟨.notice (noticeOf s files w.id path) :: answers, by simp [hlength], ?_, ?_⟩
      · rw [List.countP_cons, hcount, isSuccess_noticeOf w.id hsteady, hpaths,
          sheets_cons path (Message.paths requests), List.length_append, Nat.add_comm]
      · simp only [List.cons_append, Worker.serve, hw.scan_eq hsteady, hserve]
        rw [Worker.Session.after, hpaths, workerAfter_cons s files w path (Message.paths requests)]
    | report =>
      have hpaths : Message.paths (.report :: requests) = Message.paths requests := rfl
      rw [hpaths] at hsteady
      obtain ⟨answers, hlength, hcount, hserve⟩ := ih hw hmore hsteady
      refine ⟨.report w.id w.classifier.snapshot w.classifier.filesScanned :: answers,
        by simp [hlength], ?_, ?_⟩
      · rw [List.countP_cons, hcount, hpaths]
        rfl
      · simp only [List.cons_append, Worker.serve, hserve]
        rw [Worker.Session.after, hpaths]
    | exit => exact absurd (hrequests .exit List.mem_cons_self) (by decide)
    | other d => exact absurd (hrequests (.other d) List.mem_cons_self) Bool.false_ne_true

/-- The reply to a request is the first one of the worker that has dealt with the files before it,
and the files that were read and parsed are as many as the replies that tell of it. -/
theorem serve_at (rest : List Message) {i : Nat} {m : Message} (hi : requests[i]? = some m) :
    Steady s files (Message.paths [m]) ∧
      ((w.serve files (requests ++ rest)).replies.take i).countP Reply.isSuccess =
        (sheets s files (Message.paths (requests.take i))).length ∧
      ∃ later, (w.serve files (requests ++ rest)).replies[i]? =
        ((workerAfter s files w (Message.paths (requests.take i))).serve files
          (m :: later)).replies.head? := by
  obtain ⟨hlt, hm⟩ := List.getElem?_eq_some_iff.mp hi
  have hsplit : requests = requests.take i ++ m :: requests.drop (i + 1) := by
    rw [← hm, ← List.drop_eq_getElem_cons hlt, List.take_append_drop]
  have hfront : ∀ m ∈ requests.take i, m.isRequest := fun m hm =>
    hrequests m (List.mem_of_mem_take hm)
  rw [hsplit, Message.paths_append] at hsteady
  have hbefore : Steady s files (Message.paths (requests.take i)) := fun path hpath =>
    hsteady path (List.mem_append_left _ hpath)
  have hone : Steady s files (Message.paths [m]) := by
    intro path hpath
    apply hsteady path (List.mem_append_right _ _)
    rw [← List.singleton_append, Message.paths_append]
    exact List.mem_append_left _ hpath
  obtain ⟨answers, hlength, hcount, hserve⟩ :=
    serve_requests hw hfront hbefore (m :: (requests.drop (i + 1) ++ rest))
  have hmessages : requests ++ rest = requests.take i ++ m :: (requests.drop (i + 1) ++ rest) := by
    rw [← List.cons_append, ← List.append_assoc, ← hsplit]
  have hanswers : answers.length = i := by
    rw [hlength, List.length_take]
    omega
  rw [hmessages, hserve]
  refine ⟨hone, ?_, requests.drop (i + 1) ++ rest, ?_⟩
  · rw [List.take_left' hanswers, hcount]
  · rw [List.getElem?_append_right (Nat.le_of_eq hanswers), hanswers, Nat.sub_self,
      List.head?_eq_getElem?]

end Requests

section Sessions

variable {e : Text.Encoding} (hknown : s.Reads e) (id : Int)
include hknown

/-- The first fatal file ends a session with a failure; what comes after it stays unread. -/
theorem session_fatal {requests : List Message} (hrequests : ∀ m ∈ requests, m.isRequest)
    (hfatal : ∀ path ∈ Message.paths requests, ¬ Fatal e files path) {path : String}
    (hpath : Fatal e files path) (rest : List Message) :
    ∃ (answers : List Reply) (crash : Crash), answers.length = requests.length ∧
      attempt s files path = .error crash ∧
      (Worker.start id s).serve files (requests ++ .scan path :: rest) =
        ⟨answers ++ [.failure id crash.trace], rest⟩ := by
  have hw := follows_start s id
  obtain ⟨answers, hlength, -, hserve⟩ :=
    serve_requests hw hrequests (steady_of_not_fatal hknown hfatal) (.scan path :: rest)
  obtain ⟨crash, hcrash, hproblem⟩ := (fatal_iff hknown path).mp hpath
  have hscan : (workerAfter s files (Worker.start id s) (Message.paths requests)).scan files path =
      .error crash := by
    rw [Worker.scan, (hw.after files (Message.paths requests)).parse_eq, hcrash]
    split
    · rename_i p hp
      exact absurd (Except.error.inj hp) (hproblem p)
    · rename_i hp
      cases hp
      rfl
    · rename_i hp
      cases hp
  refine ⟨answers, crash, hlength, hcrash, ?_⟩
  rw [hserve, Worker.serve, hscan]
  rfl

/-- In one of the seven encodings, a worker that meets no fatal file answers every request once and
in order: a scan with what came of the file, a report with what one classifier counts in the files
read and parsed so far. It ends without a reply where it is told to, and with a failure where it
does not know a message; what comes after stays unread. -/
theorem session_exact (messages : List Message)
    (hfatal : ∀ path ∈ Message.paths (messages.takeWhile Message.isRequest),
      ¬ Fatal e files path) :
    let requests := messages.takeWhile Message.isRequest
    let session := (Worker.start id s).serve files messages
    (∀ (i : Nat) path, requests[i]? = some (.scan path) →
      ∃ error?, session.replies[i]? = some (.notice ⟨id, path, error?⟩) ∧
        ((∃ sheet, attempt s files path = .ok sheet ∧ error? = none) ∨
          ∃ p, attempt s files path = .error (.source (.problem p)) ∧ error? = some p.text)) ∧
    (∀ i : Nat, requests[i]? = some .report →
      ∃ c, (sheets s files (Message.paths (requests.take i))).foldlM Classifier.scan
          (.fresh s.scansStatements) = .ok c ∧
        session.replies[i]? =
          some (.report id c.snapshot ((session.replies.take i).countP Reply.isSuccess))) ∧
    (∀ rest, messages = requests ++ .exit :: rest →
      session.replies.length = requests.length ∧ session.unread = rest) ∧
    ∀ d rest, messages = requests ++ .other d :: rest →
      session.replies.drop requests.length = [.failure id (Crash.unexpected d).trace] ∧
        session.unread = rest := by
  intro requests session
  have hw := follows_start s id
  have hrequests : ∀ m ∈ requests, m.isRequest := List.all_eq_true.mp List.all_takeWhile
  have hsteady : Steady s files (Message.paths requests) := steady_of_not_fatal hknown hfatal
  have hmessages : requests ++ messages.dropWhile Message.isRequest = messages :=
    List.takeWhile_append_dropWhile
  refine ⟨?_, ?_, ?_, ?_⟩
  · intro i path hi
    obtain ⟨hone, -, later, hreply⟩ :=
      serve_at hw hrequests hsteady (messages.dropWhile Message.isRequest) hi
    have hscan := (hw.after files (Message.paths (requests.take i))).scan_eq hone
    rw [hmessages] at hreply
    refine ⟨reason? s files path, ?_, ?_⟩
    · rw [hreply, Worker.serve, hscan]
      rfl
    · obtain ⟨⟨sheet, hattempt⟩ | ⟨p, hattempt⟩, -⟩ := hone.cons_cases
      · exact .inl ⟨sheet, hattempt, by simp [reason?, hattempt]⟩
      · exact .inr ⟨p, hattempt, by simp [reason?, hattempt]⟩
  · intro i hi
    obtain ⟨-, hcount, later, hreply⟩ :=
      serve_at hw hrequests hsteady (messages.dropWhile Message.isRequest) hi
    have hscanned := filesScanned_workerAfter s files (Worker.start id s)
      (Message.paths (requests.take i))
    rw [hmessages] at hcount hreply
    refine ⟨_, foldlM_scan s _, ?_⟩
    rw [hcount, hreply, Worker.serve, Worker.Session.after, List.head?_cons, hscanned]
    exact congrArg (fun n => some (Reply.report id _ n)) (Nat.zero_add _)
  · intro rest hexit
    obtain ⟨answers, hlength, -, hserve⟩ := serve_requests hw hrequests hsteady (.exit :: rest)
    rw [← hexit, Worker.serve, List.append_nil] at hserve
    exact ⟨(congrArg (·.replies.length) hserve).trans hlength, congrArg (·.unread) hserve⟩
  · intro d rest hother
    obtain ⟨answers, hlength, -, hserve⟩ := serve_requests hw hrequests hsteady (.other d :: rest)
    rw [← hother, Worker.serve] at hserve
    refine ⟨?_, congrArg (·.unread) hserve⟩
    have hreplies : session.replies = answers ++ [.failure id (Crash.unexpected d).trace] :=
      congrArg (·.replies) hserve
    rw [hreplies, ← hlength, List.drop_left]

end Sessions

/-- A report before and one after two files, the second of which does not parse, and a message that
is not known. -/
theorem session_exact_sample : Settings.standard.Reads .utf8 ∧
    let session := (Worker.start 0 .standard).serve sampleFiles
      [.report, .scan "a.less", .scan "b.less", .report, .other .nothing, .exit]
    ∃ c, (sheets .standard sampleFiles ["a.less", "b.less"]).foldlM Classifier.scan
        (.fresh false) = .ok c ∧
      session.replies[3]? =
        some (.report 0 c.snapshot ((session.replies.take 3).countP Reply.isSuccess)) ∧
      session.replies.drop 4 = [.failure 0 (Crash.unexpected .nothing).trace] ∧
      session.unread = [.exit] := by
  have hfatal : ∀ path ∈ ["a.less", "b.less"], ¬ Fatal .utf8 sampleFiles path := by
    intro path hpath
    rw [fatal_iff_of_ne_utf16 (by decide)]
    revert path
    decide
  obtain ⟨-, hreport, -, hother⟩ := session_exact Settings.reads_standard 0
    [.report, .scan "a.less", .scan "b.less", .report, .other .nothing, .exit] hfatal
  obtain ⟨c, hc, hreply⟩ := hreport 3 rfl
  obtain ⟨hlast, hunread⟩ := hother .nothing [.exit] rfl
  exact ⟨Settings.reads_standard, c, hc, hreply, hlast, hunread⟩

/-- A file of two units of two bytes, without a mark of their order. -/
def unmarkedFiles : FileTree := ⟨[(["a.less"], .file [97, 123, 125, 10])]⟩

/-- The settings of a census that reads units of two bytes. -/
def unitSettings : Settings := Settings.standard.set .encoding (.text "utf-16")

/-- A file that cannot be decoded is not skipped: the worker ends at it and answers nothing else. -/
theorem session_unmarked : unitSettings.Reads .utf16 ∧
    unmarkedFiles.read "a.less" = .ok [97, 123, 125, 10] ∧
    (Worker.start 0 unitSettings).serve unmarkedFiles [.scan "a.less", .report, .exit] =
      ⟨[.failure 0 (Crash.source .noByteOrder).trace], [.report, .exit]⟩ := by
  have hknown : unitSettings.Reads .utf16 := ⟨some "utf-16", rfl, by decide, rfl⟩
  have hwalk : unmarkedFiles.walk false FileTree.maxLinks [] ["a.less"] = .ok (.taken ["a.less"]) := by
    rw [FileTree.walk.eq_def]
    rfl
  have hread : unmarkedFiles.read "a.less" = .ok [97, 123, 125, 10] := by
    have hplace : unmarkedFiles.place false "a.less" = .ok (.taken ["a.less"]) := hwalk
    rw [FileTree.read, FileTree.find, hplace]
    rfl
  have hattempt : attempt unitSettings unmarkedFiles "a.less" = .error (.source .noByteOrder) := by
    have hencoding : unitSettings.encoding = .ok (some "utf-16") := rfl
    rw [attempt_eq hencoding, readSource, hread]
    rfl
  refine ⟨hknown, hread, ?_⟩
  have hnone : ∀ m ∈ ([] : List Message), m.isRequest := by simp
  obtain ⟨answers, crash, hlength, hcrash, hserve⟩ :=
    session_fatal hknown 0 hnone (by simp [Message.paths]) (.inr ⟨_, hread, rfl⟩) [.report, .exit]
  obtain rfl := List.eq_nil_of_length_eq_zero hlength
  rw [hattempt] at hcrash
  cases hcrash
  exact hserve

end Pool

end StyleTally
