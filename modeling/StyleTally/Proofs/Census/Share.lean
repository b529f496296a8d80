import StyleTally.Census.Pool
import StyleTally.Proofs.Tally.Counting

/-!
# The shares of the workers

The paths of a census fall to its workers in turn, and each path to one of them. A worker answers
for its paths one after the other, and its report counts what the files hold that it could read and
parse.
-/

namespace StyleTally.Pool

open Stylesheet

section Shares

theorem filter_lt_succ_perm {α : Type} (key : α → Nat) (n : Nat) (as : List α) :
    (as.filter fun a => key a < n + 1).Perm
      ((as.filter fun a => key a < n) ++ as.filter fun a => key a = n) := by
  have hsplit := (as.filter fun a => key a < n + 1).filter_append_perm fun a => decide (key a < n)
  rw [List.filter_filter, List.filter_filter] at hsplit
  have hbelow : (as.filter fun a => decide (key a < n) && decide (key a < n + 1)) =
      as.filter fun a => key a < n := by
    apply List.filter_congr
    intro a _
    rw [← Bool.decide_and]
    apply decide_eq_decide.mpr
    omega
  have hat : (as.filter fun a => (!decide (key a < n)) && decide (key a < n + 1)) =
      as.filter fun a => key a = n := by
    apply List.filter_congr
    intro a _
    rw [← decide_not, ← Bool.decide_and]
    apply decide_eq_decide.mpr
    omega
  rw [hbelow, hat] at hsplit
  exact hsplit.symm

/-- What is sorted into heaps by a key is all there. -/
theorem flatMap_filter_perm {α : Type} (key : α → Nat) (n : Nat) (as : List α) :
    ((List.range n).flatMap fun i => as.filter fun a => key a = i).Perm
      (as.filter fun a => key a < n) := by
  induction n with
  | zero => simp
  | succ n ih =>
    rw [List.range_succ, List.flatMap_append, List.flatMap_singleton]
    apply (ih.append_right _).trans
    exact (filter_lt_succ_perm key n as).symm

/-- The shares of all workers are all paths. -/
theorem share_perm {size : Nat} (hsize : 0 < size) (paths : List String) :
    ((workerIds size).flatMap fun id => share size id paths).Perm paths := by
  have hheaps := flatMap_filter_perm (fun p : String × Nat => p.2 % size) size paths.zipIdx
  have hall : (paths.zipIdx.filter fun p => p.2 % size < size) = paths.zipIdx := by
    apply List.filter_eq_self.mpr
    intro p _
    exact decide_eq_true (Nat.mod_lt _ hsize)
  have hpaths := hheaps.map Prod.fst
  rw [hall, List.zipIdx_map_fst, List.map_flatMap] at hpaths
  exact hpaths

theorem sum_range_ite (n w k : Nat) :
    ((List.range n).map fun id => if id = w then k else 0).sum = if w < n then k else 0 := by
  induction n with
  | zero => rfl
  | succ n ih =>
    rw [List.range_succ, List.map_append, List.sum_append_nat, ih, List.map_singleton,
      List.sum_singleton]
    by_cases hw : n = w
    · subst hw
      simp
    · have hiff : w < n ↔ w < n + 1 := by omega
      simp [hw, hiff]

theorem length_share (size id : Nat) (paths : List String) :
    (share size id paths).length = (List.range paths.length).countP fun i => i % size = id := by
  have hplaces : List.range paths.length = paths.zipIdx.map Prod.snd := by
    rw [List.zipIdx_map_snd, List.range_eq_range']
  rw [share, List.length_map, ← List.countP_eq_length_filter, hplaces, List.countP_map]
  rfl

end Shares

variable (s : Settings) (files : FileTree)

/-- What every worker makes of a path. -/
def attempt (path : String) : Except Crash Sheet := (Worker.start 0 s).parse files path

/-- No path ends a worker: every file is read and parsed, or skipped for a problem of its own. -/
def Steady (paths : List String) : Prop :=
  ∀ path ∈ paths, ∀ crash, attempt s files path = .error crash → ∃ p, crash = .source (.problem p)

/-- Why a path is skipped, if it is. -/
def reason? (path : String) : Option String :=
  match attempt s files path with
  | .error (.source (.problem p)) => some p.text
  | _ => none

/-- The stylesheets of the files that are read and parsed, in the order of their paths. -/
def sheets (paths : List String) : List Sheet :=
  paths.filterMap fun path => (attempt s files path).toOption

/-- The files that are skipped, in the order of their paths. -/
def skipped (paths : List String) : List Skipped :=
  paths.filterMap fun path => (reason? s files path).map fun reason => ⟨path, reason⟩

section Attempts

variable {s files} {path : String} {paths : List String}

/-- The first of several paths is read and parsed or skipped, and so are the others. -/
theorem Steady.cons_cases (h : Steady s files (path :: paths)) :
    ((∃ sheet, attempt s files path = .ok sheet) ∨
      ∃ p, attempt s files path = .error (.source (.problem p))) ∧ Steady s files paths := by
  have hrest : Steady s files paths := fun p hp => h p (List.mem_cons_of_mem _ hp)
  refine ⟨?_, hrest⟩
  cases hattempt : attempt s files path with
  | ok sheet => exact .inl ⟨sheet, rfl⟩
  | error crash =>
    obtain ⟨p, rfl⟩ := h path List.mem_cons_self crash hattempt
    exact .inr ⟨p, rfl⟩

theorem sheets_cons (path : String) (paths : List String) :
    sheets s files (path :: paths) = sheets s files [path] ++ sheets s files paths :=
  List.filterMap_append (l := [path])

theorem sheets_parsed {sheet : Sheet} (h : attempt s files path = .ok sheet) :
    sheets s files (path :: paths) = sheet :: sheets s files paths := by
  simp [sheets, h, Except.toOption]

theorem sheets_passed {crash : Crash} (h : attempt s files path = .error crash) :
    sheets s files (path :: paths) = sheets s files paths := by
  simp [sheets, h, Except.toOption]

theorem skipped_parsed {sheet : Sheet} (h : attempt s files path = .ok sheet) :
    skipped s files (path :: paths) = skipped s files paths := by
  simp [skipped, reason?, h]

theorem skipped_passed {p : Problem} (h : attempt s files path = .error (.source (.problem p))) :
    skipped s files (path :: paths) = ⟨path, p.text⟩ :: skipped s files paths := by
  simp [skipped, reason?, h]

/-- Every file is read and parsed or skipped. -/
theorem length_sheets_skipped (hsteady : Steady s files paths) :
    (sheets s files paths).length + (skipped s files paths).length = paths.length := by
  induction paths with
  | nil => rfl
  | cons path paths ih =>
    obtain ⟨hhead, hrest⟩ := hsteady.cons_cases
    have hlength := ih hrest
    rcases hhead with ⟨sheet, hattempt⟩ | ⟨p, hattempt⟩
    · rw [sheets_parsed hattempt, skipped_parsed hattempt, List.length_cons, List.length_cons]
      omega
    · rw [sheets_passed hattempt, skipped_passed hattempt, List.length_cons, List.length_cons]
      omega

end Attempts

section Workers

/-- The answer of a worker to a path. -/
def noticeOf (id : Int) (path : String) : Notice := ⟨id, path, reason? s files path⟩

/-- The classifier after stylesheets. -/
def classified (sheets : List Sheet) : Classifier :=
  sheets.foldl Classifier.scanned (.fresh s.scansStatements)

/-- The report of a worker on its share of the paths. -/
def reportOf (id : Nat) (paths : List String) : Report :=
  ⟨id, (classified s (sheets s files paths)).snapshot, (sheets s files paths).length⟩

/-- A worker of a census, which has counted some stylesheets. -/
structure Follows (w : Worker) : Prop where
  encoding : w.encoding = s.encoding
  depth : w.maxDepth = s.depthLimit
  unfrozen : w.classifier.store.frozen = false

theorem follows_start (id : Int) : Follows s (Worker.start id s) := ⟨rfl, rfl, rfl⟩

/-- The worker when it has dealt with the files at paths. -/
def workerAfter (w : Worker) (paths : List String) : Worker :=
  { w with classifier := (sheets s files paths).foldl Classifier.scanned w.classifier }

theorem workerAfter_cons (w : Worker) (path : String) (paths : List String) :
    workerAfter s files w (path :: paths) =
      workerAfter s files (workerAfter s files w [path]) paths := by
  rw [workerAfter, sheets_cons, List.foldl_append]
  rfl

theorem filesScanned_workerAfter (w : Worker) (paths : List String) :
    (workerAfter s files w paths).classifier.filesScanned =
      w.classifier.filesScanned + (sheets s files paths).length := by
  have hfold (sheets : List Sheet) (c : Classifier) :
      (sheets.foldl Classifier.scanned c).filesScanned = c.filesScanned + sheets.length := by
    induction sheets generalizing c with
    | nil => rfl
    | cons sheet sheets ih =>
      have hscanned : (c.scanned sheet).filesScanned = c.filesScanned + 1 := rfl
      rw [List.foldl_cons, ih, hscanned, List.length_cons]
      omega
  exact hfold _ w.classifier

variable {s files} {w : Worker} (hw : Follows s w)
include hw

theorem Follows.after (files : FileTree) (paths : List String) :
    Follows s (workerAfter s files w paths) := by
  refine ⟨hw.encoding, hw.depth, ?_⟩
  rw [workerAfter, Classifier.store_foldl_scanned, Store.frozen_record]
  exact hw.unfrozen

theorem Follows.parse_eq (path : String) : w.parse files path = attempt s files path := by
  rw [attempt, Worker.parse, Worker.parse, hw.encoding, hw.depth]
  rfl

/-- A worker counts a file that is read and parsed, and nothing else. -/
theorem Follows.scan_eq {path : String} {paths : List String}
    (hsteady : Steady s files (path :: paths)) :
    w.scan files path = .ok (workerAfter s files w [path], noticeOf s files w.id path) := by
  obtain ⟨⟨sheet, hattempt⟩ | ⟨p, hattempt⟩, -⟩ := hsteady.cons_cases
  · simp only [Worker.scan, hw.parse_eq, hattempt, Classifier.scan_eq hw.unfrozen, workerAfter,
      sheets_parsed hattempt, noticeOf, reason?]
    rfl
  · simp only [Worker.scan, hw.parse_eq, hattempt, workerAfter, sheets_passed hattempt, noticeOf,
      reason?]
    rfl

/-- A worker answers for its paths one after the other and reports on all of them. -/
theorem Follows.serve_eq {paths : List String} (hsteady : Steady s files paths) :
    (w.serve files (paths.map .scan ++ [.report, .exit])).replies =
      paths.map (fun path => .notice (noticeOf s files w.id path)) ++
        [.report w.id (workerAfter s files w paths).classifier.snapshot
          (workerAfter s files w paths).classifier.filesScanned] := by
  induction paths generalizing w with
  | nil => rfl
  | cons path paths ih =>
    have hnext := ih (hw.after files [path]) hsteady.cons_cases.2
    rw [workerAfter_cons]
    simp only [List.map_cons, List.cons_append, Worker.serve, hw.scan_eq hsteady]
    rw [Worker.Session.after, hnext]
    rfl

omit hw
variable (s files)

theorem replies_eq {size id : Nat} {paths : List String}
    (hsteady : Steady s files (share size id paths)) :
    replies s files size id paths =
      (share size id paths).map (fun path => .notice (noticeOf s files id path)) ++
        [.report id (reportOf s files id (share size id paths)).store
          (reportOf s files id (share size id paths)).filesScanned] := by
  have hserve := (follows_start s id).serve_eq hsteady
  rw [filesScanned_workerAfter] at hserve
  have hzero (n : Nat) : (Worker.start id s).classifier.filesScanned + n = n := Nat.zero_add n
  rw [hzero] at hserve
  exact hserve

end Workers

end StyleTally.Pool
