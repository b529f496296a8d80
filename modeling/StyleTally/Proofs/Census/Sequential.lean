import StyleTally.Proofs.Census.Schedule
import StyleTally.Proofs.Census.Share
import StyleTally.Proofs.Tally.Merging

/-!
# A census and a scan in turn

A census counts what one classifier counts that scans the same files one after the other, for
every number of workers and every order of their replies. It answers for every file, and each
worker for the files that fall to it.
-/

namespace StyleTally.Pool

open Stylesheet

variable (s : Settings) (files : FileTree)

theorem store_classified (sheets : List Sheet) :
    (classified s sheets).store = Store.ofSheets s.scansStatements sheets :=
  Classifier.store_foldl_scanned _ sheets

theorem sheets_share_perm {size : Nat} (hsize : 0 < size) (paths : List String) :
    ((workerIds size).flatMap fun id => sheets s files (share size id paths)).Perm
      (sheets s files paths) := by
  have hshares := (share_perm hsize paths).filterMap fun path => (attempt s files path).toOption
  rw [List.filterMap_flatMap] at hshares
  exact hshares

theorem sum_natCast {α : Type} (f : α → Nat) (as : List α) :
    (as.map fun a => ((f a : Nat) : Int)).sum = (((as.map f).sum : Nat) : Int) := by
  induction as with
  | nil => rfl
  | cons a as ih =>
    rw [List.map_cons, List.sum_cons, ih, List.map_cons, List.sum_cons]
    omega

/-- A pool has a worker. -/
theorem size?_pos {workers : Datum} {tasks size : Nat} (h : size? workers tasks = .ok size) :
    0 < size := by
  unfold size? at h
  split at h
  · split at h
    · cases h
      omega
    · split at h
      · cases h
      · cases h
        decide
  · cases h
    rw [Pool.size]
    omega
  · cases h
    decide

/-- The replies of all workers, each in its own order. -/
def queues (size : Nat) (paths : List String) : List (List Reply) :=
  (workerIds size).map fun id => replies s files size id paths

/-- Reports that have come in any order are sorted into the order of the workers. -/
theorem sortedReports_eq {c : Collection} {size : Nat} {report : Nat → Report}
    (hworker : ∀ id, (report id).worker = id)
    (h : c.reports.Perm ((workerIds size).map report)) :
    c.sortedReports = (workerIds size).map report := by
  have hperm : c.sortedReports.Perm ((workerIds size).map report) :=
    (List.mergeSort_perm _ _).trans h
  have hsorted : c.sortedReports.Pairwise fun a b => a.worker ≤ b.worker := by
    apply (List.pairwise_mergeSort _ _ c.reports).imp
    · intro a b hab
      exact decide_eq_true_iff.mp hab
    · intro a b d hab hbd
      simp only [decide_eq_true_eq] at hab hbd ⊢
      omega
    · intro a b
      simp only [Bool.or_eq_true, decide_eq_true_eq]
      omega
  have hworkers : ((workerIds size).map report).Pairwise fun a b => a.worker ≤ b.worker := by
    apply List.Pairwise.map _ _ List.pairwise_lt_range
    intro a b hab
    rw [hworker, hworker]
    omega
  apply hperm.eq_of_pairwise _ hsorted hworkers
  -- Reports of one worker are one report.
  intro a b ha hb hab hba
  obtain ⟨i, -, rfl⟩ := List.mem_map.mp (hperm.mem_iff.mp ha)
  obtain ⟨j, -, rfl⟩ := List.mem_map.mp hb
  rw [hworker, hworker] at hab hba
  have hij : i = j := by omega
  rw [hij]

section Replies

variable {s files} {size : Nat} {paths : List String} (hsteady : Steady s files paths)

theorem share_subset (id : Nat) : share size id paths ⊆ paths := by
  have hsublist : List.Sublist (share size id paths) (paths.zipIdx.map Prod.fst) :=
    List.filter_sublist.map Prod.fst
  rw [List.zipIdx_map_fst] at hsublist
  exact hsublist.subset

include hsteady

theorem steady_share (id : Nat) : Steady s files (share size id paths) :=
  fun path hpath => hsteady path (share_subset id hpath)

theorem queues_answer : ∀ q ∈ queues s files size paths, q = [] ∨ Answers q := by
  intro q hq
  obtain ⟨id, -, rfl⟩ := List.mem_map.mp hq
  right
  refine ⟨(share size id paths).map (noticeOf s files id), reportOf s files id (share size id paths), ?_⟩
  rw [replies_eq s files (steady_share hsteady id), List.map_map]
  rfl

theorem noticesOf_queues : noticesOf (queues s files size paths).flatten =
    (workerIds size).flatMap fun id => (share size id paths).map (noticeOf s files id) := by
  rw [queues, ← List.flatMap_def, noticesOf, List.filterMap_flatMap]
  apply List.flatMap_congr
  intro id _
  rw [replies_eq s files (steady_share hsteady id), List.filterMap_append, List.filterMap_map]
  simp

theorem reportsOf_queues : reportsOf (queues s files size paths).flatten =
    (workerIds size).map fun id => reportOf s files id (share size id paths) := by
  rw [queues, ← List.flatMap_def, reportsOf, List.filterMap_flatMap, List.map_eq_flatMap]
  apply List.flatMap_congr
  intro id _
  rw [replies_eq s files (steady_share hsteady id), List.filterMap_append, List.filterMap_map]
  simp [reportOf]

variable {all : List Reply} (hall : all.Perm (queues s files size paths).flatten)
include hall

theorem noticesOf_perm : (noticesOf all).Perm
    ((workerIds size).flatMap fun id => (share size id paths).map (noticeOf s files id)) := by
  have hperm : (noticesOf all).Perm (noticesOf (queues s files size paths).flatten) :=
    hall.filterMap _
  rw [noticesOf_queues hsteady] at hperm
  exact hperm

theorem reportsOf_perm : (reportsOf all).Perm
    ((workerIds size).map fun id => reportOf s files id (share size id paths)) := by
  have hperm : (reportsOf all).Perm (reportsOf (queues s files size paths).flatten) :=
    hall.filterMap _
  rw [reportsOf_queues hsteady] at hperm
  exact hperm

theorem nodup_reports :
    (((Collection.start size).reports ++ reportsOf all).map Report.worker).Nodup := by
  have hworkers := (reportsOf_perm hsteady hall).map Report.worker
  rw [List.map_map] at hworkers
  apply hworkers.nodup_iff.mpr
  apply List.Pairwise.map _ _ List.nodup_range
  intro a b hab hworker
  have heq : (a : Int) = b := hworker
  omega

/-- What has been taken in when all replies have. -/
theorem reports_perm : ((all.foldl Collection.absorb (.start size)).reports).Perm
    ((workerIds size).map fun id => reportOf s files id (share size id paths)) := by
  rw [Collection.reports_absorbed (nodup_reports hsteady hall)]
  exact reportsOf_perm hsteady hall

theorem skipped_perm (hsize : 0 < size) :
    (all.foldl Collection.absorb (.start size)).skipped.Perm (skipped s files paths) := by
  rw [Collection.skipped_absorbed]
  have hnotices := (noticesOf_perm hsteady hall).flatMap_right Collection.skippedOf
  have hpath (id : Nat) (path : String) : Collection.skippedOf (noticeOf s files id path) =
      ((reason? s files path).map fun reason => ⟨path, reason⟩).toList := rfl
  simp only [List.flatMap_assoc, List.flatMap_map, hpath] at hnotices
  rw [← List.flatMap_assoc] at hnotices
  have hshares := (share_perm hsize paths).flatMap_right fun path =>
    ((reason? s files path).map fun reason => (⟨path, reason⟩ : Skipped)).toList
  rw [skipped, List.filterMap_eq_flatMap_toList]
  exact hnotices.trans hshares

/-- Each worker has answered for the paths that fall to it. -/
theorem perWorker_eq : (all.foldl Collection.absorb (.start size)).perWorker =
    (List.range size).map fun (w : Nat) => ((w : Int),
      (((List.range paths.length).countP fun i => i % size = w : Nat) : Int)) := by
  rw [Collection.perWorker_absorbed, Collection.start, List.map_map]
  apply List.map_congr_left
  intro w hw
  have hnotices : ((noticesOf all).countP fun notice => (w : Int) = notice.worker) =
      (share size w paths).length := by
    rw [(noticesOf_perm hsteady hall).countP_eq, List.countP_flatMap]
    have hcount : (List.countP (fun notice : Notice => (w : Int) = notice.worker)) ∘
        (fun id : Nat => (share size id paths).map (noticeOf s files id)) =
          fun id => if id = w then (share size w paths).length else 0 := by
      funext id
      rw [Function.comp, List.countP_map]
      by_cases hid : id = w
      · subst hid
        simp [noticeOf, Function.comp_def]
      · have hne : (w : Int) ≠ id := by omega
        simp [noticeOf, Function.comp_def, hid, hne]
    rw [hcount, workerIds, sum_range_ite, if_pos (List.mem_range.mp hw)]
  simp only [Function.comp, hnotices, length_share, Int.zero_add]

/-- The store of a census is put together from those of the workers, in their order. -/
theorem store_outcome (dispatched : Nat) :
    ((all.foldl Collection.absorb (.start size)).outcome dispatched).store =
      Store.mergeAll ((workerIds size).map fun w =>
        (classified s (sheets s files (share size w paths))).store) := by
  have hsorted := sortedReports_eq (fun _ => rfl) (reports_perm hsteady hall)
  rw [Collection.outcome, hsorted, List.map_map, Store.mergeAll, Store.mergeAll, List.foldl_map,
    List.foldl_map]
  rfl

/-- All that was read and parsed is counted, in whatever order the reports come. -/
theorem count_outcome (hsize : 0 < size) (part : Section) (key : String) :
    ((all.foldl Collection.absorb (.start size)).outcome paths.length).store.count part key =
      (classified s (sheets s files paths)).store.count part key := by
  have hstores : ((workerIds size).map fun w =>
      (classified s (sheets s files (share size w paths))).store) =
        ((workerIds size).map fun w => sheets s files (share size w paths)).map
          (Store.ofSheets s.scansStatements) := by
    simp only [store_classified, List.map_map, Function.comp_def]
  have hagrees := Store.agrees_ofSheets s.scansStatements (sheets_share_perm s files hsize paths)
  rw [store_outcome hsteady hall, hstores, Store.mergeAll_ofSheets, ← List.flatMap_def,
    store_classified]
  exact (Store.agrees_iff _ _).mp hagrees part key

theorem parsed_outcome (hsize : 0 < size) :
    ((all.foldl Collection.absorb (.start size)).outcome paths.length).parsed =
      (sheets s files paths).length := by
  have hsum := ((reports_perm hsteady hall).map fun r => (r.filesScanned : Int)).sum_eq
  have hlength := (sheets_share_perm s files hsize paths).length_eq
  rw [List.length_flatMap] at hlength
  have hfoldr (reports : List Report) :
      reports.foldr (fun r sum => (r.filesScanned : Int) + sum) 0 =
        (reports.map fun r => (r.filesScanned : Int)).sum := by
    induction reports with
    | nil => rfl
    | cons r reports ih => rw [List.foldr_cons, ih, List.map_cons, List.sum_cons]
  rw [Collection.outcome, hfoldr, hsum, List.map_map, ← hlength, ← sum_natCast]
  rfl

end Replies

theorem foldlM_scan (s : Settings) (sheets : List Sheet) :
    sheets.foldlM Classifier.scan (.fresh s.scansStatements) = .ok (classified s sheets) :=
  Classifier.foldlM_scan_eq rfl sheets

/-- The outcome of a census whose replies arrive as the events say. -/
def outcome? (size : Nat) (paths : List String) (events : List Event) :
    Option (Except Problem Outcome) :=
  ((Collection.start size).collect size events).map fun collected =>
    collected.map fun c => c.outcome paths.length

section Outcomes

variable {s files} {paths : List String} (hsteady : Steady s files paths)
include hsteady

/-- Whatever the schedule, a census takes in all replies. -/
theorem collect_queues {size : Nat} {events : List Event}
    (h : Schedule (queues s files size paths) events) :
    (Collection.start size).collect size events =
      some (.ok ((arrived events).foldl Collection.absorb (.start size))) := by
  have hall := h.arrived_perm
  have hsize : (Collection.start size).reports.length + (reportsOf (arrived events)).length = size := by
    have hlength := (reportsOf_perm hsteady hall).length_eq
    rw [List.length_map, workerIds, List.length_range] at hlength
    rw [hlength]
    exact Nat.zero_add size
  exact h.collect_eq (queues_answer hsteady) (nodup_reports hsteady hall) hsize

theorem outcome?_eq {size : Nat} {events : List Event}
    (h : Schedule (queues s files size paths) events) :
    outcome? size paths events = some (.ok
      (((arrived events).foldl Collection.absorb (.start size)).outcome paths.length)) := by
  rw [outcome?, collect_queues hsteady h]
  rfl

/-- A census counts what one classifier counts in the files that are read and parsed, and answers
for all files, however many workers there are and in whatever order their replies arrive. -/
theorem census_sequential :
    ∃ c, (sheets s files paths).foldlM Classifier.scan (.fresh s.scansStatements) = .ok c ∧
      (∀ size events, 0 < size → Schedule (queues s files size paths) events →
        ∃ o, outcome? size paths events = some (.ok o) ∧ o.store.agrees c.store ∧
          o.dispatched = paths.length ∧ o.parsed + o.skipped.length = o.dispatched ∧
          o.skipped.Perm (skipped s files paths) ∧
          o.perWorker = (List.range size).map fun (w : Nat) => ((w : Int),
            (((List.range paths.length).countP fun i => i % size = w : Nat) : Int))) ∧
      ∀ size size' events events' o o', 0 < size → 0 < size' →
        Schedule (queues s files size paths) events →
        Schedule (queues s files size' paths) events' →
        outcome? size paths events = some (.ok o) → outcome? size' paths events' = some (.ok o') →
        o.store.agrees o'.store := by
  refine ⟨_, foldlM_scan s _, ?_, ?_⟩
  · intro size events hsize h
    have hall := h.arrived_perm
    have hskipped := skipped_perm hsteady hall hsize
    refine ⟨_, outcome?_eq hsteady h, ?_, rfl, ?_, hskipped, perWorker_eq hsteady hall⟩
    · rw [Store.agrees_iff]
      exact count_outcome hsteady hall hsize
    · have hlength := length_sheets_skipped hsteady
      rw [← hskipped.length_eq] at hlength
      have hall : ((sheets s files paths).length : Int) +
          ((arrived events).foldl Collection.absorb (.start size)).skipped.length = paths.length := by
        exact_mod_cast hlength
      rw [parsed_outcome hsteady h.arrived_perm hsize]
      exact hall
  · intro size size' events events' o o' hsize hsize' h h' ho ho'
    rw [outcome?_eq hsteady h] at ho
    rw [outcome?_eq hsteady h'] at ho'
    cases ho
    cases ho'
    rw [Store.agrees_iff]
    intro part key
    rw [count_outcome hsteady h.arrived_perm hsize, count_outcome hsteady h'.arrived_perm hsize']

/-- A census whose workers reply in turn is one of these. -/
theorem run_eq {cpus : Int} {size : Nat} (hsize : size? (s.workers cpus) paths.length = .ok size)
    (hwait : s.waitFault? = none) :
    0 < size ∧ ∃ c, run s cpus files paths = .ok c ∧
      outcome? size paths ((queues s files size paths).flatten.map .reply) =
        some (.ok (c.outcome paths.length)) := by
  have hevents : inTurn s files size paths = (queues s files size paths).flatten.map .reply := by
    rw [inTurn, queues, ← List.flatMap_def, List.map_flatMap]
  have hschedule := Schedule.inTurn (queues s files size paths)
  have hsized : (size? (s.workers cpus) paths.length).mapError CensusFault.unusable = .ok size := by
    rw [hsize]
    rfl
  refine ⟨size?_pos hsize, _, ?_, outcome?_eq hsteady hschedule⟩
  rw [run, hsized]
  simp only [bind, Except.bind, hwait, hevents, collect_queues hsteady hschedule, Option.getD_some]
  rfl

end Outcomes

/-- Two files, the second of which does not parse. -/
def sampleFiles : FileTree :=
  ⟨[(["a.less"], .file [97, 123, 125]), (["b.less"], .file [125])]⟩

theorem place_sample {name : String} (hname : name = "a.less" ∨ name = "b.less") :
    sampleFiles.place false name = .ok (.taken [name]) := by
  have hwalk : sampleFiles.walk false FileTree.maxLinks [] [name] = .ok (.taken [name]) := by
    rw [FileTree.walk.eq_def]
    rcases hname with rfl | rfl <;> rfl
  rcases hname with rfl | rfl <;> exact hwalk

theorem attempt_of_source {path source : String}
    (h : readSource files (some "utf-8") path = .ok source) :
    attempt .standard files path = (parseSheet Settings.standard.depthLimit (some path) source).mapError
      fun p => .source (.problem p) := by
  have hencoding : (Worker.start 0 Settings.standard).encoding = .ok (some "utf-8") := rfl
  have hread : (readSource files (some "utf-8") path).mapError Crash.source = .ok source := by
    rw [h]
    rfl
  rw [attempt, Worker.parse, hencoding]
  change ((readSource files (some "utf-8") path).mapError Crash.source >>= _) = _
  rw [hread]
  rfl

theorem attempt_sample :
    (attempt .standard sampleFiles "a.less").toOption.isSome ∧
      (reason? .standard sampleFiles "b.less").isSome := by
  have hread : sampleFiles.read "a.less" = .ok [97, 123, 125] ∧ sampleFiles.read "b.less" = .ok [125] := by
    rw [FileTree.read, FileTree.read, FileTree.find, FileTree.find, place_sample (.inl rfl),
      place_sample (.inr rfl)]
    exact ⟨rfl, rfl⟩
  have hfirst : readSource sampleFiles (some "utf-8") "a.less" = .ok "a\x7b\x7d" := by
    rw [readSource, hread.1]
    rfl
  have hsecond : readSource sampleFiles (some "utf-8") "b.less" = .ok "\x7d" := by
    rw [readSource, hread.2]
    rfl
  rw [reason?, attempt_of_source sampleFiles hfirst, attempt_of_source sampleFiles hsecond]
  constructor <;> with_unfolding_all rfl

/-- Two workers that reply in turn, after a wait. -/
theorem census_sequential_sample : ∃ c o,
    (sheets .standard sampleFiles ["a.less", "b.less"]).foldlM Classifier.scan (.fresh false) = .ok c ∧
      outcome? 2 ["a.less", "b.less"] (.idle [] ::
        (queues .standard sampleFiles 2 ["a.less", "b.less"]).flatten.map .reply) = some (.ok o) ∧
      o.store.agrees c.store ∧ o.parsed = 1 ∧ o.skipped.length = 1 ∧ o.perWorker = [(0, 1), (1, 1)] := by
  obtain ⟨hfirst, hsecond⟩ := attempt_sample
  have hsteady : Steady .standard sampleFiles ["a.less", "b.less"] := by
    intro path hpath crash hcrash
    rcases List.mem_pair.mp hpath with rfl | rfl
    · rw [hcrash] at hfirst
      cases hfirst
    · rw [reason?, hcrash] at hsecond
      split at hsecond
      · rename_i heq
        cases heq
        exact ⟨_, rfl⟩
      · cases hsecond
  obtain ⟨c, hc, hcensus, -⟩ := census_sequential hsteady
  have hschedule := Schedule.inTurn (queues .standard sampleFiles 2 ["a.less", "b.less"])
  obtain ⟨o, ho, hagrees, hdispatched, hparsed, hskipped, hworkers⟩ :=
    hcensus 2 _ (by decide) (.idle hschedule)
  have hnone : reason? .standard sampleFiles "a.less" = none := by
    cases hattempt : attempt .standard sampleFiles "a.less" with
    | error crash =>
      rw [hattempt] at hfirst
      cases hfirst
    | ok sheet => rw [reason?, hattempt]
  obtain ⟨reason, hreason⟩ := Option.isSome_iff_exists.mp hsecond
  have hlength : o.skipped.length = 1 := by
    rw [hskipped.length_eq]
    simp [skipped, hnone, hreason]
  refine ⟨c, o, hc, ho, hagrees, ?_, hlength, hworkers⟩
  rw [hdispatched, hlength, List.length_cons, List.length_singleton] at hparsed
  omega

end StyleTally.Pool
