import StyleTally.Proofs.Census.Sequential
import StyleTally.Proofs.Census.Source

/-!
# Censuses whose replies race

The replies of different workers arrive in any order. Each worker's own come as it sent them, and the
reports are put in the order of the workers before they are merged: two censuses of the same files
agree in their stores down to the order of the keys, and in all but the order of skipped files.
-/

namespace StyleTally.Pool

open Stylesheet

/-- The worker that a reply comes from. -/
def sender? : Reply → Option Int
  | .notice n => some n.worker
  | .report id _ _ | .failure id _ => some id
  | .other _ => none

/-- What arrives from one worker is what it sent, in the order in which it sent it. -/
theorem Schedule.arrived_filter {queues : List (List Reply)} {events : List Event}
    (h : Schedule queues events)
    (hsenders : ∀ (j : Nat) q, queues[j]? = some q → ∀ r ∈ q, sender? r = some (j : Int)) (k : Nat) :
    ((arrived events).filter fun r => sender? r = some (k : Int)) = (queues[k]?).getD [] := by
  induction h with
  | @done queues h =>
    cases hk : queues[k]? with
    | none => rfl
    | some q =>
      rw [h q (List.mem_of_getElem? hk)]
      rfl
  | idle h ih => exact ih hsenders
  | @reply queues events j r rest hj h ih =>
    have hsender : sender? r = some (j : Int) := hsenders j _ hj r List.mem_cons_self
    have hrest : ∀ (i : Nat) q, (queues.set j rest)[i]? = some q → ∀ r ∈ q, sender? r = some (i : Int) := by
      intro i q hi r hr
      by_cases hij : j = i
      · subst hij
        rw [getElem?_set_of_some hj _] at hi
        cases hi
        exact hsenders j _ hj r (List.mem_cons_of_mem _ hr)
      · rw [List.getElem?_set_ne hij] at hi
        exact hsenders i q hi r hr
    have hcons : arrived (.reply r :: events) = r :: arrived events := rfl
    rw [hcons, List.filter_cons, ih hrest, hsender]
    by_cases hjk : j = k
    · subst hjk
      rw [if_pos (decide_eq_true rfl), hj, getElem?_set_of_some hj _]
      rfl
    · have hne : some (j : Int) ≠ some (k : Int) := by
        simpa using hjk
      rw [if_neg (by simpa using hne), List.getElem?_set_ne hjk]

theorem noticesOf_filter (replies : List Reply) (id : Int) :
    (noticesOf replies).filter (fun n => n.worker = id) =
      noticesOf (replies.filter fun r => sender? r = some id) := by
  induction replies with
  | nil => rfl
  | cons r replies ih =>
    rw [List.filter_cons]
    cases r with
    | notice n =>
      have hcons : noticesOf (.notice n :: replies) = n :: noticesOf replies := rfl
      rw [hcons, List.filter_cons, ih]
      by_cases hn : n.worker = id
      · simp [sender?, hn, noticesOf]
      · simp [sender?, hn, noticesOf]
    | report worker store n | failure worker trace | other d =>
      have hskip (r : Reply) (h : noticesOf [r] = []) (replies : List Reply) :
          noticesOf (r :: replies) = noticesOf replies := by
        rw [← List.singleton_append, noticesOf, List.filterMap_append]
        exact congrArg (· ++ noticesOf replies) h
      rw [hskip _ rfl, ih]
      split
      · rw [hskip _ rfl]
      · rfl

theorem skipped_outcome (replies : List Reply) (size dispatched : Nat) :
    ((replies.foldl Collection.absorb (.start size)).outcome dispatched).skipped =
      (noticesOf replies).flatMap Collection.skippedOf := by
  rw [Collection.outcome, Collection.skipped_absorbed]
  rfl

section Outcomes

variable {s : Settings} {files : FileTree} {paths : List String}
  (hsteady : Steady s files paths) {size : Nat}
include hsteady

theorem senders_queues (j : Nat) (q : List Reply) (hj : (queues s files size paths)[j]? = some q) :
    ∀ r ∈ q, sender? r = some (j : Int) := by
  obtain ⟨hlt, hq⟩ := List.getElem?_eq_some_iff.mp hj
  have hreplies : q = replies s files size j paths := by
    rw [← hq]
    simp [queues, workerIds]
  intro r hr
  rw [hreplies, replies_eq s files (steady_share hsteady j)] at hr
  rcases List.mem_append.mp hr with hr | hr
  · obtain ⟨path, -, rfl⟩ := List.mem_map.mp hr
    rfl
  · obtain rfl := List.mem_singleton.mp hr
    rfl

/-- The notices of one worker arrive in the order of its paths. -/
theorem notices_of_worker {events : List Event} (h : Schedule (queues s files size paths) events)
    {w : Nat} (hw : w < size) :
    (noticesOf (arrived events)).filter (fun n => n.worker = (w : Int)) =
      (share size w paths).map (noticeOf s files w) := by
  have hqueue : (queues s files size paths)[w]? = some (replies s files size w paths) := by
    simp [queues, workerIds, hw]
  rw [noticesOf_filter, h.arrived_filter (senders_queues hsteady), hqueue, Option.getD_some,
    replies_eq s files (steady_share hsteady w), noticesOf, List.filterMap_append,
    List.filterMap_map]
  simp

theorem skipped_of_worker {events : List Event} (h : Schedule (queues s files size paths) events)
    {w : Nat} (hw : w < size) :
    ((noticesOf (arrived events)).filter fun n => n.worker = (w : Int)).flatMap Collection.skippedOf =
      skipped s files (share size w paths) := by
  rw [notices_of_worker hsteady h hw, List.flatMap_map, skipped, List.filterMap_eq_flatMap_toList]
  rfl

/-- However the replies of the workers race, a census ends with the stores of the workers merged in
the order of the workers, each of which has scanned its own files in turn, and it lists the skipped
files of each worker in turn. Two races differ in nothing but the order of skipped files. -/
theorem census_reproducible (size : Nat) :
    ∃ scanned : Nat → Classifier,
      (∀ w, (sheets s files (share size w paths)).foldlM Classifier.scan
        (.fresh s.scansStatements) = .ok (scanned w)) ∧
      (∀ events, Schedule (queues s files size paths) events →
        ∃ o, outcome? size paths events = some (.ok o) ∧
          o.store = Store.mergeAll ((workerIds size).map fun w => (scanned w).store) ∧
          o.skipped = (noticesOf (arrived events)).flatMap Collection.skippedOf ∧
          ∀ w < size, ((noticesOf (arrived events)).filter fun n => n.worker = (w : Int)).flatMap
            Collection.skippedOf = skipped s files (share size w paths)) ∧
      ∀ events events' o o', Schedule (queues s files size paths) events →
        Schedule (queues s files size paths) events' →
        outcome? size paths events = some (.ok o) → outcome? size paths events' = some (.ok o') →
        o.store = o'.store ∧
          (∀ part, (o.store.counter part).ranked = (o'.store.counter part).ranked) ∧
          o.parsed = o'.parsed ∧ o.perWorker = o'.perWorker ∧ o.skipped.Perm o'.skipped := by
  refine ⟨fun w => classified s (sheets s files (share size w paths)),
    fun w => foldlM_scan s _, ?_, ?_⟩
  · intro events h
    exact ⟨_, outcome?_eq hsteady h, store_outcome hsteady h.arrived_perm _, skipped_outcome _ size _,
      fun w hw => skipped_of_worker hsteady h hw⟩
  · intro events events' o o' h h' ho ho'
    rw [outcome?_eq hsteady h] at ho
    rw [outcome?_eq hsteady h'] at ho'
    cases ho
    cases ho'
    have hstore := (store_outcome hsteady h.arrived_perm paths.length).trans
      (store_outcome hsteady h'.arrived_perm paths.length).symm
    have hreports := (reports_perm hsteady h.arrived_perm).trans
      (reports_perm hsteady h'.arrived_perm).symm
    have hnotices := (noticesOf_perm hsteady h.arrived_perm).trans
      (noticesOf_perm hsteady h'.arrived_perm).symm
    refine ⟨hstore, fun part => by rw [hstore], ?_, ?_, ?_⟩
    · apply hreports.foldr_eq'
      intro a _ b _ sum
      omega
    · exact (perWorker_eq hsteady h.arrived_perm).trans (perWorker_eq hsteady h'.arrived_perm).symm
    · rw [skipped_outcome, skipped_outcome]
      exact hnotices.flatMap_right _

end Outcomes

/-- Two workers, of which the first or the second replies first. Each skips a file. -/
theorem census_reproducible_raced :
    let paths := ["c.less", "b.less", "a.less"]
    let first := replies .standard sampleFiles 2 0 paths
    let second := replies .standard sampleFiles 2 1 paths
    Steady .standard sampleFiles paths ∧
      ∃ o o', outcome? 2 paths ((first ++ second).map .reply) = some (.ok o) ∧
        outcome? 2 paths ((second ++ first).map .reply) = some (.ok o') ∧
        o.store = o'.store ∧ o.parsed = o'.parsed ∧ o.perWorker = o'.perWorker ∧
        o.skipped.Perm o'.skipped := by
  intro paths first second
  have hsteady : Steady .standard sampleFiles paths := steady_standard (by decide)
  have hone : Schedule [second] (second.map .reply) := by
    have h := Schedule.inTurn [second]
    rwa [List.flatten_singleton] at h
  have hfirst : Schedule (queues .standard sampleFiles 2 paths) ((first ++ second).map .reply) := by
    rw [List.map_append]
    exact hone.cons first
  have hsecond : Schedule (queues .standard sampleFiles 2 paths) ((second ++ first).map .reply) := by
    rw [List.map_append]
    exact hone.cons_last first
  obtain ⟨scanned, -, hrun, hraces⟩ := census_reproducible hsteady 2
  obtain ⟨o, ho, -⟩ := hrun _ hfirst
  obtain ⟨o', ho', -⟩ := hrun _ hsecond
  obtain ⟨hstore, -, hparsed, hworkers, hskipped⟩ := hraces _ _ o o' hfirst hsecond ho ho'
  exact ⟨hsteady, o, o', ho, ho', hstore, hparsed, hworkers, hskipped⟩

end StyleTally.Pool
