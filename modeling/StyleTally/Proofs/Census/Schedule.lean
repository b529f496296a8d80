import StyleTally.Census.Pool

/-!
# Schedules of a census

The replies of all workers arrive in one stream, in any order that keeps the order of each worker.
Whatever the order, the collection ends, and it ends with all replies taken in: the last reply of a
worker is its report, so no notice is left behind when the last report arrives.
-/

namespace StyleTally.Pool

/-- The events in which the replies that are under way arrive. Waits may come between them, in
which no worker is gone. -/
inductive Schedule : List (List Reply) → List Event → Prop
  | done {queues : List (List Reply)} (h : ∀ q ∈ queues, q = []) : Schedule queues []
  | idle {queues : List (List Reply)} {events : List Event} (h : Schedule queues events) :
      Schedule queues (.idle [] :: events)
  | reply {queues : List (List Reply)} {events : List Event} {k : Nat} {r : Reply}
      {rest : List Reply} (hk : queues[k]? = some (r :: rest))
      (h : Schedule (queues.set k rest) events) : Schedule queues (.reply r :: events)

/-- The replies among events. -/
def arrived (events : List Event) : List Reply :=
  events.filterMap fun
    | .reply r => some r
    | .idle _ => none

def reportsOf (replies : List Reply) : List Report :=
  replies.filterMap fun
    | .report id store n => some ⟨id, store, n⟩
    | _ => none

def noticesOf (replies : List Reply) : List Notice :=
  replies.filterMap fun
    | .notice n => some n
    | _ => none

/-- Notices, and a report at the end. -/
def Answers (replies : List Reply) : Prop :=
  ∃ (notices : List Notice) (r : Report),
    replies = notices.map .notice ++ [.report r.worker r.store r.filesScanned]

theorem getElem?_set_of_some {α : Type} {as : List α} {k : Nat} {a : α} (h : as[k]? = some a)
    (b : α) : (as.set k b)[k]? = some b :=
  List.getElem?_set_self (List.getElem?_eq_some_iff.mp h).1

theorem flatten_set {queues : List (List Reply)} {k : Nat} {r : Reply} {rest : List Reply}
    (hk : queues[k]? = some (r :: rest)) :
    queues.flatten.Perm (r :: (queues.set k rest).flatten) := by
  induction queues generalizing k with
  | nil => cases hk
  | cons q queues ih =>
    cases k with
    | zero =>
      obtain rfl : q = r :: rest := by simpa using hk
      exact List.Perm.refl _
    | succ k =>
      have hperm := ih (k := k) (by simpa using hk)
      rw [List.set_cons_succ, List.flatten_cons, List.flatten_cons]
      apply (hperm.append_left q).trans
      exact List.perm_middle

/-- Every reply arrives, and arrives once. -/
theorem Schedule.arrived_perm {queues : List (List Reply)} {events : List Event}
    (h : Schedule queues events) : (arrived events).Perm queues.flatten := by
  induction h with
  | done h =>
    rw [List.flatten_eq_nil_iff.mpr h]
    exact List.Perm.refl _
  | idle h ih => exact ih
  | reply hk h ih => exact (ih.cons _).trans (flatten_set hk).symm

/-- A worker that has said all does not count. -/
theorem Schedule.cons_nil {queues : List (List Reply)} {events : List Event}
    (h : Schedule queues events) : Schedule ([] :: queues) events := by
  induction h with
  | done h => exact .done (by simpa using h)
  | idle h ih => exact .idle ih
  | @reply queues events k r rest hk h ih => exact .reply (k := k + 1) hk ih

theorem Schedule.cons {queues : List (List Reply)} {events : List Event}
    (h : Schedule queues events) (q : List Reply) :
    Schedule (q :: queues) (q.map .reply ++ events) := by
  induction q with
  | nil => exact h.cons_nil
  | cons r q ih => exact .reply (k := 0) rfl ih

/-- A worker may send all its replies behind those of the others. -/
theorem Schedule.cons_last {queues : List (List Reply)} {events : List Event}
    (h : Schedule queues events) (q : List Reply) :
    Schedule (q :: queues) (events ++ q.map .reply) := by
  induction h with
  | done h =>
    have hall := (Schedule.done h).cons q
    rw [List.append_nil] at hall
    exact hall
  | idle h ih => exact .idle ih
  | @reply queues events k r rest hk h ih => exact .reply (k := k + 1) hk ih

/-- The workers may reply one after the other. -/
theorem Schedule.inTurn (queues : List (List Reply)) :
    Schedule queues (queues.flatten.map .reply) := by
  induction queues with
  | nil => exact .done (by simp)
  | cons q queues ih =>
    rw [List.flatten_cons, List.map_append]
    exact ih.cons q

namespace Collection

/-- The collection with one more reply taken in. -/
def absorb (c : Collection) : Reply → Collection
  | .notice n => c.addNotice n
  | .report id store n => c.addReport ⟨id, store, n⟩
  | .failure _ _ | .other _ => c

theorem hasReport_iff (c : Collection) (id : Int) :
    c.hasReport id = true ↔ id ∈ c.reports.map Report.worker := by
  simp [hasReport, List.mem_map]

theorem addReport_of_new {c : Collection} {r : Report} (h : r.worker ∉ c.reports.map Report.worker) :
    c.addReport r = { c with reports := c.reports ++ [r] } := by
  rw [← c.hasReport_iff] at h
  rw [addReport, if_neg h]

theorem addReport_reports {c : Collection} {r : Report} {rest : List Report}
    (h : ((c.reports ++ r :: rest).map Report.worker).Nodup) :
    (c.addReport r).reports = c.reports ++ [r] := by
  have hnew : r.worker ∉ c.reports.map Report.worker := by
    intro hold
    rw [List.map_append, List.map_cons, List.nodup_append] at h
    exact h.2.2 _ hold _ (List.mem_cons_self ..) rfl
  rw [addReport_of_new hnew]

end Collection

/-- Where no report is under way, nothing is. -/
theorem nil_of_reportsOf {queues : List (List Reply)} (h : ∀ q ∈ queues, q = [] ∨ Answers q)
    (hnone : reportsOf queues.flatten = []) : queues.flatten = [] := by
  rw [List.flatten_eq_nil_iff]
  intro q hq
  rcases h q hq with hnil | ⟨notices, r, hreplies⟩
  · exact hnil
  · have hreport : Reply.report r.worker r.store r.filesScanned ∈ queues.flatten := by
      apply List.mem_flatten.mpr ⟨q, hq, _⟩
      rw [hreplies]
      exact List.mem_append_right _ (List.mem_singleton_self _)
    have hr : r ∈ reportsOf queues.flatten := List.mem_filterMap.mpr ⟨_, hreport, rfl⟩
    rw [hnone] at hr
    cases hr

theorem answers_of_set {queues : List (List Reply)} {k : Nat} {rest : List Reply}
    (h : ∀ q ∈ queues, q = [] ∨ Answers q) (hrest : rest = [] ∨ Answers rest) :
    ∀ q ∈ queues.set k rest, q = [] ∨ Answers q := by
  intro q hq
  rcases List.mem_or_eq_of_mem_set hq with hq | hq
  · exact h q hq
  · rw [hq]
    exact hrest

/-- A collection is over when the last report arrives, and has then taken in all replies. -/
theorem Schedule.collect_eq {queues : List (List Reply)} {events : List Event}
    (h : Schedule queues events) {c : Collection} {size : Nat}
    (hqueues : ∀ q ∈ queues, q = [] ∨ Answers q)
    (hnodup : ((c.reports ++ reportsOf (arrived events)).map Report.worker).Nodup)
    (hsize : c.reports.length + (reportsOf (arrived events)).length = size) :
    c.collect size events = some (.ok ((arrived events).foldl Collection.absorb c)) := by
  have hover {queues : List (List Reply)} {events : List Event} {c : Collection}
      (h : Schedule queues events) (hqueues : ∀ q ∈ queues, q = [] ∨ Answers q)
      (hsize : c.reports.length + (reportsOf (arrived events)).length = size)
      (hcomplete : c.isComplete size = true) :
      c.collect size events = some (.ok ((arrived events).foldl Collection.absorb c)) := by
    have hperm := h.arrived_perm
    have hnone : reportsOf (arrived events) = [] := by
      have hle : size ≤ c.reports.length := by simpa [Collection.isComplete] using hcomplete
      exact List.eq_nil_of_length_eq_zero (by omega)
    have hreports : reportsOf queues.flatten = [] := by
      have hreportsPerm : (reportsOf (arrived events)).Perm (reportsOf queues.flatten) :=
        hperm.filterMap _
      rw [hnone] at hreportsPerm
      exact hreportsPerm.nil_eq.symm
    rw [nil_of_reportsOf hqueues hreports] at hperm
    rw [hperm.eq_nil, Collection.collect.eq_def, if_pos hcomplete]
    rfl
  induction h generalizing c with
  | done h =>
    apply hover (.done h) hqueues hsize
    rw [Collection.isComplete, decide_eq_true_iff, ← hsize]
    exact Nat.le_refl _
  | @idle queues events h ih =>
    by_cases hcomplete : c.isComplete size = true
    · exact hover (.idle h) hqueues hsize hcomplete
    · rw [Collection.collect, if_neg hcomplete]
      have hlost : c.lost? size [] = none := by
        simp [Collection.lost?]
      rw [Collection.step, hlost]
      exact ih hqueues hnodup hsize
  | @reply queues events k r rest hk h ih =>
    by_cases hcomplete : c.isComplete size = true
    · exact hover (.reply hk h) hqueues hsize hcomplete
    · rw [Collection.collect, if_neg hcomplete]
      have hq := (hqueues _ (List.mem_of_getElem? hk)).resolve_left (by simp)
      obtain ⟨notices, report, hreplies⟩ := hq
      cases notices with
      | nil =>
        obtain ⟨rfl, rfl⟩ : r = .report report.worker report.store report.filesScanned ∧ rest = [] := by
          simpa using hreplies
        have hreports : (c.addReport report).reports = c.reports ++ [report] :=
          Collection.addReport_reports hnodup
        apply ih (answers_of_set hqueues (.inl rfl))
        · rw [hreports, List.append_assoc]
          exact hnodup
        · rw [hreports, List.length_append, ← hsize, List.length_singleton]
          have harrived : reportsOf (arrived (.reply
            (.report report.worker report.store report.filesScanned) :: events)) =
              report :: reportsOf (arrived events) := rfl
          rw [harrived, List.length_cons]
          omega
      | cons n notices =>
        obtain ⟨rfl, hrest⟩ : r = .notice n ∧
            rest = notices.map .notice ++ [.report report.worker report.store report.filesScanned] := by
          simpa using hreplies
        apply ih (answers_of_set hqueues (.inr ⟨notices, report, hrest⟩))
        · exact hnodup
        · exact hsize

namespace Collection

/-- The file of a notice, if it was skipped. -/
def skippedOf (n : Notice) : List Skipped := (n.error.map fun e => ⟨n.path, e⟩).toList

theorem reports_absorbed {replies : List Reply} {c : Collection}
    (h : ((c.reports ++ reportsOf replies).map Report.worker).Nodup) :
    (replies.foldl absorb c).reports = c.reports ++ reportsOf replies := by
  induction replies generalizing c with
  | nil => simp [reportsOf]
  | cons r replies ih =>
    rw [List.foldl_cons]
    cases r with
    | notice n => exact ih h
    | report id store n =>
      have hreports : (c.addReport ⟨id, store, n⟩).reports = c.reports ++ [⟨id, store, n⟩] :=
        addReport_reports h
      have hcons : reportsOf (.report id store n :: replies) = ⟨id, store, n⟩ :: reportsOf replies :=
        rfl
      have hsplit : c.reports ++ reportsOf (.report id store n :: replies) =
          (c.addReport ⟨id, store, n⟩).reports ++ reportsOf replies := by
        rw [hreports, hcons, List.append_assoc, List.singleton_append]
      rw [hsplit] at h ⊢
      exact ih h
    | failure id trace => exact ih h
    | other d => exact ih h

theorem skipped_absorbed (replies : List Reply) (c : Collection) :
    (replies.foldl absorb c).skipped = c.skipped ++ (noticesOf replies).flatMap skippedOf := by
  induction replies generalizing c with
  | nil => simp [noticesOf]
  | cons r replies ih =>
    rw [List.foldl_cons, ih]
    cases r with
    | notice n =>
      have hcons : noticesOf (.notice n :: replies) = n :: noticesOf replies := rfl
      rw [hcons, List.flatMap_cons, ← List.append_assoc]
      rfl
    | report id store n =>
      have hskipped : (c.addReport ⟨id, store, n⟩).skipped = c.skipped := by
        rw [addReport]
        split <;> rfl
      rw [absorb, hskipped]
      rfl
    | failure id trace => rfl
    | other d => rfl

theorem perWorker_absorbed (replies : List Reply) (c : Collection) :
    (replies.foldl absorb c).perWorker = c.perWorker.map fun (id, n) =>
      (id, n + (((noticesOf replies).countP fun notice => id = notice.worker : Nat) : Int)) := by
  induction replies generalizing c with
  | nil => simp [noticesOf]
  | cons r replies ih =>
    rw [List.foldl_cons, ih]
    cases r with
    | notice n =>
      have hcons : noticesOf (.notice n :: replies) = n :: noticesOf replies := rfl
      rw [absorb, addNotice, hcons, List.map_map]
      apply List.map_congr_left
      intro entry _
      obtain ⟨id, count⟩ := entry
      simp only [Function.comp, List.countP_cons]
      by_cases hid : id = n.worker
      · simp [hid]
        omega
      · simp [hid]
    | report id store n =>
      have hcounts : (c.addReport ⟨id, store, n⟩).perWorker = c.perWorker := by
        rw [addReport]
        split <;> rfl
      rw [absorb, hcounts]
      rfl
    | failure id trace => rfl
    | other d => rfl

end Collection

end StyleTally.Pool
