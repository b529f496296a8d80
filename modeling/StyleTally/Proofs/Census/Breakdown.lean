import Mathlib.Data.List.Perm.Subperm
import StyleTally.Proofs.Census.Run
import StyleTally.Proofs.Census.Source

/-!
# Censuses with broken workers

A worker that is broken never reports, and of the others none reports twice: the collection waits for
the broken worker until a failure arrives or a worker is seen to be gone, and only broken workers
fail or go. So the census has no outcome, and the problem that it ends with names a broken worker.
-/

namespace StyleTally.Pool

/-- A problem that names a broken worker. -/
def Blames (stations : List Station) (p : Problem) : Prop :=
  ∃ (k : Nat) (reason : String) (code : Option Int),
    Broken stations k ∧ p = .transport k reason code

section Stations

variable {files : FileTree} {k : Nat}

/-- What a reply tells of the worker that sent it: one that has reported waits, one that has failed
has ended. -/
def Vouches (k : Nat) (loop : Loop) : Reply → Prop
  | .notice _ => True
  | .report id _ _ => id = k ∧ ∃ w, loop = .serving w []
  | .failure id _ => id = k ∧ loop = .ended
  | .other _ => False

/-- Before its report a worker sends notices. -/
theorem Vouches.of_isAsked {loop : Loop} {r : Reply} (h : Vouches k loop r) (hloop : loop.IsAsked)
    (loop' : Loop) : Vouches k loop' r := by
  obtain ⟨w, m, inbox, rfl⟩ := hloop
  cases r with
  | notice n => exact trivial
  | report id store n =>
    obtain ⟨-, w', hwaits⟩ := h
    cases hwaits
  | failure id trace => cases h.2
  | other d => exact h.elim

/-- A worker of a pool has the messages for some files and its report before it, or none. -/
def Loop.IsOf (k : Nat) : Loop → Prop
  | .serving w inbox =>
    w.id = k ∧ (inbox = [] ∨ ∃ paths : List String, inbox = paths.map .scan ++ [.report])
  | .ended => True

structure Sound (k : Nat) (station : Station) : Prop where
  isOf : station.loop.IsOf k
  vouched : ∀ r ∈ station.sent, Vouches k station.loop r

theorem scan_id {w w' : Worker} {n : Notice} {path : String}
    (h : w.scan files path = .ok (w', n)) : w'.id = w.id := by
  rw [Worker.scan] at h
  split at h
  · cases h
    rfl
  · cases h
  · split at h
    · cases h
      rfl
    · cases h

theorem Loop.IsOf.tail {w w' : Worker} {path : String} {inbox : List Message}
    (h : (Loop.serving w (.scan path :: inbox)).IsOf k) (hid : w'.id = w.id) :
    (Loop.serving w' inbox).IsOf k := by
  obtain ⟨hk, hnil | ⟨paths, hpaths⟩⟩ := h
  · cases hnil
  · cases paths with
    | nil => cases hpaths
    | cons first paths => exact ⟨hid.trans hk, .inr ⟨paths, (List.cons.inj hpaths).2⟩⟩

/-- The request for its report is the last message of a worker. -/
theorem Loop.IsOf.eq_nil {w : Worker} {inbox : List Message}
    (h : (Loop.serving w (.report :: inbox)).IsOf k) : inbox = [] := by
  obtain ⟨-, hnil | ⟨paths, hpaths⟩⟩ := h
  · cases hnil
  · cases paths with
    | nil => exact (List.cons.inj hpaths).2
    | cons first paths => cases hpaths

theorem Station.Step.isOf {station station' : Station} (hstep : station.Step files station')
    (h : station.loop.IsOf k) : station'.loop.IsOf k := by
  cases hstep with
  | scan hscan => exact h.tail (scan_id hscan)
  | report => exact ⟨h.1, .inl h.eq_nil⟩
  | fail trace | vanish hkept => exact trivial

/-- A worker stays sound whatever it does. -/
theorem Sound.step {station station' : Station} (h : Sound k station)
    (hstep : station.Step files station') : Sound k station' := by
  have hsent : ∀ r ∈ station.sent, Vouches k station'.loop r := fun r hr =>
    (h.vouched r hr).of_isAsked hstep.isAsked _
  have hloop := hstep.isOf h.isOf
  refine ⟨hloop, ?_⟩
  have hsnoc {last : Reply} (hlast : Vouches k station'.loop last) :
      ∀ r ∈ station.sent ++ [last], Vouches k station'.loop r := by
    intro r hr
    rcases List.mem_append.mp hr with hr | hr
    · exact hsent r hr
    · obtain rfl := List.mem_singleton.mp hr
      exact hlast
  cases hstep with
  | scan hscan => exact hsnoc trivial
  | report =>
    obtain rfl := h.isOf.eq_nil
    exact hsnoc ⟨h.isOf.1, _, rfl⟩
  | fail trace => exact hsnoc ⟨h.isOf.1, rfl⟩
  | vanish hkept => exact fun r hr => hsent r (hkept.subset hr)

end Stations

/-- What an event tells of the workers. -/
def Fits (stations : List Station) : Event → Prop
  | .reply r => ∃ (k : Nat) (station : Station), stations[k]? = some station ∧ Vouches k station.loop r
  | .idle gone => ∀ entry ∈ gone, ∃ k : Nat, entry.1 = k ∧ Broken stations k

section Runs

variable {s : Settings} {files : FileTree} {size : Nat} {paths : List String}
  {stations stations' : List Station}

/-- What happens to one worker does not change what events tell, unless it was still asked. -/
theorem Fits.set {e : Event} (h : Fits stations e) {k : Nat} {station station' : Station}
    (hk : stations[k]? = some station)
    (hloop : station'.loop = station.loop ∨ station.loop.IsAsked) :
    Fits (stations.set k station') e := by
  cases e with
  | reply r =>
    obtain ⟨j, other, hj, hvouches⟩ := h
    by_cases hkj : k = j
    · subst hkj
      obtain rfl : station = other := Option.some.inj (hk.symm.trans hj)
      refine ⟨k, station', getElem?_set_of_some hk _, ?_⟩
      rcases hloop with hloop | hloop
      · rw [hloop]
        exact hvouches
      · exact hvouches.of_isAsked hloop _
    · exact ⟨j, other, (List.getElem?_set_ne hkj).trans hj, hvouches⟩
  | idle gone =>
    intro entry hentry
    obtain ⟨j, hid, hbroken⟩ := h entry hentry
    exact ⟨j, hid, hbroken.set hk hloop⟩

/-- What holds of the workers all along. -/
structure Consistent (size : Nat) (events : List Event) (stations : List Station) : Prop where
  length_eq : stations.length = size
  sound : ∀ (k : Nat) station, stations[k]? = some station → Sound k station
  fits : ∀ e ∈ events, Fits stations e

theorem consistent_start (s : Settings) (size : Nat) (paths : List String) :
    Consistent size [] ((workerIds size).map (Station.start s size paths)) := by
  refine ⟨by simp [workerIds], ?_, by simp⟩
  intro k station hk
  rw [List.getElem?_map] at hk
  obtain ⟨id, hid, rfl⟩ := Option.map_eq_some_iff.mp hk
  obtain rfl : k = id := by
    obtain ⟨hlt, hid⟩ := List.getElem?_eq_some_iff.mp hid
    rw [← hid]
    exact (List.getElem_range hlt).symm
  exact ⟨⟨rfl, .inr ⟨_, rfl⟩⟩, by simp [Station.start]⟩

theorem Consistent.set {events : List Event} (h : Consistent size events stations) {k : Nat}
    {station station' : Station} (hk : stations[k]? = some station) (hsound : Sound k station')
    (hloop : station'.loop = station.loop ∨ station.loop.IsAsked) :
    Consistent size events (stations.set k station') := by
  refine ⟨by rw [List.length_set, h.length_eq], ?_, fun e he => (h.fits e he).set hk hloop⟩
  intro j other hj
  by_cases hkj : k = j
  · subst hkj
    rw [getElem?_set_of_some hk _] at hj
    cases hj
    exact hsound
  · rw [List.getElem?_set_ne hkj] at hj
    exact h.sound j other hj

theorem Consistent.snoc {events : List Event} (h : Consistent size events stations) {e : Event}
    (he : Fits stations e) : Consistent size (events ++ [e]) stations := by
  refine ⟨h.length_eq, h.sound, ?_⟩
  intro e' he'
  rcases List.mem_append.mp he' with he' | he'
  · exact h.fits e' he'
  · obtain rfl := List.mem_singleton.mp he'
    exact he

theorem Run.consistent {events : List Event} (h : Run s files size paths events stations) :
    Consistent size events stations := by
  induction h with
  | start => exact consistent_start s size paths
  | work h hk hstep ih => exact ih.set hk ((ih.sound _ _ hk).step hstep) (.inr hstep.isAsked)
  | @take events stations k loop r rest h hk ih =>
    have hsound := ih.sound _ _ hk
    have hfits : Fits stations (.reply r) := ⟨_, _, hk, hsound.vouched r List.mem_cons_self⟩
    have hrest : Sound k ⟨loop, rest⟩ :=
      ⟨hsound.isOf, fun r hr => hsound.vouched r (List.mem_cons_of_mem _ hr)⟩
    exact (ih.snoc hfits).set hk hrest (.inl rfl)
  | wait h hgone ih => exact ih.snoc hgone

end Runs

section Collections

variable {stations : List Station} {size : Nat}

/-- A worker that has reported. -/
def Waiting (stations : List Station) (id : Int) : Prop :=
  ∃ (k : Nat) (w : Worker) (sent : List Reply), id = k ∧ stations[k]? = some ⟨.serving w [], sent⟩

/-- The reports that have been taken in are those of workers that wait. -/
structure Gathered (stations : List Station) (c : Collection) : Prop where
  nodup : (c.reports.map Report.worker).Nodup
  waiting : ∀ id ∈ c.reports.map Report.worker, Waiting stations id

theorem gathered_start (stations : List Station) (size : Nat) : Gathered stations (.start size) :=
  ⟨List.nodup_nil, by simp [Collection.start]⟩

theorem Gathered.not_mem {c : Collection} (h : Gathered stations c) {b : Nat} (hb : Broken stations b) :
    (b : Int) ∉ c.reports.map Report.worker := by
  intro hmem
  obtain ⟨k, w, sent, hk, hwaits⟩ := h.waiting _ hmem
  obtain rfl : b = k := by omega
  obtain ⟨sent', hended⟩ := hb
  rw [hended] at hwaits
  cases hwaits

/-- Not every worker reports. -/
theorem Gathered.not_isComplete {c : Collection} (h : Gathered stations c)
    (hlength : stations.length = size) {b : Nat} (hb : Broken stations b) :
    ¬ c.isComplete size = true := by
  have hlt {k : Nat} {station : Station} (hk : stations[k]? = some station) : k < size := by
    rw [← hlength]
    exact (List.getElem?_eq_some_iff.mp hk).1
  have hnodup : ((b : Int) :: c.reports.map Report.worker).Nodup :=
    List.nodup_cons.mpr ⟨h.not_mem hb, h.nodup⟩
  have hsubset : (b : Int) :: c.reports.map Report.worker ⊆
      (workerIds size).map fun (id : Nat) => (id : Int) := by
    intro id hid
    rcases List.mem_cons.mp hid with rfl | hid
    · obtain ⟨sent, hended⟩ := hb
      exact List.mem_map.mpr ⟨b, List.mem_range.mpr (hlt hended), rfl⟩
    · obtain ⟨k, w, sent, rfl, hwaits⟩ := h.waiting _ hid
      exact List.mem_map.mpr ⟨k, List.mem_range.mpr (hlt hwaits), rfl⟩
  have hle := (List.Nodup.subperm hnodup hsubset).length_le
  rw [List.length_cons, List.length_map, List.length_map, workerIds, List.length_range] at hle
  rw [Collection.isComplete, decide_eq_true_iff]
  omega

theorem Collection.workers_addReport (c : Collection) (r : Report) :
    (c.addReport r).reports.map Report.worker =
      if c.hasReport r.worker then c.reports.map Report.worker
      else c.reports.map Report.worker ++ [r.worker] := by
  rw [addReport]
  split
  · rw [List.map_map]
    apply List.map_congr_left
    intro old _
    rw [Function.comp]
    split
    · rename_i hworker
      exact hworker.symm
    · rfl
  · rw [List.map_append, List.map_singleton]

theorem Gathered.addReport {c : Collection} (h : Gathered stations c) {r : Report}
    (hwaiting : Waiting stations r.worker) : Gathered stations (c.addReport r) := by
  have hworkers := c.workers_addReport r
  split at hworkers
  · exact ⟨hworkers ▸ h.nodup, hworkers ▸ h.waiting⟩
  · rename_i hnew
    rw [c.hasReport_iff] at hnew
    refine ⟨?_, ?_⟩
    · rw [hworkers, List.nodup_append]
      refine ⟨h.nodup, by simp, ?_⟩
      rintro id hid _ hlast rfl
      rw [List.mem_singleton.mp hlast] at hid
      exact hnew hid
    · intro id hid
      rw [hworkers] at hid
      rcases List.mem_append.mp hid with hid | hid
      · exact h.waiting id hid
      · obtain rfl := List.mem_singleton.mp hid
        exact hwaiting

/-- A worker that is found to be lost was seen to be gone. -/
theorem Collection.mem_of_lost? {c : Collection} {gone : List (Int × Option Int)} {id : Int}
    {code : Option Int} (h : c.lost? size gone = some (id, code)) : (id, code) ∈ gone := by
  obtain ⟨k, -, hk⟩ := List.exists_of_findSome?_eq_some h
  split at hk
  · cases hk
  · obtain ⟨code', hlookup, hentry⟩ := Option.map_eq_some_iff.mp hk
    cases hentry
    obtain ⟨before, after, rfl, -⟩ := List.lookup_eq_some_iff.mp hlookup
    exact List.mem_append_right _ List.mem_cons_self

/-- An event is taken in, or it ends the collection with the name of a broken worker. -/
theorem Gathered.step {c : Collection} (h : Gathered stations c) {e : Event} (he : Fits stations e)
    (size : Nat) :
    (∃ c', c.step size e = .ok c' ∧ Gathered stations c') ∨
      ∃ p, c.step size e = .error p ∧ Blames stations p := by
  cases e with
  | reply r =>
    obtain ⟨k, ⟨loop, sent⟩, hk, hvouches⟩ := he
    cases r with
    | notice n => exact .inl ⟨_, rfl, h.nodup, h.waiting⟩
    | report id store n =>
      obtain ⟨rfl, w, hwaits⟩ := hvouches
      obtain rfl : loop = .serving w [] := hwaits
      exact .inl ⟨_, rfl, h.addReport ⟨k, w, sent, rfl, hk⟩⟩
    | failure id trace =>
      obtain ⟨rfl, hended⟩ := hvouches
      obtain rfl : loop = .ended := hended
      exact .inr ⟨_, rfl, k, trace, none, ⟨sent, hk⟩, rfl⟩
    | other d => exact hvouches.elim
  | idle gone =>
    rw [Collection.step]
    cases hlost : c.lost? size gone with
    | none => exact .inl ⟨c, rfl, h⟩
    | some entry =>
      obtain ⟨id, code⟩ := entry
      obtain ⟨k, rfl, hbroken⟩ := he _ (Collection.mem_of_lost? hlost)
      exact .inr ⟨_, rfl, k, _, code, hbroken, rfl⟩

/-- While a worker is broken, events are taken in one after the other, or one of them ends the
collection with the name of a broken worker. -/
theorem Gathered.collect {c : Collection} (h : Gathered stations c) (hlength : stations.length = size)
    {b : Nat} (hb : Broken stations b) {events : List Event} (hevents : ∀ e ∈ events, Fits stations e) :
    (∃ c', Gathered stations c' ∧ ∀ more, c.collect size (events ++ more) = c'.collect size more) ∨
      ∃ p, Blames stations p ∧ ∀ more, c.collect size (events ++ more) = some (.error p) := by
  induction events generalizing c with
  | nil => exact .inl ⟨c, h, fun more => rfl⟩
  | cons e events ih =>
    have hincomplete := h.not_isComplete hlength hb
    obtain ⟨c', hstep, hc'⟩ | ⟨p, hstep, hp⟩ :=
      h.step (hevents e List.mem_cons_self) size
    · have hcollect (more : List Event) :
          c.collect size (e :: events ++ more) = c'.collect size (events ++ more) := by
        rw [List.cons_append, Collection.collect, if_neg hincomplete, hstep]
      simp only [hcollect]
      exact ih hc' fun e he => hevents e (List.mem_cons_of_mem _ he)
    · refine .inr ⟨p, hp, fun more => ?_⟩
      rw [List.cons_append, Collection.collect, if_neg hincomplete, hstep]

/-- A wait in which a worker without a report is seen to be gone ends the collection. -/
theorem Collection.lost?_ne_none {c : Collection} {b : Nat} (hb : b < size)
    (hnone : (b : Int) ∉ c.reports.map Report.worker) (code : Option Int) :
    c.lost? size [((b : Int), code)] ≠ none := by
  intro hlost
  have hfree : ¬ c.hasReport b = true := fun h => hnone ((c.hasReport_iff b).mp h)
  have hb := List.findSome?_eq_none_iff.mp hlost b (List.mem_range.mpr hb)
  rw [if_neg hfree, List.lookup_cons_self] at hb
  cases hb

end Collections

section Censuses

variable {s : Settings} {files : FileTree} {size : Nat} {paths : List String}
  {events : List Event} {stations : List Station}

/-- A census in which a worker breaks, sooner or later, has no outcome at any time, whatever the
workers do and however their replies and the waits between them come. Where it ends, it ends with a
problem that names a broken worker. -/
theorem broken_census (h : Run s files size paths events stations) {b : Nat}
    (hb : Broken stations b) {met : List Event} (hmet : met <+: events) :
    (∀ o, outcome? size paths met ≠ some (.ok o)) ∧
      ∀ p, outcome? size paths met = some (.error p) → Blames stations p := by
  have hrun := h.consistent
  have hstart := gathered_start stations size
  have hfits : ∀ e ∈ met, Fits stations e := fun e he => hrun.fits e (hmet.subset he)
  obtain ⟨c, hc, hcollect⟩ | ⟨problem, hblames, hcollect⟩ :=
    hstart.collect hrun.length_eq hb hfits
  · have hnone : outcome? size paths met = none := by
      have hend := hcollect []
      rw [List.append_nil, Collection.collect, if_neg (hc.not_isComplete hrun.length_eq hb)] at hend
      rw [outcome?, hend]
      rfl
    rw [hnone]
    constructor
    · intro o ho
      cases ho
    · intro p hp
      cases hp
  · have herror : outcome? size paths met = some (.error problem) := by
      have hend := hcollect []
      rw [List.append_nil] at hend
      rw [outcome?, hend]
      rfl
    rw [herror]
    constructor
    · intro o ho
      cases ho
    · intro p hp
      cases hp
      exact hblames

/-- The first of two workers replies to the end; the second fails at its file, and the failure
arrives after a wait. -/
theorem broken_census_sample :
    let paths := ["a.less", "b.less"]
    ∃ (n : Notice) (r : Report) (stations : List Station),
      let events : List Event := [.reply (.notice n), .reply (.report 0 r.store r.filesScanned),
        .idle [], .reply (.failure 1 "MemoryError")]
      Run .standard sampleFiles 2 paths events stations ∧ Broken stations 1 ∧
        (∀ o, outcome? 2 paths events ≠ some (.ok o)) ∧
        ∃ p, outcome? 2 paths events = some (.error p) ∧ Blames stations p := by
  intro paths
  have hsteady : Steady .standard sampleFiles ["a.less"] := steady_standard (by decide)
  have hscan := (follows_start .standard 0).scan_eq hsteady
  have hstart : Run .standard sampleFiles 2 paths [] _ := .start
  have hscanned := hstart.work (k := 0) rfl (.scan hscan)
  have hreported := hscanned.work (k := 0) rfl .report
  have hfailed := hreported.work (k := 1) rfl (.fail "MemoryError")
  have hfirst := (hfailed.take (k := 0) rfl).take (k := 0) rfl
  have hlast := (hfirst.wait (List.forall_mem_nil _)).take (k := 1) rfl
  obtain ⟨hnone, hproblem⟩ := broken_census hlast (b := 1) ⟨[], rfl⟩ List.prefix_rfl
  have hblames := hproblem (.transport 1 "MemoryError" none) rfl
  exact ⟨_, ⟨0, _, _⟩, _, hlast, ⟨[], rfl⟩, hnone, _, rfl, hblames⟩

/-- It ends at the latest with a wait in which a broken worker is seen to be gone. -/
theorem Run.ends (h : Run s files size paths events stations) {b : Nat} (hb : Broken stations b)
    (code : Option Int) : ∃ p, outcome? size paths (events ++ [.idle [(b, code)]]) = some (.error p) := by
  have hrun := h.consistent
  have hstart := gathered_start stations size
  have hlt : b < size := by
    obtain ⟨sent, hended⟩ := hb
    rw [← hrun.length_eq]
    exact (List.getElem?_eq_some_iff.mp hended).1
  obtain ⟨c, hc, hcollect⟩ | ⟨problem, -, hcollect⟩ :=
    hstart.collect hrun.length_eq hb hrun.fits
  · have hlost := Collection.lost?_ne_none hlt (hc.not_mem hb) code
    obtain ⟨entry, hentry⟩ := Option.ne_none_iff_exists'.mp hlost
    refine ⟨.transport entry.1 "worker exited before reporting" entry.2, ?_⟩
    rw [outcome?, hcollect, Collection.collect, if_neg (hc.not_isComplete hrun.length_eq hb),
      Collection.step, hentry]
    rfl
  · refine ⟨problem, ?_⟩
    rw [outcome?, hcollect]
    rfl

end Censuses

end StyleTally.Pool
