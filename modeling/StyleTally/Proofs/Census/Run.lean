import StyleTally.Proofs.Census.Sequential

/-!
# Runs of a pool

A worker may break at any message up to the request for its report: it fails and says so, or it ends
without a word. A worker that has reported waits until it is told to exit, which is when the census
is over. The replies of the workers arrive in any order that keeps the order of each, and between
them are waits in which workers that have ended are seen to be gone, sooner or later.

Where no worker breaks, the runs are the schedules of the replies.
-/

namespace StyleTally.Pool

/-- A worker with the messages that it has not read, or one that has ended. -/
inductive Loop where
  | serving (w : Worker) (inbox : List Message)
  | ended

/-- A worker and the replies that it has sent and that have not arrived. -/
structure Station where
  loop : Loop
  sent : List Reply

/-- What a worker does with its next message. -/
inductive Station.Step (files : FileTree) : Station → Station → Prop
  | scan {w w' : Worker} {n : Notice} {path : String} {inbox : List Message} {sent : List Reply}
      (h : w.scan files path = .ok (w', n)) :
      Step files ⟨.serving w (.scan path :: inbox), sent⟩ ⟨.serving w' inbox, sent ++ [.notice n]⟩
  | report {w : Worker} {inbox : List Message} {sent : List Reply} :
      Step files ⟨.serving w (.report :: inbox), sent⟩
        ⟨.serving w inbox,
          sent ++ [.report w.id w.classifier.snapshot w.classifier.filesScanned]⟩
  /-- Whatever goes wrong, and wherever, the worker sends a failure and ends. -/
  | fail {w : Worker} {m : Message} {inbox : List Message} {sent : List Reply} (trace : String) :
      Step files ⟨.serving w (m :: inbox), sent⟩ ⟨.ended, sent ++ [.failure w.id trace]⟩
  /-- A worker that ends without a word may leave replies behind that never arrive. -/
  | vanish {w : Worker} {m : Message} {inbox : List Message} {sent kept : List Reply}
      (h : kept <+: sent) : Step files ⟨.serving w (m :: inbox), sent⟩ ⟨.ended, kept⟩

/-- A worker with its paths and the request for its report. -/
def Station.start (s : Settings) (size : Nat) (paths : List String) (id : Nat) : Station :=
  ⟨.serving (Worker.start id s) ((share size id paths).map .scan ++ [.report]), []⟩

/-- A worker that has ended without being told to. -/
def Broken (stations : List Station) (k : Nat) : Prop :=
  ∃ sent, stations[k]? = some ⟨.ended, sent⟩

/-- The events that the coordinator has met, and where the workers stand. -/
inductive Run (s : Settings) (files : FileTree) (size : Nat) (paths : List String) :
    List Event → List Station → Prop
  | start : Run s files size paths [] ((workerIds size).map (Station.start s size paths))
  | work {events : List Event} {stations : List Station} {k : Nat} {station station' : Station}
      (h : Run s files size paths events stations) (hk : stations[k]? = some station)
      (hstep : station.Step files station') :
      Run s files size paths events (stations.set k station')
  | take {events : List Event} {stations : List Station} {k : Nat} {loop : Loop} {r : Reply}
      {rest : List Reply} (h : Run s files size paths events stations)
      (hk : stations[k]? = some ⟨loop, r :: rest⟩) :
      Run s files size paths (events ++ [.reply r]) (stations.set k ⟨loop, rest⟩)
  /-- No reply comes within the patience of the coordinator, and some of the workers that have
  ended are seen to be gone. -/
  | wait {events : List Event} {stations : List Station} {gone : List (Int × Option Int)}
      (h : Run s files size paths events stations)
      (hgone : ∀ entry ∈ gone, ∃ k : Nat, entry.1 = k ∧ Broken stations k) :
      Run s files size paths (events ++ [.idle gone]) stations

section Stations

variable {files : FileTree} {stations : List Station}

/-- A worker that has a message to read. -/
def Loop.IsAsked (loop : Loop) : Prop := ∃ w m inbox, loop = .serving w (m :: inbox)

theorem Station.Step.isAsked {station station' : Station} (h : station.Step files station') :
    station.loop.IsAsked := by
  cases h with
  | scan h | report | fail trace | vanish h => exact ⟨_, _, _, rfl⟩

theorem Broken.set {j k : Nat} (h : Broken stations j) {station station' : Station}
    (hk : stations[k]? = some station)
    (hloop : station'.loop = station.loop ∨ station.loop.IsAsked) :
    Broken (stations.set k station') j := by
  obtain ⟨sent, hj⟩ := h
  by_cases hkj : k = j
  · subst hkj
    obtain rfl : station = ⟨.ended, sent⟩ := Option.some.inj (hk.symm.trans hj)
    rcases hloop with hloop | ⟨w, m, inbox, hloop⟩
    · obtain ⟨loop', sent'⟩ := station'
      obtain rfl : loop' = .ended := hloop
      exact ⟨sent', getElem?_set_of_some hk _⟩
    · cases hloop
  · exact ⟨sent, (List.getElem?_set_ne hkj).trans hj⟩

end Stations

section Schedules

variable {s : Settings} {files : FileTree} {size : Nat} {paths : List String}
  {events : List Event} {stations : List Station}

/-- The replies that a worker goes on to send, if nothing breaks it. -/
def Loop.toCome (files : FileTree) : Loop → List Reply
  | .serving w inbox => (w.serve files (inbox ++ [.exit])).replies
  | .ended => []

/-- The replies of a worker that have not arrived. -/
def Station.toCome (files : FileTree) (station : Station) : List Reply :=
  station.sent ++ station.loop.toCome files

theorem map_toCome_start (s : Settings) (files : FileTree) (size : Nat) (paths : List String) :
    ((workerIds size).map (Station.start s size paths)).map (Station.toCome files) =
      queues s files size paths := by
  rw [queues, List.map_map]
  apply List.map_congr_left
  intro id _
  rw [Function.comp, Station.toCome, Station.start, List.nil_append, Loop.toCome, List.append_assoc]
  rfl

theorem map_set_of_eq {k : Nat} {station station' : Station} (hk : stations[k]? = some station)
    (h : station'.toCome files = station.toCome files) :
    (stations.set k station').map (Station.toCome files) = stations.map (Station.toCome files) := by
  obtain ⟨hlt, rfl⟩ := List.getElem?_eq_some_iff.mp hk
  rw [List.map_set, h, ← List.map_set, List.set_getElem_self]

theorem Loop.toCome_scan {w w' : Worker} {n : Notice} {path : String}
    (h : w.scan files path = .ok (w', n)) (inbox : List Message) :
    Loop.toCome files (.serving w (.scan path :: inbox)) =
      .notice n :: Loop.toCome files (.serving w' inbox) := by
  simp only [Loop.toCome, List.cons_append, Worker.serve, h]
  rfl

theorem Station.Step.toCome_eq {station station' : Station} (h : station.Step files station')
    (hloop : station'.loop ≠ .ended) : station'.toCome files = station.toCome files := by
  cases h with
  | scan h =>
    rw [Station.toCome, Station.toCome, Loop.toCome_scan h, List.append_assoc]
    rfl
  | report =>
    rw [Station.toCome, Station.toCome, List.append_assoc]
    rfl
  | fail trace | vanish h => exact absurd rfl hloop

/-- Without a broken worker, a run is the beginning of a schedule. -/
theorem Run.schedule (h : Run s files size paths events stations)
    (hnone : ∀ k, ¬ Broken stations k) {later : List Event}
    (hlater : Schedule (stations.map (Station.toCome files)) later) :
    Schedule (queues s files size paths) (events ++ later) := by
  induction h generalizing later with
  | start =>
    rw [map_toCome_start] at hlater
    exact hlater
  | @work events stations k station station' h hk hstep ih =>
    have hset : (stations.set k station')[k]? = some station' := getElem?_set_of_some hk _
    have hloop : station'.loop ≠ .ended := by
      intro hended
      apply hnone k
      obtain ⟨loop, sent⟩ := station'
      obtain rfl : loop = .ended := hended
      exact ⟨sent, hset⟩
    rw [map_set_of_eq hk (hstep.toCome_eq hloop)] at hlater
    exact ih (fun j hj => hnone j (hj.set hk (.inr hstep.isAsked))) hlater
  | @take events stations k loop r rest h hk ih =>
    rw [List.append_assoc]
    apply ih (fun j hj => hnone j (hj.set hk (.inl rfl)))
    have hqueue : (stations.map (Station.toCome files))[k]? =
        some (r :: (Station.toCome files ⟨loop, rest⟩)) := by
      rw [List.getElem?_map, hk]
      rfl
    rw [List.map_set] at hlater
    exact .reply hqueue hlater
  | @wait events stations gone h hgone ih =>
    have hempty : gone = [] := by
      apply List.eq_nil_iff_forall_not_mem.mpr
      intro entry hentry
      obtain ⟨k, -, hk⟩ := hgone entry hentry
      exact hnone k hk
    rw [List.append_assoc, hempty]
    exact ih hnone (.idle hlater)

/-- A worker sends its next reply, or has sent it. -/
theorem Station.exists_sent {station : Station} {r : Reply} {rest : List Reply}
    (h : station.toCome files = r :: rest) :
    ∃ (loop : Loop) (sent : List Reply), Station.toCome files ⟨loop, sent⟩ = rest ∧
      (station = ⟨loop, r :: sent⟩ ∨ station.Step files ⟨loop, r :: sent⟩) := by
  obtain ⟨loop, sent⟩ := station
  cases sent with
  | cons first sent =>
    obtain ⟨rfl, hrest⟩ := List.cons.inj h
    exact ⟨loop, sent, hrest, .inl rfl⟩
  | nil =>
    cases loop with
    | ended => cases h
    | serving w inbox =>
      cases inbox with
      | nil => cases h
      | cons m inbox =>
        cases m with
        | scan path =>
          cases hscan : w.scan files path with
          | ok result =>
            obtain ⟨w', n⟩ := result
            rw [Station.toCome, Loop.toCome_scan hscan] at h
            obtain ⟨rfl, hrest⟩ := List.cons.inj h
            exact ⟨.serving w' inbox, [], hrest, .inr (.scan hscan)⟩
          | error crash =>
            rw [Station.toCome, Loop.toCome, List.cons_append, Worker.serve, hscan] at h
            obtain ⟨rfl, hrest⟩ := List.cons.inj h
            exact ⟨.ended, [], hrest, .inr (.fail crash.trace)⟩
        | report =>
          obtain ⟨rfl, hrest⟩ := List.cons.inj h
          exact ⟨.serving w inbox, [], hrest, .inr .report⟩
        | exit => cases h
        | other d =>
          obtain ⟨rfl, hrest⟩ := List.cons.inj h
          exact ⟨.ended, [], hrest, .inr (.fail (Crash.unexpected d).trace)⟩

/-- Every schedule is a run. -/
theorem Schedule.exists_run {queues : List (List Reply)} {later : List Event}
    (hlater : Schedule queues later) (hqueues : stations.map (Station.toCome files) = queues)
    (h : Run s files size paths events stations) :
    ∃ stations', Run s files size paths (events ++ later) stations' := by
  induction hlater generalizing events stations with
  | done hempty =>
    rw [List.append_nil]
    exact ⟨stations, h⟩
  | idle hlater ih =>
    rw [List.append_cons]
    exact ih hqueues (h.wait (by simp))
  | @reply queues later k r rest hk hlater ih =>
    subst hqueues
    rw [List.getElem?_map] at hk
    obtain ⟨station, hstation, htoCome⟩ := Option.map_eq_some_iff.mp hk
    obtain ⟨loop, sent, hrest, hsent⟩ := Station.exists_sent htoCome
    have hmap : (stations.set k ⟨loop, sent⟩).map (Station.toCome files) =
        (stations.map (Station.toCome files)).set k rest := by
      rw [List.map_set, hrest]
    have htaken : Run s files size paths (events ++ [.reply r]) (stations.set k ⟨loop, sent⟩) := by
      rcases hsent with rfl | hstep
      · exact h.take hstation
      · have htaken := (h.work hstation hstep).take (getElem?_set_of_some hstation _)
        rw [List.set_set] at htaken
        exact htaken
    rw [List.append_cons]
    exact ih hmap htaken

end Schedules

end StyleTally.Pool
