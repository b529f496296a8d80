import StyleTally.Proofs.Tally.Shelf

/-!
# Frozen stores

A frozen store keeps its counters, the order of their keys and the flag through all requests to the
shelf that it stands on. It refuses what would change it, and of stylesheets it refuses those that
leave marks. Its copies are not frozen, and a store that is pickled comes back frozen.
-/

namespace StyleTally

open Stylesheet

namespace Counter

theorem entries_set_of_notMem {c : Counter} {key : String} (h : key ∉ c.keys) (n : Int) :
    (c.set key n).entries = c.entries ++ [(key, n)] := by
  have halter (es : List (String × Int)) (hes : key ∉ es.map Prod.fst) :
      Entries.alter (fun _ => n) key es = es ++ [(key, n)] := by
    induction es with
    | nil => rfl
    | cons e es ih =>
      obtain ⟨k, m⟩ := e
      rw [List.map_cons, List.mem_cons, not_or] at hes
      have hne : k ≠ key := fun heq => hes.1 heq.symm
      rw [Entries.alter, if_neg hne, ih hes.2]
      rfl
  exact halter c.entries h

/-- The entries of a counter give the counter back. -/
theorem ofPairs_entries (c : Counter) : ofPairs c.entries = c := by
  have hfold (es : List (String × Int)) (d : Counter)
      (hnodup : ((d.entries ++ es).map Prod.fst).Nodup) :
      (es.foldl (fun d e => d.set e.1 e.2) d).entries = d.entries ++ es := by
    induction es generalizing d with
    | nil => rw [List.foldl_nil, List.append_nil]
    | cons e es ih =>
      have hnot : e.1 ∉ d.keys := by
        rw [List.map_append, List.nodup_append] at hnodup
        intro hmem
        exact hnodup.2.2 _ hmem _ (by simp) rfl
      have hset := entries_set_of_notMem hnot e.2
      rw [List.foldl_cons, ih, hset, List.append_assoc, List.singleton_append]
      rw [hset, List.append_assoc, List.singleton_append]
      exact hnodup
  exact ext (hfold c.entries .empty c.nodup)

end Counter

namespace Store

theorem lookup_toPairs (s : Store) (part : Section) :
    s.toPairs.lookup part.name = some (s.counter part).entries := by
  cases part <;> rfl

/-- A pickled store comes back as it was, frozen or not. -/
theorem ofState_state (s : Store) : ofState s.state = s := by
  apply eq_of_counters
  · intro part
    have hall : Section.all.Nodup := by decide
    have hfold := counter_foldl_alter hall
      (fun part _ => .ofPairs ((s.toPairs.lookup part.name).getD [])) .empty part
    rw [if_pos part.mem_all, lookup_toPairs, Option.getD_some, Counter.ofPairs_entries] at hfold
    exact hfold
  · rfl

theorem Counter.isEmpty_iff (c : Counter) : c.isEmpty ↔ c.keys = [] := by
  rw [Counter.isEmpty, Counter.keys, List.isEmpty_iff, List.map_eq_nil_iff]

theorem isEmpty_iff (s : Store) : s.isEmpty ↔ ∀ part, (s.counter part).keys = [] := by
  rw [isEmpty, List.all_eq_true]
  constructor
  · intro h part
    exact (Counter.isEmpty_iff _).mp (h part part.mem_all)
  · intro h part _
    exact (Counter.isEmpty_iff _).mpr (h part)

/-- An empty store stays empty exactly where there is nothing to record. -/
theorem isEmpty_record (ms : List Mark) : (empty.record ms).isEmpty ↔ ms = [] := by
  rw [isEmpty_iff]
  constructor
  · intro h
    apply List.eq_nil_iff_forall_not_mem.mpr
    intro m hm
    have hkey : m.key ∈ ((empty.record ms).counter m.part).keys := mem_keys_record.mpr (.inr hm)
    rw [h m.part] at hkey
    cases hkey
  · rintro rfl part
    rw [record_nil, counter_empty]
    rfl

/-- A store that is not frozen takes one more of any key of any section. -/
theorem addNamed_of_unfrozen {s : Store} (h : s.frozen = false) (part : Section) (key : String) :
    s.addNamed part.name key = .ok (s.alter part fun c => c.add key 1) := by
  simp [addNamed, add, h, Section.ofName?_name]

theorem count_alter_add (s : Store) (part : Section) (key : String) :
    (s.alter part fun c => c.add key 1).count part key = s.count part key + 1 := by
  rw [count, counter_alter, if_pos rfl, Counter.get_add, if_pos rfl]
  rfl

end Store

namespace Shelf

variable {shelf : Shelf} {i : Nat} {s : Store}

theorem frozen_next (h : shelf.stores[i]? = some s) (hfrozen : s.frozen) (request : Request) :
    (shelf.next request).stores[i]? = some s := by
  rcases next_cases request with hsame | ⟨reply, hattempt⟩
  · rw [hsame, h]
  · exact (attempt_alters hattempt).frozen h hfrozen

theorem frozen_after (h : shelf.stores[i]? = some s) (hfrozen : s.frozen)
    (requests : List Request) : (shelf.after requests).stores[i]? = some s := by
  induction requests generalizing shelf with
  | nil => exact h
  | cons request requests ih => exact ih (frozen_next h hfrozen request)

/-- What holds of a shelf with a frozen store at a place. -/
structure Locked (shelf : Shelf) (i : Nat) (s : Store) : Prop where
  kept : shelf.stores[i]? = some s
  frozen : s.frozen
  incr : ∀ name key, shelf.attempt (.incr i name key) = .error (.fault (.frozen name))
  merge : ∀ (j : Nat) (source : Store), shelf.stores[j]? = some source →
    shelf.attempt (.merge i j) = .error (.fault (.frozen "*"))
  /-- Stylesheets that would leave an empty store empty are scanned, and no others. -/
  scan : ∀ (c : Nat) (clerk : Clerk) (sheet : Sheet), shelf.clerks[c]? = some clerk →
    clerk.store = i → ∃ fresh, (Classifier.fresh clerk.statements).scan sheet = .ok fresh ∧
      ((∃ name, shelf.attempt (.scan c sheet) = .error (.fault (.frozen name))) ↔
        fresh.store.isEmpty = false) ∧
      (shelf.next (.scan c sheet)).clerks[c]? = some { clerk with
        filesScanned := clerk.filesScanned + if fresh.store.isEmpty then 1 else 0 }
  /-- A copy has the same counters, in the same order, and takes what the store refuses. -/
  copy : ∃ after, shelf.attempt (.copy i) = .ok (.made shelf.stores.length, after) ∧
    after.stores[i]? = some s ∧ after.stores[shelf.stores.length]? = some s.copy ∧
    s.copy.counters = s.counters ∧ s.copy.frozen = false ∧
    ∀ (part : Section) (key : String), ∃ changed t,
      after.attempt (.incr shelf.stores.length part.name key) = .ok (.done, changed) ∧
      changed.stores[i]? = some s ∧ changed.stores[shelf.stores.length]? = some t ∧
      t.count part key = s.count part key + 1
  pickle : ∃ after, shelf.attempt (.pickle i) = .ok (.made shelf.stores.length, after) ∧
    after.stores[i]? = some s ∧ after.stores[shelf.stores.length]? = some s

theorem locked_scan {c : Nat} {clerk : Clerk} (hclerk : shelf.clerks[c]? = some clerk)
    (h : shelf.stores[clerk.store]? = some s) (hfrozen : s.frozen) (sheet : Sheet) :
    ∃ fresh, (Classifier.fresh clerk.statements).scan sheet = .ok fresh ∧
      ((∃ name, shelf.attempt (.scan c sheet) = .error (.fault (.frozen name))) ↔
        fresh.store.isEmpty = false) ∧
      (shelf.next (.scan c sheet)).clerks[c]? = some { clerk with
        filesScanned := clerk.filesScanned + if fresh.store.isEmpty then 1 else 0 } := by
  have hmarks := Store.isEmpty_record (Mark.ofStatements clerk.statements sheet)
  refine ⟨_, Classifier.scan_eq rfl sheet, ?_⟩
  cases hempty : Mark.ofStatements clerk.statements sheet with
  | nil =>
    have hscan : Classifier.scan ⟨s, clerk.statements, clerk.filesScanned⟩ sheet =
        .ok ⟨s, clerk.statements, clerk.filesScanned + 1⟩ := by
      rw [Classifier.scan, Store.scanStatements_eq, hempty]
      rfl
    have hfresh := hmarks.mpr hempty
    have hc : c < shelf.clerks.length := (List.getElem?_eq_some_iff.mp hclerk).1
    have hattempt := attempt_scan (clerk_eq hclerk) (store_eq h) sheet
    rw [hscan] at hattempt
    constructor
    · simp [hattempt, Classifier.scanned, Classifier.fresh, hfresh]
    · rw [next_of_ok hattempt]
      simp [Classifier.scanned, Classifier.fresh, hfresh, hc]
  | cons m ms =>
    have hscan : Classifier.scan ⟨s, clerk.statements, clerk.filesScanned⟩ sheet =
        .error (.frozen m.part.name) := by
      rw [Classifier.scan, Store.scanStatements_eq, hempty, Store.markAll_of_frozen hfrozen]
      rfl
    have hfresh : (Store.empty.record (Mark.ofStatements clerk.statements sheet)).isEmpty = false := by
      rw [Bool.eq_false_iff, Ne, hmarks, hempty]
      exact List.cons_ne_nil m ms
    have hattempt := attempt_scan (clerk_eq hclerk) (store_eq h) sheet
    rw [hscan] at hattempt
    constructor
    · simp [hattempt, Classifier.scanned, Classifier.fresh, hfresh]
    · rw [next_of_refused hattempt]
      simp [Classifier.scanned, Classifier.fresh, hfresh, hclerk]

theorem push_stores (h : shelf.stores[i]? = some s) (t : Store) :
    (shelf.push t).2.stores[i]? = some s ∧
      (shelf.push t).2.stores[shelf.stores.length]? = some t := by
  have hi : i < shelf.stores.length := (List.getElem?_eq_some_iff.mp h).1
  constructor
  · rw [push, List.getElem?_append_left hi, h]
  · rw [push, List.getElem?_concat_length]

theorem locked_copy (h : shelf.stores[i]? = some s) (hfrozen : s.frozen) :
    ∃ after, shelf.attempt (.copy i) = .ok (.made shelf.stores.length, after) ∧
      after.stores[i]? = some s ∧ after.stores[shelf.stores.length]? = some s.copy ∧
      s.copy.counters = s.counters ∧ s.copy.frozen = false ∧
      ∀ (part : Section) (key : String), ∃ changed t,
        after.attempt (.incr shelf.stores.length part.name key) = .ok (.done, changed) ∧
        changed.stores[i]? = some s ∧ changed.stores[shelf.stores.length]? = some t ∧
        t.count part key = s.count part key + 1 := by
  obtain ⟨hkept, hcopy⟩ := push_stores h s.copy
  have hattempt : shelf.attempt (.copy i) = .ok (shelf.push s.copy) := by
    rw [attempt, store_eq h]
    rfl
  refine ⟨_, hattempt, hkept, hcopy, rfl, rfl, ?_⟩
  intro part key
  let t := s.copy.alter part fun c => c.add key 1
  have hincr : (shelf.push s.copy).2.attempt (.incr shelf.stores.length part.name key) =
      .ok (.done, (shelf.push s.copy).2.put shelf.stores.length t) := by
    have hunfrozen : s.copy.frozen = false := rfl
    simp only [attempt, store_eq hcopy, bind, Except.bind, Store.addNamed_of_unfrozen hunfrozen]
    rfl
  refine ⟨_, t, hincr, (attempt_alters hincr).frozen hkept hfrozen, ?_, Store.count_alter_add ..⟩
  have hlast := (List.getElem?_eq_some_iff.mp hcopy).1
  rw [put, List.getElem?_set_self hlast]

theorem Locked.of_frozen (h : shelf.stores[i]? = some s) (hfrozen : s.frozen) :
    shelf.Locked i s where
  kept := h
  frozen := hfrozen
  incr name key := by
    rw [attempt, store_eq h]
    simp [Store.addNamed, hfrozen, bind, Except.bind, Except.mapError]
  merge j source hsource := by
    simp [attempt, store_eq h, store_eq hsource, Store.merge, hfrozen, bind, Except.bind,
      Except.mapError]
  scan c clerk sheet hclerk hstore := locked_scan hclerk (hstore ▸ h) hfrozen sheet
  copy := locked_copy h hfrozen
  pickle := by
    have hattempt : shelf.attempt (.pickle i) = .ok (shelf.push s) := by
      rw [attempt, store_eq h]
      change Except.ok (shelf.push (.ofState s.state)) = _
      rw [Store.ofState_state]
    exact ⟨_, hattempt, push_stores h s⟩

/-- A store that has been frozen keeps its counters and stays frozen, whatever is asked of the shelf
after that. -/
theorem locked_after_freeze (h : shelf.stores[i]? = some s) (requests : List Request) :
    ((shelf.next (.freeze i)).after requests).Locked i s.freeze := by
  have hattempt : shelf.attempt (.freeze i) = .ok (.done, shelf.put i s.freeze) := by
    rw [attempt, store_eq h]
    rfl
  have hi : i < shelf.stores.length := (List.getElem?_eq_some_iff.mp h).1
  have hfreeze : (shelf.next (.freeze i)).stores[i]? = some s.freeze := by
    rw [next_of_ok hattempt, put, List.getElem?_set_self hi]
  exact .of_frozen (frozen_after hfreeze rfl requests) rfl

/-- A store that is frozen between a scan and a merge, with a copy that goes on. -/
theorem locked_after_freeze_copied :
    let s := Store.empty.alter .keywords fun c => c.add "red" 1
    let shelf : Shelf := ⟨[s], [⟨0, true, 0⟩]⟩
    shelf.stores[0]? = some s ∧
      ((shelf.next (.freeze 0)).after
        [.copy 0, .incr 1 "colors" "#fff", .merge 0 1, .merge 1 1, .scan 0 [.empty]]).Locked 0
          s.freeze := by
  intro s shelf
  have h : shelf.stores[0]? = some s := rfl
  exact ⟨h, locked_after_freeze h _⟩

end Shelf

end StyleTally
