import StyleTally.Proofs.Tally.Counting

/-!
# Merging in order

A merged counter has the keys of the first counter and behind them those that only the second has,
both in their own order. Stores that are merged hold what one classifier holds that scans on, down
to the order of the keys. Where chunks of stylesheets are merged in another order, the keys may come
in another, and the counts are the same.
-/

namespace StyleTally

open Stylesheet

namespace Entries

/-- Entries whose keys differ are their keys with the counts looked up. -/
theorem eq_map_lookup {es : List (String × Int)} (h : (es.map Prod.fst).Nodup) :
    es = (es.map Prod.fst).map fun key => (key, (es.lookup key).getD 0) := by
  induction es with
  | nil => rfl
  | cons e es ih =>
    obtain ⟨hnot, hnodup⟩ := List.nodup_cons.mp h
    have hrest : (es.map Prod.fst).map (fun key => (key, ((e :: es).lookup key).getD 0)) =
        (es.map Prod.fst).map fun key => (key, (es.lookup key).getD 0) := by
      apply List.map_congr_left
      intro key hkey
      have hne : key ≠ e.1 := fun heq => hnot (heq ▸ hkey)
      rw [lookup_cons, if_neg hne]
    rw [List.map_cons, List.map_cons, hrest, ← ih hnodup, lookup_cons, if_pos rfl]
    rfl

end Entries

namespace Counter

theorem entries_eq (c : Counter) : c.entries = c.keys.map fun key => (key, c.get key) :=
  Entries.eq_map_lookup c.nodup

/-- Counters with the same keys in the same order and the same counts are equal. -/
theorem eq_of_keys {c d : Counter} (hkeys : c.keys = d.keys) (hget : ∀ key, c.get key = d.get key) :
    c = d := by
  apply Counter.ext
  rw [entries_eq c, entries_eq d, hkeys]
  apply List.map_congr_left
  intro key _
  rw [hget]

theorem keys_merge (c d : Counter) :
    (c.merge d).keys = c.keys ++ d.keys.filter fun key => key ∉ c.keys := by
  have hfold (es : List (String × Int)) (hes : (es.map Prod.fst).Nodup) (c : Counter) :
      (es.foldl (fun c e => c.add e.1 e.2) c).keys =
        c.keys ++ (es.map Prod.fst).filter fun key => key ∉ c.keys := by
    induction es generalizing c with
    | nil => simp
    | cons e es ih =>
      obtain ⟨hnot, hnodup⟩ := List.nodup_cons.mp hes
      rw [List.foldl_cons, ih hnodup, List.map_cons, List.filter_cons, keys_add]
      by_cases he : e.1 ∈ c.keys
      · rw [if_pos he, if_neg (by simpa using he)]
      · -- The new key is none of the others, so the filter does not notice it.
        have hsame : ((es.map Prod.fst).filter fun key => key ∉ c.keys ++ [e.1]) =
            (es.map Prod.fst).filter fun key => key ∉ c.keys := by
          apply List.filter_congr
          intro key hkey
          have hne : key ≠ e.1 := fun heq => hnot (heq ▸ hkey)
          simp [hne]
        rw [if_neg he, if_pos (decide_eq_true he), hsame, List.append_assoc, List.singleton_append]
  exact hfold d.entries d.nodup c

/-- Adding to the second counter before it is merged in is adding to the merged one. -/
theorem merge_add (c d : Counter) (key : String) (n : Int) :
    c.merge (d.add key n) = (c.merge d).add key n := by
  apply eq_of_keys
  · rw [keys_merge, keys_add, keys_add, keys_merge]
    by_cases hd : key ∈ d.keys
    · have hmem : key ∈ c.keys ++ d.keys.filter fun key => key ∉ c.keys := by
        by_cases hc : key ∈ c.keys
        · exact List.mem_append_left _ hc
        · exact List.mem_append_right _ (List.mem_filter.mpr ⟨hd, decide_eq_true hc⟩)
      rw [if_pos hd, if_pos hmem]
    · by_cases hc : key ∈ c.keys
      · simp [hd, hc]
      · simp [hd, hc]
  · intro k
    rw [get_merge, get_add, get_add, get_merge, Int.add_assoc]

/-- A counter merged with itself has its own keys, each counted twice. -/
theorem entries_merge_self (c : Counter) :
    (c.merge c).entries = c.entries.map fun (key, n) => (key, 2 * n) := by
  have hkeys : (c.merge c).keys = c.keys := by
    rw [keys_merge]
    simp
  rw [entries_eq, entries_eq c, hkeys, List.map_map]
  apply List.map_congr_left
  intro key _
  rw [get_merge, ← Int.two_mul]
  rfl

end Counter

namespace Section

theorem index_surjective (i : Fin 11) : ∃ part : Section, part.index = i := by
  refine ⟨Section.all[i], ?_⟩
  revert i
  decide

end Section

namespace Store

theorem eq_of_counters {s t : Store} (hcounters : ∀ part, s.counter part = t.counter part)
    (hfrozen : s.frozen = t.frozen) : s = t := by
  obtain ⟨counters, frozen⟩ := s
  obtain ⟨counters', frozen'⟩ := t
  have hvector : counters = counters' := by
    apply Vector.ext
    intro i hi
    obtain ⟨part, hpart⟩ := Section.index_surjective ⟨i, hi⟩
    simpa [counter, hpart] using hcounters part
  cases hvector
  cases hfrozen
  rfl

@[simp] theorem frozen_mergeCounters (s t : Store) : (s.mergeCounters t).frozen = s.frozen := by
  have hfold (parts : List Section) (s : Store) :
      (parts.foldl (fun s part => s.alter part fun c => c.merge (t.counter part)) s).frozen =
        s.frozen := by
    induction parts generalizing s with
    | nil => rfl
    | cons part parts ih => rw [List.foldl_cons, ih, frozen_alter]
  exact hfold Section.all s

theorem mergeCounters_empty (s : Store) : s.mergeCounters .empty = s := by
  apply eq_of_counters
  · intro part
    rw [counter_mergeCounters, counter_empty]
    rfl
  · exact frozen_mergeCounters s .empty

theorem mergeCounters_add (s t : Store) (part : Section) (key : String) :
    s.mergeCounters (t.alter part fun c => c.add key 1) =
      (s.mergeCounters t).alter part fun c => c.add key 1 := by
  apply eq_of_counters
  · intro other
    rw [counter_mergeCounters, counter_alter, counter_alter, counter_mergeCounters,
      counter_mergeCounters]
    split
    · rename_i h
      subst h
      exact Counter.merge_add ..
    · rfl
  · rw [frozen_mergeCounters, frozen_alter, frozen_mergeCounters]

/-- To merge in marks that have been recorded is to record them. -/
theorem mergeCounters_record (s t : Store) (ms : List Mark) :
    s.mergeCounters (t.record ms) = (s.mergeCounters t).record ms := by
  induction ms generalizing t with
  | nil => rw [record_nil, record_nil]
  | cons m ms ih => rw [record_cons, record_cons, ih, mergeCounters_add]

/-- The store of a classifier that has scanned stylesheets one after the other. -/
def ofSheets (statements : Bool) (sheets : List Sheet) : Store :=
  empty.record (sheets.flatMap (Mark.ofStatements statements))

section Sheets

variable (statements : Bool)

theorem mergeCounters_ofSheets (s : Store) (sheets : List Sheet) :
    s.mergeCounters (ofSheets statements sheets) =
      s.record (sheets.flatMap (Mark.ofStatements statements)) := by
  rw [ofSheets, mergeCounters_record, mergeCounters_empty]

theorem ofSheets_append (first second : List Sheet) :
    ofSheets statements (first ++ second) =
      (ofSheets statements first).mergeCounters (ofSheets statements second) := by
  rw [mergeCounters_ofSheets, ofSheets, List.flatMap_append, record_append]
  rfl

theorem mergeAll_ofSheets (chunks : List (List Sheet)) :
    mergeAll (chunks.map (ofSheets statements)) = ofSheets statements chunks.flatten := by
  have hfold (s : Store) : (chunks.map (ofSheets statements)).foldl mergeCounters s =
      s.record (chunks.flatten.flatMap (Mark.ofStatements statements)) := by
    induction chunks generalizing s with
    | nil => rfl
    | cons chunk chunks ih =>
      rw [List.map_cons, List.foldl_cons, ih, mergeCounters_ofSheets, List.flatten_cons,
        List.flatMap_append, record_append]
  exact hfold .empty

theorem count_ofSheets (sheets : List Sheet) (part : Section) (key : String) :
    (ofSheets statements sheets).count part key =
      (((sheets.flatMap (Mark.ofStatements statements)).count ⟨part, key⟩ : Nat) : Int) := by
  rw [ofSheets, count_record, count_empty, Int.zero_add]

/-- The order of stylesheets makes no difference to what is counted. -/
theorem agrees_ofSheets {sheets sheets' : List Sheet} (h : sheets.Perm sheets') :
    (ofSheets statements sheets).agrees (ofSheets statements sheets') := by
  rw [agrees_iff]
  intro part key
  have hmarks := (h.flatMap_right (Mark.ofStatements statements)).count_eq ⟨part, key⟩
  rw [count_ofSheets, count_ofSheets, hmarks]

/-- Scanning stylesheets turns their concatenation into the merge of stores, in which the keys keep
their order. So chunks give the same store whether one classifier scans them or each has its own,
chunks in another order give stores that agree, and a second scan doubles the counts. -/
theorem scan_homomorphic :
    (∀ sheets, ∃ c, sheets.foldlM Classifier.scan (.fresh statements) = .ok c ∧
      c.store = ofSheets statements sheets) ∧
    (∀ first second, (ofSheets statements first).merge (ofSheets statements second) =
      .ok (ofSheets statements (first ++ second))) ∧
    (∀ chunks : List (List Sheet),
      mergeAll (chunks.map (ofSheets statements)) = ofSheets statements chunks.flatten) ∧
    (∀ (sheets : List Sheet) (chunks : List (List Sheet)), chunks.flatten.Perm sheets →
      (mergeAll (chunks.map (ofSheets statements))).agrees (ofSheets statements sheets)) ∧
    ∀ sheets part, ((ofSheets statements (sheets ++ sheets)).counter part).entries =
      ((ofSheets statements sheets).counter part).entries.map fun (key, n) => (key, 2 * n) := by
  refine ⟨?_, ?_, mergeAll_ofSheets statements, ?_, ?_⟩
  · intro sheets
    exact ⟨_, Classifier.foldlM_scan_eq rfl sheets, Classifier.store_foldl_scanned _ sheets⟩
  · intro first second
    have hfrozen : (ofSheets statements first).frozen = false := frozen_record .empty _
    rw [merge, hfrozen, ofSheets_append]
    rfl
  · intro sheets chunks h
    rw [mergeAll_ofSheets]
    exact agrees_ofSheets statements h
  · intro sheets part
    rw [ofSheets_append, counter_mergeCounters]
    exact Counter.entries_merge_self _

end Sheets

/-- At-rules of two kinds, scanned in one order and merged in the other. -/
theorem scan_homomorphic_swapped :
    let page : Sheet := [.blockDirective "page" "" []]
    let face : Sheet := [.blockDirective "font-face" "" []]
    (mergeAll ([[face], [page]].map (ofSheets false))).agrees (ofSheets false [page, face]) ∧
      mergeAll ([[face], [page]].map (ofSheets false)) ≠ ofSheets false [page, face] := by
  have hmarks (name : String) : Mark.ofStatements false [.blockDirective name "" []] =
      [.tag "block_directive", ⟨.directives, name⟩] := by
    simp [Mark.ofStatements, Mark.ofStatement]
  refine ⟨(scan_homomorphic false).2.2.2.1 _ _ (List.Perm.swap ..), ?_⟩
  rw [mergeAll_ofSheets]
  simp only [ofSheets, List.flatten_cons, List.flatten_nil, List.append_nil, List.singleton_append,
    List.flatMap_cons, List.flatMap_nil, hmarks]
  decide

end Store

end StyleTally
