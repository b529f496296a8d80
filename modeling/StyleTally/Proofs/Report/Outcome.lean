import StyleTally.Proofs.Report.Document
import StyleTally.Proofs.Tally.Laws
import StyleTally.Report.Outcome

/-!
# Reports that are read back

The JSON files of a store and the document of a whole run carry the same rankings. Each file is
ASCII and is read as the ranking of its section, so that the files together give a store that agrees
with the one that was reported.
-/

namespace StyleTally

namespace Json

theorem readingItems_eq (items : List Json) : readingItems items = items.map reading := by
  induction items with
  | nil => rfl
  | cons item items ih => rw [readingItems, ih, List.map_cons]

theorem readingFields_eq (fields : List (String × Json)) :
    readingFields fields = fields.map fun (name, doc) => (name, reading doc) := by
  induction fields with
  | nil => rfl
  | cons field fields ih =>
    obtain ⟨name, doc⟩ := field
    rw [readingFields, ih, List.map_cons]

/-- The value of a field. Of fields with one name, the last counts. -/
def member? (name : String) : Json → Option Json
  | object fields => fields.reverse.lookup name
  | _ => none

def pair? : Json → Option (String × Int)
  | list [text key, integer n] => some (key, n)
  | _ => none

/-- The pairs of a document that is a list of pairs. -/
def pairs? : Json → Option (List (String × Int))
  | list items => items.mapM pair?
  | _ => none

end Json

namespace Ranking

theorem pairs?_json (r : Ranking) : r.json.pairs? = some r := by
  have hpairs (r : List (String × Int)) :
      (r.map fun e => Json.list [.text e.1, .integer e.2]).mapM Json.pair? = some r := by
    induction r with
    | nil => rfl
    | cons e r ih =>
      rw [List.map_cons, List.mapM_cons, ih]
      rfl
  exact hpairs r

theorem reading_json (r : Ranking) : Json.reading r.json = r.json := by
  simp [json, Json.reading, Json.readingItems_eq, Json.readingItems]

end Ranking

namespace Counter

theorem keys_perm {c d : Counter} (h : c.entries.Perm d.entries) {key : String} :
    key ∈ c.keys ↔ key ∈ d.keys := (h.map Prod.fst).mem_iff

/-- The order of the entries does not count. -/
theorem get_of_perm {c d : Counter} (h : c.entries.Perm d.entries) (key : String) :
    c.get key = d.get key := by
  by_cases hkey : key ∈ c.keys
  · obtain ⟨e, he, rfl⟩ := List.mem_map.mp hkey
    rw [get_of_mem he, get_of_mem (h.mem_iff.mp he)]
  · rw [get_of_notMem hkey, get_of_notMem fun hd => hkey ((keys_perm h).mpr hd)]

theorem get_ofPairs_ranked (c : Counter) (key : String) :
    (Counter.ofPairs c.ranked).get key = c.get key := by
  have hperm : c.ranked.Perm c.entries := List.mergeSort_perm _ _
  have hnodup : (c.ranked.map Prod.fst).Nodup := (hperm.map Prod.fst).nodup_iff.mpr c.nodup
  have hpairs := ofPairs_entries ⟨c.ranked, hnodup⟩
  rw [hpairs]
  exact get_of_perm hperm key

end Counter

namespace Store

theorem foldlM_sections (parts : List Section) (pairs : Section → List (String × Int)) (s : Store) :
    List.foldlM (fun s (name, counts) =>
        match Section.ofName? name with
        | some part => .ok (s.alter part fun _ => .ofPairs counts)
        | none => .error (.rejectedSection name)) s
      (parts.map fun part => (part.name, pairs part)) =
    (.ok (parts.foldl (fun s part => s.alter part fun _ => .ofPairs (pairs part)) s) :
      Except StoreFault Store) := by
  induction parts generalizing s with
  | nil => rfl
  | cons part parts ih =>
    simp only [List.map_cons, List.foldlM_cons, Section.ofName?_name]
    exact ih _

theorem ofPairs_sections {parts : List Section} (hparts : parts.Nodup)
    (pairs : Section → List (String × Int)) :
    ∃ t, Store.ofPairs (parts.map fun part => (part.name, pairs part)) = .ok t ∧
      ∀ part ∈ parts, t.counter part = .ofPairs (pairs part) := by
  refine ⟨_, foldlM_sections parts pairs .empty, fun part hpart => ?_⟩
  rw [counter_foldl_alter hparts (fun part _ => .ofPairs (pairs part)), if_pos hpart]

/-- What the files of a store are read as: each file is ASCII and gives the ranking of its section,
and the rankings give back the store. -/
structure Filed (s : Store) (files : List (String × String)) (docs : Section → Json) : Prop where
  file (part : Section) : ∃ text, files.lookup (part.name ++ ".json") = some text ∧
    (∀ c ∈ text.toList, c.toNat < 128) ∧ Json.read text = some (docs part)
  ranking (part : Section) : (docs part).pairs? = some (s.counter part).ranked
  store : ∃ t, Store.ofPairs (Section.all.map fun part =>
    (part.name, (docs part).pairs?.getD [])) = .ok t ∧ t.agrees s

theorem lookup_reportFiles (s : Store) (summaries? : Option (List Summary)) (part : Section) :
    (s.reportFiles .json summaries?).lookup (part.name ++ ".json") =
      some (Format.json.render (s.counter part).ranked) := by
  cases part <;> rfl

theorem filed (s : Store) (summaries? : Option (List Summary)) :
    s.Filed (s.reportFiles .json summaries?) fun part => Ranking.json (s.counter part).ranked where
  file part := by
    refine ⟨_, lookup_reportFiles s summaries? part, ?_, ?_⟩
    · have hdoc := Json.isAscii_chars 0 (Ranking.json (s.counter part).ranked)
      rw [Format.render, String.toList_append, Json.render, String.toList_ofList]
      exact Json.isAscii_append.mpr ⟨hdoc, by simp [Json.IsAscii]⟩
    · rw [Format.render, (Json.read_render _).2, Ranking.reading_json]
  ranking part := Ranking.pairs?_json _
  store := by
    obtain ⟨t, ht, hcounters⟩ := ofPairs_sections (by decide : Section.all.Nodup) fun part =>
      (s.counter part).ranked
    refine ⟨t, ?_, ?_⟩
    · simpa only [Ranking.pairs?_json, Option.getD_some] using ht
    · rw [agrees_iff]
      intro part key
      rw [count, hcounters part part.mem_all]
      exact Counter.get_ofPairs_ranked _ key

end Store

namespace Outcome

/-- What the document of a run says, where the rankings of its sections are `docs`. -/
structure Told (o : Outcome) (docs : Section → Json) (doc : Json) : Prop where
  counters : doc.member? "counters" =
    some (.object (Section.all.map fun part => (part.name, docs part)))
  skipped : doc.member? "failures" = some (.list (o.skipped.map fun s =>
    .object [("path", .text s.path), ("reason", .text s.reason)]))
  missing : doc.member? "missing" = some (.list (o.missing.map .text))
  workers : ∃ ws : List (Int × Int), ws.Perm o.perWorker ∧ ws.Pairwise (fun v w => v.1 < w.1) ∧
    doc.member? "per_worker" =
      some (.object (ws.map fun (id, n) => (Text.decimal id, .integer n)))

/-- Workers with numbers of their own are in increasing order. -/
theorem sortedWorkers_increasing (o : Outcome) (h : (o.perWorker.map Prod.fst).Nodup) :
    o.sortedWorkers.Pairwise fun v w => v.1 < w.1 := by
  have hperm : o.sortedWorkers.Perm o.perWorker := List.mergeSort_perm _ _
  have hsorted : o.sortedWorkers.Pairwise fun v w => decide (v.1 ≤ w.1) = true := by
    apply List.pairwise_mergeSort
    · intro u v w huv hvw
      rw [decide_eq_true_eq] at huv hvw ⊢
      exact Int.le_trans huv hvw
    · intro v w
      simpa using Int.le_total v.1 w.1
  have hnodup : (o.sortedWorkers.map Prod.fst).Nodup := (hperm.map Prod.fst).nodup_iff.mpr h
  have hdistinct : o.sortedWorkers.Pairwise fun v w => v.1 ≠ w.1 := List.pairwise_map.mp hnodup
  refine (hsorted.and hdistinct).imp ?_
  rintro v w ⟨hle, hne⟩
  rw [decide_eq_true_eq] at hle
  omega

/-- A document without its doubles is read as it is. -/
theorem reading_json (o : Outcome) (summaries? : Option (List Summary)) :
    Json.reading (o.json summaries?) =
      .object
        ([("files_dispatched", .integer o.dispatched), ("files_parsed", .integer o.parsed),
          ("failures", .list (o.skipped.map fun s =>
            .object [("path", .text s.path), ("reason", .text s.reason)])),
          ("missing", .list (o.missing.map .text)),
          ("per_worker", .object (o.sortedWorkers.map fun (id, n) => (Text.decimal id, .integer n))),
          ("counters", .object (Section.all.map fun part =>
            (part.name, Ranking.json (o.store.counter part).ranked)))] ++
          (summaries?.map fun ss => ("summary", Json.reading (Summary.jsonOfAll ss))).toList) := by
  cases summaries? <;>
    simp [json, Json.reading, Json.readingItems_eq, Json.readingFields_eq, Ranking.reading_json]

theorem told (o : Outcome) (summaries? : Option (List Summary))
    (h : (o.perWorker.map Prod.fst).Nodup) :
    o.Told (fun part => Ranking.json (o.store.counter part).ranked)
      (Json.reading (o.json summaries?)) := by
  rw [reading_json]
  constructor
  case workers =>
    refine ⟨o.sortedWorkers, List.mergeSort_perm _ _, o.sortedWorkers_increasing h, ?_⟩
    cases summaries? <;> rfl
  all_goals cases summaries? <;> rfl

/-- The JSON reports of a run are read back: the files of its store as the rankings of the sections,
and its document as the same rankings with the failures, the missing paths and the workers. -/
theorem json_reads_back (o : Outcome) (summaries? : Option (List Summary))
    (h : (o.perWorker.map Prod.fst).Nodup) :
    ∃ docs doc, o.store.Filed (o.store.reportFiles .json summaries?) docs ∧
      Json.read (o.json summaries?).render = some doc ∧ o.Told docs doc :=
  ⟨_, _, o.store.filed summaries?, (Json.read_render _).1, o.told summaries? h⟩

/-- A run with two workers, of which the second answered first, and a key with characters to be
escaped. -/
theorem json_reads_back_escaped :
    let store := Store.empty.alter .keywords fun c => (c.add "a\"\n😀" 2).add "\\é\t" 5
    let o : Outcome := ⟨store, 2, 1, [⟨"b\\x.less", "\x01"⟩], [(1, 0), (0, 1)], ["c\x7f"], .nan⟩
    (o.perWorker.map Prod.fst).Nodup ∧
      ∃ docs doc, o.store.Filed (o.store.reportFiles .json none) docs ∧
        Json.read (o.json none).render = some doc ∧ o.Told docs doc := by
  intro store o
  have h : (o.perWorker.map Prod.fst).Nodup := by decide
  exact ⟨h, json_reads_back o none h⟩

end Outcome

end StyleTally
