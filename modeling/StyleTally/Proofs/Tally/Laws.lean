import StyleTally.Proofs.Tally.Frozen

/-!
# The laws of merging

Stores that agree count every key alike, whatever the order of their keys, and a key that is missing
counts zero. Up to agreement, stores form a commutative monoid under merging; a merge is read off
the counts of its parts. The order of the keys is not lost in it: those of the source that are new
come last.
-/

namespace StyleTally

namespace Counter

/-- A key with an entry counts what the entry says. -/
theorem get_of_mem {c : Counter} {e : String × Int} (h : e ∈ c.entries) : c.get e.1 = e.2 := by
  rw [entries_eq] at h
  obtain ⟨key, -, rfl⟩ := List.mem_map.mp h
  rfl

/-- Where every key counts, there are no more keys than the total. -/
theorem Positive.size_le_total {c : Counter} (h : c.Positive) : (c.size : Int) ≤ c.total := by
  have hsum (es : List (String × Int)) (hes : ∀ e ∈ es, 1 ≤ e.2) :
      (es.length : Int) ≤ (es.map Prod.snd).sum := by
    induction es with
    | nil => exact Int.le_refl 0
    | cons e es ih =>
      have hfirst := hes e List.mem_cons_self
      have hrest := ih fun e he => hes e (List.mem_cons_of_mem _ he)
      rw [List.length_cons, List.map_cons, List.sum_cons]
      omega
  rw [total_eq]
  exact hsum c.entries h

end Counter

namespace Store

theorem agrees_refl (s : Store) : s.agrees s := by
  rw [agrees_iff]
  intro part key
  rfl

theorem agrees_symm {s t : Store} (h : s.agrees t) : t.agrees s := by
  rw [agrees_iff] at h ⊢
  intro part key
  exact (h part key).symm

theorem agrees_trans {s t u : Store} (h : s.agrees t) (h' : t.agrees u) : s.agrees u := by
  rw [agrees_iff] at h h' ⊢
  intro part key
  exact (h part key).trans (h' part key)

/-- Only a store that is not frozen can be merged into. -/
theorem merge_eq_ok_iff {s t u : Store} :
    s.merge t = .ok u ↔ s.frozen = false ∧ u = s.mergeCounters t := by
  rw [merge]
  by_cases h : s.frozen
  · simp [h]
  · simp [h, eq_comm]

theorem merge_count {s t u : Store} (h : s.merge t = .ok u) (part : Section) (key : String) :
    u.count part key = s.count part key + t.count part key := by
  obtain ⟨-, rfl⟩ := merge_eq_ok_iff.mp h
  exact count_mergeCounters s t part key

theorem count_mergeAll (stores : List Store) (part : Section) (key : String) :
    (mergeAll stores).count part key = (stores.map fun s => s.count part key).sum := by
  have hfold (s : Store) : (stores.foldl mergeCounters s).count part key =
      s.count part key + (stores.map fun s => s.count part key).sum := by
    induction stores generalizing s with
    | nil => simp
    | cons t stores ih =>
      rw [List.foldl_cons, ih, count_mergeCounters, List.map_cons, List.sum_cons, Int.add_assoc]
  rw [mergeAll, hfold, count_empty, Int.zero_add]

theorem total_mergeAll (stores : List Store) (part : Section) :
    (mergeAll stores).total part = (stores.map fun s => s.total part).sum := by
  have hfold (s : Store) : (stores.foldl mergeCounters s).total part =
      s.total part + (stores.map fun s => s.total part).sum := by
    induction stores generalizing s with
    | nil => simp
    | cons t stores ih =>
      rw [List.foldl_cons, ih, total_mergeCounters, List.map_cons, List.sum_cons, Int.add_assoc]
  have hempty : empty.total part = 0 := by
    rw [total, counter_empty]
    rfl
  rw [mergeAll, hfold, hempty, Int.zero_add]

theorem mergeCounters_of_isEmpty (s : Store) {t : Store} (h : t.isEmpty) : s.mergeCounters t = s := by
  apply eq_of_counters
  · intro part
    have hentries : (t.counter part).entries = [] :=
      List.map_eq_nil_iff.mp ((isEmpty_iff t).mp h part)
    rw [counter_mergeCounters, Counter.merge, hentries, List.foldl_nil]
  · exact frozen_mergeCounters s t

/-- Stores that are empty may be left out. -/
theorem mergeAll_filter (stores : List Store) :
    mergeAll (stores.filter fun s => !s.isEmpty) = mergeAll stores := by
  have hfold (s : Store) : (stores.filter fun s => !s.isEmpty).foldl mergeCounters s =
      stores.foldl mergeCounters s := by
    induction stores generalizing s with
    | nil => rfl
    | cons t stores ih =>
      by_cases ht : t.isEmpty
      · rw [List.filter_cons_of_neg (by simp [ht]), ih, List.foldl_cons,
          mergeCounters_of_isEmpty s ht]
      · rw [List.filter_cons_of_pos (by simp [ht]), List.foldl_cons, List.foldl_cons, ih]
  exact hfold .empty

/-- Stores to be merged, some of which are merged among themselves first. -/
inductive Grouping where
  | single (s : Store)
  | merged (parts : List Grouping)

namespace Grouping

mutual

/-- The store that a grouping comes to. -/
def store (g : Grouping) : Store :=
  match g with
  | single s => s
  | merged parts => mergeAll (storesOf parts)

def storesOf (gs : List Grouping) : List Store :=
  match gs with
  | [] => []
  | g :: gs => store g :: storesOf gs

end

mutual

/-- The stores that are grouped. -/
def leaves (g : Grouping) : List Store :=
  match g with
  | single s => [s]
  | merged parts => leavesOf parts

def leavesOf (gs : List Grouping) : List Store :=
  match gs with
  | [] => []
  | g :: gs => leaves g ++ leavesOf gs

end

section Counts

variable (part : Section) (key : String)

mutual

theorem count_store (g : Grouping) :
    g.store.count part key = (g.leaves.map fun s => s.count part key).sum := by
  cases g with
  | single s => simp [store, leaves]
  | merged parts =>
    rw [store, leaves, count_mergeAll]
    exact count_storesOf parts

theorem count_storesOf (gs : List Grouping) :
    ((storesOf gs).map fun s => s.count part key).sum =
      ((leavesOf gs).map fun s => s.count part key).sum := by
  cases gs with
  | nil => rfl
  | cons g gs =>
    rw [storesOf, leavesOf, List.map_cons, List.sum_cons, List.map_append, List.sum_append,
      count_store g, count_storesOf gs]

end

end Counts

/-- Neither the order nor the grouping makes a difference to what is counted. -/
theorem agrees_of_perm {g h : Grouping} (hperm : g.leaves.Perm h.leaves) :
    g.store.agrees h.store := by
  rw [agrees_iff]
  intro part key
  rw [count_store, count_store]
  exact (hperm.map _).sum_eq

end Grouping

theorem mergeAll_congr {stores stores' : List Store}
    (h : List.Forall₂ (fun s t => s.agrees t) stores stores') :
    (mergeAll stores).agrees (mergeAll stores') := by
  rw [agrees_iff]
  intro part key
  rw [count_mergeAll, count_mergeAll]
  induction h with
  | nil => rfl
  | cons hfirst _ ih =>
    rw [List.map_cons, List.map_cons, List.sum_cons, List.sum_cons, ih,
      (agrees_iff _ _).mp hfirst part key]

/-- Where every key counts, a store without keys, one that agrees with an empty store and one whose
totals are all zero are the same. -/
theorem isEmpty_of_positive {s : Store} (h : ∀ part, (s.counter part).Positive) :
    (s.isEmpty ↔ s.agrees empty) ∧ (s.isEmpty ↔ ∀ part, s.total part = 0) := by
  have hentries : s.isEmpty ↔ ∀ part, (s.counter part).entries = [] := by
    rw [isEmpty_iff]
    constructor
    · intro hkeys part
      exact List.map_eq_nil_iff.mp (hkeys part)
    · intro hkeys part
      exact List.map_eq_nil_iff.mpr (hkeys part)
  rw [hentries]
  constructor
  · rw [agrees_iff]
    constructor
    · intro hnone part key
      rw [count_empty, count, Counter.get, hnone part]
      rfl
    · intro hzero part
      apply List.eq_nil_iff_forall_not_mem.mpr
      intro e he
      have hone := h part e he
      have hcount := hzero part e.1
      rw [count_empty, count, Counter.get_of_mem he] at hcount
      omega
  · constructor
    · intro hnone part
      rw [total, Counter.total, hnone part]
      rfl
    · intro hzero part
      have hsize := (h part).size_le_total
      have htotal : (s.counter part).total = 0 := hzero part
      rw [htotal] at hsize
      exact List.length_eq_zero_iff.mp (Nat.le_zero.mp (Int.ofNat_le.mp hsize))

end Store

namespace Shelf

/-- To merge a store into another one changes no store but that. -/
theorem stores_merge {shelf : Shelf} {i j k : Nat} (h : k ≠ i) :
    (shelf.next (.merge i j)).stores[k]? = shelf.stores[k]? := by
  rcases next_cases (.merge i j) with hsame | ⟨reply, hattempt⟩
  · rw [hsame]
  · obtain ⟨s, -, hattempt⟩ := ok_of_bind hattempt
    obtain ⟨source, -, hattempt⟩ := ok_of_bind hattempt
    obtain ⟨t, -, hattempt⟩ := ok_of_bind hattempt
    obtain ⟨-, hnext⟩ := Prod.mk.inj (Except.ok.inj hattempt)
    rw [← hnext, put, List.getElem?_set_ne (Ne.symm h)]

/-- The stores that are merged into a new one stay as they are. -/
theorem stores_mergeAll {shelf : Shelf} {sources : List Nat} {k : Nat}
    (h : k < shelf.stores.length) :
    (shelf.next (.mergeAll sources)).stores[k]? = shelf.stores[k]? := by
  rcases next_cases (.mergeAll sources) with hsame | ⟨reply, hattempt⟩
  · rw [hsame]
  · obtain ⟨parts, -, hattempt⟩ := ok_of_bind hattempt
    obtain ⟨-, hnext⟩ := Prod.mk.inj (Except.ok.inj hattempt)
    rw [← hnext]
    exact List.getElem?_append_left h

end Shelf

namespace Store

/-- What holds of merging, for stores with any counts. -/
structure MergeLaws : Prop where
  refl : ∀ s : Store, s.agrees s
  symm : ∀ s t : Store, s.agrees t → t.agrees s
  trans : ∀ s t u : Store, s.agrees t → t.agrees u → s.agrees u
  merges : ∀ s t : Store, s.frozen = false → ∃ u, s.merge t = .ok u ∧ u.frozen = false
  congr : ∀ s s' t t' u u' : Store, s.agrees s' → t.agrees t' → s.merge t = .ok u →
    s'.merge t' = .ok u' → u.agrees u'
  congrAll : ∀ stores stores' : List Store,
    List.Forall₂ (fun s t => s.agrees t) stores stores' →
    (mergeAll stores).agrees (mergeAll stores')
  comm : ∀ s t u v : Store, s.merge t = .ok u → t.merge s = .ok v → u.agrees v
  assoc : ∀ r s t rs st u v : Store, r.merge s = .ok rs → rs.merge t = .ok u → s.merge t = .ok st →
    r.merge st = .ok v → u.agrees v
  /-- Any order and any grouping, at any depth. -/
  regroup : ∀ g h : Grouping, g.leaves.Perm h.leaves → g.store.agrees h.store
  empty : ∀ s t : Store, s.frozen = false → t.isEmpty → s.merge t = .ok s
  emptyAll : ∀ stores : List Store, mergeAll (stores.filter fun s => !s.isEmpty) = mergeAll stores
  count : ∀ s t u : Store, s.merge t = .ok u → ∀ part key,
    u.count part key = s.count part key + t.count part key
  total : ∀ s t u : Store, s.merge t = .ok u → ∀ part, u.total part = s.total part + t.total part
  countAll : ∀ (stores : List Store) (part : Section) (key : String),
    (mergeAll stores).count part key = (stores.map fun s => s.count part key).sum
  totalAll : ∀ (stores : List Store) (part : Section),
    (mergeAll stores).total part = (stores.map fun s => s.total part).sum
  twice : ∀ s u : Store, s.merge s = .ok u → ∀ part,
    (u.counter part).entries = (s.counter part).entries.map fun (key, n) => (key, 2 * n)
  keys : ∀ s t u : Store, s.merge t = .ok u → ∀ part, (u.counter part).keys =
    (s.counter part).keys ++ (t.counter part).keys.filter fun key => key ∉ (s.counter part).keys
  source : ∀ (shelf : Shelf) (i j : Nat), j ≠ i →
    (shelf.next (.merge i j)).stores[j]? = shelf.stores[j]?
  sources : ∀ (shelf : Shelf) (sources : List Nat), ∀ j < shelf.stores.length,
    (shelf.next (.mergeAll sources)).stores[j]? = shelf.stores[j]?
  nothing : ∀ s : Store, (∀ part, ∀ e ∈ (s.counter part).entries, 1 ≤ e.2) →
    (s.isEmpty ↔ s.agrees .empty) ∧ (s.isEmpty ↔ ∀ part, s.total part = 0)

theorem merge_laws : MergeLaws where
  refl := agrees_refl
  symm _ _ := agrees_symm
  trans _ _ _ := agrees_trans
  merges s t h := ⟨_, merge_eq_ok_iff.mpr ⟨h, rfl⟩, (frozen_mergeCounters s t).trans h⟩
  congr s s' t t' u u' hs ht hu hu' := by
    rw [agrees_iff] at hs ht ⊢
    intro part key
    rw [merge_count hu, merge_count hu', hs part key, ht part key]
  congrAll _ _ := mergeAll_congr
  comm s t u v hu hv := by
    rw [agrees_iff]
    intro part key
    rw [merge_count hu, merge_count hv, Int.add_comm]
  assoc r s t rs st u v hrs hu hst hv := by
    rw [agrees_iff]
    intro part key
    rw [merge_count hu, merge_count hrs, merge_count hv, merge_count hst, Int.add_assoc]
  regroup _ _ := Grouping.agrees_of_perm
  empty s t hs ht := merge_eq_ok_iff.mpr ⟨hs, (mergeCounters_of_isEmpty s ht).symm⟩
  emptyAll := mergeAll_filter
  count _ _ _ := merge_count
  total s t u h part := by
    obtain ⟨-, rfl⟩ := merge_eq_ok_iff.mp h
    exact total_mergeCounters s t part
  countAll := count_mergeAll
  totalAll := total_mergeAll
  twice s u h part := by
    obtain ⟨-, rfl⟩ := merge_eq_ok_iff.mp h
    rw [counter_mergeCounters]
    exact Counter.entries_merge_self _
  keys s t u h part := by
    obtain ⟨-, rfl⟩ := merge_eq_ok_iff.mp h
    rw [counter_mergeCounters]
    exact Counter.keys_merge ..
  source _ _ _ := Shelf.stores_merge
  sources _ _ _ := Shelf.stores_mergeAll
  nothing _ := isEmpty_of_positive

/-- A zero and a negative count: a store that is not empty and agrees with an empty one. -/
theorem merge_laws_signed :
    let s := empty.alter .colors fun c => (c.add "#fff" 1).add "#fff" (-1)
    let t := empty.alter .colors fun c => c.add "#000" (-2)
    (∃ u v, s.merge t = .ok u ∧ t.merge s = .ok v ∧ u.agrees v ∧ u ≠ v) ∧
      s.agrees empty ∧ s.isEmpty = false := by
  intro s t
  obtain ⟨u, hu, -⟩ := merge_laws.merges s t rfl
  obtain ⟨v, hv, -⟩ := merge_laws.merges t s rfl
  refine ⟨⟨u, v, hu, hv, merge_laws.comm s t u v hu hv, ?_⟩, rfl, rfl⟩
  obtain ⟨-, rfl⟩ := merge_eq_ok_iff.mp hu
  obtain ⟨-, rfl⟩ := merge_eq_ok_iff.mp hv
  decide

end Store

end StyleTally
