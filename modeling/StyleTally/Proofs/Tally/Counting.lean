import Mathlib.Algebra.BigOperators.Group.List.Basic
import Mathlib.Algebra.Ring.Int.Defs
import Mathlib.Algebra.Ring.Nat
import StyleTally.Proofs.Tally.Marks

/-!
# What stores count

The count of every key after the operations on counters and stores. Stores agree when they count
alike, whatever the order of their keys.
-/

namespace StyleTally

namespace Entries

theorem lookup_cons (k : String) (e : String × Int) (es : List (String × Int)) :
    (e :: es).lookup k = if k = e.1 then some e.2 else es.lookup k := by
  rw [List.lookup_cons]
  by_cases hk : k = e.1
  · rw [if_pos hk, beq_iff_eq.mpr hk]
  · rw [if_neg hk, beq_eq_false_iff_ne.mpr hk]

theorem lookup_alter (f : Int → Int) (key k : String) (es : List (String × Int)) :
    (alter f key es).lookup k =
      if k = key then some (f ((es.lookup key).getD 0)) else es.lookup k := by
  induction es with
  | nil => exact lookup_cons k (key, f 0) []
  | cons e es ih =>
    obtain ⟨key', n⟩ := e
    rw [alter]
    by_cases hkey : key' = key
    · rw [if_pos hkey, lookup_cons, lookup_cons, lookup_cons, hkey]
      by_cases hk : k = key
      · simp [hk]
      · simp [hk]
    · rw [if_neg hkey, lookup_cons, lookup_cons, lookup_cons, ih]
      have hne : key ≠ key' := fun h => hkey h.symm
      by_cases hk : k = key'
      · simp [hk, hkey]
      · simp [hk, hne]

theorem lookup_of_notMem {key : String} {es : List (String × Int)}
    (h : key ∉ es.map Prod.fst) : es.lookup key = none := by
  rw [List.lookup_eq_none_iff]
  intro e he
  have hne : key ≠ e.1 := fun heq => h (heq ▸ List.mem_map_of_mem he)
  simpa using hne

/-- Of entries whose keys differ, at most one counts for a key. -/
theorem sum_of_nodup (key : String) {es : List (String × Int)} (h : (es.map Prod.fst).Nodup) :
    (es.map fun e => if key = e.1 then e.2 else 0).sum = (es.lookup key).getD 0 := by
  induction es with
  | nil => rfl
  | cons e es ih =>
    obtain ⟨hnot, hnodup⟩ := List.nodup_cons.mp h
    rw [List.map_cons, List.sum_cons, ih hnodup, lookup_cons]
    by_cases hk : key = e.1
    · have hnone : es.lookup key = none := lookup_of_notMem (hk ▸ hnot)
      rw [if_pos hk, if_pos hk, hnone]
      simp
    · rw [if_neg hk, if_neg hk, Int.zero_add]

/-- Adding to one key adds to the sum of all counts. -/
theorem sum_alter_add (key : String) (n : Int) (es : List (String × Int)) :
    ((alter (· + n) key es).map Prod.snd).sum = (es.map Prod.snd).sum + n := by
  induction es with
  | nil => simp [alter]
  | cons e es ih =>
    obtain ⟨k, m⟩ := e
    rw [alter]
    by_cases h : k = key
    · simp only [if_pos h, List.map_cons, List.sum_cons]
      omega
    · simp only [if_neg h, List.map_cons, List.sum_cons, ih]
      omega

theorem alter_mem {f : Int → Int} {key : String} {es : List (String × Int)} {e : String × Int}
    (h : e ∈ alter f key es) : e ∈ es ∨ e.2 = f 0 ∨ ∃ d ∈ es, e.2 = f d.2 := by
  induction es with
  | nil =>
    obtain rfl := List.mem_singleton.mp h
    exact .inr (.inl rfl)
  | cons d es ih =>
    obtain ⟨k, m⟩ := d
    rw [alter] at h
    by_cases hk : k = key
    · rw [if_pos hk] at h
      cases List.mem_cons.mp h with
      | inl heq => exact .inr (.inr ⟨(k, m), List.mem_cons_self, by rw [heq]⟩)
      | inr hmem => exact .inl (List.mem_cons_of_mem _ hmem)
    · rw [if_neg hk] at h
      cases List.mem_cons.mp h with
      | inl heq => exact .inl (heq ▸ List.mem_cons_self)
      | inr hmem =>
        obtain hold | hnew | ⟨d, hd, hchanged⟩ := ih hmem
        · exact .inl (List.mem_cons_of_mem _ hold)
        · exact .inr (.inl hnew)
        · exact .inr (.inr ⟨d, List.mem_cons_of_mem _ hd, hchanged⟩)

end Entries

namespace Counter

theorem get_alter (c : Counter) (f : Int → Int) (key k : String) :
    (c.alter f key).get k = if k = key then f (c.get key) else c.get k := by
  rw [get, alter, Entries.lookup_alter]
  by_cases hk : k = key
  · simp [hk, get]
  · simp [hk, get]

theorem get_add (c : Counter) (key k : String) (n : Int) :
    (c.add key n).get k = c.get k + if k = key then n else 0 := by
  rw [add, get_alter]
  by_cases hk : k = key
  · simp [hk]
  · simp [hk]

theorem get_merge (c d : Counter) (k : String) : (c.merge d).get k = c.get k + d.get k := by
  have hfold (es : List (String × Int)) (c : Counter) :
      (es.foldl (fun c e => c.add e.1 e.2) c).get k =
        c.get k + (es.map fun e => if k = e.1 then e.2 else 0).sum := by
    induction es generalizing c with
    | nil => simp
    | cons e es ih =>
      rw [List.foldl_cons, ih, get_add, List.map_cons, List.sum_cons]
      omega
  have hmerge : c.merge d = d.entries.foldl (fun c e => c.add e.1 e.2) c := rfl
  rw [hmerge, hfold, Entries.sum_of_nodup k d.nodup]
  rfl

theorem total_eq (c : Counter) : c.total = (c.entries.map Prod.snd).sum := by
  rw [total, List.sum_eq_foldr, List.foldr_map]

theorem total_add (c : Counter) (key : String) (n : Int) : (c.add key n).total = c.total + n := by
  rw [total_eq, total_eq]
  exact Entries.sum_alter_add key n c.entries

theorem total_merge (c d : Counter) : (c.merge d).total = c.total + d.total := by
  have hfold (es : List (String × Int)) (c : Counter) :
      (es.foldl (fun c e => c.add e.1 e.2) c).total = c.total + (es.map Prod.snd).sum := by
    induction es generalizing c with
    | nil => simp
    | cons e es ih =>
      rw [List.foldl_cons, ih, total_add, List.map_cons, List.sum_cons]
      omega
  rw [total_eq d]
  exact hfold d.entries c

/-- Every key that is there counts at least one. -/
def Positive (c : Counter) : Prop := ∀ e ∈ c.entries, 1 ≤ e.2

theorem Positive.add {c : Counter} (hc : c.Positive) (key : String) {n : Int} (hn : 1 ≤ n) :
    (c.add key n).Positive := by
  intro e he
  obtain hold | hnew | ⟨d, hd, hchanged⟩ := Entries.alter_mem he
  · exact hc e hold
  · omega
  · have := hc d hd
    omega

theorem Positive.merge {c d : Counter} (hc : c.Positive) (hd : d.Positive) :
    (c.merge d).Positive := by
  have hfold (es : List (String × Int)) (hes : ∀ e ∈ es, 1 ≤ e.2) (c : Counter) (hc : c.Positive) :
      (es.foldl (fun c e => c.add e.1 e.2) c).Positive := by
    induction es generalizing c with
    | nil => exact hc
    | cons e es ih =>
      have hfirst := hc.add e.1 (hes e List.mem_cons_self)
      exact ih (fun e he => hes e (List.mem_cons_of_mem _ he)) _ hfirst
  exact hfold d.entries hd c hc

theorem mem_keys_add (c : Counter) (key k : String) (n : Int) :
    k ∈ (c.add key n).keys ↔ k ∈ c.keys ∨ k = key := by
  rw [keys_add]
  by_cases hkey : key ∈ c.keys
  · rw [if_pos hkey]
    constructor
    · exact .inl
    · rintro (hmem | rfl)
      · exact hmem
      · exact hkey
  · simp [hkey]

theorem get_of_notMem {c : Counter} {key : String} (h : key ∉ c.keys) : c.get key = 0 := by
  rw [get, Entries.lookup_of_notMem h]
  rfl

theorem agrees_iff (c d : Counter) : c.agrees d ↔ ∀ key, c.get key = d.get key := by
  rw [agrees, List.all_eq_true]
  constructor
  · intro h key
    by_cases hkey : key ∈ c.keys ++ d.keys
    · simpa using h key hkey
    · rw [List.mem_append, not_or] at hkey
      rw [get_of_notMem hkey.1, get_of_notMem hkey.2]
  · intro h key _
    simp [h key]

end Counter

namespace Store

/-- The count of a key in a section. -/
def count (s : Store) (part : Section) (key : String) : Int := (s.counter part).get key

/-- The sum of all counts in a section. -/
def total (s : Store) (part : Section) : Int := (s.counter part).total

theorem count_empty (part : Section) (key : String) : empty.count part key = 0 := by
  rw [count, counter_empty]
  rfl

theorem agrees_iff (s t : Store) :
    s.agrees t ↔ ∀ part key, s.count part key = t.count part key := by
  rw [agrees, List.all_eq_true]
  constructor
  · intro h part
    exact (Counter.agrees_iff _ _).mp (h part part.mem_all)
  · intro h part _
    exact (Counter.agrees_iff _ _).mpr (h part)

theorem count_record (s : Store) (ms : List Mark) (part : Section) (key : String) :
    (s.record ms).count part key = s.count part key + (ms.count ⟨part, key⟩ : Nat) := by
  induction ms generalizing s with
  | nil => simp [record]
  | cons m ms ih =>
    have hmark : (s.alter m.part fun c => c.add m.key 1).count part key =
        s.count part key + if m = ⟨part, key⟩ then 1 else 0 := by
      obtain ⟨part', key'⟩ := m
      rw [count, count, counter_alter]
      by_cases hpart : part' = part
      · subst hpart
        simp [Counter.get_add, eq_comm]
      · simp [hpart]
    rw [record_cons, ih, hmark, List.count_cons]
    by_cases hm : m = ⟨part, key⟩
    · simp [hm]
      omega
    · simp [hm]

theorem mem_keys_record {s : Store} {ms : List Mark} {part : Section} {key : String} :
    key ∈ ((s.record ms).counter part).keys ↔ key ∈ (s.counter part).keys ∨ ⟨part, key⟩ ∈ ms := by
  induction ms generalizing s with
  | nil => simp [record]
  | cons m ms ih =>
    obtain ⟨part', key'⟩ := m
    rw [record_cons, ih, counter_alter, List.mem_cons]
    by_cases hpart : part' = part
    · subst hpart
      simp [Counter.mem_keys_add, or_assoc]
    · have hne : part ≠ part' := fun h => hpart h.symm
      simp [hpart, hne]

theorem total_record (s : Store) (ms : List Mark) (part : Section) :
    (s.record ms).total part = s.total part + (ms.countP (·.part = part) : Nat) := by
  induction ms generalizing s with
  | nil => simp [record]
  | cons m ms ih =>
    have hmark : (s.alter m.part fun c => c.add m.key 1).total part =
        s.total part + if m.part = part then 1 else 0 := by
      rw [total, total, counter_alter]
      by_cases hpart : m.part = part
      · rw [if_pos hpart, if_pos hpart, Counter.total_add, hpart]
      · rw [if_neg hpart, if_neg hpart, Int.add_zero]
    rw [record_cons, ih, hmark, List.countP_cons]
    by_cases hpart : m.part = part
    · simp [hpart]
      omega
    · simp [hpart]

theorem positive_record {s : Store} (h : ∀ part, (s.counter part).Positive) (ms : List Mark)
    (part : Section) : ((s.record ms).counter part).Positive := by
  induction ms generalizing s with
  | nil => exact h part
  | cons m ms ih =>
    apply ih
    intro part
    rw [counter_alter]
    split
    · exact (h m.part).add m.key (Int.le_refl 1)
    · exact h part

/-- A change to one section after the other, seen in one of them. -/
theorem counter_foldl_alter {parts : List Section} (hparts : parts.Nodup)
    (f : Section → Counter → Counter) (s : Store) (part : Section) :
    (parts.foldl (fun s part => s.alter part (f part)) s).counter part =
      if part ∈ parts then f part (s.counter part) else s.counter part := by
  induction parts generalizing s with
  | nil => rfl
  | cons first parts ih =>
    obtain ⟨hnot, hparts⟩ := List.nodup_cons.mp hparts
    rw [List.foldl_cons, ih hparts, counter_alter]
    by_cases hfirst : first = part
    · subst hfirst
      simp [hnot]
    · have hne : part ≠ first := fun h => hfirst h.symm
      simp [hfirst, hne]

theorem counter_mergeCounters (s t : Store) (part : Section) :
    (s.mergeCounters t).counter part = (s.counter part).merge (t.counter part) := by
  rw [mergeCounters, counter_foldl_alter (by decide), if_pos part.mem_all]

theorem count_mergeCounters (s t : Store) (part : Section) (key : String) :
    (s.mergeCounters t).count part key = s.count part key + t.count part key := by
  rw [count, counter_mergeCounters, Counter.get_merge]
  rfl

theorem total_mergeCounters (s t : Store) (part : Section) :
    (s.mergeCounters t).total part = s.total part + t.total part := by
  rw [total, counter_mergeCounters, Counter.total_merge]
  rfl

end Store

end StyleTally
