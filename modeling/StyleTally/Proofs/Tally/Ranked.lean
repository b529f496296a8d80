import Mathlib.Data.Int.ModEq
import StyleTally.Proofs.Tally.Laws
import StyleTally.Tally.Summary

/-!
# Rankings and summaries

A ranking lists entries by descending count, and entries of one count in the order in which they
came. Entries have one ranking only, and the leading keys of a summary are the first ones of it. The
figures of a summary agree with the counter: its total is the sum of all counts as far as a word of
64 bits holds it, its rare keys keep the order of the counter, and where every key counts, no figure
exceeds the next larger one.
-/

namespace StyleTally

namespace Entries

/-- The entries by descending count; entries of one count keep their order. -/
structure Ranked (es r : List (String × Int)) : Prop where
  perm : r.Perm es
  descending : r.Pairwise fun a b => b.2 ≤ a.2
  stable : ∀ n, r.filter (fun e => e.2 = n) = es.filter fun e => e.2 = n

section Unique

variable {r r' : List (String × Int)}

theorem mem_iff_of_filter_eq (h : ∀ n, r.filter (fun e => e.2 = n) = r'.filter fun e => e.2 = n)
    (e : String × Int) : e ∈ r ↔ e ∈ r' := by
  have hmem := congrArg (e ∈ ·) (h e.2)
  simpa [List.mem_filter] using hmem

/-- Lists by descending count are equal when they hold the same entries of each count in the same
order. -/
theorem eq_of_descending (hr : r.Pairwise fun a b => b.2 ≤ a.2)
    (hr' : r'.Pairwise fun a b => b.2 ≤ a.2)
    (h : ∀ n, r.filter (fun e => e.2 = n) = r'.filter fun e => e.2 = n) : r = r' := by
  induction r generalizing r' with
  | nil =>
    have hnone (e : String × Int) : e ∉ r' := by simp [← mem_iff_of_filter_eq h e]
    exact (List.eq_nil_iff_forall_not_mem.mpr hnone).symm
  | cons e r ih =>
    have hmem := mem_iff_of_filter_eq h
    cases r' with
    | nil => exact absurd ((hmem e).mp List.mem_cons_self) List.not_mem_nil
    | cons e' r' =>
      obtain ⟨hfirst, hrest⟩ := List.pairwise_cons.mp hr
      obtain ⟨hfirst', hrest'⟩ := List.pairwise_cons.mp hr'
      -- Each of the two first entries stands in the other list, so neither counts more.
      have hle : e'.2 ≤ e.2 := by
        rcases List.mem_cons.mp ((hmem e').mpr List.mem_cons_self) with heq | hin
        · exact heq ▸ Int.le_refl _
        · exact hfirst e' hin
      have hge : e.2 ≤ e'.2 := by
        rcases List.mem_cons.mp ((hmem e).mp List.mem_cons_self) with heq | hin
        · exact heq ▸ Int.le_refl _
        · exact hfirst' e hin
      have hcount : e'.2 = e.2 := Int.le_antisymm hle hge
      have hheads := h e.2
      simp only [List.filter_cons, hcount, decide_true, if_true, List.cons.injEq] at hheads
      obtain ⟨rfl, -⟩ := hheads
      refine congrArg (e :: ·) (ih hrest hrest' fun n => ?_)
      have hn := h n
      simp only [List.filter_cons] at hn
      split at hn
      · exact (List.cons.inj hn).2
      · exact hn

theorem Ranked.unique {es : List (String × Int)} (h : Ranked es r) (h' : Ranked es r') : r = r' :=
  eq_of_descending h.descending h'.descending fun n => (h.stable n).trans (h'.stable n).symm

end Unique

end Entries

namespace Counter

open Entries (Ranked)

theorem countsMore_trans (a b d : String × Int) (hab : decide (b.2 ≤ a.2) = true)
    (hbd : decide (d.2 ≤ b.2) = true) : decide (d.2 ≤ a.2) = true := by
  simp only [decide_eq_true_eq] at hab hbd ⊢
  exact Int.le_trans hbd hab

theorem countsMore_total (a b : String × Int) :
    (decide (b.2 ≤ a.2) || decide (a.2 ≤ b.2)) = true := by
  simp only [Bool.or_eq_true, decide_eq_true_eq]
  exact Int.le_total _ _

theorem ranked_descending (c : Counter) : c.ranked.Pairwise fun a b => b.2 ≤ a.2 := by
  have hsorted : c.ranked.Pairwise fun a b => decide (b.2 ≤ a.2) = true :=
    List.pairwise_mergeSort countsMore_trans countsMore_total c.entries
  exact hsorted.imp fun h => of_decide_eq_true h

/-- The ranking of a counter is a ranking of its entries. -/
theorem ranked_spec (c : Counter) : Ranked c.entries c.ranked where
  perm := List.mergeSort_perm _ _
  descending := c.ranked_descending
  stable n := by
    have hsame : (c.entries.filter fun e => e.2 = n).Pairwise fun a b =>
        decide (b.2 ≤ a.2) = true := by
      refine List.pairwise_of_forall_mem_list ?_
      intro a ha b hb
      simp only [List.mem_filter, decide_eq_true_eq] at ha hb ⊢
      omega
    have hsublist : (c.entries.filter fun e => e.2 = n).Sublist c.ranked :=
      List.sublist_mergeSort countsMore_trans countsMore_total hsame List.filter_sublist
    have hfilter := hsublist.filter fun e => e.2 = n
    rw [List.filter_filter] at hfilter
    simp only [Bool.and_self] at hfilter
    have hperm : (c.ranked.filter fun e => e.2 = n).Perm (c.entries.filter fun e => e.2 = n) :=
      (List.mergeSort_perm _ _).filter _
    exact (hfilter.eq_of_length hperm.length_eq.symm).symm

theorem ranked_iff (c : Counter) (r : List (String × Int)) :
    Ranked c.entries r ↔ r = c.ranked := by
  constructor
  · intro h
    exact h.unique c.ranked_spec
  · rintro rfl
    exact c.ranked_spec

end Counter

namespace Summary

theorem wordTotal_eq (c : Counter) :
    wordTotal (c.entries.map Prod.snd) = c.total.bmod (2 ^ 64) := by
  rw [wordTotal, Counter.total_eq, List.sum_eq_foldr]
  rfl

theorem isWord_iff (n : Int) : isWord n ↔ -2 ^ 63 ≤ n ∧ n < 2 ^ 63 := by
  simp [isWord]

theorem wordTotal_congr (c : Counter) :
    wordTotal (c.entries.map Prod.snd) ≡ c.total [ZMOD 2 ^ 64] := by
  rw [wordTotal_eq]
  exact Int.bmod_emod

theorem wordTotal_of_isWord {c : Counter} (h : isWord c.total) :
    wordTotal (c.entries.map Prod.snd) = c.total := by
  rw [isWord_iff] at h
  rw [wordTotal_eq]
  exact Int.bmod_eq_of_le (by omega) (by omega)

theorem leading_eq {top : Int} (htop : 0 ≤ top) (es : List (String × Int)) :
    leading top es = es.take (min top.toNat es.length) := by
  rw [leading, if_neg (by omega), List.take_eq_take_min]

/-- Where every key counts, the keys that count at most one are those that count one. -/
theorem count_one_eq {c : Counter} (hc : c.Positive) :
    (c.entries.map Prod.snd).count 1 = (c.entries.filter fun e => e.2 ≤ 1).length := by
  rw [List.count_eq_countP, List.countP_map, List.countP_eq_length_filter]
  congr 1
  refine List.filter_congr fun e he => ?_
  have hpos := hc e he
  simp only [Function.comp_apply, beq_eq_decide, decide_eq_decide]
  omega

/-- What the figures of a summary say of a counter. -/
structure Agrees (c : Counter) (limits : SummaryLimits) (s : Summary) : Prop where
  distinct : s.distinct = c.size
  /-- The first entries of the one ranking that there is. -/
  top : s.top = c.ranked.take (min limits.top.toNat s.distinct)
  total_congr : s.total ≡ c.total [ZMOD 2 ^ 64]
  total_eq : isWord c.total → s.total = c.total
  rare_sublist : s.rare.Sublist c.keys
  mem_rare : ∀ key, key ∈ s.rare ↔ key ∈ c.keys ∧ c.get key ≤ limits.rare
  singletons_le : c.Positive → s.singletons ≤ s.distinct
  distinct_le : c.Positive → (s.distinct : Int) ≤ c.total
  singletons_eq : c.Positive → limits.rare = 1 → s.singletons = s.rare.length

end Summary

namespace Counter

theorem mem_keys_filter (c : Counter) (p : Int → Prop) [DecidablePred p] (key : String) :
    key ∈ (c.entries.filter fun e => p e.2).map Prod.fst ↔ key ∈ c.keys ∧ p (c.get key) := by
  constructor
  · intro h
    obtain ⟨e, he, rfl⟩ := List.mem_map.mp h
    obtain ⟨hmem, hp⟩ := List.mem_filter.mp he
    exact ⟨List.mem_map_of_mem hmem, get_of_mem hmem ▸ of_decide_eq_true hp⟩
  · rintro ⟨h, hp⟩
    obtain ⟨e, he, rfl⟩ := List.mem_map.mp h
    rw [get_of_mem he] at hp
    exact List.mem_map_of_mem (List.mem_filter.mpr ⟨he, decide_eq_true hp⟩)

/-- A counter of words has a summary, and its figures agree with the counter. -/
theorem summary?_agrees {c : Counter} (hwords : ∀ e ∈ c.entries, isWord e.2)
    {limits : SummaryLimits} (htop : 0 ≤ limits.top) (name : String) :
    ∃ s, c.summary? limits name = some s ∧ s.name = name ∧ s.Agrees c limits := by
  have hall : (c.entries.map Prod.snd).all isWord = true := by
    rw [List.all_eq_true]
    intro n hn
    obtain ⟨e, he, rfl⟩ := List.mem_map.mp hn
    exact hwords e he
  refine ⟨_, by rw [summary?, if_pos hall], rfl, ?_⟩
  constructor
  · rfl
  · have hlength : c.ranked.length = c.size := c.ranked_spec.perm.length_eq
    exact (Summary.leading_eq htop c.ranked).trans (by rw [hlength])
  · exact Summary.wordTotal_congr c
  · exact Summary.wordTotal_of_isWord
  · exact List.filter_sublist.map Prod.fst
  · exact c.mem_keys_filter fun n => n ≤ limits.rare
  · intro _
    exact List.count_le_length.trans_eq (List.length_map _)
  · exact Positive.size_le_total
  · intro hc hrare
    simp only [hrare, List.length_map]
    exact Summary.count_one_eq hc

end Counter

namespace Store

/-- Every section of a store of words has one ranking and a summary, and they agree. -/
theorem summaries_agree (s : Store) (limits : SummaryLimits)
    (hwords : ∀ part, ∀ e ∈ (s.counter part).entries, isWord e.2) (htop : 0 ≤ limits.top) :
    (∀ part r, Entries.Ranked (s.counter part).entries r ↔ r = (s.counter part).ranked) ∧
      ∃ summary : Section → Summary,
        s.summaries? limits = some (Section.all.map summary) ∧
        ∀ part, (summary part).name = part.name ∧
          (summary part).Agrees (s.counter part) limits := by
  refine ⟨fun part r => (s.counter part).ranked_iff r, ?_⟩
  have hsummary (part : Section) := Counter.summary?_agrees (hwords part) htop part.name
  choose summary hsome hagrees using hsummary
  refine ⟨summary, ?_, hagrees⟩
  rw [summaries?, funext hsome]
  exact List.mapM_pure

/-- Three keys whose counts exceed a word when taken together. -/
def crowded : Store :=
  empty.alter .keywords fun _ => .ofPairs [("a", 1), ("b", 0x7fffffffffffffff), ("c", 1)]

theorem summaries_agree_crowded :
    (∀ part, ∀ e ∈ (crowded.counter part).entries, isWord e.2) ∧ (0 : Int) ≤ 2 ∧
      ∃ summary : Section → Summary,
        crowded.summaries? ⟨2, 1⟩ = some (Section.all.map summary) ∧
        (summary .keywords).top = [("b", 0x7fffffffffffffff), ("a", 1)] ∧
        (summary .keywords).total ≡ crowded.total .keywords [ZMOD 2 ^ 64] := by
  have hwords : ∀ part, ∀ e ∈ (crowded.counter part).entries, isWord e.2 := by
    intro part
    cases part <;> decide
  obtain ⟨hranking, summary, hsummaries, hagrees⟩ :=
    summaries_agree crowded ⟨2, 1⟩ hwords (by decide)
  have hkeywords := (hagrees .keywords).2
  have hentries : (crowded.counter .keywords).entries =
      [("a", 1), ("b", 0x7fffffffffffffff), ("c", 1)] := by
    decide
  have hrank : [("b", 0x7fffffffffffffff), ("a", 1), ("c", 1)] =
      (crowded.counter .keywords).ranked := by
    refine (hranking .keywords _).mp ?_
    rw [hentries]
    constructor
    · exact List.Perm.swap ..
    · decide
    · intro n
      rcases eq_or_ne n 1 with rfl | hn
      · decide
      · simp [List.filter_cons, hn.symm]
  have hsize : (crowded.counter .keywords).size = 3 := by decide
  refine ⟨hwords, by decide, summary, hsummaries, ?_, hkeywords.total_congr⟩
  rw [hkeywords.top, ← hrank, hkeywords.distinct, hsize]
  decide

end Store

end StyleTally
