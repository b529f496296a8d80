import StyleTally.Proofs.Tally.Merging

/-!
# Statements that count on request

Definitions, imports and at-rules without a body leave marks only where statements are to be
counted. Nothing else depends on it: what they leave comes on top of what is counted anyway, once
for each of them, and the keys that they do not touch keep their order.
-/

namespace StyleTally

open Stylesheet

namespace Stylesheet.Statement

/-- Whether a statement is a definition, an import or an at-rule without a body. -/
def isEntry : Statement → Bool
  | .definition _ _ _ | .imported _ _ _ | .directive _ _ => true
  | _ => false

mutual

/-- The block of a statement and all blocks within it. -/
def blocks (stmt : Statement) : List (List Statement) :=
  match stmt with
  | .ruleset _ _ body | .mixin _ _ _ body | .media _ body | .blockDirective _ _ body
  | .block _ body => body :: blocksWithin body
  | _ => []

/-- The blocks of statements and all blocks within them. -/
def blocksWithin (ss : List Statement) : List (List Statement) :=
  match ss with
  | [] => []
  | s :: ss => blocks s ++ blocksWithin ss

end

/-- The entries of a block and of all blocks within it, block by block. -/
def entries (block : List Statement) : List Statement :=
  (block :: blocksWithin block).flatMap (List.filter isEntry)

theorem entries_cons (s : Statement) (ss : List Statement) :
    (entries (s :: ss)).Perm (entries [s] ++ entries ss) := by
  have hblocks : blocksWithin (s :: ss) = blocksWithin [s] ++ blocksWithin ss := by
    simp [blocksWithin]
  have hfilter : (s :: ss).filter isEntry = [s].filter isEntry ++ ss.filter isEntry :=
    List.filter_append [s] ss
  simp only [entries, List.flatMap_cons, hblocks, hfilter, List.flatMap_append, List.append_assoc]
  apply List.Perm.append_left
  rw [← List.append_assoc, ← List.append_assoc]
  exact List.perm_append_comm.append_right _

/-- The only entry that an entry holds is itself. -/
theorem entries_of_isEntry {s : Statement} (h : s.isEntry) : entries [s] = [s] := by
  cases s with
  | definition | imported | directive => simp [entries, blocksWithin, blocks, isEntry]
  | _ => cases h

/-- A statement with a block holds the entries of the block. -/
theorem entries_of_blocks {s : Statement} (body : List Statement) (hs : s.isEntry = false)
    (h : s.blocks = body :: blocksWithin body) : entries [s] = entries body := by
  simp [entries, blocksWithin, h, hs]

theorem entries_of_no_blocks {s : Statement} (hs : s.isEntry = false) (h : s.blocks = []) :
    entries [s] = [] := by
  simp [entries, blocksWithin, h, hs]

end Stylesheet.Statement

namespace Mark

/-- The first marks are the second ones with the third ones strewn in. -/
structure Strewn (on off added : List Mark) : Prop where
  sublist : off.Sublist on
  perm : on.Perm (off ++ added)

namespace Strewn

theorem refl (ms : List Mark) : Strewn ms ms [] := by
  constructor
  · exact List.Sublist.refl ms
  · rw [List.append_nil]

theorem all (ms : List Mark) : Strewn ms [] ms := ⟨List.nil_sublist ms, List.Perm.refl ms⟩

theorem append {on off added on' off' added' : List Mark} (h : Strewn on off added)
    (h' : Strewn on' off' added') : Strewn (on ++ on') (off ++ off') (added ++ added') := by
  constructor
  · exact h.sublist.append h'.sublist
  · have hswap : (added ++ (off' ++ added')).Perm (off' ++ (added ++ added')) := by
      rw [← List.append_assoc, ← List.append_assoc]
      exact List.perm_append_comm.append_right _
    have := h.perm.append h'.perm
    rw [List.append_assoc] at this ⊢
    exact this.trans (hswap.append_left off)

theorem behind {on off added : List Mark} (ms : List Mark) (h : Strewn on off added) :
    Strewn (ms ++ on) (ms ++ off) added := (refl ms).append h

theorem of_perm {on off added added' : List Mark} (h : Strewn on off added)
    (hadded : added.Perm added') : Strewn on off added' :=
  ⟨h.sublist, h.perm.trans (hadded.append_left off)⟩

theorem count_eq {on off added : List Mark} (h : Strewn on off added) (m : Mark) :
    on.count m = off.count m + added.count m := by
  rw [h.perm.count_eq, List.count_append]

/-- Marks of a sort that none of those strewn in has are the same, in the same order. -/
theorem filter_eq {on off added : List Mark} (h : Strewn on off added) {p : Mark → Bool}
    (hp : ∀ m ∈ added, p m = false) : on.filter p = off.filter p := by
  have hadded : added.filter p = [] := List.filter_eq_nil_iff.mpr fun m hm => by simp [hp m hm]
  have hlength := (h.perm.filter p).length_eq
  rw [List.filter_append, hadded, List.append_nil] at hlength
  exact ((h.sublist.filter p).eq_of_length hlength.symm).symm

end Strewn

/-- The marks that a statement leaves when it is visited as a node. -/
def ofEntry (e : Statement) : List Mark := ofNodes [e.node?]

mutual

theorem strewn_statement (s : Statement) :
    Strewn (ofStatement true s) (ofStatement false s) ((Statement.entries [s]).flatMap ofEntry) := by
  cases s with
  | empty | extend | declaration | mixinCall =>
    rw [Statement.entries_of_no_blocks rfl (by simp [Statement.blocks]), List.flatMap_nil]
    simp only [ofStatement]
    exact .refl _
  | definition | imported | directive =>
    rw [Statement.entries_of_isEntry rfl, List.flatMap_singleton]
    simp only [ofStatement]
    exact .all _
  | blockDirective name params body =>
    rw [Statement.entries_of_blocks body rfl (by simp [Statement.blocks])]
    exact (strewn_statements body).behind [.tag "block_directive", ⟨.directives, name⟩]
  | block name body =>
    rw [Statement.entries_of_blocks body rfl (by simp [Statement.blocks])]
    exact (strewn_statements body).behind [.tag "generic_block"]
  | media queries body =>
    rw [Statement.entries_of_blocks body rfl (by simp [Statement.blocks])]
    simp only [ofStatement]
    exact (strewn_statements body).behind _
  | mixin name params conditions body =>
    rw [Statement.entries_of_blocks body rfl (by simp [Statement.blocks])]
    simp only [ofStatement]
    exact (strewn_statements body).behind _
  | ruleset selectors conditions body =>
    rw [Statement.entries_of_blocks body rfl (by simp [Statement.blocks])]
    simp only [ofStatement]
    exact (strewn_statements body).behind _

/-- The marks of the entries are strewn in among those that are counted anyway. -/
theorem strewn_statements (ss : List Statement) :
    Strewn (ofStatements true ss) (ofStatements false ss) ((Statement.entries ss).flatMap ofEntry) := by
  cases ss with
  | nil => exact .refl []
  | cons s ss =>
    have hboth := (strewn_statement s).append (strewn_statements ss)
    rw [← List.flatMap_append] at hboth
    simp only [ofStatements]
    exact hboth.of_perm ((Statement.entries_cons s ss).symm.flatMap_right ofEntry)

end

end Mark

namespace Counter

/-- Adding to a key, as the keys of a sort see it. -/
theorem filter_keys_add (p : String → Bool) (c : Counter) (key : String) (n : Int) :
    (c.add key n).keys.filter p =
      if p key ∧ key ∉ c.keys.filter p then c.keys.filter p ++ [key] else c.keys.filter p := by
  rw [keys_add]
  by_cases hmem : key ∈ c.keys
  · rw [if_pos hmem, if_neg (by simp [hmem])]
  · rw [if_neg hmem, List.filter_append]
    by_cases hp : p key
    · simp [hp, hmem]
    · simp [hp]

end Counter

namespace Store

/-- The order of the keys of a sort depends on nothing but the marks of that sort. -/
theorem filter_keys_record {s t : Store} {part : Section} {p : String → Bool}
    (h : (s.counter part).keys.filter p = (t.counter part).keys.filter p) (ms : List Mark) :
    ((s.record ms).counter part).keys.filter p =
      ((t.record (ms.filter fun m => m.part = part ∧ p m.key)).counter part).keys.filter p := by
  induction ms generalizing s t with
  | nil => exact h
  | cons m ms ih =>
    obtain ⟨part', key⟩ := m
    rw [record_cons]
    by_cases hpart : part' = part
    · subst hpart
      by_cases hp : p key
      · rw [List.filter_cons_of_pos (by simp [hp]), record_cons]
        apply ih
        rw [counter_alter, if_pos rfl, counter_alter, if_pos rfl, Counter.filter_keys_add,
          Counter.filter_keys_add, h]
      · rw [List.filter_cons_of_neg (by simp [hp])]
        apply ih
        rw [counter_alter, if_pos rfl, Counter.filter_keys_add, if_neg (by simp [hp]), h]
    · rw [List.filter_cons_of_neg (by simp [hpart])]
      apply ih
      rw [counter_alter, if_neg hpart, h]

/-- What an entry counts by itself. -/
def ofEntry (e : Statement) : Store := empty.record (Mark.ofEntry e)

theorem scanNode_entry (e : Statement) : empty.scanNode e.node? = .ok (ofEntry e) := by
  rw [scanNode_eq, markAll_of_unfrozen rfl]
  rfl

theorem mem_keys_ofEntry {e : Statement} {part : Section} {key : String} :
    key ∈ ((ofEntry e).counter part).keys ↔ ⟨part, key⟩ ∈ Mark.ofEntry e := by
  rw [ofEntry, mem_keys_record, counter_empty]
  simp [Counter.keys, Counter.empty]

theorem sum_count_ofEntry (es : List Statement) (part : Section) (key : String) :
    (es.map fun e => (ofEntry e).count part key).sum =
      ((es.flatMap Mark.ofEntry).count ⟨part, key⟩ : Nat) := by
  induction es with
  | nil => rfl
  | cons e es ih =>
    rw [List.map_cons, List.sum_cons, ih, List.flatMap_cons, List.count_append, Int.natCast_add,
      ofEntry, count_record, count_empty, Int.zero_add]

end Store

namespace Classifier

/-- Where statements are counted, every count is larger by what the entries of all blocks count,
each of them once, and the keys that no entry touches are the same in the same order. -/
theorem scan_statements {s : Store} (h : s.frozen = false) (files : Nat) (sheet : Sheet) :
    ∃ off on : Classifier, ∃ own : Statement → Store,
      scan ⟨s, false, files⟩ sheet = .ok off ∧ scan ⟨s, true, files⟩ sheet = .ok on ∧
      (∀ e, Store.empty.scanNode e.node? = .ok (own e)) ∧
      (∀ part key, on.store.count part key = off.store.count part key +
        ((Statement.entries sheet).map fun e => (own e).count part key).sum) ∧
      ∀ part,
        let untouched (key : String) : Bool :=
          (Statement.entries sheet).all fun e => key ∉ ((own e).counter part).keys
        (on.store.counter part).keys.filter untouched =
          (off.store.counter part).keys.filter untouched := by
  have hstrewn := Mark.strewn_statements sheet
  refine ⟨_, _, Store.ofEntry, scan_eq h sheet, scan_eq h sheet, Store.scanNode_entry, ?_, ?_⟩
  · intro part key
    simp only [scanned, Store.count_record, Store.sum_count_ofEntry, hstrewn.count_eq]
    omega
  · intro part untouched
    have hadded (m : Mark) (hm : m ∈ (Statement.entries sheet).flatMap Mark.ofEntry) :
        decide (m.part = part ∧ untouched m.key) = false := by
      obtain ⟨e, he, hme⟩ := List.mem_flatMap.mp hm
      rw [decide_eq_false_iff_not]
      rintro ⟨rfl, huntouched⟩
      have hkey := List.all_eq_true.mp huntouched e he
      simp [Store.mem_keys_ofEntry, hme] at hkey
    have hfilter := hstrewn.filter_eq hadded
    simp only [scanned]
    rw [Store.filter_keys_record (s := s) rfl, hfilter, ← Store.filter_keys_record rfl]

/-- A definition beside a media block with an at-rule in it. -/
def nestedEntries : Sheet :=
  [.ruleset [] none [.definition "a" (.keyword "b") false, .media none [.directive "c" none]]]

theorem scan_statements_nested : Store.empty.frozen = false ∧
    ∃ off on, scan ⟨.empty, false, 0⟩ nestedEntries = .ok off ∧
      scan ⟨.empty, true, 0⟩ nestedEntries = .ok on ∧
      on.store.count .nodes "directive" = off.store.count .nodes "directive" + 1 ∧
      on.store.count .keywords "b" = off.store.count .keywords "b" + 1 := by
  have hempty : Store.empty.frozen = false := rfl
  obtain ⟨off, on, own, hoff, hon, hown, hcount, -⟩ := scan_statements hempty 0 nestedEntries
  have hown (e : Statement) : own e = .ofEntry e :=
    Except.ok.inj ((hown e).symm.trans (Store.scanNode_entry e))
  have hentries : Statement.entries nestedEntries =
      [.definition "a" (.keyword "b") false, .directive "c" none] := by
    simp [nestedEntries, Statement.entries, Statement.blocksWithin, Statement.blocks,
      Statement.isEntry, List.filter_cons]
  have hdefinition : Mark.ofEntry (.definition "a" (.keyword "b") false) =
      [.tag "definition", .tag "keyword", ⟨.keywords, "b"⟩] := by
    simp [Mark.ofEntry, Mark.ofNodes, Statement.node?, Findings.of?, Findings.ofStatement?,
      Findings.tagged, Findings.keyed, Findings.ofValue]
  have hdirective : Mark.ofEntry (.directive "c" none) = [.tag "directive"] := by
    simp [Mark.ofEntry, Mark.ofNodes, Statement.node?, Findings.of?, Findings.ofStatement?,
      Findings.tagged]
  simp only [hown, hentries, Store.sum_count_ofEntry, List.flatMap_cons, List.flatMap_nil,
    hdefinition, hdirective] at hcount
  exact ⟨hempty, off, on, hoff, hon, hcount .nodes "directive", hcount .keywords "b"⟩

end Classifier

end StyleTally
