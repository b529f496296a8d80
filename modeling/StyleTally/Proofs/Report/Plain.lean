import StyleTally.Proofs.Excerpt.Statement
import StyleTally.Proofs.Tally.Marks
import StyleTally.Proofs.Text.Parts
import StyleTally.Report.Format

/-!
# Plain reports that are read back

A plain report is read line by line, and each line is cut at its first tab. It gives back the counts
and the keys of a ranking exactly when no key runs over several lines. The keys that stylesheets
leave stand on one line in all sections but three; there, a key that does not was cut from a source
as it stands, with the line ends between its tokens.
-/

namespace StyleTally

open Stylesheet

namespace Plain

/-- What stands in front of the first tab of a line, and what stands behind it. -/
def cutLine (line : List Char) : String × String :=
  (String.ofList (line.takeWhile (· != '\t')), String.ofList ((line.dropWhile (· != '\t')).drop 1))

/-- The lines of a text that are not empty, each cut at its first tab. -/
def read (s : String) : List (String × String) :=
  ((Text.splitChars '\n' s.toList).filter fun line => !line.isEmpty).map cutLine

theorem cutLine_row (n : Int) (key : String) :
    cutLine ((Text.decimal n).toList ++ '\t' :: key.toList) = (Text.decimal n, key) := by
  have htab : ∀ c ∈ (Text.decimal n).toList, (c != '\t') = true := by
    intro c hc
    rw [bne_iff_ne]
    rintro rfl
    exact Json.not_mem_decimal (by decide) (by decide) n hc
  rw [cutLine, List.takeWhile_append_of_pos htab, List.dropWhile_append_of_pos htab]
  simp

end Plain

namespace Ranking

/-- The plain text of a ranking has one line for each key, and gives back the counts and the keys in
their order. -/
def ReadsBack (r : Ranking) : Prop :=
  Plain.read (Format.plain.render r) = r.map fun (key, n) => (Text.decimal n, key)

instance (r : Ranking) : Decidable r.ReadsBack := inferInstanceAs (Decidable (_ = _))

theorem toList_render (r : Ranking) : (Format.plain.render r).toList = r.plainChars := by
  simp [Format.render]

/-- Nothing stands in the way of reading a ranking back but a line feed within a key. -/
theorem readsBack_iff (r : Ranking) : r.ReadsBack ↔ ∀ e ∈ r, '\n' ∉ e.1.toList := by
  constructor
  · rintro h ⟨key, n⟩ he
    have hrow : (Text.decimal n, key) ∈ Plain.read (Format.plain.render r) := by
      rw [h]
      exact List.mem_map_of_mem he
    obtain ⟨line, hline, hcut⟩ := List.mem_map.mp hrow
    have hfeed : '\n' ∉ line := Text.not_mem_of_mem_splitChars (List.mem_of_mem_filter hline)
    obtain ⟨-, rfl⟩ := Prod.ext_iff.mp hcut
    rw [Plain.cutLine, String.toList_ofList]
    intro hmem
    exact hfeed ((List.dropWhile_suffix _).subset (List.mem_of_mem_drop hmem))
  · intro h
    rw [ReadsBack, Plain.read, toList_render]
    induction r with
    | nil => rfl
    | cons e r ih =>
      obtain ⟨key, n⟩ := e
      obtain ⟨hkey, hr⟩ := List.forall_mem_cons.mp h
      have hline : '\n' ∉ (Text.decimal n).toList ++ '\t' :: key.toList := by
        rw [List.mem_append, not_or]
        exact ⟨Text.feed_not_mem_decimal n, by simpa using hkey⟩
      have hchars : plainChars ((key, n) :: r) =
          ((Text.decimal n).toList ++ '\t' :: key.toList) ++ '\n' :: plainChars r := by
        simp [plainChars]
      rw [hchars, Text.splitChars_append hline, List.filter_cons_of_pos (by simp), List.map_cons,
        ih hr, Plain.cutLine_row]
      rfl

theorem readsBack_ranked_iff (c : Counter) :
    ReadsBack c.ranked ↔ ∀ key ∈ c.keys, '\n' ∉ key.toList := by
  rw [readsBack_iff, Counter.keys, List.forall_mem_map]
  exact forall_congr' fun e => imp_congr_left (List.mergeSort_perm _ _).mem_iff

end Ranking

section Sources

variable {limit : Int} {sources : List String} {sheets : List Sheet}

theorem exists_source_of_mapM (h : sources.mapM (parse limit) = .ok sheets) :
    ∀ sheet ∈ sheets, ∃ source ∈ sources, parse limit source = .ok sheet := by
  induction sources generalizing sheets with
  | nil =>
    cases h
    simp
  | cons source sources ih =>
    rw [List.mapM_cons] at h
    cases hsource : parse limit source with
    | error e =>
      rw [hsource] at h
      cases h
    | ok sheet =>
      cases hsources : sources.mapM (parse limit) with
      | error e =>
        rw [hsource, hsources] at h
        cases h
      | ok rest =>
        rw [hsource, hsources] at h
        cases h
        refine List.forall_mem_cons.mpr ⟨⟨source, List.mem_cons_self, hsource⟩, ?_⟩
        intro sheet' hsheet'
        obtain ⟨source', hmem, hparse⟩ := ih hsources sheet' hsheet'
        exact ⟨source', List.mem_cons_of_mem source hmem, hparse⟩

/-- A mark of a stylesheet has a key on one line, or one that was cut from the source. -/
theorem exists_source_of_mark (h : sources.mapM (parse limit) = .ok sheets) {statements : Bool}
    {m : Mark} (hm : m ∈ sheets.flatMap (Mark.ofStatements statements)) :
    ∃ source ∈ sources, ∃ ts, tokenize source = .ok ts ∧ m.Fits ts := by
  obtain ⟨sheet, hsheet, hm⟩ := List.mem_flatMap.mp hm
  obtain ⟨source, hsource, hparse⟩ := exists_source_of_mapM h sheet hsheet
  obtain ⟨ts, htokens, hfit⟩ := fit_of_parse hparse
  exact ⟨source, hsource, ts, htokens, Mark.fits_ofStatements statements hfit m hm⟩

/-- The sections that count excerpts. -/
def Section.countsExcerpts : Section → Bool
  | properties | elements | keywords => true
  | _ => false

theorem Mark.Cut.countsExcerpts {ts : List Token} {m : Mark} (h : m.Cut ts) :
    m.part.countsExcerpts := by
  obtain ⟨part, key⟩ := m
  obtain ⟨kind, us, hpart, -⟩ := h
  cases kind <;> cases hpart <;> rfl

end Sources

namespace Ranking

/-- The plain report of a section reads back exactly when no key of the section holds a line feed.
Such a key was cut from one of the sources, so the sections that count no excerpts read back. -/
theorem plain_reads_back (limit : Int) (statements : Bool) {sources : List String}
    {sheets : List Sheet} (h : sources.mapM (parse limit) = .ok sheets) :
    ∃ c, sheets.foldlM Classifier.scan (.fresh statements) = .ok c ∧ ∀ part,
      (ReadsBack (c.store.counter part).ranked ↔
        ∀ key ∈ (c.store.counter part).keys, '\n' ∉ key.toList) ∧
      (∀ key ∈ (c.store.counter part).keys, '\n' ∈ key.toList →
        ∃ source ∈ sources, ∃ ts, tokenize source = .ok ts ∧ Mark.Cut ts ⟨part, key⟩) ∧
      (part.countsExcerpts = false → ReadsBack (c.store.counter part).ranked) := by
  refine ⟨_, Classifier.foldlM_scan_eq rfl sheets, fun part => ?_⟩
  rw [Classifier.store_foldl_scanned]
  generalize hstore : Store.record _ _ = s
  -- A key of the section is one of the marks, and these fit: each is on one line or an excerpt.
  have hcut (key : String) (hkey : key ∈ (s.counter part).keys) (hfeed : '\n' ∈ key.toList) :
      ∃ source ∈ sources, ∃ ts, tokenize source = .ok ts ∧ Mark.Cut ts ⟨part, key⟩ := by
    rw [← hstore, Store.mem_keys_record] at hkey
    have hmark : (⟨part, key⟩ : Mark) ∈ sheets.flatMap (Mark.ofStatements statements) := by
      rcases hkey with hnone | hmark
      · simp [Classifier.fresh, Store.counter_empty, Counter.keys, Counter.empty] at hnone
      · exact hmark
    obtain ⟨source, hsource, ts, htokens, hfits⟩ := exists_source_of_mark h hmark
    exact ⟨source, hsource, ts, htokens, hfits.resolve_left fun hnone => hnone hfeed⟩
  refine ⟨readsBack_ranked_iff _, hcut, fun hpart => ?_⟩
  refine (readsBack_ranked_iff _).mpr fun key hkey hfeed => ?_
  obtain ⟨_, _, _, _, hexcerpt⟩ := hcut key hkey hfeed
  rw [hexcerpt.countsExcerpts] at hpart
  cases hpart

/-- Two stylesheets, one with an argument on two lines: the sections that count no excerpts read
back. -/
theorem plain_reads_back_split :
    ∃ sheets c, ["a:not(\nb) \x7b x: f(1); \x7d", "@y: 2px;"].mapM (parse 64) = .ok sheets ∧
      sheets.foldlM Classifier.scan (.fresh true) = .ok c ∧
      ReadsBack (c.store.counter .functions).ranked ∧
      ReadsBack (c.store.counter .dimensions).ranked := by
  have hparse : (["a:not(\nb) \x7b x: f(1); \x7d", "@y: 2px;"].mapM (parse 64)).toOption.isSome := by
    decide +kernel
  cases h : ["a:not(\nb) \x7b x: f(1); \x7d", "@y: 2px;"].mapM (parse 64) with
  | error e =>
    rw [h] at hparse
    cases hparse
  | ok sheets =>
    obtain ⟨c, hc, hparts⟩ := plain_reads_back 64 true h
    exact ⟨sheets, c, rfl, hc, (hparts .functions).2.2 rfl, (hparts .dimensions).2.2 rfl⟩

/-- A rule for `a` with an argument on two lines. -/
def torn : Sheet := [.ruleset [[⟨.text "a", none⟩, ⟨.text ":not(\nb)", none⟩]] none []]

/-- Whether a source was read as that rule. -/
def readsTorn : Except Refusal Sheet → Bool
  | .ok [.ruleset [[⟨.text "a", none⟩, ⟨.text ":not(\nb)", none⟩]] none []] => true
  | _ => false

theorem marks_torn (statements : Bool) : Mark.ofStatements statements torn =
    [.tag "ruleset", .tag "selectors", .tag "selector", .tag "text_element", ⟨.elements, "a"⟩,
      .tag "text_element", ⟨.elements, ":not(\nb)"⟩] := by
  simp [torn, Mark.ofStatements, Mark.ofStatement, Mark.ofNodes, Findings.of?, Findings.ofElement,
    Findings.tagged, Findings.keyed]

/-- The elements of such a rule do not read back: their text has three lines for two keys. -/
theorem plain_torn :
    ["a:not(\nb) \x7b\x7d"].mapM (parse 64) = .ok [torn] ∧
      ∃ c, [torn].foldlM Classifier.scan (.fresh false) = .ok c ∧
        (c.store.counter .elements).ranked = [("a", 1), (":not(\nb)", 1)] ∧
        Format.plain.render (c.store.counter .elements).ranked = "1\ta\n1\t:not(\nb)\n" ∧
        ¬ReadsBack (c.store.counter .elements).ranked := by
  have hparse : parse 64 "a:not(\nb) \x7b\x7d" = .ok torn := by
    have hread : readsTorn (parse 64 "a:not(\nb) \x7b\x7d") = true := by decide +kernel
    unfold readsTorn at hread
    split at hread
    · assumption
    · cases hread
  have hentries : (((Classifier.fresh false).scanned torn).store.counter .elements).entries =
      [("a", 1), (":not(\nb)", 1)] := by
    simp only [Classifier.scanned, marks_torn]
    decide +kernel
  have hranked : (((Classifier.fresh false).scanned torn).store.counter .elements).ranked =
      [("a", 1), (":not(\nb)", 1)] := by
    rw [Counter.ranked, hentries]
    exact List.mergeSort_of_pairwise (by decide)
  refine ⟨?_, _, Classifier.foldlM_scan_eq rfl [torn], hranked, ?_, ?_⟩
  · rw [List.mapM_cons, hparse]
    rfl
  · rw [List.foldl_cons, List.foldl_nil, hranked]
    decide +kernel
  · rw [List.foldl_cons, List.foldl_nil, hranked]
    decide +kernel

end Ranking

end StyleTally
