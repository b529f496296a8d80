import StyleTally.Proofs.Discovery.Survey

/-!
# Files that are named

A file that an argument names is scanned, once, wherever the name stands among the arguments. There
is one exception: when a folder has brought the file in before its name comes, and it is too large,
the name does not bring it back.
-/

namespace StyleTally.FileTree

variable {t : FileTree} {f : Filter} {arguments : List String}

theorem entry?_of_find {s : String} {place : List String} {e : FileEntry}
    (h : t.find s = .ok (place, e)) : t.entry? place = some e := by
  unfold find at h
  cases hplace : t.place false s with
  | error fault =>
    rw [hplace] at h
    cases h
  | ok found =>
    rw [hplace] at h
    cases found with
    | free names => cases h
    | taken names =>
      cases hentry : t.entry? names with
      | none =>
        simp only [bind, Except.bind, hentry] at h
        cases h
      | some e' =>
        simp only [bind, Except.bind, hentry] at h
        cases h
        exact hentry

section Named

variable {argument : String} {place : List String} {content : List UInt8}
  (hfile : t.find (Path.ofText argument).text = .ok (place, .file content))
include hfile

theorem resolve?_named : t.resolve? (Path.ofText argument) = some place := by
  rw [resolve?, hfile]

/-- All paths to a file lead to the same size. -/
theorem fileSize?_of_resolve? {p : Path} (h : t.resolve? p = some place) :
    t.fileSize? p = some content.length := by
  unfold resolve? at h
  cases hfind : t.find p.text with
  | error fault =>
    rw [hfind] at h
    cases h
  | ok found =>
    obtain ⟨place', e⟩ := found
    rw [hfind] at h
    cases h
    have hentry := (entry?_of_find hfind).symm.trans (entry?_of_find hfile)
    cases hentry
    rw [fileSize?, hfind]

/-- The file of an argument has a first entry. -/
theorem exists_firstEntry (hnamed : argument ∈ arguments) :
    ∃ e ∈ t.firstEntries [] (t.entriesOfAll f arguments), t.resolve? e.path = some place ∧
      t.firstLike? f arguments (Path.ofText argument) = some e := by
  have hisFile : t.isFile (Path.ofText argument).text = true := isFile_iff.mpr ⟨place, content, hfile⟩
  have hentry : (⟨Path.ofText argument, true⟩ : Entry) ∈ t.entriesOfAll f arguments := by
    refine List.mem_flatMap.mpr ⟨argument, hnamed, ?_⟩
    rw [entriesOf, if_pos hisFile]
    exact List.mem_singleton_self _
  have hresolve := resolve?_named hfile
  have hkey : some place ∈ (t.firstEntries [] (t.entriesOfAll f arguments)).map
      fun e => t.resolve? e.path :=
    mem_keys_firsts.mpr ⟨List.mem_map.mpr ⟨_, hentry, hresolve⟩, List.not_mem_nil⟩
  obtain ⟨e, he, hplace⟩ := List.mem_map.mp hkey
  refine ⟨e, he, hplace, ?_⟩
  rw [firstLike?, hresolve, ← hplace]
  exact firstLike?_of_mem he

/-- A file that is named comes once, however the arguments are ordered, unless it is too large and
a folder has brought it in before its name. The paths are those that a tree knows: none leads back
into the working folder from above. -/
theorem named_scanned (hreach : t.unreachable? f arguments = none) (hnamed : argument ∈ arguments)
    {order : List String} (horder : order.Perm arguments) :
    ∃ findings, t.survey f order = .ok findings ∧
      ((scanned findings).map t.resolve?).count (some place) ≤ 1 ∧
      (((scanned findings).map t.resolve?).count (some place) = 1 ↔
        (f.exceeds content.length = true →
          ∃ e, t.firstLike? f order (Path.ofText argument) = some e ∧ e.isNamed = true)) := by
  refine ⟨discover t f order, ?_, ?_⟩
  · rw [survey, unreachable?_eq_none_of_perm horder hreach]
  have hgives := Discovery.discover_gives (t := t) (f := f) order
  have hdistinct : ((scanned (discover t f order)).map t.resolve?).Nodup := by
    have hsurveyed : t.Surveyed f order (discover t f order) := discover_surveyed
    have hall := hsurveyed.distinct
    rw [List.map_append] at hall
    exact hall.of_append_left
  obtain ⟨e, he, hplace, hfirst⟩ := exists_firstEntry (f := f) hfile (horder.mem_iff.mpr hnamed)
  have hsize : t.fileSize? e.path = some content.length := fileSize?_of_resolve? hfile hplace
  have hscanned : some place ∈ (scanned (discover t f order)).map t.resolve? ↔
      t.isOversized f e = false := by
    rw [hgives.scanned, List.map_map, List.mem_map]
    constructor
    · rintro ⟨e', he', hplace'⟩
      obtain ⟨hkept, hfits⟩ := List.mem_filter.mp he'
      have hsame : some e' = some e := by
        rw [← hfirst, ← firstLike?_of_mem hkept, firstLike?, firstLike?, resolve?_named hfile,
          ← hplace']
        rfl
      cases hsame
      simpa using hfits
    · intro hfits
      exact ⟨e, List.mem_filter.mpr ⟨he, by simp [hfits]⟩, hplace⟩
  refine ⟨List.nodup_iff_count_le_one.mp hdistinct _, ?_⟩
  have hcount : ((scanned (discover t f order)).map t.resolve?).count (some place) = 1 ↔
      t.isOversized f e = false := by
    rw [← hscanned]
    constructor
    · exact fun hone => List.count_pos_iff.mp (by omega)
    · exact List.count_eq_one_of_mem hdistinct
  rw [hcount, isOversized_eq_false_iff hsize, hfirst]
  simp only [Option.some.injEq, exists_eq_left']

end Named

theorem named_scanned_drawer : drawer.unreachable? strict ["src", "src/big.less"] = none ∧
    drawer.find (Path.ofText "src/big.less").text = .ok (["src", "big.less"], .file [97, 123, 125]) ∧
    ∃ findings, drawer.survey strict ["src/big.less", "src"] = .ok findings ∧
      ((scanned findings).map drawer.resolve?).count (some ["src", "big.less"]) = 1 := by
  obtain ⟨-, hbig, -, hbigText⟩ := text_drawer
  have hfile : drawer.find (Path.ofText "src/big.less").text =
      .ok (["src", "big.less"], .file [97, 123, 125]) := by
    rw [hbig, hbigText]
    exact find_drawer.2
  have horder : ["src/big.less", "src"].Perm ["src", "src/big.less"] := List.Perm.swap _ _ _
  obtain ⟨findings, hsurvey, -, hcount⟩ :=
    named_scanned hfile unreachable?_drawer (by decide) horder
  refine ⟨unreachable?_drawer, hfile, findings, hsurvey, hcount.mpr fun _ => ?_⟩
  refine ⟨⟨Path.ofText "src/big.less", true⟩, ?_, rfl⟩
  have hentries := (candidates_of (t := drawer) strict "src/big.less").entries
  rw [candidates_drawer.2] at hentries
  rw [firstLike?, entriesOfAll, List.flatMap_cons, ← hentries, hbig]
  exact List.find?_cons_of_pos (decide_eq_true rfl)

/-- A file that is named is left out when a folder has brought it in before its name and it is too
large. -/
theorem named_left_out : drawer.isFile (Path.ofText "src/big.less").text = true ∧
    ∃ findings, drawer.survey strict ["src", "src/big.less"] = .ok findings ∧
      scanned findings = [] ∧
      ∃ findings', drawer.survey strict ["src/big.less", "src"] = .ok findings' ∧
        scanned findings' = [Path.ofText "src/big.less"] := by
  obtain ⟨-, hbig, -, hbigText⟩ := text_drawer
  obtain ⟨hfirst, hswapped⟩ := survey_drawer
  refine ⟨?_, _, hfirst, rfl, _, hswapped, ?_⟩
  · rw [hbig, hbigText, isFile, find_drawer.2]
  · rw [hbig]
    rfl

end StyleTally.FileTree
