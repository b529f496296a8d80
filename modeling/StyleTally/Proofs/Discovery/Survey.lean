import StyleTally.Proofs.Discovery.Listing
import Mathlib.Data.List.Nodup

/-!
# Surveys of file trees

A survey takes the first path to each file, in the order of the arguments, and passes over those
that a folder has brought in and that are too large. So each file comes once and none is lost.
-/

namespace StyleTally

section Firsts

variable {α κ : Type} [DecidableEq κ] (key : α → κ)

/-- The first element with each key, apart from the keys that have been seen. -/
def firsts (seen : List κ) : List α → List α
  | [] => []
  | a :: as => if key a ∈ seen then firsts seen as else a :: firsts (key a :: seen) as

variable {key} {seen : List κ} {as : List α}

theorem firsts_cons (a : α) : firsts key seen (a :: as) =
    if key a ∈ seen then firsts key seen as else a :: firsts key (key a :: seen) as := rfl

theorem not_seen_of_mem_firsts {a : α} (h : a ∈ firsts key seen as) : key a ∉ seen := by
  induction as generalizing seen with
  | nil => cases h
  | cons b as ih =>
    rw [firsts_cons] at h
    split at h
    · exact ih h
    · rename_i hb
      rcases List.mem_cons.mp h with rfl | h
      · exact hb
      · exact fun hseen => ih h (List.mem_cons_of_mem _ hseen)

theorem mem_keys_firsts {k : κ} :
    k ∈ (firsts key seen as).map key ↔ k ∈ as.map key ∧ k ∉ seen := by
  induction as generalizing seen with
  | nil => exact iff_of_false List.not_mem_nil fun h => List.not_mem_nil h.1
  | cons b as ih =>
    rw [firsts_cons]
    split
    · rename_i hb
      rw [ih, List.map_cons, List.mem_cons]
      constructor
      · exact fun ⟨hk, hseen⟩ => ⟨.inr hk, hseen⟩
      · rintro ⟨rfl | hk, hseen⟩
        · exact absurd hb hseen
        · exact ⟨hk, hseen⟩
    · rename_i hb
      rw [List.map_cons, List.mem_cons, ih, List.map_cons, List.mem_cons, List.mem_cons, not_or]
      by_cases hk : k = key b
      · subst hk
        simp [hb]
      · simp [hk]

theorem nodup_keys_firsts : ((firsts key seen as).map key).Nodup := by
  induction as generalizing seen with
  | nil => exact List.nodup_nil
  | cons b as ih =>
    rw [firsts_cons]
    split
    · exact ih
    · rw [List.map_cons, List.nodup_cons]
      refine ⟨fun hb => ?_, ih⟩
      exact (mem_keys_firsts.mp hb).2 List.mem_cons_self

theorem find?_of_mem_firsts {a : α} (h : a ∈ firsts key seen as) :
    as.find? (fun b => key b = key a) = some a := by
  induction as generalizing seen with
  | nil => cases h
  | cons b as ih =>
    rw [firsts_cons] at h
    split at h
    · rename_i hb
      have hne : key b ≠ key a := fun heq => not_seen_of_mem_firsts h (heq ▸ hb)
      rw [List.find?_cons_of_neg (by simpa using hne)]
      exact ih h
    · rcases List.mem_cons.mp h with rfl | h
      · exact List.find?_cons_of_pos (by simp)
      · have hne : key b ≠ key a := fun heq =>
          not_seen_of_mem_firsts h (heq ▸ List.mem_cons_self)
        rw [List.find?_cons_of_neg (by simpa using hne)]
        exact ih h

/-- The first elements stand in the order in which their keys come first. -/
theorem firsts_in_order [BEq κ] [LawfulBEq κ] (key : α → κ) (seen : List κ) (as : List α) :
    (firsts key seen as).Pairwise fun a b =>
      (as.map key).idxOf (key a) < (as.map key).idxOf (key b) := by
  induction as generalizing seen with
  | nil => exact List.Pairwise.nil
  | cons b as ih =>
    have hlater {seen : List κ} {a : α} (hb : key b ∈ seen) (ha : a ∈ firsts key seen as) :
        ((b :: as).map key).idxOf (key a) = (as.map key).idxOf (key a) + 1 := by
      have hne : key b ≠ key a := fun heq => not_seen_of_mem_firsts ha (heq ▸ hb)
      rw [List.map_cons, List.idxOf_cons_ne _ hne]
    have hrest {seen : List κ} (hb : key b ∈ seen) : (firsts key seen as).Pairwise fun a c =>
        ((b :: as).map key).idxOf (key a) < ((b :: as).map key).idxOf (key c) := by
      refine (ih seen).imp_of_mem ?_
      intro a c ha hc hac
      rw [hlater hb ha, hlater hb hc]
      omega
    rw [firsts_cons]
    split
    · rename_i hb
      exact hrest hb
    · have hb : key b ∈ key b :: seen := List.mem_cons_self
      refine List.pairwise_cons.mpr ⟨?_, hrest hb⟩
      intro a ha
      rw [hlater hb ha, List.map_cons, List.idxOf_cons_self]
      omega

end Firsts

namespace FileTree

variable (t : FileTree) (f : Filter)

/-- A file that a folder has brought in and that is too large. -/
def isOversized (e : Entry) : Bool :=
  !e.isNamed && match t.fileSize? e.path with
    | some size => f.exceeds size
    | none => false

/-- The first entry for each file, apart from the files that have been seen. -/
def firstEntries (seen : List (List String)) (entries : List Entry) : List Entry :=
  firsts (fun e : Entry => t.resolve? e.path) (seen.map some) entries

end FileTree

def scanned (findings : List Finding) : List Path := findings.filterMap Finding.found?

def leftOut (findings : List Finding) : List Path := findings.filterMap Finding.oversized?

def unfound (findings : List Finding) : List Path := findings.filterMap Finding.missing?

namespace Discovery

open Candidate

variable (t : FileTree) (f : Filter)

/-- Findings that give these entries and these lost paths. -/
structure Gives (findings : List Finding) (kept : List Entry) (lost : List Path) : Prop where
  scanned : scanned findings = (kept.filter fun e => !t.isOversized f e).map Entry.path
  leftOut : leftOut findings = (kept.filter (t.isOversized f)).map Entry.path
  unfound : unfound findings = lost

variable {t f}

theorem Gives.entry {findings : List Finding} {kept : List Entry} {lost : List Path} {p : Path}
    {size : Nat} (isNamed : Bool) (hsize : t.fileSize? p = some size)
    (h : Gives t f findings kept lost) :
    Gives t f ((if !isNamed && f.exceeds size then .oversized p size else .found p) :: findings)
      (⟨p, isNamed⟩ :: kept) lost := by
  have hoversized : t.isOversized f ⟨p, isNamed⟩ = (!isNamed && f.exceeds size) := by
    rw [FileTree.isOversized, hsize]
  rw [← hoversized]
  cases hentry : t.isOversized f ⟨p, isNamed⟩ with
  | true =>
    refine ⟨?_, ?_, h.unfound⟩
    · rw [List.filter_cons_of_neg (by simp [hentry])]
      exact h.scanned
    · rw [List.filter_cons_of_pos hentry, List.map_cons, ← h.leftOut]
      rfl
  | false =>
    refine ⟨?_, ?_, h.unfound⟩
    · rw [List.filter_cons_of_pos (by simp [hentry]), List.map_cons, ← h.scanned]
      rfl
    · rw [List.filter_cons_of_neg (by simp [hentry])]
      exact h.leftOut

theorem sift_gives (cs : List Candidate) (seen : List (List String)) (h : ∀ c ∈ cs, c.IsAt t) :
    Gives t f (sift f seen cs) (t.firstEntries seen (cs.filterMap entry?))
      (cs.filterMap nowhere?) := by
  induction cs generalizing seen with
  | nil => exact ⟨rfl, rfl, rfl⟩
  | cons c cs ih =>
    obtain ⟨hc, hcs⟩ := List.forall_mem_cons.mp h
    cases c with
    | nowhere p =>
      have hrest := ih seen hcs
      exact ⟨hrest.scanned, hrest.leftOut, congrArg (p :: ·) hrest.unfound⟩
    | file p place size isNamed =>
      obtain ⟨content, hfind, rfl⟩ := hc
      have hplace : t.resolve? p = some place := by rw [FileTree.resolve?, hfind]
      have hsize : t.fileSize? p = some content.length := by rw [FileTree.fileSize?, hfind]
      have hentry : (file p place content.length isNamed :: cs).filterMap entry? =
          ⟨p, isNamed⟩ :: cs.filterMap entry? := rfl
      have hlost : (file p place content.length isNamed :: cs).filterMap nowhere? =
          cs.filterMap nowhere? := rfl
      rw [hentry, hlost, sift, FileTree.firstEntries, firsts_cons, hplace]
      by_cases hseen : place ∈ seen
      · rw [if_pos (List.contains_iff_mem.mpr hseen), if_pos (List.mem_map_of_mem hseen)]
        exact ih seen hcs
      · have hunseen : some place ∉ seen.map some := by simpa using hseen
        rw [if_neg (by simpa using hseen), if_neg hunseen]
        exact (ih (place :: seen) hcs).entry isNamed hsize

theorem discover_gives (arguments : List String) :
    Gives t f (discover t f arguments) (t.firstEntries [] (t.entriesOfAll f arguments))
      (t.lost arguments) := by
  have hstands := t.candidates_all f arguments
  rw [← hstands.entries, ← hstands.lost]
  exact sift_gives _ _ hstands.isAt

theorem Gives.perm {findings : List Finding} {kept : List Entry} {lost : List Path}
    (h : Gives t f findings kept lost) :
    (StyleTally.scanned findings ++ StyleTally.leftOut findings).Perm (kept.map Entry.path) := by
  rw [h.scanned, h.leftOut, ← List.map_append]
  apply List.Perm.map
  exact List.perm_append_comm.trans (List.filter_append_perm _ kept)

end Discovery

namespace FileTree

variable (t : FileTree) (f : Filter)

/-- The first entry that leads where a path leads. -/
def firstLike? (arguments : List String) (p : Path) : Option Entry :=
  (t.entriesOfAll f arguments).find? fun e => t.resolve? e.path = t.resolve? p

/-- The places of the files that the arguments stand for. -/
def placesOfAll (arguments : List String) : List (Option (List String)) :=
  (t.entriesOfAll f arguments).map fun e => t.resolve? e.path

/-- The first place goes before the second. -/
def Precedes (arguments : List String) (p q : Path) : Prop :=
  (t.placesOfAll f arguments).idxOf (t.resolve? p) < (t.placesOfAll f arguments).idxOf (t.resolve? q)

/-- What the findings of a survey owe to its arguments. -/
structure Surveyed (arguments : List String) (findings : List Finding) : Prop where
  /-- No file comes twice, by whatever paths. -/
  distinct : ((scanned findings ++ leftOut findings).map t.resolve?).Nodup
  /-- The files are those that the arguments stand for. -/
  complete : ∀ place, place ∈ (scanned findings ++ leftOut findings).map t.resolve? ↔
    place ∈ t.placesOfAll f arguments
  /-- Each file comes by the first path to it. -/
  first : ∀ p ∈ scanned findings ++ leftOut findings,
    ∃ e, t.firstLike? f arguments p = some e ∧ e.path = p
  scanned_in_order : (scanned findings).Pairwise (t.Precedes f arguments)
  leftOut_in_order : (leftOut findings).Pairwise (t.Precedes f arguments)
  leftOut_exceeds : ∀ p ∈ leftOut findings, t.firstLike? f arguments p = some ⟨p, false⟩ ∧
    ∃ size, t.fileSize? p = some size ∧ f.exceeds size = true
  scanned_fits : ∀ p ∈ scanned findings, t.firstLike? f arguments p = some ⟨p, false⟩ →
    ∀ size, t.fileSize? p = some size → f.exceeds size = false
  unfound : unfound findings = t.lost arguments

variable {t f} {arguments : List String}

theorem firstLike?_of_mem {e : Entry} (h : e ∈ t.firstEntries [] (t.entriesOfAll f arguments)) :
    t.firstLike? f arguments e.path = some e :=
  find?_of_mem_firsts h

theorem firstEntries_precede : ((t.firstEntries [] (t.entriesOfAll f arguments)).map
    Entry.path).Pairwise (t.Precedes f arguments) := by
  rw [List.pairwise_map]
  exact firsts_in_order (fun e : Entry => t.resolve? e.path) [] (t.entriesOfAll f arguments)

theorem isOversized_iff {e : Entry} : t.isOversized f e = true ↔
    e.isNamed = false ∧ ∃ size, t.fileSize? e.path = some size ∧ f.exceeds size = true := by
  unfold isOversized
  cases t.fileSize? e.path <;> simp

theorem isOversized_eq_false_iff {e : Entry} {size : Nat} (hsize : t.fileSize? e.path = some size) :
    t.isOversized f e = false ↔ (f.exceeds size = true → e.isNamed = true) := by
  unfold isOversized
  rw [hsize]
  generalize e.isNamed = named
  cases named <;> simp

theorem discover_surveyed : t.Surveyed f arguments (discover t f arguments) := by
  have hgives := Discovery.discover_gives (t := t) (f := f) arguments
  have hkeys : ((scanned (discover t f arguments) ++ leftOut (discover t f arguments)).map
      t.resolve?).Perm ((t.firstEntries [] (t.entriesOfAll f arguments)).map
        fun e => t.resolve? e.path) := by
    have hperm := hgives.perm.map t.resolve?
    rwa [List.map_map] at hperm
  have horder : ((t.firstEntries [] (t.entriesOfAll f arguments)).map
      Entry.path).Pairwise (t.Precedes f arguments) := firstEntries_precede
  refine ⟨?distinct, ?complete, ?first, ?scannedOrder, ?leftOutOrder, ?exceeds, ?fits, hgives.unfound⟩
  case distinct => exact hkeys.nodup_iff.mpr nodup_keys_firsts
  case complete =>
    intro place
    rw [hkeys.mem_iff, firstEntries, mem_keys_firsts]
    simp [placesOfAll]
  case first =>
    intro p hp
    obtain ⟨e, he, rfl⟩ := List.mem_map.mp (hgives.perm.mem_iff.mp hp)
    exact ⟨e, firstLike?_of_mem he, rfl⟩
  case scannedOrder =>
    rw [hgives.scanned]
    exact horder.sublist (List.filter_sublist.map _)
  case leftOutOrder =>
    rw [hgives.leftOut]
    exact horder.sublist (List.filter_sublist.map _)
  case exceeds =>
    intro p hp
    rw [hgives.leftOut] at hp
    obtain ⟨e, he, rfl⟩ := List.mem_map.mp hp
    obtain ⟨hkept, hoversized⟩ := List.mem_filter.mp he
    obtain ⟨hnamed, hsize⟩ := isOversized_iff.mp hoversized
    refine ⟨?_, hsize⟩
    rw [firstLike?_of_mem hkept, ← hnamed]
  case fits =>
    intro p hp hfirst size hsize
    rw [hgives.scanned] at hp
    obtain ⟨e, he, rfl⟩ := List.mem_map.mp hp
    obtain ⟨hkept, hfits⟩ := List.mem_filter.mp he
    rw [firstLike?_of_mem hkept, Option.some.injEq] at hfirst
    have hnamed : e.isNamed = false := congrArg Entry.isNamed hfirst
    rw [Bool.not_eq_true', ← Bool.not_eq_true, isOversized_iff] at hfits
    rw [← Bool.not_eq_true]
    exact fun hexceeds => hfits ⟨hnamed, size, hsize, hexceeds⟩

theorem unreachable?_eq_none_iff : t.unreachable? f arguments = none ↔
    ∀ argument ∈ arguments, ∀ p ∈ (let p := Path.ofText argument
      p :: t.list f.isRecursive p), t.find p.text ≠ .error .nameTooLong := by
  simp only [unreachable?, List.findSome?_eq_none_iff, List.forall_mem_flatMap]
  refine forall₂_congr fun argument _ => forall₂_congr fun p _ => ?_
  split
  · rename_i h
    simp [h]
  · rename_i h
    exact iff_of_true rfl h

theorem unreachable?_eq_none_of_perm {order : List String} (horder : order.Perm arguments)
    (h : t.unreachable? f arguments = none) : t.unreachable? f order = none :=
  unreachable?_eq_none_iff.mpr fun argument hargument =>
    unreachable?_eq_none_iff.mp h argument (horder.mem_iff.mp hargument)

theorem find_of_walk {s : String} {place : List String} {e : FileEntry}
    (hcheck : checkText s = .ok ()) (hsome : s.isEmpty = false)
    (hwalk : t.walk false maxLinks (startOf (.ofText s)) (Path.steps s) = .ok (.taken place))
    (hentry : t.entry? place = some e) : t.find s = .ok (place, e) := by
  rw [find, FileTree.place, hcheck]
  simp only [bind, Except.bind, hsome, Bool.false_eq_true, if_false, hwalk, hentry, pure, Except.pure]

/-- A folder with one file. -/
def drawer : FileTree := ⟨[(["src"], .folder), (["src", "big.less"], .file [97, 123, 125])]⟩

/-- Entries of a folder itself, of up to a byte. -/
def strict : Filter := ⟨[], false, some 1⟩

theorem walk_drawer : drawer.walk false maxLinks [] ["src"] = .ok (.taken ["src"]) ∧
    drawer.walk false maxLinks [] ["src", "big.less"] = .ok (.taken ["src", "big.less"]) := by
  constructor
  · rw [walk.eq_def]
    change drawer.walk false maxLinks ["src"] [] = _
    rw [walk.eq_def]
  · rw [walk.eq_def]
    change drawer.walk false maxLinks ["src"] ["big.less"] = _
    rw [walk.eq_def]
    rfl

theorem find_drawer : drawer.find "src" = .ok (["src"], .folder) ∧
    drawer.find "src/big.less" = .ok (["src", "big.less"], .file [97, 123, 125]) := by
  obtain ⟨hfolder, hfile⟩ := walk_drawer
  constructor
  · exact find_of_walk rfl rfl hfolder rfl
  · exact find_of_walk rfl rfl hfile rfl

theorem text_drawer : Path.ofText "src" = ⟨"", ["src"]⟩ ∧
    Path.ofText "src/big.less" = ⟨"", ["src", "big.less"]⟩ ∧
    Path.text ⟨"", ["src"]⟩ = "src" ∧ Path.text ⟨"", ["src", "big.less"]⟩ = "src/big.less" :=
  ⟨rfl, rfl, rfl, rfl⟩

theorem list_drawer : drawer.list strict.isRecursive ⟨"", ["src"]⟩ = [⟨"", ["src", "big.less"]⟩] ∧
    drawer.list strict.isRecursive ⟨"", ["src", "big.less"]⟩ = [] := by
  obtain ⟨hfolder, hfile⟩ := find_drawer
  obtain ⟨-, -, hsrc, hbig⟩ := text_drawer
  constructor
  · rw [list, hsrc, hfolder]
    with_unfolding_all rfl
  · rw [list, hbig, hfile]

theorem candidates_drawer :
    drawer.candidates strict "src" = [.file ⟨"", ["src", "big.less"]⟩ ["src", "big.less"] 3 false] ∧
      drawer.candidates strict "src/big.less" =
        [.file ⟨"", ["src", "big.less"]⟩ ["src", "big.less"] 3 true] := by
  obtain ⟨hfolder, hfile⟩ := find_drawer
  obtain ⟨hsrc, hbig, hsrcText, hbigText⟩ := text_drawer
  constructor
  · unfold candidates
    simp only [hsrc, candidate?, hsrcText, hfolder, isFolder, list_drawer.1]
    simp [strict, Filter.accepts, candidate?, hbigText, hfile]
  · unfold candidates
    simp only [hbig, candidate?, hbigText, hfile]
    rfl

theorem unreachable?_drawer : drawer.unreachable? strict ["src", "src/big.less"] = none := by
  obtain ⟨hfolder, hfile⟩ := find_drawer
  obtain ⟨hsrc, hbig, hsrcText, hbigText⟩ := text_drawer
  obtain ⟨hlist, hlist'⟩ := list_drawer
  rw [unreachable?_eq_none_iff]
  intro argument hargument
  rcases List.mem_pair.mp hargument with rfl | rfl
  · simp only [hsrc, hlist, List.forall_mem_cons, hsrcText, hbigText, hfolder, hfile]
    simp
  · simp only [hbig, hlist', List.forall_mem_cons, hbigText, hfile]
    simp

/-- What comes first decides: the folder brings its file in as too large. -/
theorem survey_drawer :
    drawer.survey strict ["src", "src/big.less"] = .ok [.oversized ⟨"", ["src", "big.less"]⟩ 3] ∧
      drawer.survey strict ["src/big.less", "src"] = .ok [.found ⟨"", ["src", "big.less"]⟩] := by
  have hswapped : drawer.unreachable? strict ["src/big.less", "src"] = none :=
    unreachable?_eq_none_of_perm (List.Perm.swap _ _ _) unreachable?_drawer
  obtain ⟨hsrc, hbig⟩ := candidates_drawer
  constructor
  · rw [survey, unreachable?_drawer, discover, List.flatMap_cons, List.flatMap_cons, hsrc, hbig]
    rfl
  · rw [survey, hswapped, discover, List.flatMap_cons, List.flatMap_cons, hsrc, hbig]
    rfl

/-- A survey loses no file and repeats none: what it gives are the first paths to the files that
the arguments stand for, in order, without those that a folder has brought in and that are too
large, and the paths that lead nowhere. The listings of folders are complete and sorted. The paths
are those that a tree knows: none leads back into the working folder from above. -/
theorem survey_accounts (h : t.unreachable? f arguments = none) :
    (∃ findings, t.survey f arguments = .ok findings ∧ t.Surveyed f arguments findings) ∧
      ∀ p here, t.find p.text = .ok (here, .folder) →
        ((t.list f.isRecursive p).Pairwise fun q r => Path.le q r = true) ∧
          ∀ q, q ∈ t.list f.isRecursive p ↔ ∃ names, names ≠ [] ∧
            (∃ e, (here ++ names, e) ∈ t.entries) ∧
            (f.isRecursive = true ∨ names.length = 1) ∧ q = p.below names := by
  refine ⟨⟨discover t f arguments, ?_, discover_surveyed⟩, ?_⟩
  · rw [survey, h]
  · intro p here hfolder
    exact ⟨t.list_sorted f.isRecursive p, fun q => t.mem_list hfolder⟩

theorem survey_accounts_drawer : ∃ findings,
    drawer.survey strict ["src", "src/big.less"] = .ok findings ∧
      drawer.Surveyed strict ["src", "src/big.less"] findings ∧
      leftOut findings = [⟨"", ["src", "big.less"]⟩] := by
  obtain ⟨⟨findings, hsurvey, hsurveyed⟩, -⟩ := survey_accounts unreachable?_drawer
  have hfindings := survey_drawer.1
  rw [hsurvey] at hfindings
  cases hfindings
  exact ⟨_, hsurvey, hsurveyed, rfl⟩

end FileTree

end StyleTally
