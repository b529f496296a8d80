import StyleTally.Census.Discovery
import Mathlib.Data.List.Flatten
import Mathlib.Data.String.Basic

/-!
# What the arguments stand for

A file that an argument names is an entry, and so is each file of a folder that takes part, in the
order of the folder's listing. The candidates that a census looks at are these entries, with their
places and sizes, and the paths that lead nowhere.
-/

namespace StyleTally

namespace Path

theorem namesLe_total (as bs : List String) : (namesLe as bs || namesLe bs as) = true := by
  induction as generalizing bs with
  | nil => rfl
  | cons a as ih =>
    cases bs with
    | nil => rfl
    | cons b bs =>
      by_cases h : a = b
      · subst h
        simpa only [namesLe, if_true] using ih bs
      · have hdiffer : a < b ∨ b < a := lt_or_gt_of_ne h
        simpa only [namesLe, if_neg h, if_neg (Ne.symm h), Bool.or_eq_true, decide_eq_true_eq]
          using hdiffer

theorem namesLe_trans {as bs cs : List String} (hab : namesLe as bs = true)
    (hbc : namesLe bs cs = true) : namesLe as cs = true := by
  induction as generalizing bs cs with
  | nil => rfl
  | cons a as ih =>
    cases bs with
    | nil => cases hab
    | cons b bs =>
      cases cs with
      | nil => cases hbc
      | cons c cs =>
        simp only [namesLe] at hab hbc ⊢
        by_cases hb : a = b
        · subst hb
          by_cases hc : a = c
          · rw [if_pos rfl] at hab
            rw [if_pos hc] at hbc ⊢
            exact ih hab hbc
          · rwa [if_neg hc] at hbc ⊢
        · rw [if_neg hb, decide_eq_true_eq] at hab
          by_cases hc : b = c
          · subst hc
            rwa [if_neg hb, decide_eq_true_eq]
          · rw [if_neg hc, decide_eq_true_eq] at hbc
            have hac : a < c := lt_trans hab hbc
            rwa [if_neg (ne_of_lt hac), decide_eq_true_eq]

theorem le_total (p q : Path) : (le p q || le q p) = true := by
  by_cases h : p.root = q.root
  · simpa only [le, h, if_true] using namesLe_total p.names q.names
  · have hdiffer : p.root < q.root ∨ q.root < p.root := lt_or_gt_of_ne h
    simpa only [le, if_neg h, if_neg (Ne.symm h), Bool.or_eq_true, decide_eq_true_eq] using hdiffer

theorem le_trans {p q r : Path} (hpq : le p q = true) (hqr : le q r = true) : le p r = true := by
  simp only [le] at hpq hqr ⊢
  by_cases hq : p.root = q.root
  · rw [if_pos hq] at hpq
    rw [← hq] at hqr
    by_cases hr : p.root = r.root
    · rw [if_pos hr] at hqr ⊢
      exact namesLe_trans hpq hqr
    · rwa [if_neg hr] at hqr ⊢
  · rw [if_neg hq, decide_eq_true_eq] at hpq
    by_cases hr : q.root = r.root
    · rw [← hr]
      rwa [if_neg hq, decide_eq_true_eq]
    · rw [if_neg hr, decide_eq_true_eq] at hqr
      have hpr : p.root < r.root := lt_trans hpq hqr
      rwa [if_neg (ne_of_lt hpr), decide_eq_true_eq]

end Path

/-- A path that an argument brings in: the argument itself, or a path that the listing of its
folder gives. -/
structure Entry where
  path : Path
  isNamed : Bool
  deriving DecidableEq, Repr

namespace FileTree

variable (t : FileTree)

theorem list_sorted (deep : Bool) (p : Path) :
    (t.list deep p).Pairwise fun q r => Path.le q r = true := by
  unfold list
  split
  · apply List.pairwise_mergeSort
    · exact fun _ _ _ => Path.le_trans
    · exact Path.le_total
  · exact List.Pairwise.nil

theorem mem_below {here names : List String} :
    names ∈ t.below here ↔ names ≠ [] ∧ ∃ e, (here ++ names, e) ∈ t.entries := by
  simp only [below, List.mem_filterMap, Bool.and_eq_true, decide_eq_true_eq,
    Option.ite_none_right_eq_some, Option.some.injEq, Prod.exists]
  constructor
  · rintro ⟨place, e, hentry, ⟨htake, hlength⟩, rfl⟩
    constructor
    · rw [Ne, List.drop_eq_nil_iff]
      omega
    · refine ⟨e, ?_⟩
      have hplace : here ++ place.drop here.length = place := by
        rw [← htake, List.length_take, Nat.min_eq_left (Nat.le_of_lt hlength), List.take_append_drop]
      rwa [hplace]
  · rintro ⟨hnames, e, hentry⟩
    refine ⟨here ++ names, e, hentry, ⟨List.take_left, ?_⟩, List.drop_left⟩
    rw [List.length_append]
    exact Nat.lt_add_of_pos_right (List.length_pos_iff.mpr hnames)

/-- A folder lists the paths of the entries in it and, when the listing goes deep, of those in the
folders below it. -/
theorem mem_list {deep : Bool} {p q : Path} {here : List String}
    (h : t.find p.text = .ok (here, .folder)) :
    q ∈ t.list deep p ↔ ∃ names, names ≠ [] ∧ (∃ e, (here ++ names, e) ∈ t.entries) ∧
      (deep = true ∨ names.length = 1) ∧ q = p.below names := by
  have hlist : t.list deep p = ((if deep then t.below here
      else (t.below here).filter fun names => names.length = 1).map p.below).mergeSort Path.le := by
    rw [list, h]
  rw [hlist, List.mem_mergeSort, List.mem_map]
  constructor
  · rintro ⟨names, hnames, rfl⟩
    cases deep with
    | true =>
      obtain ⟨hne, hentry⟩ := t.mem_below.mp hnames
      exact ⟨names, hne, hentry, .inl rfl, rfl⟩
    | false =>
      obtain ⟨hbelow, hlength⟩ := List.mem_filter.mp hnames
      obtain ⟨hne, hentry⟩ := t.mem_below.mp hbelow
      exact ⟨names, hne, hentry, .inr (of_decide_eq_true hlength), rfl⟩
  · rintro ⟨names, hne, hentry, hlength, rfl⟩
    refine ⟨names, ?_, rfl⟩
    have hbelow : names ∈ t.below here := t.mem_below.mpr ⟨hne, hentry⟩
    cases deep with
    | true => exact hbelow
    | false =>
      exact List.mem_filter.mpr ⟨hbelow, decide_eq_true (hlength.resolve_left Bool.false_ne_true)⟩

/-- The place of what a path leads to, without links. -/
def resolve? (p : Path) : Option (List String) :=
  match t.find p.text with
  | .ok (place, _) => some place
  | .error _ => none

/-- The size of the file that a path leads to. -/
def fileSize? (p : Path) : Option Nat :=
  match t.find p.text with
  | .ok (_, .file content) => some content.length
  | _ => none

/-- The files that an argument stands for. -/
def entriesOf (f : Filter) (argument : String) : List Entry :=
  let p := Path.ofText argument
  if t.isFile p.text then [⟨p, true⟩]
  else if t.isFolder p.text then
    ((t.list f.isRecursive p).filter fun q => t.isFile q.text && f.accepts q).map (⟨·, false⟩)
  else []

/-- The files that the arguments stand for, in their order. -/
def entriesOfAll (f : Filter) (arguments : List String) : List Entry :=
  arguments.flatMap (t.entriesOf f)

/-- The paths of the arguments that are neither files nor folders. -/
def lost (arguments : List String) : List Path :=
  (arguments.map Path.ofText).filter fun p => !t.contains p.text

variable {t}

theorem isFile_iff {s : String} :
    t.isFile s = true ↔ ∃ place content, t.find s = .ok (place, .file content) := by
  unfold isFile
  split
  · rename_i place content h
    simp only [h, true_iff]
    exact ⟨place, content, rfl⟩
  · rename_i h
    simp only [Bool.false_eq_true, false_iff, not_exists]
    exact h

end FileTree

namespace Candidate

def entry? : Candidate → Option Entry
  | nowhere _ => none
  | file p _ _ isNamed => some ⟨p, isNamed⟩

def nowhere? : Candidate → Option Path
  | nowhere p => some p
  | file .. => none

/-- A file is where the candidate says, and as large. -/
def IsAt (t : FileTree) : Candidate → Prop
  | nowhere _ => True
  | file p place size _ =>
    ∃ content, t.find p.text = .ok (place, .file content) ∧ size = content.length

/-- Some candidates are the files of these entries and these lost paths, in their order. -/
structure StandFor (t : FileTree) (cs : List Candidate) (entries : List Entry) (lost : List Path) :
    Prop where
  entries : cs.filterMap entry? = entries
  lost : cs.filterMap nowhere? = lost
  isAt : ∀ c ∈ cs, c.IsAt t

namespace StandFor

variable {t : FileTree}

theorem nil : StandFor t [] [] [] := ⟨rfl, rfl, List.forall_mem_nil _⟩

theorem append {cs cs' : List Candidate} {entries entries' : List Entry} {lost lost' : List Path}
    (h : StandFor t cs entries lost) (h' : StandFor t cs' entries' lost') :
    StandFor t (cs ++ cs') (entries ++ entries') (lost ++ lost') where
  entries := by rw [List.filterMap_append, h.entries, h'.entries]
  lost := by rw [List.filterMap_append, h.lost, h'.lost]
  isAt := List.forall_mem_append.mpr ⟨h.isAt, h'.isAt⟩

end StandFor

end Candidate

namespace FileTree

open Candidate

variable {t : FileTree}

theorem candidate?_of_isFile (isNamed : Bool) {p : Path} (h : t.isFile p.text = true) :
    ∃ c, t.candidate? isNamed p = some c ∧ StandFor t [c] [⟨p, isNamed⟩] [] := by
  obtain ⟨place, content, hfind⟩ := isFile_iff.mp h
  refine ⟨.file p place content.length isNamed, ?_, rfl, rfl, ?_⟩
  · rw [candidate?, hfind]
  · exact List.forall_mem_singleton.mpr ⟨content, hfind, rfl⟩

theorem candidate?_of_not_isFile (isNamed : Bool) {p : Path} (h : t.isFile p.text = false) :
    t.candidate? isNamed p = none := by
  unfold candidate?
  split
  · rename_i hfind
    rw [isFile, hfind] at h
    cases h
  · rfl

/-- The candidates of the files among some paths. -/
theorem candidates_listed (ps : List Path) :
    StandFor t (ps.filterMap (t.candidate? false))
      ((ps.filter fun q => t.isFile q.text).map (⟨·, false⟩)) [] := by
  induction ps with
  | nil => exact .nil
  | cons p ps ih =>
    cases h : t.isFile p.text with
    | true =>
      obtain ⟨c, hc, hstands⟩ := candidate?_of_isFile false h
      rw [List.filterMap_cons_some hc, List.filter_cons, if_pos h]
      exact hstands.append ih
    | false =>
      rw [List.filterMap_cons_none (candidate?_of_not_isFile false h), List.filter_cons, h]
      exact ih

/-- The candidates of one argument. -/
theorem candidates_of (f : Filter) (argument : String) :
    StandFor t (t.candidates f argument) (t.entriesOf f argument)
      (let p := Path.ofText argument
        if t.contains p.text then [] else [p]) := by
  unfold candidates entriesOf contains
  generalize Path.ofText argument = p
  dsimp only
  cases h : t.isFile p.text with
  | true =>
    obtain ⟨c, hc, hstands⟩ := candidate?_of_isFile true h
    rw [hc]
    exact hstands
  | false =>
    rw [candidate?_of_not_isFile true h]
    cases t.isFolder p.text with
    | true =>
      have hlisted := t.candidates_listed ((t.list f.isRecursive p).filter f.accepts)
      rw [List.filter_filter] at hlisted
      exact hlisted
    | false => exact ⟨rfl, rfl, List.forall_mem_singleton.mpr trivial⟩

theorem lost_cons (argument : String) (arguments : List String) :
    t.lost (argument :: arguments) = (let p := Path.ofText argument
      if t.contains p.text then [] else [p]) ++ t.lost arguments := by
  rw [lost, List.map_cons, List.filter_cons]
  dsimp only
  cases t.contains (Path.ofText argument).text <;> rfl

theorem candidates_all (f : Filter) (arguments : List String) :
    StandFor t (arguments.flatMap (t.candidates f)) (t.entriesOfAll f arguments)
      (t.lost arguments) := by
  induction arguments with
  | nil => exact .nil
  | cons argument arguments ih =>
    rw [List.flatMap_cons, entriesOfAll, List.flatMap_cons, lost_cons]
    exact (t.candidates_of f argument).append ih

end FileTree

end StyleTally
