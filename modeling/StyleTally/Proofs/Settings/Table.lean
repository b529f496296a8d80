import StyleTally.Settings.Field

/-!
# Tables of data

What a table has under a name after each change, and which of its names are no settings. An update
with a table that gives no name twice is a lookup in that table first. Data are compared by a check
that runs.
-/

namespace StyleTally

namespace Datum

mutual

/-- Whether two data are one and the same. -/
def same : Datum → Datum → Bool
  | nothing, nothing => true
  | flag b, flag c => b == c
  | integer m, integer n => m == n
  | real x, real y => x == y
  | text s, text t => s == t
  | moment kind s, moment kind' t => kind == kind' && s == t
  | list ds, list es => sameItems ds es
  | table s, table t => sameFields s t
  | _, _ => false

def sameItems : List Datum → List Datum → Bool
  | [], [] => true
  | d :: ds, e :: es => same d e && sameItems ds es
  | _, _ => false

def sameFields : List (String × Datum) → List (String × Datum) → Bool
  | [], [] => true
  | (name, d) :: s, (name', e) :: t => name == name' && same d e && sameFields s t
  | _, _ => false

end

mutual

theorem same_iff (d e : Datum) : same d e = true ↔ d = e := by
  cases d with
  | list ds => cases e <;> simp [same, sameItems_iff ds]
  | table s => cases e <;> simp [same, sameFields_iff s]
  | _ => cases e <;> simp [same]

theorem sameItems_iff (ds es : List Datum) : sameItems ds es = true ↔ ds = es := by
  cases ds with
  | nil => cases es <;> simp [sameItems]
  | cons d ds => cases es <;> simp [sameItems, same_iff d, sameItems_iff ds]

theorem sameFields_iff (s t : List (String × Datum)) : sameFields s t = true ↔ s = t := by
  cases s with
  | nil => cases t <;> simp [sameFields]
  | cons field s =>
    obtain ⟨name, d⟩ := field
    cases t <;> simp [sameFields, same_iff d, sameFields_iff s, Prod.ext_iff, and_assoc]

end

instance : DecidableEq Datum := fun d e => decidable_of_iff (same d e = true) (same_iff d e)

end Datum

namespace DataTable

def names (t : DataTable) : List String := t.map Prod.fst

@[simp] theorem names_nil : names [] = [] := rfl

@[simp] theorem names_cons (e : String × Datum) (t : DataTable) :
    names (e :: t) = e.1 :: names t := rfl

theorem get?_cons (e : String × Datum) (t : DataTable) (name : String) :
    get? (e :: t) name = if name = e.1 then some e.2 else get? t name := by
  rw [get?, List.lookup_cons]
  by_cases h : name = e.1
  · rw [if_pos h, beq_iff_eq.mpr h]
  · rw [if_neg h, beq_eq_false_iff_ne.mpr h]
    rfl

theorem get?_eq_none {t : DataTable} {name : String} (h : name ∉ t.names) :
    t.get? name = none := by
  rw [get?, List.lookup_eq_none_iff]
  intro e he
  have hne : name ≠ e.1 := fun heq => h (heq ▸ List.mem_map_of_mem he)
  simpa using hne

theorem notMem_of_get? {t : DataTable} {name : String} (h : t.get? name = none) :
    name ∉ t.names := by
  intro hname
  obtain ⟨e, he, rfl⟩ := List.mem_map.mp hname
  simpa using List.lookup_eq_none_iff.mp h e he

theorem mem_of_get? {t : DataTable} {name : String} {d : Datum} (h : t.get? name = some d) :
    (name, d) ∈ t := by
  induction t with
  | nil => cases h
  | cons e t ih =>
    rw [get?_cons] at h
    split at h
    · rename_i hname
      cases h
      exact hname ▸ List.mem_cons_self
    · exact List.mem_cons_of_mem e (ih h)

/-- Names with one more, which comes last if it is new. -/
def withName (names : List String) (name : String) : List String :=
  if name ∈ names then names else names ++ [name]

theorem nodup_withName {names : List String} (h : names.Nodup) (name : String) :
    (withName names name).Nodup := by
  rw [withName]
  split
  · exact h
  · rename_i hname
    rw [List.nodup_append]
    refine ⟨h, by simp, fun k hk l hl heq => ?_⟩
    rw [List.mem_singleton] at hl
    exact hname (hl ▸ heq ▸ hk)

theorem withName_cons {k name : String} (h : name ≠ k) (names : List String) :
    withName (k :: names) name = k :: withName names name := by
  simp only [withName, List.mem_cons, h, false_or]
  split <;> rfl

section Put

variable (t : DataTable) (name : String) (d : Datum)

theorem get?_put (k : String) :
    (t.put name d).get? k = if k = name then some d else t.get? k := by
  induction t with
  | nil => exact get?_cons (name, d) [] k
  | cons e t ih =>
    obtain ⟨k', d'⟩ := e
    rw [put, get?_cons]
    by_cases hname : k' = name
    · rw [if_pos hname, get?_cons, hname]
      split <;> rfl
    · rw [if_neg hname, get?_cons, ih]
      by_cases hk : k = k'
      · rw [if_pos hk, if_pos hk, if_neg (hk ▸ hname)]
      · rw [if_neg hk, if_neg hk]

theorem names_put : (t.put name d).names = withName t.names name := by
  induction t with
  | nil => simp [put, withName]
  | cons e t ih =>
    obtain ⟨k, d'⟩ := e
    rw [put]
    by_cases hname : k = name
    · simp [hname, withName]
    · rw [if_neg hname, names_cons, names_cons, ih, withName_cons (Ne.symm hname)]

theorem nodup_put {t : DataTable} (h : t.names.Nodup) : (t.put name d).names.Nodup := by
  rw [names_put]
  exact nodup_withName h name

end Put

section Filter

variable {t : DataTable} (p : String × Datum → Bool)

theorem nodup_filter (h : t.names.Nodup) : (names (t.filter p)).Nodup :=
  (List.filter_sublist.map Prod.fst).nodup h

theorem get?_filter (h : t.names.Nodup) (k : String) :
    get? (t.filter p) k = (t.get? k).filter fun d => p (k, d) := by
  induction t with
  | nil => rfl
  | cons e t ih =>
    obtain ⟨hnot, hnodup⟩ := List.nodup_cons.mp h
    have ih := ih hnodup
    by_cases hp : p e
    · rw [List.filter_cons_of_pos hp, get?_cons, get?_cons]
      by_cases hk : k = e.1
      · have he : p (e.1, e.2) = true := hp
        rw [if_pos hk, if_pos hk, hk, Option.filter, he]
        rfl
      · rw [if_neg hk, if_neg hk, ih]
    · rw [List.filter_cons_of_neg hp, get?_cons, ih]
      by_cases hk : k = e.1
      · have he : p (e.1, e.2) = false := Bool.eq_false_iff.mpr hp
        rw [if_pos hk, hk, get?_eq_none hnot, Option.filter_none, Option.filter, he]
        rfl
      · rw [if_neg hk]

end Filter

theorem nodup_erase {t : DataTable} (h : t.names.Nodup) (name : String) :
    (t.erase name).names.Nodup :=
  nodup_filter _ h

theorem get?_erase {t : DataTable} (h : t.names.Nodup) (name k : String) :
    (t.erase name).get? k = if k = name then none else t.get? k := by
  rw [erase, get?_filter _ h]
  cases t.get? k with
  | none => simp
  | some d =>
    by_cases hk : k = name
    · simp [hk]
    · simp [hk]

/-- What is put with a table that gives no name twice is what the table gives, and what was there
before is kept under the other names. -/
theorem get?_update (t : DataTable) {u : DataTable} (h : u.names.Nodup) (k : String) :
    (t.update u).get? k = (u.get? k).or (t.get? k) := by
  induction u generalizing t with
  | nil => rfl
  | cons e u ih =>
    obtain ⟨hnot, hnodup⟩ := List.nodup_cons.mp h
    have hstep : t.update (e :: u) = (t.put e.1 e.2).update u := rfl
    rw [hstep, ih _ hnodup, get?_put, get?_cons]
    by_cases hk : k = e.1
    · simp [hk, get?_eq_none hnot]
    · simp [hk]

theorem nodup_update {t : DataTable} (h : t.names.Nodup) (u : DataTable) :
    (t.update u).names.Nodup := by
  induction u generalizing t with
  | nil => exact h
  | cons e u ih => exact ih (nodup_put e.1 e.2 h)

section Strangers

/-- The entries whose names are no settings. -/
def unknown (t : DataTable) : DataTable := t.filter fun (name, _) => (Setting.ofName? name).isNone

def strangers (t : DataTable) : List String := t.unknown.names

theorem unknown_cons_of_isNone {e : String × Datum} (h : (Setting.ofName? e.1).isNone)
    (t : DataTable) : unknown (e :: t) = e :: t.unknown :=
  List.filter_cons_of_pos h

theorem unknown_cons_of_isSome {e : String × Datum} (h : (Setting.ofName? e.1).isSome)
    (t : DataTable) : unknown (e :: t) = t.unknown :=
  List.filter_cons_of_neg (by simpa [Option.isNone_iff_eq_none, Option.isSome_iff_ne_none] using h)

theorem unknown_put_of_isSome {name : String} (h : (Setting.ofName? name).isSome) (t : DataTable)
    (d : Datum) : (t.put name d).unknown = t.unknown := by
  induction t with
  | nil => exact unknown_cons_of_isSome h []
  | cons e t ih =>
    obtain ⟨k, d'⟩ := e
    rw [put]
    by_cases hname : k = name
    · rw [if_pos hname, unknown_cons_of_isSome (hname ▸ h), unknown_cons_of_isSome (hname ▸ h)]
    · rw [if_neg hname]
      cases hk : (Setting.ofName? k).isNone with
      | true => rw [unknown_cons_of_isNone hk, unknown_cons_of_isNone hk, ih]
      | false =>
        rw [unknown_cons_of_isSome (by simpa using hk), unknown_cons_of_isSome (by simpa using hk), ih]

theorem unknown_put_of_isNone {name : String} (h : (Setting.ofName? name).isNone) (t : DataTable)
    (d : Datum) : (t.put name d).unknown = t.unknown.put name d := by
  induction t with
  | nil => exact unknown_cons_of_isNone h []
  | cons e t ih =>
    obtain ⟨k, d'⟩ := e
    rw [put]
    by_cases hname : k = name
    · rw [if_pos hname, unknown_cons_of_isNone (hname ▸ h), unknown_cons_of_isNone (hname ▸ h), put,
        if_pos hname]
    · rw [if_neg hname]
      cases hk : (Setting.ofName? k).isNone with
      | true => rw [unknown_cons_of_isNone hk, unknown_cons_of_isNone hk, ih, put, if_neg hname]
      | false =>
        rw [unknown_cons_of_isSome (by simpa using hk), unknown_cons_of_isSome (by simpa using hk), ih]

theorem unknown_filter (t : DataTable) (p : String × Datum → Bool) :
    unknown (t.filter p) = t.unknown.filter p := by
  simp only [unknown, List.filter_filter, Bool.and_comm]

/-- The strangers of a table that is updated depend on the strangers of both alone. -/
theorem strangers_update (t u : DataTable) :
    (t.update u).strangers = u.strangers.foldl withName t.strangers := by
  induction u generalizing t with
  | nil => rfl
  | cons e u ih =>
    have hstep : t.update (e :: u) = (t.put e.1 e.2).update u := rfl
    simp only [strangers] at ih ⊢
    rw [hstep, ih]
    cases he : (Setting.ofName? e.1).isNone with
    | true =>
      rw [unknown_put_of_isNone he, names_put, unknown_cons_of_isNone he, names_cons,
        List.foldl_cons]
    | false =>
      have hknown : (Setting.ofName? e.1).isSome := by simpa using he
      rw [unknown_put_of_isSome hknown, unknown_cons_of_isSome hknown]

end Strangers

end DataTable

end StyleTally
