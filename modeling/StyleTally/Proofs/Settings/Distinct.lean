import StyleTally.Proofs.Settings.Table
import StyleTally.Settings.Toml.Document

/-!
# TOML documents without repetitions

A document grows by changes to its fields, each of which adds a key that is new or goes on with one
that is there. So no table of a document that is read names a key twice, at any depth.
-/

namespace StyleTally

def Datum.IsScalar : Datum → Prop
  | .list _ | .table _ => False
  | _ => True

/-- No table within the datum names a key twice. -/
inductive Datum.Distinct : Datum → Prop where
  | scalar {d : Datum} (h : d.IsScalar) : Distinct d
  | list {items : List Datum} (h : ∀ d ∈ items, Distinct d) : Distinct (.list items)
  | table {fields : DataTable} (hnames : fields.names.Nodup) (h : ∀ e ∈ fields, Distinct e.2) :
      Distinct (.table fields)

theorem Datum.Distinct.names {t : DataTable} (h : Datum.Distinct (.table t)) : t.names.Nodup := by
  cases h with
  | scalar h => exact h.elim
  | table hnames => exact hnames

theorem Datum.Distinct.get? {t : DataTable} (h : Datum.Distinct (.table t)) {name : String}
    {d : Datum} (hd : t.get? name = some d) : d.Distinct := by
  cases h with
  | scalar h => exact h.elim
  | table _ h => exact h _ (DataTable.mem_of_get? hd)

namespace Toml

inductive Branch.Distinct : Branch → Prop where
  | leaf {d : Datum} (h : d.Distinct) : Distinct (.leaf d)
  | table {named : Option Nat} {fields : Fields} (hnames : (fields.map Prod.fst).Nodup)
      (h : ∀ e ∈ fields, Distinct e.2) : Distinct (.table named fields)
  | tables {earlier : List Fields} {last : Fields}
      (hnames : ∀ fields ∈ earlier ++ [last], (fields.map Prod.fst).Nodup)
      (h : ∀ fields ∈ earlier ++ [last], ∀ e ∈ fields, Distinct e.2) :
      Distinct (.tables earlier last)

structure Fields.Distinct (fields : Fields) : Prop where
  names : (fields.map Prod.fst).Nodup
  branches : ∀ e ∈ fields, e.2.Distinct

theorem Fields.Distinct.nil : Fields.Distinct [] := ⟨List.nodup_nil, by simp⟩

/-- A change that leaves distinct fields distinct. -/
def Keeps (change : Fields → Option Fields) : Prop :=
  ∀ fields after, change fields = some after → fields.Distinct → after.Distinct

/-- The same of a change to one branch, which may be missing. -/
def KeepsBranch (f : Option Branch → Option Branch) : Prop :=
  ∀ b? b, f b? = some b → (∀ c ∈ b?, c.Distinct) → b.Distinct

section Changes

variable {f : Option Branch → Option Branch} {name : String}

theorem names_alter {fields after : Fields} (h : alter f name fields = some after) :
    after.map Prod.fst = DataTable.withName (fields.map Prod.fst) name := by
  induction fields generalizing after with
  | nil =>
    obtain ⟨b, -, rfl⟩ := Option.map_eq_some_iff.mp h
    rfl
  | cons e fields ih =>
    obtain ⟨k, b⟩ := e
    rw [alter] at h
    by_cases hk : k = name
    · rw [if_pos hk] at h
      obtain ⟨b', -, rfl⟩ := Option.map_eq_some_iff.mp h
      simp [hk, DataTable.withName]
    · rw [if_neg hk] at h
      obtain ⟨rest, hrest, rfl⟩ := Option.map_eq_some_iff.mp h
      rw [List.map_cons, List.map_cons, ih hrest, DataTable.withName_cons (Ne.symm hk)]

theorem branches_alter (hf : KeepsBranch f)
    {fields after : Fields} (h : alter f name fields = some after)
    (hfields : ∀ e ∈ fields, e.2.Distinct) : ∀ e ∈ after, e.2.Distinct := by
  induction fields generalizing after with
  | nil =>
    obtain ⟨b, hb, rfl⟩ := Option.map_eq_some_iff.mp h
    simpa using hf none b hb (by simp)
  | cons e fields ih =>
    obtain ⟨k, b⟩ := e
    obtain ⟨hhead, htail⟩ := List.forall_mem_cons.mp hfields
    rw [alter] at h
    by_cases hk : k = name
    · rw [if_pos hk] at h
      obtain ⟨b', hb', rfl⟩ := Option.map_eq_some_iff.mp h
      exact List.forall_mem_cons.mpr ⟨hf (some b) b' hb' (by simpa using hhead), htail⟩
    · rw [if_neg hk] at h
      obtain ⟨rest, hrest, rfl⟩ := Option.map_eq_some_iff.mp h
      exact List.forall_mem_cons.mpr ⟨hhead, ih hrest htail⟩

theorem Keeps.alter (hf : KeepsBranch f) :
    Keeps (alter f name) := by
  intro fields after h hfields
  refine ⟨?_, branches_alter hf h hfields.branches⟩
  rw [names_alter h]
  exact DataTable.nodup_withName hfields.names name

theorem Branch.Distinct.ofFields {named : Option Nat} {fields : Fields} (h : fields.Distinct) :
    Branch.Distinct (.table named fields) := .table h.names h.branches

theorem Branch.Distinct.ofTables {earlier : List Fields} {last : Fields}
    (hearlier : ∀ fields ∈ earlier, Fields.Distinct fields) (hlast : last.Distinct) :
    Branch.Distinct (.tables earlier last) := by
  have h : ∀ fields ∈ earlier ++ [last], Fields.Distinct fields :=
    List.forall_mem_append.mpr ⟨hearlier, List.forall_mem_singleton.mpr hlast⟩
  exact .tables (fun fields hfields => (h fields hfields).names)
    fun fields hfields => (h fields hfields).branches

/-- A change to a branch that refuses leaves is looked at on a missing branch, on the fields of a
table, and on those of an array of tables. -/
theorem KeepsBranch.ofCases (hleaf : ∀ d, f (some (.leaf d)) = none)
    (hnone : ∀ b, f none = some b → b.Distinct)
    (htable : ∀ named fields b, f (some (.table named fields)) = some b →
      Fields.Distinct fields → b.Distinct)
    (htables : ∀ earlier last b, f (some (.tables earlier last)) = some b →
      (∀ fields ∈ earlier, Fields.Distinct fields) → Fields.Distinct last → b.Distinct) :
    KeepsBranch f := by
  intro b? b hb hdistinct
  cases b? with
  | none => exact hnone b hb
  | some c =>
    cases hdistinct c rfl with
    | leaf =>
      rw [hleaf] at hb
      cases hb
    | table hnames h => exact htable _ _ b hb ⟨hnames, h⟩
    | @tables earlier last hnames h =>
      have hall (fields : Fields) (hmem : fields ∈ earlier ++ [last]) : fields.Distinct :=
        ⟨hnames fields hmem, h fields hmem⟩
      obtain ⟨hearlier, hlast⟩ := List.forall_mem_append.mp hall
      exact htables _ _ b hb hearlier (hlast last (List.mem_singleton_self last))

theorem Keeps.within {change : Fields → Option Fields} (hchange : Keeps change)
    (path : List String) : Keeps (within change path) := by
  induction path with
  | nil => exact hchange
  | cons name names ih =>
    refine Keeps.alter (.ofCases (fun _ => rfl) ?_ ?_ ?_)
    · intro b hb
      obtain ⟨fields, hfields, rfl⟩ := Option.map_eq_some_iff.mp hb
      exact .ofFields (ih _ _ hfields .nil)
    · intro named fields b hb hdistinct
      obtain ⟨after, hafter, rfl⟩ := Option.map_eq_some_iff.mp hb
      exact .ofFields (ih _ _ hafter hdistinct)
    · intro earlier last b hb hearlier hlast
      obtain ⟨after, hafter, rfl⟩ := Option.map_eq_some_iff.mp hb
      exact .ofTables hearlier (ih _ _ hafter hlast)

theorem Keeps.dotted (header : Nat) {change : Fields → Option Fields} (hchange : Keeps change)
    (path : List String) : Keeps (dotted header change path) := by
  induction path with
  | nil => exact hchange
  | cons name names ih =>
    refine Keeps.alter (.ofCases (fun _ => rfl) ?_ ?_ ?_)
    · intro b hb
      obtain ⟨fields, hfields, rfl⟩ := Option.map_eq_some_iff.mp hb
      exact .ofFields (ih _ _ hfields .nil)
    · intro named fields b hb hdistinct
      simp only at hb
      split at hb
      · cases hb
      · obtain ⟨after, hafter, rfl⟩ := Option.map_eq_some_iff.mp hb
        exact .ofFields (ih _ _ hafter hdistinct)
    · intro earlier last b hb
      cases hb

theorem Keeps.setLast (hf : KeepsBranch f)
    {go : (Fields → Option Fields) → List String → Fields → Option Fields}
    (hgo : ∀ {change}, Keeps change → ∀ path, Keeps (go change path)) (path : List String) :
    Keeps (setLast path f go) := by
  intro fields after h hfields
  rw [Toml.setLast] at h
  split at h
  · exact hgo (.alter hf) _ _ _ h hfields
  · cases h

theorem keeps_addPair (header : Nat) (path key : List String) {d : Datum} (hd : d.Distinct) :
    Keeps (addPair header path key d) := by
  apply Keeps.within
  apply Keeps.setLast _ (Keeps.dotted header)
  intro b? b hb _
  cases b? with
  | none =>
    cases hb
    exact .leaf hd
  | some c => cases hb

theorem keeps_addTable (header : Nat) (path : List String) : Keeps (addTable header path) := by
  refine Keeps.setLast (.ofCases (fun _ => rfl) ?_ ?_ ?_) Keeps.within path
  · intro b hb
    cases hb
    exact .ofFields .nil
  · intro named fields b hb hdistinct
    simp only at hb
    split at hb
    · cases hb
    · cases hb
      exact .ofFields hdistinct
  · intro earlier last b hb
    cases hb

theorem keeps_addItem (path : List String) : Keeps (addItem path) := by
  refine Keeps.setLast (.ofCases (fun _ => rfl) ?_ ?_ ?_) Keeps.within path
  · intro b hb
    cases hb
    exact .ofTables (by simp) .nil
  · intro named fields b hb
    cases hb
  · intro earlier last b hb hearlier hlast
    cases hb
    have hrows : ∀ fields ∈ earlier ++ [last], Fields.Distinct fields :=
      List.forall_mem_append.mpr ⟨hearlier, List.forall_mem_singleton.mpr hlast⟩
    exact .ofTables hrows .nil

end Changes

theorem fieldData_eq (fields : Fields) :
    fieldData fields = fields.map fun (name, b) => (name, b.datum) := by
  induction fields with
  | nil => rfl
  | cons e fields ih =>
    obtain ⟨name, b⟩ := e
    rw [fieldData, ih, List.map_cons]

theorem itemData_eq (rows : List Fields) :
    itemData rows = rows.map fun fields => .table (fieldData fields) := by
  induction rows with
  | nil => rfl
  | cons fields rows ih => rw [itemData, ih, List.map_cons]

theorem names_fieldData (fields : Fields) :
    (fieldData fields).names = fields.map Prod.fst := by
  rw [fieldData_eq, DataTable.names, List.map_map]
  rfl

theorem distinct_table {fields : Fields} (hnames : (fields.map Prod.fst).Nodup)
    (h : ∀ e ∈ fields, e.2.datum.Distinct) : Datum.Distinct (.table (fieldData fields)) := by
  apply Datum.Distinct.table
  · rwa [names_fieldData]
  · intro e he
    rw [fieldData_eq] at he
    obtain ⟨⟨name, b⟩, hb, rfl⟩ := List.mem_map.mp he
    exact h _ hb

theorem Branch.Distinct.datum {b : Branch} (h : b.Distinct) : b.datum.Distinct := by
  induction h with
  | leaf h => exact h
  | table hnames _ ih => exact distinct_table hnames ih
  | @tables earlier last hnames _ ih =>
    apply Datum.Distinct.list
    have hitems : itemData earlier ++ [.table (fieldData last)] = itemData (earlier ++ [last]) := by
      simp [itemData_eq]
    rw [hitems, itemData_eq]
    intro d hd
    obtain ⟨fields, hfields, rfl⟩ := List.mem_map.mp hd
    exact distinct_table (hnames fields hfields) (ih fields hfields)

theorem Fields.Distinct.data {fields : Fields} (h : fields.Distinct) :
    Datum.Distinct (.table (fieldData fields)) :=
  distinct_table h.names fun e he => (h.branches e he).datum

section Readers

/-- What a reader of scalars gives is one. -/
def GivesScalars (reader : Reader Datum) : Prop :=
  ∀ cs d rest, reader cs = some (d, rest) → d.IsScalar

theorem GivesScalars.map {α : Type} {make : α → Datum} {reader : Reader α}
    (h : ∀ a, (make a).IsScalar) :
    GivesScalars fun cs => (reader cs).map fun (a, rest) => (make a, rest) := by
  intro cs d rest hread
  obtain ⟨⟨a, rest'⟩, -, heq⟩ := Option.map_eq_some_iff.mp hread
  cases heq
  exact h a

theorem GivesScalars.orElse {first second : Reader Datum} (h : GivesScalars first)
    (h' : GivesScalars second) : GivesScalars fun cs => first cs <|> second cs := by
  intro cs d rest hread
  simp only [Option.orElse_eq_orElse, Option.orElse_eq_or, Option.or_eq_some_iff] at hread
  rcases hread with hread | ⟨-, hread⟩
  · exact h _ _ _ hread
  · exact h' _ _ _ hread

theorem givesScalars_truth : GivesScalars truth := by
  intro cs d rest hread
  rw [truth.eq_def] at hread
  split at hread <;> cases hread <;> trivial

theorem givesScalars_special : GivesScalars special := by
  intro cs d rest hread
  simp only [special] at hread
  split at hread <;> cases hread <;> trivial

theorem givesScalars_decimalNumber : GivesScalars decimalNumber := by
  intro cs d rest hread
  simp only [decimalNumber, Option.bind_eq_bind, Option.bind_eq_some_iff] at hread
  obtain ⟨_, -, hread⟩ := hread
  split at hread
  · split at hread
    · cases hread
    · cases hread
      trivial
  · cases hread
    trivial

theorem givesScalars_number : GivesScalars number := by
  have hbased (base : Nat) (isDigit : Char → Bool) : GivesScalars (based base isDigit) := by
    intro cs d rest hread
    obtain ⟨_, -, heq⟩ := Option.map_eq_some_iff.mp hread
    cases heq
    trivial
  intro cs d rest hread
  simp only [number, Option.orElse_eq_orElse, Option.orElse_eq_or, Option.or_eq_some_iff] at hread
  rcases hread with hread | ⟨-, hread⟩
  · split at hread
    · exact hbased _ _ _ _ _ hread
    · exact hbased _ _ _ _ _ hread
    · exact hbased _ _ _ _ _ hread
    · cases hread
  · exact givesScalars_decimalNumber _ _ _ hread

theorem isScalar_of_dated {cs : List Char} {day : Nat × Nat × Nat} {rest after : List Char}
    {d : Datum} (h : dated cs day rest = some (d, after)) : d.IsScalar := by
  simp only [dated] at h
  split at h
  · cases h
  · split at h <;> cases h <;> trivial

theorem givesScalars_text :
    GivesScalars fun cs => (quotedText cs).map fun (s, rest) => (.text s, rest) :=
  .map fun _ => trivial

theorem givesScalars_scalar : GivesScalars scalar := by
  have htime : GivesScalars timeOfDay := by
    intro cs d rest hread
    obtain ⟨_, -, heq⟩ := Option.map_eq_some_iff.mp hread
    cases heq
    trivial
  intro cs d rest hread
  rw [scalar.eq_def] at hread
  split at hread
  · exact givesScalars_text _ _ _ hread
  · exact givesScalars_text _ _ _ hread
  · split at hread
    · exact isScalar_of_dated hread
    · exact (givesScalars_truth.orElse (htime.orElse (givesScalars_number.orElse
        givesScalars_special))) _ _ _ hread

/-- Readers of so many steps. -/
structure ReadsDistinct (depth : Nat) : Prop where
  value : ∀ cs d rest, Toml.value depth cs = some (d, rest) → d.Distinct
  items : ∀ cs ds rest, Toml.items depth cs = some (ds, rest) → ∀ d ∈ ds, d.Distinct
  pairs : ∀ fields cs after rest, Toml.pairs depth fields cs = some (after, rest) →
    fields.Distinct → after.Distinct

theorem ReadsDistinct.value_succ {depth : Nat} (h : ReadsDistinct depth) {cs : List Char}
    {d : Datum} {rest : List Char} (hread : Toml.value (depth + 1) cs = some (d, rest)) :
    d.Distinct := by
  rw [Toml.value.eq_def] at hread
  simp only at hread
  split at hread
  · simp only [Option.bind_eq_bind, Option.bind_eq_some_iff] at hread
    obtain ⟨after, -, hread⟩ := hread
    split at hread
    · cases hread
      exact .list (by simp)
    · simp only [Option.bind_eq_some_iff] at hread
      obtain ⟨⟨ds, rest'⟩, hitems, heq⟩ := hread
      cases heq
      exact .list (h.items _ _ _ hitems)
  · split at hread
    · cases hread
      exact .table List.nodup_nil (by simp)
    · simp only [Option.bind_eq_bind, Option.bind_eq_some_iff] at hread
      obtain ⟨⟨fields, rest'⟩, hpairs, heq⟩ := hread
      cases heq
      exact (h.pairs _ _ _ _ hpairs .nil).data
  · exact .scalar (givesScalars_scalar _ _ _ hread)

theorem ReadsDistinct.items_succ {depth : Nat} (h : ReadsDistinct depth) {cs : List Char}
    {ds : List Datum} {rest : List Char} (hread : Toml.items (depth + 1) cs = some (ds, rest)) :
    ∀ d ∈ ds, d.Distinct := by
  simp only [Toml.items, Option.bind_eq_bind, Option.bind_eq_some_iff] at hread
  obtain ⟨⟨d, after⟩, hvalue, _, -, hread⟩ := hread
  have hd := h.value _ _ _ hvalue
  simp only at hread
  split at hread
  · cases hread
    simpa using hd
  · simp only [Option.bind_eq_some_iff] at hread
    obtain ⟨_, -, hread⟩ := hread
    split at hread
    · cases hread
      simpa using hd
    · simp only [Option.bind_eq_some_iff] at hread
      obtain ⟨⟨more, rest'⟩, hmore, heq⟩ := hread
      cases heq
      exact List.forall_mem_cons.mpr ⟨hd, h.items _ _ _ hmore⟩
  · cases hread

theorem ReadsDistinct.pairs_succ {depth : Nat} (h : ReadsDistinct depth) {fields : Fields}
    {cs : List Char} {after : Fields} {rest : List Char}
    (hread : Toml.pairs (depth + 1) fields cs = some (after, rest)) (hfields : fields.Distinct) :
    after.Distinct := by
  simp only [Toml.pairs, Option.bind_eq_bind, Option.bind_eq_some_iff] at hread
  obtain ⟨⟨name, cs'⟩, -, hread⟩ := hread
  simp only at hread
  split at hread
  · simp only [Option.bind_eq_some_iff] at hread
    obtain ⟨⟨d, cs''⟩, hvalue, fields', hadd, hread⟩ := hread
    have hfields' := keeps_addPair 0 [] name (h.value _ _ _ hvalue) _ _ hadd hfields
    split at hread
    · cases hread
      exact hfields'
    · exact h.pairs _ _ _ _ hread hfields'
    · cases hread
  · cases hread

theorem readsDistinct (depth : Nat) : ReadsDistinct depth := by
  induction depth with
  | zero =>
    constructor
    · intro cs d rest hread
      cases hread
    · intro cs ds rest hread
      cases hread
    · intro fields cs after rest hread
      cases hread
  | succ depth ih =>
    exact ⟨fun _ _ _ => ih.value_succ, fun _ _ _ => ih.items_succ, fun _ _ _ _ => ih.pairs_succ⟩

theorem statement_distinct {st after : State} {cs rest : List Char}
    (h : statement st cs = some (after, rest)) (hst : st.fields.Distinct) :
    after.fields.Distinct := by
  rw [statement.eq_def] at h
  split at h
  · simp only [Option.bind_eq_bind, Option.bind_eq_some_iff] at h
    obtain ⟨⟨path, cs'⟩, -, h⟩ := h
    simp only at h
    split at h
    · simp only [Option.bind_eq_some_iff] at h
      obtain ⟨fields, hadd, heq⟩ := h
      cases heq
      exact keeps_addItem path _ _ hadd hst
    · cases h
  · simp only [Option.bind_eq_bind, Option.bind_eq_some_iff] at h
    obtain ⟨⟨path, cs'⟩, -, h⟩ := h
    simp only at h
    split at h
    · simp only [Option.bind_eq_some_iff] at h
      obtain ⟨fields, hadd, heq⟩ := h
      cases heq
      exact keeps_addTable _ path _ _ hadd hst
    · cases h
  · simp only [Option.bind_eq_bind, Option.bind_eq_some_iff] at h
    obtain ⟨⟨name, cs'⟩, -, h⟩ := h
    simp only at h
    split at h
    · simp only [Option.bind_eq_some_iff] at h
      obtain ⟨⟨d, cs''⟩, hvalue, fields, hadd, heq⟩ := h
      cases heq
      exact keeps_addPair _ _ name ((readsDistinct _).value _ _ _ hvalue) _ _ hadd hst
    · cases h

/-- Behind a statement stands the end of its line. -/
theorem line_distinct {rounds : Nat} {st : State} {cs : List Char} {fields : Fields}
    (hnext : ∀ cs, statements rounds st cs = some fields → fields.Distinct)
    (hst : st.fields.Distinct)
    (h : (skipComment (skipGap cs)).bind (fun
      | [] => some st.fields
      | '\n' :: cs => statements rounds st cs
      | _ => none) = some fields) : fields.Distinct := by
  obtain ⟨rest, -, h⟩ := Option.bind_eq_some_iff.mp h
  split at h
  · cases h
    exact hst
  · exact hnext _ h
  · cases h

theorem statements_distinct (rounds : Nat) {st : State} {cs : List Char} {fields : Fields}
    (h : statements rounds st cs = some fields) (hst : st.fields.Distinct) : fields.Distinct := by
  induction rounds generalizing st cs with
  | zero => cases h
  | succ rounds ih =>
    rw [statements.eq_def] at h
    simp only [Option.bind_eq_bind] at h
    split at h
    · exact line_distinct (fun _ h => ih h hst) hst h
    · exact line_distinct (fun _ h => ih h hst) hst h
    · exact line_distinct (fun _ h => ih h hst) hst h
    · obtain ⟨⟨st', cs'⟩, hst', h⟩ := Option.bind_eq_some_iff.mp h
      have hdistinct := statement_distinct hst' hst
      exact line_distinct (fun _ h => ih h hdistinct) hdistinct h

/-- A document names no key twice in any of its tables. -/
theorem read_distinct {cs : List Char} {t : DataTable} (h : read cs = some t) :
    Datum.Distinct (.table t) := by
  obtain ⟨fields, hfields, rfl⟩ := Option.map_eq_some_iff.mp h
  exact (statements_distinct _ hfields .nil).data

end Readers

end Toml

end StyleTally
