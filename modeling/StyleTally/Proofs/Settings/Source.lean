import StyleTally.Proofs.Settings.Distinct
import StyleTally.Settings.Load

/-!
# Sources of settings

What each source of settings gives, and when it is refused. In a document, a table `census` wins
over the entries beside it; among the overrides, a flag that holds gives the verbosity. No source
gives a name twice.
-/

namespace StyleTally

theorem Setting.name_injective {s t : Setting} (h : s.name = t.name) : s = t := by
  have hsome := congrArg Setting.ofName? h
  rw [Setting.ofName?_name, Setting.ofName?_name] at hsome
  exact Option.some.inj hsome

/-- A fault that is reported as a problem of the settings. -/
def LoadFault.IsConfiguration (fault : LoadFault) : Prop :=
  ∃ p : Problem, fault = .problem p ∧ "ConfigurationError" ∈ p.kinds

namespace Settings

/-- The document in a file, if the file is there and holds one. -/
def document? (files : FileTree) (src : Source) : Option DataTable := do
  let bytes ← (files.read src.path).toOption
  let cs ← (Text.decodeUtf8 bytes).toOption
  Toml.read cs

/-- A file that is not there, or that holds a document. -/
structure Readable (files : FileTree) (src : Source) : Prop where
  name : files.find src.path ≠ .error .nameTooLong
  document : (files.find src.path).isOk → (document? files src).isSome

/-- The table `census` of a document, if it has one. -/
def census (doc : DataTable) : DataTable :=
  match doc.get? "census" with
  | some (.table fields) => fields
  | _ => []

/-- The entries of a document beside the table `census`. -/
def entries (doc : DataTable) : DataTable := doc.erase "census"

theorem mergeCensus_eq (doc : DataTable) : mergeCensus doc = (entries doc).update (census doc) := by
  simp only [mergeCensus, census, entries]
  cases doc.get? "census" with
  | none => rfl
  | some d => cases d <;> rfl

section Files

variable {files : FileTree} {src : Source}

theorem document?_of_error {fault : FileFault} (h : files.find src.path = .error fault) :
    document? files src = none := by
  simp [document?, FileTree.read, h, bind, Except.bind, Except.toOption]

theorem readFile_eq {doc : DataTable} (h : document? files src = some doc) :
    readFile files src = .ok (mergeCensus doc) := by
  simp only [document?, Option.bind_eq_bind, Option.bind_eq_some_iff] at h
  obtain ⟨bytes, hbytes, cs, hcs, hdoc⟩ := h
  cases hread : files.read src.path with
  | error fault => simp [hread, Except.toOption] at hbytes
  | ok bytes' =>
    simp only [hread, Except.toOption, Option.some.injEq] at hbytes
    subst hbytes
    cases hdecode : Text.decodeUtf8 bytes' with
    | error fault => simp [hdecode, Except.toOption] at hcs
    | ok cs' =>
      simp only [hdecode, Except.toOption, Option.some.injEq] at hcs
      subst hcs
      simp only [readFile, hread, hdecode, hdoc]

theorem readFile_error (h : document? files src = none) :
    ∃ detail, readFile files src = .error (src.invalid detail) := by
  cases hread : files.read src.path with
  | error fault => exact ⟨": " ++ fault.describe src.shown, by simp only [readFile, hread]⟩
  | ok bytes =>
    cases hdecode : Text.decodeUtf8 bytes with
    | error fault => exact ⟨"", by simp only [readFile, hread, hdecode]⟩
    | ok cs =>
      have hdoc : Toml.read cs = none := by
        simpa [document?, hread, hdecode, Except.toOption] using h
      exact ⟨"", by simp only [readFile, hread, hdecode, hdoc]⟩

/-- What a readable file gives. -/
theorem readAt_of_readable (h : Readable files src) :
    readAt files src = .ok (if (files.find src.path).isOk then
      some (mergeCensus ((document? files src).getD [])) else none) := by
  cases hfind : files.find src.path with
  | error fault =>
    have hname : fault ≠ .nameTooLong := by
      rintro rfl
      exact h.name hfind
    cases fault <;> first | exact absurd rfl hname | simp [readAt, hfind, Except.isOk, Except.toBool]
  | ok e =>
    obtain ⟨doc, hdoc⟩ := Option.isSome_iff_exists.mp (h.document (by rw [hfind]; rfl))
    rw [readAt, hfind, readFile_eq hdoc, hdoc]
    rfl

/-- A file that is not readable is refused. It is a problem of the settings, unless the name of the
file is too long. -/
theorem readAt_error (h : ¬Readable files src) :
    ∃ fault, readAt files src = .error fault ∧
      (files.find src.path ≠ .error .nameTooLong → fault.IsConfiguration) := by
  cases hfind : files.find src.path with
  | error fault =>
    by_cases hname : fault = .nameTooLong
    · subst hname
      exact ⟨.file ⟨.nameTooLong, src.shown⟩, by simp [readAt, hfind], fun h => absurd rfl h⟩
    · refine absurd ⟨?_, ?_⟩ h
      · rw [hfind]
        simpa using hname
      · rw [hfind]
        intro hok
        cases hok
  | ok e =>
    cases hdoc : document? files src with
    | none =>
      obtain ⟨detail, hdetail⟩ := readFile_error hdoc
      refine ⟨.problem (src.invalid detail), ?_, fun _ => ⟨_, rfl, by simp [Source.invalid, Problem.kinds]⟩⟩
      rw [readAt, hfind, hdetail]
      rfl
    | some doc =>
      refine absurd ⟨?_, ?_⟩ h
      · rw [hfind]
        simp
      · simp [hdoc]

theorem readIfThere_of_readable (h : Readable files src) :
    readIfThere files src = .ok (mergeCensus ((document? files src).getD [])) := by
  rw [readIfThere, readAt_of_readable h]
  cases hfind : files.find src.path with
  | error fault =>
    rw [document?_of_error hfind]
    rfl
  | ok e => rfl

theorem readNamed_of_readable (h : Readable files src) :
    readNamed files src =
      if (files.find src.path).isOk then .ok (mergeCensus ((document? files src).getD []))
      else .error (.problem (.configuration ("Config file not found: " ++ src.shown) [])) := by
  rw [readNamed, readAt_of_readable h]
  cases (files.find src.path).isOk <;> rfl

end Files

section Documents

variable {files : FileTree} {src : Source} {doc : DataTable}

theorem distinct_document (h : document? files src = some doc) : Datum.Distinct (.table doc) := by
  simp only [document?, Option.bind_eq_bind, Option.bind_eq_some_iff] at h
  obtain ⟨_, -, _, -, hread⟩ := h
  exact Toml.read_distinct hread

theorem nodup_census (h : Datum.Distinct (.table doc)) : (census doc).names.Nodup := by
  rw [census]
  split
  · rename_i hcensus
    exact (h.get? hcensus).names
  · exact List.nodup_nil

theorem nodup_entries (h : Datum.Distinct (.table doc)) : (entries doc).names.Nodup :=
  DataTable.nodup_erase h.names "census"

theorem nodup_mergeCensus (h : Datum.Distinct (.table doc)) : (mergeCensus doc).names.Nodup := by
  rw [mergeCensus_eq]
  exact DataTable.nodup_update (nodup_entries h) _

theorem get?_mergeCensus (h : Datum.Distinct (.table doc)) (name : String) :
    (mergeCensus doc).get? name = ((census doc).get? name).or ((entries doc).get? name) := by
  rw [mergeCensus_eq, DataTable.get?_update _ (nodup_census h)]

end Documents

section Environment

variable (environment : List (String × String))

/-- What the variable of a setting gives. -/
def readVariable (field : Setting) : Option Datum :=
  (environment.lookup field.variableName).bind fun text => (field.kind.read text).toOption

/-- Every variable that is set is readable. -/
def VariablesRead : Prop :=
  ∀ (field : Setting) (text : String), environment.lookup field.variableName = some text →
    ∃ d, field.kind.read text = .ok d

def fromEnvironment (fields : List Setting) : DataTable :=
  fields.filterMap fun field => (readVariable environment field).map (field.name, ·)

variable {environment}

theorem readEnvironment_of_read (h : VariablesRead environment) (fields : List Setting) :
    readEnvironment environment fields = .ok (fromEnvironment environment fields) := by
  induction fields with
  | nil => rfl
  | cons field fields ih =>
    rw [readEnvironment, fromEnvironment, List.filterMap_cons, readVariable]
    cases htext : environment.lookup field.variableName with
    | none => exact ih
    | some text =>
      obtain ⟨d, hd⟩ := h field text htext
      simp only [hd, ih, Option.bind_some, Except.toOption, Option.map_some]
      rfl

theorem readEnvironment_of_mem {field : Setting} {text : String}
    (htext : environment.lookup field.variableName = some text)
    (hunread : ¬∃ d, field.kind.read text = .ok d) {fields : List Setting} (hmem : field ∈ fields) :
    ∃ key text reason,
      readEnvironment environment fields = .error (.invalidSetting key text reason) := by
  induction fields with
  | nil => cases hmem
  | cons first fields ih =>
    rw [readEnvironment]
    cases hfirst : environment.lookup first.variableName with
    | none =>
      rcases List.mem_cons.mp hmem with rfl | hmem
      · rw [htext] at hfirst
        cases hfirst
      · exact ih hmem
    | some written =>
      simp only
      cases hread : first.kind.read written with
      | error fault => exact ⟨_, _, _, rfl⟩
      | ok d =>
        rcases List.mem_cons.mp hmem with rfl | hmem
        · rw [htext] at hfirst
          cases hfirst
          exact absurd ⟨d, hread⟩ hunread
        · obtain ⟨key, text, reason, herror⟩ := ih hmem
          exact ⟨key, text, reason, by simp only [herror, Except.map]⟩

/-- A variable that is not readable is refused, whatever else is set. -/
theorem readEnvironment_error (h : ¬VariablesRead environment) :
    ∃ key text reason,
      readEnvironment environment Setting.all = .error (.invalidSetting key text reason) := by
  obtain ⟨field, h⟩ := Classical.not_forall.mp h
  obtain ⟨text, h⟩ := Classical.not_forall.mp h
  obtain ⟨htext, hunread⟩ := Classical.not_imp.mp h
  exact readEnvironment_of_mem htext hunread field.mem_all

theorem names_fromEnvironment (fields : List Setting) :
    (fromEnvironment environment fields).names.Sublist (fields.map Setting.name) := by
  induction fields with
  | nil => exact List.Sublist.refl []
  | cons field fields ih =>
    rw [fromEnvironment, List.filterMap_cons, List.map_cons]
    cases readVariable environment field with
    | none => exact ih.cons _
    | some d => exact ih.cons_cons _

theorem get?_fromEnvironment_of_mem {field : Setting} {fields : List Setting}
    (hnodup : fields.Nodup) (hmem : field ∈ fields) :
    (fromEnvironment environment fields).get? field.name = readVariable environment field := by
  induction fields with
  | nil => cases hmem
  | cons first fields ih =>
    obtain ⟨hnot, hnodup⟩ := List.nodup_cons.mp hnodup
    have habsent (hfirst : first = field) :
        (fromEnvironment environment fields).get? field.name = none := by
      apply DataTable.get?_eq_none
      intro hname
      obtain ⟨other, hother, heq⟩ :=
        List.mem_map.mp ((names_fromEnvironment fields).subset hname)
      exact hnot (hfirst ▸ Setting.name_injective heq ▸ hother)
    rw [fromEnvironment, List.filterMap_cons]
    cases hfirst : readVariable environment first with
    | none =>
      rcases List.mem_cons.mp hmem with rfl | hmem
      · rw [hfirst]
        exact habsent rfl
      · exact ih hnodup hmem
    | some d =>
      rw [Option.map_some, DataTable.get?_cons]
      by_cases heq : field = first
      · subst heq
        rw [if_pos rfl, hfirst]
      · have hne : field.name ≠ first.name := fun h => heq (Setting.name_injective h)
        rw [if_neg hne]
        exact ih hnodup ((List.mem_cons.mp hmem).resolve_left heq)

theorem get?_fromEnvironment (field : Setting) :
    (fromEnvironment environment Setting.all).get? field.name = readVariable environment field :=
  get?_fromEnvironment_of_mem (by decide) field.mem_all

theorem nodup_fromEnvironment : (fromEnvironment environment Setting.all).names.Nodup :=
  (names_fromEnvironment Setting.all).nodup (by decide)

theorem strangers_fromEnvironment : (fromEnvironment environment Setting.all).strangers = [] := by
  rw [DataTable.strangers, DataTable.unknown, DataTable.names, List.map_eq_nil_iff,
    List.filter_eq_nil_iff]
  intro e he
  obtain ⟨field, -, heq⟩ :=
    List.mem_map.mp ((names_fromEnvironment Setting.all).subset (List.mem_map_of_mem he))
  change ¬(Setting.ofName? e.1).isNone = true
  rw [← heq, Setting.ofName?_name]
  exact Bool.false_ne_true

end Environment

section Overrides

/-- A flag among the overrides that holds. -/
def raised (flag : String) (overrides : DataTable) : Bool := (overrides.get? flag).any Datum.holds

/-- What a flag gives: it names the verbosity. -/
def flagged? (flag : String) (overrides : DataTable) (field : Setting) : Option Datum :=
  if field = .verbosity ∧ raised flag overrides = true then some (.text flag) else none

def isGiven : Datum → Bool
  | .nothing => false
  | _ => true

/-- The overrides that are neither flags nor nothing. -/
def given (overrides : DataTable) : DataTable :=
  overrides.filter fun (name, d) => name != "quiet" && name != "verbose" && isGiven d

theorem effective_eq (overrides : DataTable) :
    effective overrides =
      (applyFlag "quiet" (applyFlag "verbose" overrides)).filter fun (_, d) => isGiven d := by
  rw [effective]
  apply List.filter_congr
  rintro ⟨_, d⟩ -
  cases d <;> rfl

variable {t : DataTable} (flag : String)

theorem get?_applyFlag (h : t.names.Nodup) (name : String) :
    (applyFlag flag t).get? name =
      if name = flag then none
      else if name = "verbosity" ∧ raised flag t = true then some (.text flag)
      else t.get? name := by
  rw [applyFlag, raised]
  cases hflag : t.get? flag with
  | none =>
    by_cases hname : name = flag
    · rw [if_pos hname, hname, hflag]
    · simp [hname]
  | some d =>
    cases hd : d.holds with
    | false => simp [hd, DataTable.get?_erase h]
    | true =>
      simp [hd, DataTable.get?_erase (DataTable.nodup_put "verbosity" _ h), DataTable.get?_put]

theorem nodup_applyFlag (h : t.names.Nodup) : (applyFlag flag t).names.Nodup := by
  rw [applyFlag]
  split
  · apply DataTable.nodup_erase
    split
    · exact DataTable.nodup_put _ _ h
    · exact h
  · exact h

theorem unknown_applyFlag (t : DataTable) :
    (applyFlag flag t).unknown = t.unknown.filter fun (name, _) => name != flag := by
  rw [applyFlag]
  split
  · rw [DataTable.erase, DataTable.unknown_filter]
    split
    · rw [DataTable.unknown_put_of_isSome (by decide)]
    · rfl
  · rename_i hflag
    rw [eq_comm, List.filter_eq_self]
    intro e he
    have hmem : e.1 ∈ t.names := List.mem_map_of_mem (List.mem_filter.mp he).1
    have hne : e.1 ≠ flag := fun heq => DataTable.notMem_of_get? hflag (heq ▸ hmem)
    simpa using hne

theorem get?_effective {overrides : DataTable} (h : overrides.names.Nodup) (field : Setting) :
    (effective overrides).get? field.name =
      ((flagged? "quiet" overrides field).or (flagged? "verbose" overrides field)).or
        ((given overrides).get? field.name) := by
  have hquiet : (field.name != "quiet") = true := by cases field <;> decide
  have hverbose : (field.name != "verbose") = true := by cases field <;> decide
  have hverbosity : field.name = "verbosity" ↔ field = .verbosity := by cases field <;> decide
  have hraised : raised "quiet" (applyFlag "verbose" overrides) = raised "quiet" overrides := by
    rw [raised, get?_applyFlag "verbose" h]
    simp [raised]
  have hgiven : (given overrides).get? field.name =
      (overrides.get? field.name).filter fun d => isGiven d := by
    rw [given, DataTable.get?_filter _ h]
    simp only [hquiet, hverbose, Bool.true_and]
  have hnodup := nodup_applyFlag "verbose" h
  rw [effective_eq, DataTable.get?_filter _ (nodup_applyFlag "quiet" hnodup),
    get?_applyFlag "quiet" hnodup, get?_applyFlag "verbose" h, hraised, hgiven, flagged?, flagged?,
    if_neg (bne_iff_ne.mp hquiet), if_neg (bne_iff_ne.mp hverbose)]
  simp only [hverbosity]
  by_cases hq : field = .verbosity ∧ raised "quiet" overrides = true
  · rw [if_pos hq, if_pos hq]
    rfl
  · rw [if_neg hq, if_neg hq, Option.none_or]
    by_cases hv : field = .verbosity ∧ raised "verbose" overrides = true
    · rw [if_pos hv, if_pos hv]
      rfl
    · rw [if_neg hv, if_neg hv, Option.none_or]

theorem nodup_effective {overrides : DataTable} (h : overrides.names.Nodup) :
    (effective overrides).names.Nodup := by
  rw [effective_eq]
  exact DataTable.nodup_filter _ (nodup_applyFlag _ (nodup_applyFlag _ h))

theorem strangers_effective (overrides : DataTable) :
    (effective overrides).strangers = (given overrides).strangers := by
  rw [DataTable.strangers, DataTable.strangers, effective_eq, given, DataTable.unknown_filter,
    DataTable.unknown_filter, unknown_applyFlag, unknown_applyFlag, List.filter_filter,
    List.filter_filter]
  congr 1
  apply List.filter_congr
  rintro ⟨name, d⟩ -
  simp only [Bool.and_comm, Bool.and_assoc, Bool.and_left_comm]

end Overrides

end Settings

end StyleTally
