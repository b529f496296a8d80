import StyleTally.Proofs.Discovery.Survey
import StyleTally.Proofs.Settings.Source

/-!
# Precedence of settings

Every setting is taken from the strongest origin that gives it: a flag for the verbosity, an
override, a variable, or a file, in which the table `census` is stronger than the entries beside it.
What a weaker origin gives makes no difference, apart from a variable, which has to be readable.
-/

namespace StyleTally

/-- The files that settings are read from. -/
inductive SettingsFile where
  | named
  | project
  | home
  deriving DecidableEq, Repr

/-- What settings are loaded from. -/
structure Inputs where
  here : Surroundings
  named : Option String
  overrides : DataTable

/-- Where a value of a setting comes from. -/
inductive Origin where
  | quietFlag
  | verboseFlag
  | override
  | environment
  | census (file : SettingsFile)
  | entry (file : SettingsFile)
  deriving DecidableEq, Repr

namespace Origin

/-- All origins, the strongest first. -/
def all : List Origin :=
  [quietFlag, verboseFlag, override, environment, census .named, entry .named, census .project,
   entry .project, census .home, entry .home]

/-- The origins that win over an origin. -/
def stronger (o : Origin) : List Origin := all.takeWhile (· ≠ o)

end Origin

namespace Settings

theorem eq_ok_of_isOk {ε : Type} {x : Except ε Unit} (h : x.isOk = true) : x = .ok () := by
  cases x with
  | error fault => cases h
  | ok u => rfl

/-- The values that a table gives, with the defaults of the settings that it lacks. -/
def values (t : DataTable) : Settings := ⟨fun field => (t.get? field.name).getD field.default⟩

theorem ofTable_eq (t : DataTable) :
    ofTable t =
      match t.strangers.head? with
      | some name =>
        .error (if name = Setting.wholeName then .takenName name else .unknownName name)
      | none => (values t).check.map fun _ => values t := by
  rw [DataTable.strangers, DataTable.names, List.head?_map, DataTable.unknown, List.head?_filter,
    ofTable]
  split
  · rename_i name d hfind
    rw [hfind]
    rfl
  · rename_i hfind
    rw [hfind]
    change ((values t).check >>= fun _ => pure (values t)) = _
    cases (values t).check <;> rfl

theorem values_of_ofTable {t : DataTable} {s : Settings} (h : ofTable t = .ok s) : s = values t := by
  rw [ofTable_eq] at h
  split at h
  · cases h
  · cases hcheck : (values t).check with
    | error fault =>
      rw [hcheck] at h
      cases h
    | ok u =>
      rw [hcheck] at h
      cases h
      rfl

theorem values_of_ofMerged {t : DataTable} {s : Settings} (h : ofMerged t = .ok s) :
    s = values t := by
  rw [ofMerged] at h
  split at h
  · rename_i hs
    cases h
    exact values_of_ofTable hs
  · split at h <;> cases h

/-- Settings are made from the strangers of a table and from what it gives the settings. -/
theorem ofMerged_congr {t u : DataTable} (hstrangers : t.strangers = u.strangers)
    (hvalues : ∀ field : Setting, t.get? field.name = u.get? field.name) :
    ofMerged t = ofMerged u := by
  have heq : values t = values u := by
    simp only [values, hvalues]
  rw [ofMerged, ofMerged, ofTable_eq, ofTable_eq, hstrangers, heq]

end Settings

namespace Inputs

open Settings

def load (i : Inputs) : Except LoadFault Settings := Settings.load i.here i.named i.overrides

def source? (i : Inputs) : SettingsFile → Option (FileTree × Source)
  | .named => i.named.map fun path => (i.here.files, namedSource path)
  | .project => some (i.here.files, projectSource i.here)
  | .home => some (i.here.homeFiles, homeSource i.here)

/-- The document in a file; an empty one where there is no file. -/
def document (i : Inputs) (file : SettingsFile) : DataTable :=
  ((i.source? file).bind fun (files, src) => document? files src).getD []

def FilesRead (i : Inputs) : Prop :=
  ∀ file files src, i.source? file = some (files, src) → Readable files src

/-- Every file that is there holds a document, and every variable that is set is readable. -/
structure Sound (i : Inputs) : Prop where
  files : i.FilesRead
  environment : VariablesRead i.here.environment

/-- The file that is named, where it is missing. -/
def missing? (i : Inputs) : Option Source :=
  i.named.bind fun path =>
    if (i.here.files.find (namedSource path).path).isOk then none else some (namedSource path)

/-- What an origin gives a setting. -/
def gives (i : Inputs) (field : Setting) : Origin → Option Datum
  | .quietFlag => flagged? "quiet" i.overrides field
  | .verboseFlag => flagged? "verbose" i.overrides field
  | .override => (given i.overrides).get? field.name
  | .environment => readVariable i.here.environment field
  | .census file => (Settings.census (i.document file)).get? field.name
  | .entry file => (entries (i.document file)).get? field.name

/-- What the strongest of the origins gives that give a setting anything, or its default. -/
def winning (i : Inputs) (field : Setting) : Datum :=
  (Origin.all.findSome? (i.gives field)).getD field.default

/-- The names in an origin that are no settings. -/
def strangers (i : Inputs) : Origin → List String
  | .quietFlag | .verboseFlag | .environment => []
  | .override => (given i.overrides).strangers
  | .census file => (Settings.census (i.document file)).strangers
  | .entry file => (entries (i.document file)).strangers

def file (i : Inputs) (f : SettingsFile) : DataTable := mergeCensus (i.document f)

/-- Everything that is given, the stronger put over the weaker. -/
def merged (i : Inputs) : DataTable :=
  ((((DataTable.update [] (i.file .home)).update (i.file .project)).update (i.file .named)).update
    (fromEnvironment i.here.environment Setting.all)).update (effective i.overrides)

theorem distinct_document (i : Inputs) (f : SettingsFile) :
    Datum.Distinct (.table (i.document f)) := by
  rw [document]
  cases hdoc : (i.source? f).bind fun (files, src) => document? files src with
  | none => exact .table List.nodup_nil (by simp)
  | some doc =>
    obtain ⟨⟨files, src⟩, -, hdoc⟩ := Option.bind_eq_some_iff.mp hdoc
    exact Settings.distinct_document hdoc

/-- What the file gives that is named; nothing where none is named. -/
def explicit (i : Inputs) : Except LoadFault DataTable :=
  match i.named with
  | some path => readNamed i.here.files (namedSource path)
  | none => .ok []

theorem load_eq_bind (i : Inputs) :
    i.load =
      (readIfThere i.here.homeFiles (homeSource i.here)).bind fun home =>
      (readIfThere i.here.files (projectSource i.here)).bind fun project =>
      i.explicit.bind fun explicit =>
      ((readEnvironment i.here.environment Setting.all).mapError .problem).bind fun extracted =>
      ofMerged (((((DataTable.update [] home).update project).update explicit).update
        extracted).update (effective i.overrides)) := by
  rw [load, Settings.load, explicit]
  cases i.named <;> rfl

section Files

variable {i : Inputs}

theorem filesRead_iff :
    i.FilesRead ↔ Readable i.here.homeFiles (homeSource i.here) ∧
      Readable i.here.files (projectSource i.here) ∧
      ∀ path, i.named = some path → Readable i.here.files (namedSource path) := by
  constructor
  · intro h
    refine ⟨h .home _ _ rfl, h .project _ _ rfl, fun path hnamed => h .named _ _ ?_⟩
    rw [source?, hnamed]
    rfl
  · rintro ⟨hhome, hproject, hnamed⟩ file files src hsource
    cases file with
    | home =>
      cases hsource
      exact hhome
    | project =>
      cases hsource
      exact hproject
    | named =>
      obtain ⟨path, hpath, heq⟩ := Option.map_eq_some_iff.mp hsource
      cases heq
      exact hnamed path hpath

theorem explicit_of_filesRead (h : i.FilesRead) :
    i.explicit =
      match i.missing? with
      | some src => .error (.problem (.configuration ("Config file not found: " ++ src.shown) []))
      | none => .ok (i.file .named) := by
  rw [explicit, missing?, file, document, source?]
  cases hnamed : i.named with
  | none => rfl
  | some path =>
    simp only [readNamed_of_readable ((filesRead_iff.mp h).2.2 path hnamed), Option.bind_some]
    cases (i.here.files.find (namedSource path).path).isOk <;> rfl

theorem load_of_filesRead (h : i.FilesRead) :
    i.load =
      match i.missing? with
      | some src => .error (.problem (.configuration ("Config file not found: " ++ src.shown) []))
      | none =>
        ((readEnvironment i.here.environment Setting.all).mapError .problem).bind fun extracted =>
        ofMerged (((((DataTable.update [] (i.file .home)).update (i.file .project)).update
          (i.file .named)).update extracted).update (effective i.overrides)) := by
  obtain ⟨hreadHome, hreadProject, -⟩ := filesRead_iff.mp h
  have hhome : readIfThere i.here.homeFiles (homeSource i.here) = .ok (i.file .home) :=
    readIfThere_of_readable hreadHome
  have hproject : readIfThere i.here.files (projectSource i.here) = .ok (i.file .project) :=
    readIfThere_of_readable hreadProject
  rw [load_eq_bind, hhome, hproject, explicit_of_filesRead h]
  cases i.missing? <;> rfl

theorem load_of_sound (h : i.Sound) :
    i.load =
      match i.missing? with
      | some src => .error (.problem (.configuration ("Config file not found: " ++ src.shown) []))
      | none => ofMerged i.merged := by
  rw [load_of_filesRead h.files, readEnvironment_of_read h.environment]
  cases i.missing? <;> rfl

/-- A variable that is not readable is refused, whatever wins over it. -/
theorem load_of_not_variablesRead (hfiles : i.FilesRead)
    (h : ¬VariablesRead i.here.environment) :
    ∃ fault, i.load = .error fault ∧ fault.IsConfiguration := by
  rw [load_of_filesRead hfiles]
  cases i.missing? with
  | some src => exact ⟨_, rfl, _, rfl, by simp [Problem.kinds]⟩
  | none =>
    obtain ⟨key, text, reason, herror⟩ := readEnvironment_error h
    rw [herror]
    exact ⟨_, rfl, _, rfl, by simp [Problem.kinds]⟩

/-- A file that is not readable is refused. -/
theorem load_of_not_filesRead (h : ¬i.FilesRead) :
    ∃ fault, i.load = .error fault ∧
      ((∀ file files src, i.source? file = some (files, src) →
        files.find src.path ≠ .error .nameTooLong) → fault.IsConfiguration) := by
  by_cases hhome : Readable i.here.homeFiles (homeSource i.here)
  · by_cases hproject : Readable i.here.files (projectSource i.here)
    · have hunread : ∃ path, i.named = some path ∧ ¬Readable i.here.files (namedSource path) := by
        simpa [filesRead_iff, hhome, hproject] using h
      obtain ⟨path, hnamed, hunread⟩ := hunread
      obtain ⟨fault, herror, hfault⟩ := readAt_error hunread
      refine ⟨fault, ?_, fun hnames => hfault (hnames .named _ _ (by rw [source?, hnamed]; rfl))⟩
      rw [load_eq_bind, readIfThere_of_readable hhome, readIfThere_of_readable hproject, explicit,
        hnamed]
      simp only [readNamed, herror]
      rfl
    · obtain ⟨fault, herror, hfault⟩ := readAt_error hproject
      refine ⟨fault, ?_, fun hnames => hfault (hnames .project _ _ rfl)⟩
      rw [load_eq_bind, readIfThere_of_readable hhome, readIfThere, herror]
      rfl
  · obtain ⟨fault, herror, hfault⟩ := readAt_error hhome
    refine ⟨fault, ?_, fun hnames => hfault (hnames .home _ _ rfl)⟩
    rw [load_eq_bind, readIfThere, herror]
    rfl

/-- Settings are loaded only where every file and every variable is readable. -/
theorem sound_of_load {s : Settings} (h : i.load = .ok s) :
    i.Sound ∧ i.missing? = none := by
  have hfiles : i.FilesRead := Classical.byContradiction fun hnot => by
    obtain ⟨fault, herror, -⟩ := load_of_not_filesRead hnot
    rw [herror] at h
    cases h
  have hvariables : VariablesRead i.here.environment := Classical.byContradiction fun hnot => by
    obtain ⟨fault, herror, -⟩ := load_of_not_variablesRead hfiles hnot
    rw [herror] at h
    cases h
  refine ⟨⟨hfiles, hvariables⟩, ?_⟩
  rw [load_of_filesRead hfiles] at h
  cases hmissing : i.missing? with
  | none => rfl
  | some src =>
    rw [hmissing] at h
    cases h

end Files

section Merging

variable {i : Inputs}

theorem get?_file (i : Inputs) (f : SettingsFile) (field : Setting) :
    (i.file f).get? field.name = (i.gives field (.census f)).or (i.gives field (.entry f)) :=
  get?_mergeCensus (i.distinct_document f) field.name

/-- Under the name of a setting is what the strongest of the origins gives it. -/
theorem get?_merged (hnodup : i.overrides.names.Nodup) (field : Setting) :
    i.merged.get? field.name = Origin.all.findSome? (i.gives field) := by
  have hfiles (f : SettingsFile) : (i.file f).names.Nodup :=
    nodup_mergeCensus (i.distinct_document f)
  have hempty : DataTable.get? [] field.name = none := rfl
  rw [merged, DataTable.get?_update _ (nodup_effective hnodup),
    DataTable.get?_update _ nodup_fromEnvironment, DataTable.get?_update _ (hfiles .named),
    DataTable.get?_update _ (hfiles .project), DataTable.get?_update _ (hfiles .home), hempty,
    get?_file, get?_file, get?_file, get?_effective hnodup, get?_fromEnvironment]
  have hcons (o : Origin) (os : List Origin) :
      (o :: os).findSome? (i.gives field) = (i.gives field o).or (os.findSome? (i.gives field)) := by
    rw [List.findSome?_cons]
    cases i.gives field o <;> rfl
  simp only [Origin.all, hcons, List.findSome?_nil, gives, Option.or_assoc]

/-- The strangers of all that is given depend on those of the origins alone. -/
theorem strangers_merged_congr {j : Inputs} (h : ∀ o, i.strangers o = j.strangers o) :
    i.merged.strangers = j.merged.strangers := by
  have hfile (f : SettingsFile) : (i.file f).strangers = (j.file f).strangers := by
    have hcensus := h (.census f)
    have hentry := h (.entry f)
    simp only [strangers] at hcensus hentry
    simp only [file, mergeCensus_eq, DataTable.strangers_update, hcensus, hentry]
  have hgiven := h .override
  simp only [strangers] at hgiven
  simp only [merged, DataTable.strangers_update, hfile, strangers_fromEnvironment, strangers_effective,
    hgiven]

/-- Two inputs with the same strangers, which differ in what they give a setting only where a
stronger origin gives it. -/
structure Alike (i j : Inputs) : Prop where
  missing : i.missing? = j.missing?
  strangers : ∀ o, i.strangers o = j.strangers o
  gives : ∀ (field : Setting) (o : Origin), (∀ p ∈ o.stronger, i.gives field p = none) →
    i.gives field o = j.gives field o

/-- Of two lists of answers that agree unless there is an answer before, the first answers agree. -/
theorem findSome?_congr {α β : Type} [DecidableEq α] {f g : α → Option β} {as : List α}
    (h : ∀ a ∈ as, (∀ b ∈ as.takeWhile (· ≠ a), f b = none) → f a = g a) :
    as.findSome? f = as.findSome? g := by
  induction as with
  | nil => rfl
  | cons a as ih =>
    have hhead : f a = g a := h a List.mem_cons_self (by simp)
    rw [List.findSome?_cons, List.findSome?_cons, ← hhead]
    cases hfa : f a with
    | some d => rfl
    | none =>
      apply ih
      intro b hb hbefore
      apply h b (List.mem_cons_of_mem a hb)
      intro c hc
      by_cases hab : a = b
      · simp [hab] at hc
      · rw [List.takeWhile_cons_of_pos (by simpa using hab), List.mem_cons] at hc
        rcases hc with rfl | hc
        · exact hfa
        · exact hbefore c hc

theorem load_congr {j : Inputs} (hi : i.Sound) (hj : j.Sound) (hnodup : i.overrides.names.Nodup)
    (hnodup' : j.overrides.names.Nodup) (h : Alike i j) : i.load = j.load := by
  rw [load_of_sound hi, load_of_sound hj, h.missing]
  have hmerged : ofMerged i.merged = ofMerged j.merged := by
    apply ofMerged_congr (strangers_merged_congr h.strangers)
    intro field
    rw [get?_merged hnodup, get?_merged hnodup']
    exact findSome?_congr fun o _ => h.gives field o
  rw [hmerged]

theorem values_merged (hnodup : i.overrides.names.Nodup) : values i.merged = ⟨i.winning⟩ := by
  simp only [values, get?_merged hnodup]
  rfl

theorem eq_of_load (hnodup : i.overrides.names.Nodup) {s : Settings} (h : i.load = .ok s) :
    s = ⟨i.winning⟩ := by
  obtain ⟨hsound, hmissing⟩ := sound_of_load h
  rw [load_of_sound hsound, hmissing] at h
  rw [values_of_ofMerged h, values_merged hnodup]

/-- Loaded settings have the value of the strongest origin that gives one, or the default. A variable
that is not readable is refused even where an origin wins over it. Apart from that, what is given by
an origin that another wins over makes no difference. -/
theorem load_takes_strongest (i : Inputs) (hnodup : i.overrides.names.Nodup) :
    (∀ s, i.load = .ok s → ∀ field : Setting, s.get field = i.winning field) ∧
    (i.FilesRead → ¬VariablesRead i.here.environment →
      ∃ fault, i.load = .error fault ∧ fault.IsConfiguration) ∧
    ∀ j : Inputs, j.overrides.names.Nodup → i.Sound → j.Sound → i.Alike j → i.load = j.load := by
  refine ⟨fun s h field => ?_, load_of_not_variablesRead, fun j hnodup' hi hj =>
    load_congr hi hj hnodup hnodup'⟩
  rw [eq_of_load hnodup h]

end Merging

section Samples

/-- Variables, overrides and a file in the working folder, and nothing else. -/
def withFile (environment : List (String × String)) (overrides : DataTable) (content : List UInt8) :
    Inputs :=
  ⟨⟨⟨[(["less-census.toml"], .file content)]⟩, "/w", .empty, ".", "/h", environment⟩, none, overrides⟩

variable {environment : List (String × String)} {overrides : DataTable} {content : List UInt8}

theorem find_withFile :
    (withFile environment overrides content).here.files.find "less-census.toml" =
      .ok (["less-census.toml"], .file content) := by
  refine FileTree.find_of_walk rfl (by decide) ?_ rfl
  have hsteps : Path.steps "less-census.toml" = ["less-census.toml"] := rfl
  rw [hsteps, FileTree.walk.eq_def]
  rfl

theorem missing_withFile : (withFile environment overrides content).missing? = none := rfl

theorem find_withFile_home :
    (withFile environment overrides content).here.homeFiles.find "./.less-census.toml" =
      .error .missing := by
  have hplace : FileTree.empty.place false "./.less-census.toml" =
      .ok (.free [".less-census.toml"]) := by
    have hcheck : FileTree.checkText "./.less-census.toml" = .ok () := rfl
    have hsteps : Path.steps "./.less-census.toml" = [".less-census.toml"] := rfl
    rw [FileTree.place, hcheck, hsteps, FileTree.walk.eq_def]
    rfl
  change FileTree.empty.find "./.less-census.toml" = _
  rw [FileTree.find, hplace]
  rfl

theorem document?_withFile {cs : List Char} {doc : DataTable}
    (hcs : Text.decodeUtf8 content = .ok cs) (hdoc : Toml.read cs = some doc) :
    document? (withFile environment overrides content).here.files
      (projectSource (withFile environment overrides content).here) = some doc := by
  have hread : (withFile environment overrides content).here.files.read "less-census.toml" =
      .ok content := by
    rw [FileTree.read, find_withFile]
    rfl
  change ((withFile environment overrides content).here.files.read "less-census.toml").toOption.bind
    _ = _
  rw [hread]
  change (Text.decodeUtf8 content).toOption.bind _ = _
  rw [hcs]
  exact hdoc

theorem document_withFile (environment : List (String × String)) (overrides : DataTable)
    {cs : List Char} {doc : DataTable} (hcs : Text.decodeUtf8 content = .ok cs)
    (hdoc : Toml.read cs = some doc) :
    (withFile environment overrides content).document .project = doc := by
  change (document? _ _).getD [] = doc
  rw [document?_withFile hcs hdoc]
  rfl

theorem filesRead_withFile (environment : List (String × String)) (overrides : DataTable)
    {cs : List Char} {doc : DataTable} (hcs : Text.decodeUtf8 content = .ok cs)
    (hdoc : Toml.read cs = some doc) :
    (withFile environment overrides content).FilesRead := by
  refine filesRead_iff.mpr ⟨⟨?_, ?_⟩, ⟨?_, ?_⟩, fun path hnamed => by cases hnamed⟩
  · exact ne_of_eq_of_ne find_withFile_home (by simp)
  · intro hok
    cases (congrArg Except.isOk find_withFile_home).symm.trans hok
  · exact ne_of_eq_of_ne find_withFile (by simp)
  · intro _
    rw [document?_withFile hcs hdoc]
    rfl

theorem document_withFile_home : (withFile environment overrides content).document .home = [] := by
  have hdocument : document? (withFile environment overrides content).here.homeFiles
      (homeSource (withFile environment overrides content).here) = none :=
    document?_of_error find_withFile_home
  change (document? _ _).getD [] = []
  rw [hdocument]
  rfl

/-- The bytes of a text in ASCII. -/
def asBytes (cs : List Char) : List UInt8 := cs.map fun c => c.toNat.toUInt8

/-- Two overrides for the verbosity, and a variable with a text. -/
def shadowing (text : String) (content : List UInt8) : Inputs :=
  withFile [("LESS_CENSUS_TOP", text)] [("quiet", .flag true), ("verbosity", .text "loud")] content

theorem missing_shadowing {text : String} : (shadowing text content).missing? = none := rfl

theorem document_shadowing (text : String) {cs : List Char} {doc : DataTable}
    (hcs : Text.decodeUtf8 content = .ok cs) (hdoc : Toml.read cs = some doc) :
    (shadowing text content).document .project = doc :=
  document_withFile _ _ hcs hdoc

theorem document_shadowing_home {text : String} : (shadowing text content).document .home = [] :=
  document_withFile_home

/-- A file that gives more keys than it should, and a weaker value for one that is given twice. -/
def shadowed : List Char := "top=-1\n[census]\nworkers=2".toList

def shadowed' : List Char := "workers=0\n[census]\nworkers=2".toList

theorem lookup_shadowing (text : String) (field : Setting) :
    [("LESS_CENSUS_TOP", text)].lookup field.variableName =
      if field = .top then some text else none := by
  have hname : field = .top ↔ field.variableName = "LESS_CENSUS_TOP" := by
    cases field <;> decide
  rw [List.lookup_cons]
  by_cases h : field = .top
  · rw [if_pos h, beq_iff_eq.mpr (hname.mp h)]
  · rw [if_neg h, beq_eq_false_iff_ne.mpr fun heq => h (hname.mpr heq)]
    rfl

theorem read_five : Setting.top.kind.read "5" = .ok (.integer 5) := rfl

theorem readVariable_shadowing (field : Setting) :
    readVariable [("LESS_CENSUS_TOP", "5")] field =
      if field = .top then some (.integer 5) else none := by
  rw [readVariable, lookup_shadowing]
  split
  · rename_i h
    rw [h, Option.bind_some, read_five]
    rfl
  · rfl

theorem variablesRead_shadowing : VariablesRead (shadowing "5" content).here.environment := by
  intro field text h
  replace h := (lookup_shadowing "5" field).symm.trans h
  split at h
  · rename_i htop
    cases h
    exact ⟨_, htop ▸ read_five⟩
  · cases h

theorem decode_shadowed : Text.decodeUtf8 (asBytes shadowed) = .ok shadowed := rfl

theorem decode_shadowed' : Text.decodeUtf8 (asBytes shadowed') = .ok shadowed' := rfl

theorem read_shadowed :
    Toml.read shadowed =
        some [("top", .integer (-1)), ("census", .table [("workers", .integer 2)])] ∧
      Toml.read shadowed' =
        some [("workers", .integer 0), ("census", .table [("workers", .integer 2)])] := by
  decide +kernel

/-- The parts of the two documents. -/
theorem parts_shadowed :
    let doc : DataTable := [("top", .integer (-1)), ("census", .table [("workers", .integer 2)])]
    let doc' : DataTable := [("workers", .integer 0), ("census", .table [("workers", .integer 2)])]
    Settings.census doc = [("workers", .integer 2)] ∧ entries doc = [("top", .integer (-1))] ∧
      Settings.census doc' = [("workers", .integer 2)] ∧ entries doc' = [("workers", .integer 0)] :=
  ⟨rfl, rfl, rfl, rfl⟩

/-- Only the file in the working folder tells two such inputs apart. -/
theorem gives_shadowing {text : String} {content' : List UInt8} (field : Setting) {o : Origin}
    (hcensus : o ≠ .census .project) (hentry : o ≠ .entry .project) :
    (shadowing text content).gives field o = (shadowing text content').gives field o ∧
      (shadowing text content).strangers o = (shadowing text content').strangers o := by
  match o with
  | .quietFlag | .verboseFlag | .override | .environment => exact ⟨rfl, rfl⟩
  | .census .named | .entry .named => exact ⟨rfl, rfl⟩
  | .census .home | .entry .home => simp only [gives, strangers, document_shadowing_home, and_self]
  | .census .project => exact absurd rfl hcensus
  | .entry .project => exact absurd rfl hentry

theorem alike_shadowing :
    (shadowing "5" (asBytes shadowed)).Alike (shadowing "5" (asBytes shadowed')) := by
  have hdoc := document_shadowing "5" decode_shadowed read_shadowed.1
  have hdoc' := document_shadowing "5" decode_shadowed' read_shadowed.2
  obtain ⟨hcensus, hentries, hcensus', hentries'⟩ := parts_shadowed
  constructor
  · exact missing_shadowing.trans missing_shadowing.symm
  · intro o
    by_cases hc : o = .census .project
    · simp only [hc, strangers, hdoc, hdoc', hcensus, hcensus']
    · by_cases he : o = .entry .project
      · simp only [he, strangers, hdoc, hdoc', hentries, hentries']
        rfl
      · exact (gives_shadowing .top hc he).2
  · intro field o hweaker
    by_cases hc : o = .census .project
    · simp only [hc, gives, hdoc, hdoc', hcensus, hcensus']
    · by_cases he : o = .entry .project
      · subst he
        have htop : field.name ≠ "top" := by
          intro hname
          obtain rfl : field = .top := Setting.name_injective hname
          have hnone := hweaker .environment (by decide)
          have hfive := readVariable_shadowing .top
          cases hfive.symm.trans hnone
        have hworkers : field.name ≠ "workers" := by
          intro hname
          obtain rfl : field = .workers := Setting.name_injective hname
          have hnone := hweaker (.census .project) (by decide)
          simp only [gives, hdoc, hcensus] at hnone
          cases hnone
        simp only [gives, hdoc, hdoc', hentries, hentries', DataTable.get?_cons, if_neg htop,
          if_neg hworkers]
      · exact (gives_shadowing field hc he).1

theorem merged_shadowing (hdoc : (shadowing "5" content).document .project =
      [("top", .integer (-1)), ("census", .table [("workers", .integer 2)])]) :
    (shadowing "5" content).merged =
      [("top", .integer 5), ("workers", .integer 2), ("verbosity", .text "quiet")] := by
  have henvironment : fromEnvironment [("LESS_CENSUS_TOP", "5")] Setting.all =
      [("top", .integer 5)] := by
    simp only [fromEnvironment, readVariable_shadowing]
    rfl
  have hproject : mergeCensus [("top", .integer (-1)), ("census", .table [("workers", .integer 2)])] =
      [("top", .integer (-1)), ("workers", .integer 2)] := rfl
  have hoverrides : effective [("quiet", .flag true), ("verbosity", .text "loud")] =
      [("verbosity", .text "quiet")] := rfl
  have hnamed : (shadowing "5" content).document .named = [] := rfl
  rw [merged, file, file, file, hdoc, hproject, document_shadowing_home, hnamed]
  change (((DataTable.update [] _).update _).update (fromEnvironment [("LESS_CENSUS_TOP", "5")]
    Setting.all)).update (effective [("quiet", .flag true), ("verbosity", .text "loud")]) = _
  rw [henvironment, hoverrides]
  rfl

theorem values_shadowing :
    let t : DataTable := [("top", .integer 5), ("workers", .integer 2), ("verbosity", .text "quiet")]
    ofMerged t = .ok (values t) := by
  intro t
  have hstrangers : t.strangers = [] := rfl
  have hcheck : (values t).check = .ok () := eq_ok_of_isOk (by decide +kernel)
  rw [ofMerged, ofTable_eq, hstrangers, hcheck]
  rfl

/-- The number of top keys is the variable's, the number of workers that of the table in the file, and
the verbosity the flag's. A file with other values for what is shadowed gives the same settings, and
with a variable that is no number there are none. -/
theorem load_takes_strongest_shadowed :
    let i := shadowing "5" (asBytes shadowed)
    let j := shadowing "5" (asBytes shadowed')
    let k := shadowing "x" (asBytes shadowed)
    i.overrides.names.Nodup ∧ i.Sound ∧ j.Sound ∧ i.Alike j ∧ i.load = j.load ∧
      (∃ s, i.load = .ok s ∧ s.get .top = .integer 5 ∧ s.get .workers = .integer 2 ∧
        s.get .verbosity = .text "quiet") ∧
      k.FilesRead ∧ ¬VariablesRead k.here.environment ∧
        ∃ fault, k.load = .error fault ∧ fault.IsConfiguration := by
  intro i j k
  have hnodup : i.overrides.names.Nodup := by decide
  have hdoc := document_shadowing "5" decode_shadowed read_shadowed.1
  have hi : i.Sound :=
    ⟨filesRead_withFile _ _ decode_shadowed read_shadowed.1, variablesRead_shadowing⟩
  have hj : j.Sound :=
    ⟨filesRead_withFile _ _ decode_shadowed' read_shadowed.2, variablesRead_shadowing⟩
  have hk : k.FilesRead := filesRead_withFile _ _ decode_shadowed read_shadowed.1
  have hunread : ¬VariablesRead k.here.environment := by
    intro hread
    obtain ⟨d, hd⟩ := hread .top "x" (lookup_shadowing "x" .top)
    have herror : (Setting.top.kind.read "x").isOk = false := rfl
    rw [hd] at herror
    cases herror
  have hload : i.load = .ok (values i.merged) := by
    rw [load_of_sound hi, missing_shadowing, merged_shadowing hdoc]
    exact values_shadowing
  obtain ⟨hvalues, -, hcongr⟩ := load_takes_strongest i hnodup
  refine ⟨hnodup, hi, hj, alike_shadowing, hcongr j (by decide) hi hj alike_shadowing,
    ⟨_, hload, ?_⟩, hk, hunread, (load_takes_strongest k (by decide)).2.1 hk hunread⟩
  rw [hvalues _ hload, hvalues _ hload, hvalues _ hload, winning, winning, winning,
    ← get?_merged hnodup, ← get?_merged hnodup, ← get?_merged hnodup, merged_shadowing hdoc]
  exact ⟨rfl, rfl, rfl⟩

end Samples

end Inputs

end StyleTally
