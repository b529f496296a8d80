import StyleTally.Proofs.Settings.Precedence

/-!
# Valid settings

Settings that are loaded keep every rule, and what cannot be loaded is a problem of the settings, for
every content of the files, all variables and all overrides. There is one gap: an extension that is
no text is refused by no rule, and comes out as a fault of its own.
-/

namespace StyleTally

section Checks

variable {α ε : Type} {f : α → Except ε Unit} {as : List α}

theorem forM_eq_ok_iff : forM as f = .ok () ↔ ∀ a ∈ as, f a = .ok () := by
  induction as with
  | nil => exact iff_of_true rfl (by simp)
  | cons a as ih =>
    rw [List.forM_cons, List.forall_mem_cons, ← ih]
    cases f a with
    | error fault => exact iff_of_false (by rintro ⟨⟩) (by simp)
    | ok u => exact (and_iff_right rfl).symm

/-- The first check that fails decides. -/
theorem forM_eq_error_iff {fault : ε} :
    forM as f = .error fault ↔
      ∃ before a after, as = before ++ a :: after ∧ (∀ b ∈ before, f b = .ok ()) ∧
        f a = .error fault := by
  constructor
  · intro h
    induction as with
    | nil => cases h
    | cons a as ih =>
      rw [List.forM_cons] at h
      cases ha : f a with
      | error fault' =>
        rw [ha] at h
        cases h
        exact ⟨[], a, as, rfl, by simp, ha⟩
      | ok u =>
        rw [ha] at h
        obtain ⟨before, b, after, rfl, hbefore, hb⟩ := ih h
        exact ⟨a :: before, b, after, rfl, List.forall_mem_cons.mpr ⟨ha, hbefore⟩, hb⟩
  · rintro ⟨before, a, after, rfl, hbefore, ha⟩
    rw [List.forM_append, forM_eq_ok_iff.mpr hbefore, List.forM_cons, ha]
    rfl

end Checks

namespace SettingRule

/-- A text that starts with a point. -/
def IsSuffix (d : Datum) : Prop := ∃ t, d = .text t ∧ Text.startsWith t "." = true

/-- A number that is not below a bound. -/
def IsWithin (b : Bound) (d : Datum) : Prop := b.isBroken? d = some false

/-- What a rule asks of a value. -/
def Keeps (d : Datum) : SettingRule → Prop
  | bounded b => IsWithin b d
  | boundedIfGiven b => d = .nothing ∨ IsWithin b d
  | among choices => ∃ t ∈ choices, d = .text t
  | amongIfGiven choices => d = .nothing ∨ ∃ t ∈ choices, d = .text t
  | suffixes => ∃ members, d.members? = some members ∧ ∀ m ∈ members, IsSuffix m

variable {field : Setting} {d : Datum}

theorem checkBound_eq_ok_iff {b : Bound} : checkBound field b d = .ok () ↔ IsWithin b d := by
  rw [checkBound, IsWithin]
  cases b.isBroken? d with
  | none => simp
  | some broken => cases broken <;> simp

theorem checkChoice_eq_ok_iff {choices : List String} :
    checkChoice field choices d = .ok () ↔ ∃ t ∈ choices, d = .text t := by
  rw [checkChoice.eq_def]
  split
  · rename_i t
    by_cases h : t ∈ choices <;> simp [h]
  · rename_i hd
    simp only [reduceCtorEq, false_iff]
    rintro ⟨t, -, rfl⟩
    exact hd t rfl

theorem checkSuffix_eq_ok_iff : checkSuffix d = .ok () ↔ IsSuffix d := by
  rw [checkSuffix.eq_def, IsSuffix]
  split
  · rename_i t
    by_cases h : Text.startsWith t "." = true <;> simp [h]
  · rename_i hd
    simp only [reduceCtorEq, false_iff]
    rintro ⟨t, rfl, -⟩
    exact hd t rfl

/-- A check accepts the values that keep its rule, and no others. -/
theorem check_eq_ok_iff {rule : SettingRule} : rule.check field d = .ok () ↔ rule.Keeps d := by
  cases rule with
  | bounded b => exact checkBound_eq_ok_iff
  | boundedIfGiven b =>
    by_cases hd : d = .nothing
    · simp [check, Keeps, hd]
    · rw [check, checkBound_eq_ok_iff]
      · exact (or_iff_right hd).symm
      · exact hd
  | among choices => exact checkChoice_eq_ok_iff
  | amongIfGiven choices =>
    by_cases hd : d = .nothing
    · simp [check, Keeps, hd]
    · rw [check, checkChoice_eq_ok_iff]
      · exact (or_iff_right hd).symm
      · exact hd
  | suffixes =>
    rw [check, Keeps]
    cases d.members? with
    | none => simp
    | some members => simp [List.forM_eq_forM, forM_eq_ok_iff, checkSuffix_eq_ok_iff]

/-- A value with a member that is no text, behind texts that start with a point. -/
def HasStray (d : Datum) (kind : String) : Prop :=
  ∃ before m after, d.members? = some (before ++ m :: after) ∧ (∀ b ∈ before, IsSuffix b) ∧
    (∀ t, m ≠ .text t) ∧ m.kindName = kind

theorem checkSuffix_eq_notText_iff {kind : String} :
    checkSuffix d = .error (.notText kind) ↔ (∀ t, d ≠ .text t) ∧ d.kindName = kind := by
  rw [checkSuffix.eq_def]
  split
  · rename_i t
    split <;> simp
  · rename_i hd
    have hne : ∀ t, d ≠ .text t := fun t ht => hd t ht
    simp [hne]

theorem checkBound_ne_notText (field : Setting) (b : Bound) (d : Datum) (kind : String) :
    checkBound field b d ≠ .error (.notText kind) := by
  rw [checkBound]
  split <;> simp

theorem checkChoice_ne_notText (field : Setting) (choices : List String) (d : Datum)
    (kind : String) : checkChoice field choices d ≠ .error (.notText kind) := by
  rw [checkChoice.eq_def]
  split
  · split <;> simp
  · simp

/-- Only the rule for suffixes lets a value fail for its kind. -/
theorem check_eq_notText_iff {rule : SettingRule} {kind : String} :
    rule.check field d = .error (.notText kind) ↔ rule = .suffixes ∧ HasStray d kind := by
  cases rule with
  | bounded b => simp [check, checkBound_ne_notText]
  | boundedIfGiven b =>
    by_cases hd : d = .nothing
    · simp [check, hd]
    · rw [check]
      · simp [checkBound_ne_notText]
      · exact hd
  | among choices => simp [check, checkChoice_ne_notText]
  | amongIfGiven choices =>
    by_cases hd : d = .nothing
    · simp [check, hd]
    · rw [check]
      · simp [checkChoice_ne_notText]
      · exact hd
  | suffixes =>
    rw [check, HasStray]
    cases d.members? with
    | none => simp
    | some members =>
      simp only [List.forM_eq_forM, forM_eq_error_iff, checkSuffix_eq_ok_iff, checkSuffix_eq_notText_iff,
        Option.some.injEq, true_and]

end SettingRule

namespace Settings

/-- Settings that keep every rule. -/
def Valid (s : Settings) : Prop :=
  ∀ (field : Setting) (rule : SettingRule), field.rule? = some rule → rule.Keeps (s.get field)

/-- The settings whose rules are checked before that of the extensions. -/
def beforeExtensions : List Setting := Setting.checked.takeWhile (· ≠ .extensions)

variable {s : Settings}

theorem check_eq (s : Settings) :
    s.check = forM Setting.checked fun field =>
      match field.rule? with
      | some rule => rule.check field (s.get field)
      | none => .ok () :=
  rfl

theorem checked_ok_iff (field : Setting) :
    (match field.rule? with
      | some rule => rule.check field (s.get field)
      | none => .ok ()) = .ok () ↔
      ∀ rule, field.rule? = some rule → rule.Keeps (s.get field) := by
  cases field.rule? with
  | none => simp
  | some rule => simp [SettingRule.check_eq_ok_iff]

theorem check_eq_ok_iff : s.check = .ok () ↔ s.Valid := by
  have hchecked (field : Setting) (rule : SettingRule) (hrule : field.rule? = some rule) :
      field ∈ Setting.checked := by
    cases field <;> first | decide | cases hrule
  rw [check_eq, forM_eq_ok_iff, Valid]
  simp only [checked_ok_iff]
  constructor
  · intro h field rule hrule
    exact h field (hchecked field rule hrule) rule hrule
  · intro h field _
    exact h field

/-- Every default keeps the rule of its setting. -/
theorem standard_valid : standard.Valid :=
  check_eq_ok_iff.mp (eq_ok_of_isOk (by decide +kernel))

/-- A value fails for its kind where the rules before that of the extensions are kept, and a stray
member stands among the extensions. -/
theorem check_eq_notText_iff {kind : String} :
    s.check = .error (.notText kind) ↔
      (∀ field ∈ beforeExtensions, ∀ rule, field.rule? = some rule → rule.Keeps (s.get field)) ∧
        SettingRule.HasStray (s.get .extensions) kind := by
  rw [check_eq, forM_eq_error_iff]
  simp only [checked_ok_iff]
  constructor
  · rintro ⟨before, field, after, hchecked, hbefore, hfield⟩
    cases hrule : field.rule? with
    | none =>
      rw [hrule] at hfield
      cases hfield
    | some rule =>
      rw [hrule] at hfield
      obtain ⟨rfl, hstray⟩ := SettingRule.check_eq_notText_iff.mp hfield
      have hextensions : field = .extensions := by cases field <;> first | rfl | cases hrule
      subst hextensions
      have hnodup : Setting.checked.Nodup := by decide
      have hnot : ∀ other ∈ before, other ≠ .extensions := by
        rw [hchecked, List.nodup_append] at hnodup
        intro other hother
        exact hnodup.2.2 other hother _ List.mem_cons_self
      have hbeforeExtensions : beforeExtensions = before := by
        rw [beforeExtensions, hchecked, List.takeWhile_append_of_pos (by simpa using hnot)]
        simp
      exact ⟨hbeforeExtensions ▸ hbefore, hstray⟩
  · rintro ⟨hbefore, hstray⟩
    refine ⟨beforeExtensions, .extensions, Setting.checked.drop (beforeExtensions.length + 1), by decide,
      hbefore, ?_⟩
    exact SettingRule.check_eq_notText_iff.mpr ⟨rfl, hstray⟩

theorem ofTable_eq_notText_iff {t : DataTable} {kind : String} :
    ofTable t = .error (.notText kind) ↔
      t.strangers = [] ∧ (values t).check = .error (.notText kind) := by
  rw [ofTable_eq]
  cases t.strangers with
  | nil => cases (values t).check <;> simp [Except.map]
  | cons name names =>
    simp only [List.head?_cons]
    split <;> simp

theorem ofMerged_eq_unforeseen_iff {t : DataTable} {kind : String} :
    ofMerged t = .error (.unforeseen (.notText kind)) ↔ ofTable t = .error (.notText kind) := by
  rw [ofMerged]
  cases ofTable t with
  | ok s => simp
  | error fault => cases fault <;> simp

theorem valid_of_ofTable {t : DataTable} (h : ofTable t = .ok s) : s.Valid := by
  have hvalues := values_of_ofTable h
  rw [ofTable_eq] at h
  cases hstrangers : t.strangers with
  | nil =>
    rw [hstrangers] at h
    cases hcheck : (values t).check with
    | error fault =>
      rw [hcheck] at h
      cases h
    | ok u => exact hvalues ▸ check_eq_ok_iff.mp hcheck
  | cons name names =>
    rw [hstrangers] at h
    cases h

/-- A value that keeps the rule of its setting is accepted in any settings that are. -/
theorem ofTable_put {t : DataTable} {s : Settings} {field : Setting} {d : Datum}
    (h : ofTable t = .ok s) (hd : ∀ rule, field.rule? = some rule → rule.Keeps d) :
    ofTable (t.put field.name d) = .ok (s.set field d) := by
  have hvalid := valid_of_ofTable h
  obtain rfl := values_of_ofTable h
  have hvalues : values (t.put field.name d) = (values t).set field d := by
    simp only [values, set, DataTable.get?_put, Settings.mk.injEq]
    funext f
    by_cases hf : f = field
    · rw [if_pos hf, if_pos (congrArg Setting.name hf), Option.getD_some]
    · rw [if_neg hf, if_neg fun hname => hf (Setting.name_injective hname)]
  have hstrangers : (t.put field.name d).strangers = t.strangers := by
    rw [DataTable.strangers, DataTable.unknown_put_of_isSome (by rw [Setting.ofName?_name]; rfl),
      DataTable.strangers]
  have hcheck : ((values t).set field d).check = .ok () := by
    refine check_eq_ok_iff.mpr fun f rule hrule => ?_
    simp only [set]
    split
    · rename_i hf
      exact hd rule (hf ▸ hrule)
    · exact hvalid f rule hrule
  rw [ofTable_eq] at h ⊢
  rw [hstrangers, hvalues, hcheck]
  split at h
  · cases h
  · rfl

/-- Settings are made with every rule kept, or not for a problem of the settings, or not for the kind
of an extension. -/
theorem ofMerged_cases (t : DataTable) :
    (∃ s, ofMerged t = .ok s ∧ s.Valid) ∨
      (∃ fault, ofMerged t = .error fault ∧ fault.IsConfiguration) ∨
      ∃ kind, ofMerged t = .error (.unforeseen (.notText kind)) := by
  rw [ofMerged]
  cases h : ofTable t with
  | ok s => exact .inl ⟨s, rfl, valid_of_ofTable h⟩
  | error fault =>
    cases fault with
    | notText kind => exact .inr (.inr ⟨kind, rfl⟩)
    | _ => exact .inr (.inl ⟨_, rfl, _, rfl, by simp [Problem.kinds]⟩)

end Settings

namespace DataTable

theorem foldl_withName_eq_nil_iff {names start : List String} :
    names.foldl withName start = [] ↔ start = [] ∧ names = [] := by
  induction names generalizing start with
  | nil => simp
  | cons name names ih =>
    have hne : withName start name ≠ [] := by
      rw [withName]
      split
      · rename_i h
        exact List.ne_nil_of_mem h
      · simp
    simp [ih, hne]

end DataTable

namespace Inputs

open Settings

/-- The strangers of all that is given are those of the origins. -/
theorem strangers_merged_eq_nil_iff (i : Inputs) :
    i.merged.strangers = [] ↔ ∀ o, i.strangers o = [] := by
  have hfile (f : SettingsFile) : (i.file f).strangers = [] ↔
      i.strangers (.entry f) = [] ∧ i.strangers (.census f) = [] := by
    rw [file, mergeCensus_eq, DataTable.strangers_update, DataTable.foldl_withName_eq_nil_iff]
    rfl
  have hempty : DataTable.strangers [] = [] := rfl
  simp only [merged, DataTable.strangers_update, DataTable.foldl_withName_eq_nil_iff, hempty, hfile,
    strangers_fromEnvironment, strangers_effective, true_and, and_true]
  constructor
  · rintro ⟨⟨⟨hhome, hproject⟩, hnamed⟩, hgiven⟩ o
    cases o with
    | quietFlag | verboseFlag | environment => rfl
    | override => exact hgiven
    | census f =>
      cases f with
      | named => exact hnamed.2
      | project => exact hproject.2
      | home => exact hhome.2
    | entry f =>
      cases f with
      | named => exact hnamed.1
      | project => exact hproject.1
      | home => exact hhome.1
  · intro h
    exact ⟨⟨⟨⟨h _, h _⟩, h _, h _⟩, h _, h _⟩, h .override⟩

/-- No file of settings has a name that is too long to be looked for. -/
def NamesFit (i : Inputs) : Prop :=
  ∀ file files src, i.source? file = some (files, src) → files.find src.path ≠ .error .nameTooLong

/-- What leads to the fault of an extension that is no text: everything is readable, there is no
stranger, the rules before that of the extensions are kept, and an extension of the kind stands behind
none but texts that start with a point. -/
structure Stray (i : Inputs) (kind : String) : Prop where
  sound : i.Sound
  present : i.missing? = none
  strangers : ∀ o, i.strangers o = []
  before : ∀ field ∈ beforeExtensions, ∀ rule, field.rule? = some rule →
    rule.Keeps (i.winning field)
  extensions : SettingRule.HasStray (i.winning .extensions) kind

theorem load_of_namesFit {i : Inputs} (hnames : i.NamesFit) :
    (∃ fault, i.load = .error fault ∧ fault.IsConfiguration) ∨
      i.Sound ∧ i.missing? = none ∧ i.load = ofMerged i.merged := by
  by_cases hfiles : i.FilesRead
  · by_cases hvariables : VariablesRead i.here.environment
    · have hload := load_of_sound ⟨hfiles, hvariables⟩
      cases hmissing : i.missing? with
      | none =>
        rw [hmissing] at hload
        exact .inr ⟨⟨hfiles, hvariables⟩, rfl, hload⟩
      | some src =>
        rw [hmissing] at hload
        exact .inl ⟨_, hload, _, rfl, by simp [Problem.kinds]⟩
    · exact .inl (load_of_not_variablesRead hfiles hvariables)
  · obtain ⟨fault, hload, hfault⟩ := load_of_not_filesRead hfiles
    exact .inl ⟨fault, hload, hfault hnames⟩

theorem load_eq_unforeseen_iff {i : Inputs} (hnodup : i.overrides.names.Nodup)
    (hnames : i.NamesFit) {kind : String} :
    i.load = .error (.unforeseen (.notText kind)) ↔ i.Stray kind := by
  have hmerged : ofMerged i.merged = .error (.unforeseen (.notText kind)) ↔
      (∀ o, i.strangers o = []) ∧
        (∀ field ∈ beforeExtensions, ∀ rule, field.rule? = some rule →
          rule.Keeps (i.winning field)) ∧
        SettingRule.HasStray (i.winning .extensions) kind := by
    rw [ofMerged_eq_unforeseen_iff, ofTable_eq_notText_iff, strangers_merged_eq_nil_iff,
      check_eq_notText_iff, values_merged hnodup]
  constructor
  · intro h
    rcases load_of_namesFit hnames with ⟨fault, hload, p, rfl, -⟩ | ⟨hsound, hmissing, hload⟩
    · rw [h] at hload
      cases hload
    · rw [hload] at h
      obtain ⟨hstrangers, hbefore, hextensions⟩ := hmerged.mp h
      exact ⟨hsound, hmissing, hstrangers, hbefore, hextensions⟩
  · intro h
    rw [load_of_sound h.sound, h.present]
    exact hmerged.mpr ⟨h.strangers, h.before, h.extensions⟩

/-- Settings are loaded with every rule kept, or not for a problem of the settings, or not for the
kind of an extension. -/
theorem load_cases {i : Inputs} (hnames : i.NamesFit) :
    (∃ s, i.load = .ok s ∧ s.Valid) ∨
      (∃ fault, i.load = .error fault ∧ fault.IsConfiguration) ∨
      ∃ kind, i.load = .error (.unforeseen (.notText kind)) := by
  rcases load_of_namesFit hnames with hrefused | ⟨-, -, hload⟩
  · exact .inr (.inl hrefused)
  · exact hload ▸ ofMerged_cases i.merged

/-- Settings that are loaded keep every rule, and what is refused is a problem of the settings. The
one exception is an extension that is no text: where it takes the checks by surprise, and nowhere
else, the fault is the kind of that extension. -/
theorem load_valid_or_refused (i : Inputs) (hnodup : i.overrides.names.Nodup)
    (hnames : i.NamesFit) :
    (∀ s, i.load = .ok s → s.Valid) ∧
    (∀ fault, i.load = .error fault →
      fault.IsConfiguration ∨ ∃ kind, fault = .unforeseen (.notText kind)) ∧
    ∀ kind, i.load = .error (.unforeseen (.notText kind)) ↔ i.Stray kind := by
  have hcases := load_cases hnames
  refine ⟨fun s h => ?_, fun fault h => ?_, fun kind => load_eq_unforeseen_iff hnodup hnames⟩
  · rw [h] at hcases
    simpa using hcases
  · rw [h] at hcases
    simpa using hcases

section Samples

variable {content : List UInt8} {cs : List Char} {doc : DataTable}
  (hcs : Text.decodeUtf8 content = .ok cs) (hdoc : Toml.read cs = some doc)
include hcs hdoc

theorem merged_withFile :
    (withFile [] [] content).merged = DataTable.update [] (mergeCensus doc) := by
  have hproject := document_withFile [] [] hcs hdoc
  have hnamed : (withFile [] [] content).document .named = [] := rfl
  rw [merged, file, file, file, hproject, document_withFile_home, hnamed]
  rfl

theorem load_withFile :
    (withFile [] [] content).load = ofMerged (DataTable.update [] (mergeCensus doc)) := by
  have hsound : (withFile [] [] content).Sound :=
    ⟨filesRead_withFile [] [] hcs hdoc, fun field text h => by cases h⟩
  rw [load_of_sound hsound, missing_withFile, merged_withFile hcs hdoc]

theorem namesFit_withFile : (withFile [] [] content).NamesFit := fun file files src hsource =>
  (filesRead_withFile [] [] hcs hdoc file files src hsource).name

end Samples

/-- A number of keys below its bound is refused as a problem of the settings. -/
theorem load_valid_or_refused_below :
    let i := withFile [] [] (asBytes "top=-1".toList)
    i.overrides.names.Nodup ∧ i.NamesFit ∧ ∃ fault, i.load = .error fault ∧ fault.IsConfiguration := by
  intro i
  have hcs : Text.decodeUtf8 (asBytes "top=-1".toList) = .ok "top=-1".toList := rfl
  have hdoc : Toml.read "top=-1".toList = some [("top", .integer (-1))] := by decide +kernel
  have hnodup : i.overrides.names.Nodup := List.nodup_nil
  have hnames : i.NamesFit := namesFit_withFile hcs hdoc
  refine ⟨hnodup, hnames, ?_⟩
  obtain ⟨hvalid, hrefused, hstray⟩ := load_valid_or_refused i hnodup hnames
  have hmerged : i.merged = [("top", .integer (-1))] := merged_withFile hcs hdoc
  have hwinning : (⟨i.winning⟩ : Settings) = values [("top", .integer (-1))] :=
    hmerged ▸ (values_merged hnodup).symm
  cases hload : i.load with
  | ok s =>
    have htop := hvalid s hload .top _ rfl
    rw [eq_of_load hnodup hload, hwinning] at htop
    cases htop
  | error fault =>
    rcases hrefused fault hload with hconfiguration | ⟨kind, rfl⟩
    · exact ⟨fault, rfl, hconfiguration⟩
    · obtain ⟨before, m, after, hmembers, -⟩ := ((hstray kind).mp hload).extensions
      change (Settings.get ⟨i.winning⟩ .extensions).members? = _ at hmembers
      rw [hwinning] at hmembers
      have hnil : [] = before ++ m :: after := Option.some.inj hmembers
      simp at hnil

/-- A number among the extensions comes out as a fault of its own. -/
theorem load_stray_number :
    (withFile [] [] (asBytes "extensions = [1]\n".toList)).load =
      .error (.unforeseen (.notText "int")) := by
  have hcs : Text.decodeUtf8 (asBytes "extensions = [1]\n".toList) =
      .ok "extensions = [1]\n".toList := rfl
  have hdoc : Toml.read "extensions = [1]\n".toList = some [("extensions", .list [.integer 1])] := by
    decide +kernel
  rw [load_withFile hcs hdoc, ofMerged_eq_unforeseen_iff, ofTable_eq_notText_iff,
    check_eq_notText_iff]
  refine ⟨rfl, fun field hfield rule hrule => ?_, [], .integer 1, [], rfl, by simp, by simp, rfl⟩
  have hne : field ≠ .extensions := by
    rintro rfl
    exact absurd hfield (by decide)
  have hdefault : (values (DataTable.update [] (mergeCensus
      [("extensions", .list [.integer 1])]))).get field = field.default := by
    cases field <;> first | exact absurd rfl hne | rfl
  rw [hdefault]
  exact standard_valid field rule hrule

end Inputs

end StyleTally
