import StyleTally.Settings.Field

/-!
# Settings

A value for every setting. Values are made from a table: a name that is no setting is refused, a
setting that is missing has its default, and then every rule is checked.
-/

namespace StyleTally

structure Settings where
  get : Setting → Datum

namespace Settings

def standard : Settings := ⟨Setting.default⟩

def set (s : Settings) (field : Setting) (d : Datum) : Settings :=
  ⟨fun f => if f = field then d else s.get f⟩

instance : Inhabited Settings := ⟨standard⟩

def check (s : Settings) : Except SettingFault Unit :=
  Setting.checked.forM fun field =>
    match field.rule? with
    | some rule => rule.check field (s.get field)
    | none => .ok ()

def ofTable (t : DataTable) : Except SettingFault Settings :=
  match t.find? fun (name, _) => (Setting.ofName? name).isNone with
  | some (name, _) =>
    .error (if name = Setting.wholeName then .takenName name else .unknownName name)
  | none => do
    let s : Settings := ⟨fun field => (t.get? field.name).getD field.default⟩
    s.check
    return s

def text? (s : Settings) (field : Setting) : Option String :=
  match s.get field with
  | .text t => some t
  | _ => none

end Settings

end StyleTally
