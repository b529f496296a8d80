import StyleTally.Stylesheet.Node
import StyleTally.Text.Markup
import StyleTally.Text.Quoted

/-!
# Outlines

An outline shows a syntax tree as labels. The label of a node holds its kind and its fields, except
those that are empty, false or absent; labels carry console markup.
-/

namespace StyleTally.Stylesheet

inductive Outline where
  | entry (label : String) (branches : List Outline)
  deriving Repr

namespace Outline

def hole : Outline := entry "[dim]<hole>[/dim]" []

end Outline

/-- The text of a field in a label, if the field is shown. -/
def Scalar.shown? : Scalar → Option String
  | absent | flag false => none
  | text s => if s.isEmpty then none else some (Text.quoted s)
  | flag true => some "True"
  | integer n => some (Text.decimal n)
  | real x => some (Decimal.general x)

def Field.shown? : Field → Option String
  | scalar a => a.shown?
  | _ => none

namespace Node

def label (n : Node) : String :=
  let parts := n.fields.filterMap fun (name, field) =>
    field.shown?.map fun shown => name ++ "=" ++ shown
  let attributes :=
    if parts.isEmpty then ""
    else " [dim]" ++ Text.Markup.escape (String.intercalate " " parts) ++ "[/dim]"
  "[cyan]" ++ n.kind ++ "[/cyan]" ++ attributes

mutual

def outline (n : Node) : Outline := .entry n.label (outlines n.children)
termination_by (n.weight, 0)
decreasing_by exact Prod.Lex.left _ _ (weights_children_lt n)

def outlines (ns : List (Option Node)) : List Outline :=
  match ns with
  | [] => []
  | none :: ns => .hole :: outlines ns
  | some n :: ns => outline n :: outlines ns
termination_by (weights ns, ns.length)
decreasing_by
  · simp only [weights_cons, weight?_none, Nat.zero_add]
    exact Prod.Lex.right _ (by simp)
  · simp only [weights_cons, weight?_some, Prod.lex_def]
    simp
    omega
  · simp only [weights_cons, weight?_some, Prod.lex_def]
    simp
    omega

end

end Node

/-- The lines of a tree drawing; every line starts with the guides of the levels above it. -/
def Outline.lines (o : Outline) : List String :=
  match o with
  | .entry label branches => label :: branchLines branches
where
  branchLines : List Outline → List String
    | [] => []
    | o :: os =>
      let (first, rest) := if os.isEmpty then ("└── ", "    ") else ("├── ", "│   ")
      let drawn :=
        match o.lines with
        | [] => []
        | l :: ls => (first ++ l) :: ls.map (rest ++ ·)
      drawn ++ branchLines os

end StyleTally.Stylesheet
