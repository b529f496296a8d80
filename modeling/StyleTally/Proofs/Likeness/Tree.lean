import Mathlib.Data.List.Forall2
import StyleTally.Stylesheet.Tree

/-!
# Trees that are alike

Two trees are alike when they have the same shape and agree in all but the texts that the grammar
cuts from the source as they stand. `X` relates such texts, for each kind of excerpt.
-/

namespace StyleTally.Stylesheet

/-- What a text is cut from the source for. -/
inductive Excerpt where
  /-- The name of a declaration. -/
  | property
  /-- A pseudo-class or pseudo-element, with its argument. -/
  | pseudo
  /-- What stands between an at-rule and its body. -/
  | prelude
  /-- The operator of an attribute test. -/
  | signs
  /-- Words in brackets, with the brackets. -/
  | brackets
  deriving DecidableEq

section Trees

variable {X : Excerpt → String → String → Prop}

theorem eq_of_forall₂ {α : Type} {R : α → α → Prop} (hR : ∀ {a b}, R a b → a = b) {as bs : List α}
    (h : List.Forall₂ R as bs) : as = bs := by
  induction h with
  | nil => rfl
  | cons hab _ ih => rw [hR hab, ih]

theorem eq_of_rel {α : Type} {R : α → α → Prop} (hR : ∀ {a b}, R a b → a = b) {a b : Option α}
    (h : Option.Rel R a b) : a = b := by
  cases h with
  | none => rfl
  | some h => rw [hR h]

namespace Value

variable (X) in
mutual

/-- Values that differ in nothing but texts cut from the source. -/
inductive Like : Value → Value → Prop
  | same (v : Value) : Like v v
  | signs {s t : String} (h : X .signs s t) : Like (.keyword s) (.keyword t)
  | brackets {s t : String} (h : X .brackets s t) : Like (.keyword s) (.keyword t)
  | call {name : String} {as bs : List Value} (h : LikeAll as bs) :
      Like (.call name as) (.call name bs)
  | assignment {name : String} {v w : Value} (h : Like v w) :
      Like (.assignment name v) (.assignment name w)
  | expression {as bs : List Value} (h : LikeAll as bs) : Like (.expression as) (.expression bs)
  | expressionList {as bs : List Value} (h : LikeAll as bs) :
      Like (.expressionList as) (.expressionList bs)
  | operation {op : Operator} {l m r s : Value} (hl : Like l m) (hr : Like r s) :
      Like (.operation op l r) (.operation op m s)
  | shorthand {l m r s : Value} (hl : Like l m) (hr : Like r s) :
      Like (.shorthand l r) (.shorthand m s)
  | paren {v w : Value} (h : Like v w) : Like (.paren v) (.paren w)
  | negative {v w : Value} (h : Like v w) : Like (.negative v) (.negative w)
  | condition {v w : Value} {negated : Bool} (h : Like v w) :
      Like (.condition v negated) (.condition w negated)
  | feature {name : String} {v w : Value} (h : Like v w) :
      Like (.feature name (some v)) (.feature name (some w))

inductive LikeAll : List Value → List Value → Prop
  | nil : LikeAll [] []
  | cons {v w : Value} {vs ws : List Value} (h : Like v w) (hs : LikeAll vs ws) :
      LikeAll (v :: vs) (w :: ws)

end

theorem LikeAll.of_forall₂ {vs ws : List Value} (h : List.Forall₂ (Like X) vs ws) :
    LikeAll X vs ws := by
  induction h with
  | nil => exact .nil
  | cons hv _ ih => exact .cons hv ih

mutual

theorem Like.eq_of_text (hX : ∀ {k s t}, X k s t → s = t) {v w : Value} (h : Like X v w) : v = w := by
  cases h with
  | same v => rfl
  | signs h => rw [hX h]
  | brackets h => rw [hX h]
  | call h => rw [h.eq_of_text hX]
  | assignment h => rw [h.eq_of_text hX]
  | expression h => rw [h.eq_of_text hX]
  | expressionList h => rw [h.eq_of_text hX]
  | operation hl hr => rw [hl.eq_of_text hX, hr.eq_of_text hX]
  | shorthand hl hr => rw [hl.eq_of_text hX, hr.eq_of_text hX]
  | paren h => rw [h.eq_of_text hX]
  | negative h => rw [h.eq_of_text hX]
  | condition h => rw [h.eq_of_text hX]
  | feature h => rw [h.eq_of_text hX]

theorem LikeAll.eq_of_text (hX : ∀ {k s t}, X k s t → s = t) {vs ws : List Value}
    (h : LikeAll X vs ws) : vs = ws := by
  cases h with
  | nil => rfl
  | cons h hs => rw [h.eq_of_text hX, hs.eq_of_text hX]

end

end Value

namespace Part

variable (X) in
inductive Like : Part → Part → Prop
  | same (p : Part) : Like p p
  | text {s t : String} (h : X .pseudo s t) : Like (.text s) (.text t)
  | parts {as bs : List Value} (h : Value.LikeAll X as bs) : Like (.attribute as) (.attribute bs)

theorem Like.eq_of_text (hX : ∀ {k s t}, X k s t → s = t) {p q : Part} (h : Like X p q) : p = q := by
  cases h with
  | same p => rfl
  | text h => rw [hX h]
  | parts h => rw [h.eq_of_text hX]

end Part

section Parts

variable (X)

/-- Elements with like parts and the same combinator. -/
def Element.Like (e f : Element) : Prop := Part.Like X e.part f.part ∧ e.combinator = f.combinator

def Selector.Like (s t : Selector) : Prop := List.Forall₂ (Element.Like X) s t

def Parameter.Like (p q : Parameter) : Prop :=
  p.name = q.name ∧ Option.Rel (Value.Like X) p.value q.value ∧ p.variadic = q.variadic

def Argument.Like (a b : Argument) : Prop := Value.Like X a.value b.value ∧ a.name = b.name

def Arguments.Like (a b : Arguments) : Prop :=
  List.Forall₂ (Argument.Like X) a.items b.items ∧ a.delimiter = b.delimiter

end Parts

section Equal

variable (hX : ∀ {k s t}, X k s t → s = t)
include hX

theorem Element.Like.eq_of_text {e f : Element} (h : Element.Like X e f) : e = f := by
  obtain ⟨p, c⟩ := e
  obtain ⟨q, d⟩ := f
  obtain ⟨hp, hc⟩ := h
  have hpq : p = q := Part.Like.eq_of_text hX hp
  have hcd : c = d := hc
  rw [hpq, hcd]

theorem Selector.Like.eq_of_text {s t : Selector} (h : Selector.Like X s t) : s = t :=
  eq_of_forall₂ (Element.Like.eq_of_text hX) h

theorem Parameter.Like.eq_of_text {p q : Parameter} (h : Parameter.Like X p q) : p = q := by
  obtain ⟨name, v, variadic⟩ := p
  obtain ⟨name', w, variadic'⟩ := q
  obtain ⟨hn, hv, hr⟩ := h
  have hvw : v = w := eq_of_rel (Value.Like.eq_of_text hX) hv
  simp_all

theorem Argument.Like.eq_of_text {a b : Argument} (h : Argument.Like X a b) : a = b := by
  obtain ⟨v, name⟩ := a
  obtain ⟨w, name'⟩ := b
  obtain ⟨hv, hn⟩ := h
  have hvw : v = w := Value.Like.eq_of_text hX hv
  simp_all

theorem Arguments.Like.eq_of_text {a b : Arguments} (h : Arguments.Like X a b) : a = b := by
  obtain ⟨items, delimiter⟩ := a
  obtain ⟨items', delimiter'⟩ := b
  obtain ⟨hi, hd⟩ := h
  have hab : items = items' := eq_of_forall₂ (Argument.Like.eq_of_text hX) hi
  simp_all

end Equal

namespace Statement

variable (X) in
mutual

/-- Statements that differ in nothing but texts cut from the source. -/
inductive Like : Statement → Statement → Prop
  | empty : Like .empty .empty
  | declaration {s t : String} {v w : Option Value} {important : Bool} (hs : X .property s t)
      (hv : Option.Rel (Value.Like X) v w) :
      Like (.declaration s v important) (.declaration t w important)
  | definition {name : String} {v w : Value} {important : Bool} (hv : Value.Like X v w) :
      Like (.definition name v important) (.definition name w important)
  | ruleset {as bs : List Selector} {g k : Option (List Value)} {ss ts : List Statement}
      (hs : List.Forall₂ (Selector.Like X) as bs) (hg : Option.Rel (Value.LikeAll X) g k)
      (hb : LikeAll ss ts) : Like (.ruleset as g ss) (.ruleset bs k ts)
  | mixin {name : String} {ps qs : List Parameter} {g k : Option (List Value)}
      {ss ts : List Statement} (hp : List.Forall₂ (Parameter.Like X) ps qs)
      (hg : Option.Rel (Value.LikeAll X) g k) (hb : LikeAll ss ts) :
      Like (.mixin name ps g ss) (.mixin name qs k ts)
  | mixinCall {s t : Selector} {a b : Option Arguments} {important : Bool}
      (hs : Selector.Like X s t) (ha : Option.Rel (Arguments.Like X) a b) :
      Like (.mixinCall s a important) (.mixinCall t b important)
  | media {f g : Option (List Value)} {ss ts : List Statement}
      (hf : Option.Rel (Value.LikeAll X) f g) (hb : LikeAll ss ts) :
      Like (.media f ss) (.media g ts)
  | blockDirective {name s t : String} {ss ts : List Statement} (hs : X .prelude s t)
      (hb : LikeAll ss ts) : Like (.blockDirective name s ss) (.blockDirective name t ts)
  | directive {name : String} {v w : Option Value} (hv : Option.Rel (Value.Like X) v w) :
      Like (.directive name v) (.directive name w)
  | block {name : Option String} {ss ts : List Statement} (hb : LikeAll ss ts) :
      Like (.block name ss) (.block name ts)
  | imported {v w : Value} {f g : Option (List Value)} {options : List String}
      (hv : Value.Like X v w) (hf : Option.Rel (Value.LikeAll X) f g) :
      Like (.imported v f options) (.imported w g options)
  | extend {as bs : List Selector} {all : Bool} (hs : List.Forall₂ (Selector.Like X) as bs) :
      Like (.extend as all) (.extend bs all)

inductive LikeAll : List Statement → List Statement → Prop
  | nil : LikeAll [] []
  | cons {s t : Statement} {ss ts : List Statement} (h : Like s t) (hs : LikeAll ss ts) :
      LikeAll (s :: ss) (t :: ts)

end

mutual

theorem Like.eq_of_text (hX : ∀ {k s t}, X k s t → s = t) {s t : Statement} (h : Like X s t) :
    s = t := by
  have hvs {vs ws : Option (List Value)} : Option.Rel (Value.LikeAll X) vs ws → vs = ws :=
    eq_of_rel (Value.LikeAll.eq_of_text hX)
  have hv? {v w : Option Value} : Option.Rel (Value.Like X) v w → v = w :=
    eq_of_rel (Value.Like.eq_of_text hX)
  have hss {as bs : List Selector} : List.Forall₂ (Selector.Like X) as bs → as = bs :=
    eq_of_forall₂ (Selector.Like.eq_of_text hX)
  cases h with
  | empty => rfl
  | declaration hs hv => rw [hX hs, hv? hv]
  | definition hv => rw [hv.eq_of_text hX]
  | ruleset hs hg hb => rw [hss hs, hvs hg, hb.eq_of_text hX]
  | mixin hp hg hb =>
    rw [eq_of_forall₂ (Parameter.Like.eq_of_text hX) hp, hvs hg, hb.eq_of_text hX]
  | mixinCall hs ha =>
    rw [Selector.Like.eq_of_text hX hs, eq_of_rel (Arguments.Like.eq_of_text hX) ha]
  | media hf hb => rw [hvs hf, hb.eq_of_text hX]
  | blockDirective hs hb => rw [hX hs, hb.eq_of_text hX]
  | directive hv => rw [hv? hv]
  | block hb => rw [hb.eq_of_text hX]
  | imported hv hf => rw [hv.eq_of_text hX, hvs hf]
  | extend hs => rw [hss hs]

theorem LikeAll.eq_of_text (hX : ∀ {k s t}, X k s t → s = t) {ss ts : List Statement}
    (h : LikeAll X ss ts) : ss = ts := by
  cases h with
  | nil => rfl
  | cons h hs => rw [h.eq_of_text hX, hs.eq_of_text hX]

end

end Statement

end Trees

end StyleTally.Stylesheet
