import StyleTally.Proofs.Likeness.Range
import StyleTally.Proofs.Report.Numeral
import StyleTally.Proofs.Tally.Balance

/-!
# Keys on one line

A key stands on one line unless it was cut from the stylesheet as it stands. Three sections count
such excerpts. Everything else that a node leaves is a tag, a number, a color or a name, so a tree
leaves fitting marks as soon as its names stand on one line.
-/

namespace StyleTally

open Stylesheet

/-- The section that counts an excerpt. What stands in front of the body of an at-rule is in none. -/
def Stylesheet.Excerpt.part? : Excerpt → Option Section
  | property => some .properties
  | pseudo => some .elements
  | signs | brackets => some .keywords
  | prelude => none

namespace Mark

/-- The key is an excerpt from the tokens, of a kind that the section counts. -/
def Cut (all : List Token) (m : Mark) : Prop :=
  ∃ (kind : Excerpt) (us : List Token), kind.part? = some m.part ∧ kind.Spans us ∧ us <:+: all ∧
    m.key = Grammar.textOf us

/-- A key on one line, or one that was cut. -/
def Fits (all : List Token) (m : Mark) : Prop := '\n' ∉ m.key.toList ∨ m.Cut all

end Mark

section OneLine

theorem Text.feed_not_mem_decimal (n : Int) : '\n' ∉ (decimal n).toList :=
  Json.not_mem_decimal (by decide) (by decide) n

theorem Text.feed_not_mem_of_isWhole {cs : List Char} (h : IsWhole cs) : '\n' ∉ cs := by
  obtain rfl | ⟨-, -, -, -, hdigits⟩ := h
  · decide
  · exact not_mem_of_isDigit (by decide) hdigits

theorem Text.feed_not_mem_of_isTail {cs : List Char} (h : IsTail cs) : '\n' ∉ cs := by
  have hplaces {ps : List Char} (hps : IsDigits ps) : '\n' ∉ '.' :: ps := by
    simp [not_mem_of_isDigit (by decide : Char.isDigit '\n' = false) hps.2]
  have hpower {sign : Char} {ds : List Char} (hsign : sign = '+' ∨ sign = '-')
      (hds : IsDigits ds) : '\n' ∉ 'e' :: sign :: ds := by
    have hdigits := not_mem_of_isDigit (by decide : Char.isDigit '\n' = false) hds.2
    rcases hsign with rfl | rfl <;> simp [hdigits]
  cases h with
  | places hps => exact hplaces hps
  | power hsign hds => exact hpower hsign hds
  | both hps hsign hds =>
    rw [List.mem_append, not_or]
    exact ⟨hplaces hps, hpower hsign hds⟩

theorem Decimal.feed_not_mem_signed {negative : Bool} {cs : List Char} (h : '\n' ∉ cs) :
    '\n' ∉ (signed negative cs).toList := by
  cases negative <;> simpa [signed] using h

theorem Decimal.feed_not_mem_plain (x : Binary64) : '\n' ∉ (plain x).toList := by
  rw [plain]
  split
  · exact Text.feed_not_mem_decimal _
  · cases x with
    | nan => decide
    | infinite negative => exact feed_not_mem_signed (by decide)
    | finite negative m e =>
      obtain ⟨whole, tail, htext, hwhole, htail⟩ := magnitudeText_parts m e
      rw [general, htext]
      refine feed_not_mem_signed ?_
      rw [List.mem_append, not_or]
      exact ⟨Text.feed_not_mem_of_isWhole hwhole, Text.feed_not_mem_of_isTail htail⟩

namespace Stylesheet.Color

theorem feed_not_mem_hexDigits (n : Nat) : '\n' ∉ Nat.toDigits 16 n := by
  induction n using Nat.strongRecOn with
  | ind n ih =>
    by_cases hn : n < 16
    · simp [Nat.toDigits_of_lt_base hn]
    · rw [Nat.toDigits_of_base_le (by decide) (by omega), List.mem_append, not_or]
      exact ⟨ih _ (by omega), by simp⟩

theorem feed_not_mem_channelChars (n : Int) : '\n' ∉ channelChars n := by
  have hpadded (width : Nat) : '\n' ∉ Text.padLeft width '0' (Nat.toDigits 16 n.natAbs) := by
    simp [Text.padLeft, feed_not_mem_hexDigits]
  rw [channelChars]
  split
  · simp [hpadded]
  · exact hpadded 2

theorem feed_not_mem_render (c : Color) : '\n' ∉ c.render.toList := by
  have hchannels : '\n' ∉ c.channelsText := by
    simp [channelsText, feed_not_mem_channelChars]
  unfold render
  split
  · simp [toString, Text.feed_not_mem_decimal, Decimal.feed_not_mem_plain]
  · split
    · rename_i htext
      rw [htext] at hchannels
      split <;> simp_all
    · simpa using hchannels

end Stylesheet.Color

end OneLine

namespace Mark

variable {all : List Token} {n : Node} {found : Findings}

/-- No tag holds a line feed. -/
theorem tag_oneLine (h : Findings.of? n = some found) :
    ∀ m ∈ found.marks, m.part = .nodes → '\n' ∉ m.key.toList := by
  have hvalue (v : Value) : ∀ m ∈ (Findings.ofValue v).marks, m.part = .nodes →
      '\n' ∉ m.key.toList := by
    cases v with
    | dimension x unit =>
      simp only [Findings.ofValue, Findings.keyed]
      cases unit.isEmpty <;> simp [tag]
    -- The one tag that is no fixed word holds the name of its operator.
    | operation op l r => cases op <;> simp [Findings.ofValue, Findings.tagged, tag, Operator.name]
    | _ => simp [Findings.ofValue, Findings.tagged, Findings.keyed, tag]
  cases n with
  | sheet | block => cases h
  | value v =>
    obtain rfl := Option.some.inj h
    exact hvalue v
  | statement s =>
    cases s <;> cases h <;> simp [Findings.tagged, tag]
  | element e =>
    obtain rfl := Option.some.inj h
    obtain ⟨part, combinator⟩ := e
    cases part <;> simp [Findings.ofElement, Findings.tagged, Findings.keyed, tag]
  | _ =>
    obtain rfl := Option.some.inj h
    simp [Findings.tagged, Findings.keyed, tag]

end Mark

namespace Stylesheet

variable {all : List Token}

/-- A node that leaves fitting marks only, with all nodes that it hands on. -/
def Node.Fit (all : List Token) (n : Node) : Prop := ∀ m ∈ Mark.ofNodes [some n], m.Fits all

theorem Mark.fits_ofNodes {stack : List (Option Node)} :
    (∀ m ∈ Mark.ofNodes stack, m.Fits all) ↔ ∀ n, some n ∈ stack → n.Fit all := by
  induction stack with
  | nil => simp [Mark.ofNodes]
  | cons n? stack ih =>
    rw [Mark.ofNodes_cons, List.forall_mem_append, ih]
    cases n? with
    | none => simp [Mark.ofNodes_none]
    | some n =>
      simp only [List.mem_cons, Option.some.injEq, forall_eq_or_imp]
      rfl

/-- A node fits if its keys do and the nodes that it hands on. -/
theorem Node.Fit.of_next {n : Node} {found : Findings} (h : Findings.of? n = some found)
    (hkeys : ∀ m ∈ found.marks, m.part ≠ .nodes → m.Fits all)
    (hnext : ∀ m, some m ∈ found.next → m.Fit all) : n.Fit all := by
  rw [Node.Fit, Mark.ofNodes_some h, List.forall_mem_append]
  refine ⟨fun m hm => ?_, Mark.fits_ofNodes.mpr hnext⟩
  by_cases hpart : m.part = .nodes
  · exact .inl (Mark.tag_oneLine h m hm hpart)
  · exact hkeys m hm hpart

/-- A node without keys of its own. -/
theorem Node.Fit.of_tagged {n : Node} {kind : String} {next : List (Option Node)}
    (h : Findings.of? n = some (.tagged kind next)) (hnext : ∀ m, some m ∈ next → m.Fit all) :
    n.Fit all :=
  .of_next h (by simp [Findings.tagged, Mark.tag]) hnext

/-- A node with one key and no nodes to hand on. -/
theorem Node.Fit.of_keyed {n : Node} {kind key : String} {part : Section}
    (h : Findings.of? n = some (.keyed kind part key)) (hkey : Mark.Fits all ⟨part, key⟩) :
    n.Fit all :=
  .of_next h (by simp [Findings.keyed, Mark.tag, hkey]) (by simp [Findings.keyed])

/-- Nodes that are handed on one for each member of a list. -/
theorem Node.Fit.of_map {α : Type} {node : α → Node} {as : List α}
    (h : ∀ a ∈ as, (node a).Fit all) : ∀ m, some m ∈ as.map (fun a => some (node a)) → m.Fit all := by
  intro m hm
  obtain ⟨a, ha, heq⟩ := List.mem_map.mp hm
  cases heq
  exact h a ha

/-- A value that leaves fitting marks only. -/
abbrev Value.Fit (all : List Token) (v : Value) : Prop := Node.Fit all (.value v)

namespace Value.Fit

variable {name text : String} {v w l r : Value} {vs : List Value}

theorem of_valueNodes (h : ∀ v ∈ vs, v.Fit all) :
    ∀ m, some m ∈ Findings.valueNodes vs → m.Fit all :=
  Node.Fit.of_map h

theorem var {form : Reference} (h : '\n' ∉ name.toList) : (var name form).Fit all :=
  .of_keyed rfl (.inl h)

theorem dimension (x : Binary64) (h : '\n' ∉ text.toList) : (dimension x text).Fit all := by
  refine .of_keyed rfl (.inl ?_)
  simp [h, Decimal.feed_not_mem_plain]

theorem colorName (h : '\n' ∉ text.toList) : (colorName text).Fit all := by
  have hkeyword : Mark.Fits all ⟨.keywords, text⟩ := .inl h
  have hcolor : Mark.Fits all ⟨.colorKeywords, text⟩ := .inl h
  exact .of_next rfl (by simp [Findings.ofValue, Mark.tag, hkeyword, hcolor])
    (by simp [Findings.ofValue])

theorem color (c : Color) : (color c).Fit all := .of_keyed rfl (.inl (Color.feed_not_mem_render c))

theorem keyword (h : Mark.Fits all ⟨.keywords, text⟩) : (keyword text).Fit all := .of_keyed rfl h

theorem truth {holds : Bool} (h : '\n' ∉ text.toList) : (truth holds text).Fit all :=
  .of_keyed rfl (.inl h)

theorem quoted (text : String) (quote : Char) (escaped : Bool) :
    (quoted text quote escaped).Fit all :=
  .of_tagged rfl (by simp)

theorem ratio (h : '\n' ∉ text.toList) : (ratio text).Fit all := .of_keyed rfl (.inl h)

theorem url (text : String) : (url text).Fit all := .of_tagged rfl (by simp)

theorem unicodeRange (text : String) : (unicodeRange text).Fit all := .of_tagged rfl (by simp)

theorem call (hname : '\n' ∉ name.toList) (h : ∀ v ∈ vs, v.Fit all) : (call name vs).Fit all := by
  have hkey : Mark.Fits all ⟨.functions, name⟩ := .inl hname
  exact .of_next rfl (by simp [Findings.ofValue, Mark.tag, hkey]) (of_valueNodes h)

theorem assignment (h : v.Fit all) : (assignment name v).Fit all :=
  .of_tagged rfl (by simpa using h)

theorem expression (h : ∀ v ∈ vs, v.Fit all) : (expression vs).Fit all :=
  .of_tagged rfl (of_valueNodes h)

theorem expressionList (h : ∀ v ∈ vs, v.Fit all) : (expressionList vs).Fit all :=
  .of_tagged rfl (of_valueNodes h)

theorem operation (op : Operator) (hl : l.Fit all) (hr : r.Fit all) : (operation op l r).Fit all :=
  .of_tagged rfl (by simpa using ⟨hl, hr⟩)

theorem shorthand (hl : l.Fit all) (hr : r.Fit all) : (shorthand l r).Fit all :=
  .of_tagged rfl (by simpa using ⟨hl, hr⟩)

theorem paren (h : v.Fit all) : (paren v).Fit all := .of_tagged rfl (by simpa using h)

theorem negative (h : v.Fit all) : (negative v).Fit all := .of_tagged rfl (by simpa using h)

theorem condition {negated : Bool} (h : v.Fit all) : (condition v negated).Fit all :=
  .of_tagged rfl (by simpa using h)

theorem feature {v? : Option Value} (hname : '\n' ∉ name.toList) (h : ∀ v ∈ v?, v.Fit all) :
    (feature name v?).Fit all := by
  have hkey : Mark.Fits all ⟨.properties, name⟩ := .inl hname
  refine .of_next rfl (by simp [Findings.ofValue, Mark.tag, hkey]) ?_
  cases v? with
  | none => simp [Findings.ofValue]
  | some v => simpa [Findings.ofValue] using h v rfl

end Value.Fit

/-- A part of a selector whose text is a fitting key of an element. -/
def Part.Fit (all : List Token) : Part → Prop
  | .text name => Mark.Fits all ⟨.elements, name⟩
  | .attribute parts => ∀ v ∈ parts, v.Fit all
  | .value v => v.Fit all

abbrev Element.Fit (all : List Token) (e : Element) : Prop := e.part.Fit all

def Parameter.Fit (all : List Token) (p : Parameter) : Prop := ∀ v ∈ p.value, v.Fit all

def Arguments.Fit (all : List Token) (a : Arguments) : Prop := ∀ i ∈ a.items, i.value.Fit all

namespace Node.Fit

theorem value? {v? : Option Value} (h : ∀ v ∈ v?, v.Fit all) :
    ∀ m, some m ∈ [v?.map Node.value] → m.Fit all := by
  cases v? with
  | none => simp
  | some v => simpa using h v rfl

theorem element {e : Element} (h : e.Fit all) : (element e).Fit all := by
  match e, h with
  | ⟨.text name, _⟩, h => exact .of_keyed rfl h
  | ⟨.attribute parts, _⟩, h => exact .of_tagged rfl (Value.Fit.of_valueNodes h)
  | ⟨.value v, _⟩, h =>
    have hv : v.Fit all := h
    exact .of_tagged rfl (by simpa using hv)

theorem selector {s : Selector} (h : ∀ e ∈ s, Element.Fit all e) : (selector s).Fit all :=
  .of_tagged rfl (of_map fun e he => element (h e he))

theorem selectors {ss : List Selector} (h : ∀ s ∈ ss, ∀ e ∈ s, Element.Fit all e) :
    (selectors ss).Fit all :=
  .of_tagged rfl (of_map fun s hs => selector (h s hs))

theorem parameters {ps : List Parameter} (h : ∀ p ∈ ps, p.Fit all) : (parameters ps).Fit all :=
  .of_tagged rfl (of_map fun p hp => .of_tagged rfl (value? (h p hp)))

theorem arguments {a : Arguments} (h : a.Fit all) : (arguments a).Fit all :=
  .of_tagged rfl (of_map fun i hi => .of_tagged rfl (by simpa using h i hi))

theorem guard {vs : List Value} (h : ∀ v ∈ vs, v.Fit all) : (guard vs).Fit all :=
  .of_tagged rfl (Value.Fit.of_valueNodes h)

theorem features {vs : List Value} (h : ∀ v ∈ vs, v.Fit all) : (features vs).Fit all :=
  .of_tagged rfl (Value.Fit.of_valueNodes h)

end Node.Fit

end Stylesheet

end StyleTally
