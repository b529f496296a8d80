import StyleTally.Proofs.Tally.Counting

/-!
# Balance

Each node leaves its tag together with the keys that go with it, and each statement leaves the tags
of its parts together with its own. The total of a section is therefore the sum of a few tags, and
some tags come in fixed proportions, in every store that classifiers, copies and merges can reach.
-/

namespace StyleTally

open Stylesheet

namespace Section

/-- The kinds of the nodes that leave one key in a section. -/
def kinds : Section → List String
  | variableUses => ["variable"]
  | functions => ["function_call"]
  | dimensions => ["dimension", "number"]
  | colors => ["rgb_color"]
  | colorKeywords => ["keyword_color"]
  | keywords => ["keyword", "keyword_color"]
  | elements => ["text_element"]
  | ratios => ["ratio"]
  | properties => ["property", "feature"]
  | directives => ["block_directive"]
  | nodes => []

end Section

namespace Mark

/-- The number of tags of a kind. -/
def tags (ms : List Mark) (kind : String) : Nat := ms.count (.tag kind)

@[simp] theorem tags_nil (kind : String) : tags [] kind = 0 := rfl

@[simp] theorem tags_append (ms ns : List Mark) (kind : String) :
    tags (ms ++ ns) kind = tags ms kind + tags ns kind := List.count_append

@[simp] theorem tags_tag (tag : String) (ms : List Mark) (kind : String) :
    tags (.tag tag :: ms) kind = tags ms kind + if tag = kind then 1 else 0 := by
  simp [tags, Mark.tag, List.count_cons]

@[simp] theorem tags_key {part : Section} (hpart : part ≠ .nodes) (key : String) (ms : List Mark)
    (kind : String) : tags (⟨part, key⟩ :: ms) kind = tags ms kind := by
  simp [tags, Mark.tag, hpart]

/-- Every key of a section comes with the tag of one of its kinds. -/
structure Paired (ms : List Mark) : Prop where
  totals : ∀ part, part ≠ .nodes →
    ms.countP (·.part = part) = (part.kinds.map (tags ms)).sum
  colorKeywords : ∀ key, ms.count ⟨.colorKeywords, key⟩ ≤ ms.count ⟨.keywords, key⟩

theorem Paired.nil : Paired [] := by
  constructor
  · intro part _
    have hzero : tags [] = fun _ => 0 := rfl
    simp [hzero]
  · intro key
    exact Nat.le_refl _

theorem Paired.append {ms ns : List Mark} (hms : Paired ms) (hns : Paired ns) :
    Paired (ms ++ ns) := by
  constructor
  · intro part hpart
    have hsum : (part.kinds.map (tags (ms ++ ns))).sum =
        (part.kinds.map (tags ms)).sum + (part.kinds.map (tags ns)).sum := by
      rw [← List.sum_map_add]
      congr 1
      simp
    rw [List.countP_append, hms.totals part hpart, hns.totals part hpart, hsum]
  · intro key
    rw [List.count_append, List.count_append]
    exact Nat.add_le_add (hms.colorKeywords key) (hns.colorKeywords key)

/-- The tags of statements and of their immediate parts. -/
def outerKinds : List String :=
  ["rule", "property", "mixin_call", "mixin_args", "ruleset", "selectors", "mixin", "mixin_params",
   "guard"]

/-- No statement and no immediate part of one is among the marks. -/
def Inner (ms : List Mark) : Prop := ∀ kind ∈ outerKinds, tags ms kind = 0

/-- The tags of the parts of statements are in step with those of the statements. -/
structure Framed (ms : List Mark) : Prop where
  rule : tags ms "rule" = 2 * tags ms "property"
  mixinCall : 2 ∣ tags ms "mixin_call"
  selectors : tags ms "selectors" = tags ms "ruleset"
  parameters : tags ms "mixin_params" = tags ms "mixin"
  guard : tags ms "guard" ≤ tags ms "mixin"
  arguments : 2 * tags ms "mixin_args" ≤ tags ms "mixin_call"

theorem Framed.append {ms ns : List Mark} (hms : Framed ms) (hns : Framed ns) :
    Framed (ms ++ ns) := by
  obtain ⟨rule, mixinCall, selectors, parameters, guard, arguments⟩ := hms
  obtain ⟨rule', mixinCall', selectors', parameters', guard', arguments'⟩ := hns
  constructor
  all_goals
    simp only [tags_append]
    omega

theorem ofNodes_append (stack rest : List (Option Node)) :
    ofNodes (stack ++ rest) = ofNodes stack ++ ofNodes rest := by
  fun_induction ofNodes stack with
  | case1 => rfl
  | case2 stack ih =>
    rw [List.cons_append, ofNodes]
    exact ih
  | case3 n stack hnone ih =>
    rw [List.cons_append, ofNodes]
    split
    · exact ih
    · simp_all
  | case4 n stack found hfound ih =>
    rw [List.cons_append, ofNodes]
    split
    · simp_all
    · rename_i found' hfound'
      obtain rfl : found = found' := Option.some.inj (hfound.symm.trans hfound')
      rw [← List.append_assoc found.next, ih, List.append_assoc]

theorem ofNodes_cons (n? : Option Node) (stack : List (Option Node)) :
    ofNodes (n? :: stack) = ofNodes [n?] ++ ofNodes stack := ofNodes_append [n?] stack

theorem ofNodes_none : ofNodes [none] = [] := by
  rw [ofNodes, ofNodes]

theorem ofNodes_some {n : Node} {found : Findings} (h : Findings.of? n = some found) :
    ofNodes [some n] = found.marks ++ ofNodes found.next := by
  rw [ofNodes]
  split
  · simp_all
  · rename_i found' hfound
    obtain rfl : found = found' := Option.some.inj (h.symm.trans hfound)
    rw [List.append_nil]

/-- What the marks of every node in sight have in common, the marks of a stack have as well. -/
theorem ofNodes_of {P : List Mark → Prop} {Seen : Node → Prop} (nil : P [])
    (append : ∀ {ms ns}, P ms → P ns → P (ms ++ ns))
    (marks : ∀ {n found}, Seen n → Findings.of? n = some found → P found.marks)
    (next : ∀ {n found m}, Seen n → Findings.of? n = some found → some m ∈ found.next → Seen m)
    {stack : List (Option Node)} (h : ∀ n, some n ∈ stack → Seen n) : P (ofNodes stack) := by
  fun_induction ofNodes stack with
  | case1 => exact nil
  | case2 rest ih => exact ih fun n hn => h n (List.mem_cons_of_mem _ hn)
  | case3 n rest hnone ih => exact ih fun n hn => h n (List.mem_cons_of_mem _ hn)
  | case4 n rest found hfound ih =>
    have hn := h n List.mem_cons_self
    apply append (marks hn hfound) (ih _)
    intro m hm
    cases List.mem_append.mp hm with
    | inl hbelow => exact next hn hfound hbelow
    | inr hrest => exact h m (List.mem_cons_of_mem _ hrest)

/-- A tag in front of keys that make up one mark in every section that counts the tag. -/
theorem paired_tag {kind : String} {ms : List Mark}
    (htotals : ∀ part, (ms.map Mark.part).count part = part.kinds.count kind)
    (hcolors : ∀ key, ms.count ⟨.colorKeywords, key⟩ ≤ ms.count ⟨.keywords, key⟩) :
    Paired (.tag kind :: ms) := by
  have hcount (part : Section) : ms.countP (·.part = part) = part.kinds.count kind := by
    rw [← htotals part, List.count, List.countP_map]
    apply List.countP_congr
    intro m _
    simp
  have hnone (k : String) : tags ms k = 0 := by
    apply List.count_eq_zero.mpr
    intro hmem
    have hzero := List.countP_eq_zero.mp (hcount .nodes) _ hmem
    exact hzero (by simp [Mark.tag])
  constructor
  · intro part hpart
    have htags : tags (.tag kind :: ms) = fun k => if kind = k then 1 else 0 := by
      funext k
      rw [tags_tag, hnone, Nat.zero_add]
    have hsum (ks : List String) : ks.count kind = (ks.map fun k => if kind = k then 1 else 0).sum := by
      induction ks with
      | nil => rfl
      | cons k ks ih =>
        rw [List.count_cons, ih, List.map_cons, List.sum_cons]
        by_cases h : kind = k
        · simp [h, Nat.add_comm]
        · have hk : (k == kind) = false := beq_eq_false_iff_ne.mpr fun e => h e.symm
          simp [h, hk]
    have hkind : (Mark.tag kind).part ≠ part := hpart.symm
    rw [List.countP_cons_of_neg (by simpa using hkind), hcount, htags, hsum]
  · intro key
    have hne (part : Section) (hpart : part ≠ .nodes) : Mark.tag kind ≠ ⟨part, key⟩ :=
      fun heq => hpart (congrArg Mark.part heq).symm
    rw [List.count_cons_of_ne (hne _ (by decide)), List.count_cons_of_ne (hne _ (by decide))]
    exact hcolors key

theorem paired_value (v : Value) : Paired (Findings.ofValue v).marks := by
  cases v with
  | dimension x unit =>
    simp only [Findings.ofValue, Findings.keyed]
    cases unit.isEmpty with
    | false | true => exact paired_tag (fun part => by cases part <;> rfl) (by simp)
  | operation op l r =>
    cases op <;> exact paired_tag (fun part => by cases part <;> rfl) (by simp)
  | _ => exact paired_tag (fun part => by cases part <;> rfl) (by simp [List.count_cons])

theorem paired_marks {n : Node} {found : Findings} (h : Findings.of? n = some found) :
    Paired found.marks := by
  cases n with
  | sheet | block => cases h
  | value v =>
    obtain rfl := Option.some.inj h
    exact paired_value v
  | statement s =>
    cases s <;> cases h <;> exact paired_tag (fun part => by cases part <;> rfl) (by simp)
  | element e =>
    obtain rfl := Option.some.inj h
    obtain ⟨part, combinator⟩ := e
    cases part <;> exact paired_tag (fun part => by cases part <;> rfl) (by simp)
  | _ =>
    obtain rfl := Option.some.inj h
    exact paired_tag (fun part => by cases part <;> rfl) (by simp)

/-- The marks of any nodes are paired. -/
theorem paired_ofNodes (stack : List (Option Node)) : Paired (ofNodes stack) :=
  ofNodes_of .nil .append (fun _ => paired_marks) (fun _ _ _ => True.intro) fun _ _ => True.intro

end Mark

namespace Stylesheet.Node

/-- Whether a node is neither a statement nor an immediate part of one. -/
def isInner : Node → Bool
  | .selector _ | .element _ | .parameter _ | .argument _ | .features _ | .value _ => true
  | _ => false

@[simp] theorem isInner_selector (s : Selector) : (selector s).isInner := rfl

@[simp] theorem isInner_element (e : Element) : (element e).isInner := rfl

@[simp] theorem isInner_parameter (p : Parameter) : (parameter p).isInner := rfl

@[simp] theorem isInner_argument (a : Argument) : (argument a).isInner := rfl

@[simp] theorem isInner_features (vs : List Value) : (features vs).isInner := rfl

@[simp] theorem isInner_value (v : Value) : (value v).isInner := rfl

end Stylesheet.Node

namespace Findings

/-- Whether all nodes of a stack are inner ones. -/
def allInner (stack : List (Option Node)) : Bool := stack.all (Option.all Node.isInner)

@[simp] theorem all_value (v? : Option Value) : (v?.map Node.value).all Node.isInner := by
  cases v? <;> simp

/-- An inner node hands on inner nodes only. -/
theorem allInner_next {n : Node} {found : Findings} (hn : n.isInner) (h : of? n = some found) :
    allInner found.next := by
  cases n with
  | value v =>
    obtain rfl := Option.some.inj h
    cases v <;> simp [allInner, ofValue, keyed, tagged, valueNodes, Function.comp_def]
  | element e =>
    obtain rfl := Option.some.inj h
    obtain ⟨part, combinator⟩ := e
    cases part <;> simp [allInner, ofElement, keyed, tagged, valueNodes, Function.comp_def]
  | selector | parameter | argument | features =>
    obtain rfl := Option.some.inj h
    simp [allInner, tagged, valueNodes, Function.comp_def]
  | _ => cases hn

end Findings

namespace Mark

theorem Inner.append {ms ns : List Mark} (hms : Inner ms) (hns : Inner ns) : Inner (ms ++ ns) := by
  intro kind hkind
  rw [tags_append, hms kind hkind, hns kind hkind]

theorem Inner.tags_eq {ms : List Mark} (h : Inner ms) {kind : String} (hkind : kind ∈ outerKinds) :
    tags ms kind = 0 := h kind hkind

theorem Inner.framed {ms : List Mark} (h : Inner ms) : Framed ms := by
  constructor <;> simp (disch := decide) [h.tags_eq]

theorem inner_tag {kind : String} {ms : List Mark} (hkind : kind ∉ outerKinds)
    (hms : ∀ m ∈ ms, m.part ≠ .nodes) : Inner (.tag kind :: ms) := by
  intro k hk
  have hne : kind ≠ k := fun h => hkind (h ▸ hk)
  have hnone : tags ms k = 0 := List.count_eq_zero.mpr fun hmem => hms _ hmem rfl
  simp [hne, hnone]

theorem inner_value (v : Value) : Inner (Findings.ofValue v).marks := by
  cases v with
  | dimension x unit =>
    simp only [Findings.ofValue, Findings.keyed]
    cases unit.isEmpty with
    | false | true => exact inner_tag (by decide) (by simp)
  | operation op l r => cases op <;> exact inner_tag (by decide) (by simp)
  | _ => exact inner_tag (by decide) (by simp)

theorem inner_marks {n : Node} {found : Findings} (hn : n.isInner)
    (h : Findings.of? n = some found) : Inner found.marks := by
  cases n with
  | value v =>
    obtain rfl := Option.some.inj h
    exact inner_value v
  | element e =>
    obtain rfl := Option.some.inj h
    obtain ⟨part, combinator⟩ := e
    cases part <;> exact inner_tag (by decide) (by simp)
  | selector | parameter | argument | features =>
    obtain rfl := Option.some.inj h
    exact inner_tag (by decide) (by simp)
  | _ => cases hn

theorem inner_ofNodes {stack : List (Option Node)} (h : Findings.allInner stack) :
    Inner (ofNodes stack) := by
  have hnext {n m : Node} {found : Findings} (hn : n.isInner) (hfound : Findings.of? n = some found)
      (hm : some m ∈ found.next) : m.isInner :=
    List.all_eq_true.mp (Findings.allInner_next hn hfound) _ hm
  apply ofNodes_of (fun _ _ => rfl) .append inner_marks hnext
  intro n hn
  exact List.all_eq_true.mp h _ hn

/-- Of a node that hands on inner nodes, only its own tag can be an outer one. -/
theorem tags_tagged {n : Node} {tag : String} {next : List (Option Node)}
    (h : Findings.of? n = some (.tagged tag next)) (hnext : Findings.allInner next) {kind : String}
    (hkind : kind ∈ outerKinds) : tags (ofNodes [some n]) kind = tags [.tag tag] kind := by
  have hbelow := (inner_ofNodes hnext).tags_eq hkind
  rw [ofNodes_some h, Findings.tagged, tags_append, hbelow, Nat.add_zero]

theorem tags_value (v? : Option Value) {kind : String} (hkind : kind ∈ outerKinds) :
    tags (ofNodes [v?.map Node.value]) kind = 0 :=
  (inner_ofNodes (by simp [Findings.allInner])).tags_eq hkind

theorem inner_tagged {n : Node} {kind : String} {next : List (Option Node)}
    (h : Findings.of? n = some (.tagged kind next)) (hkind : kind ∉ outerKinds)
    (hnext : Findings.allInner next) : Inner (ofNodes [some n]) := by
  rw [ofNodes_some h]
  exact (inner_tag hkind (by simp)).append (inner_ofNodes hnext)

theorem inner_features (queries : Option (List Value)) :
    Inner (ofNodes [queries.map Node.features]) :=
  inner_ofNodes (by cases queries <;> simp [Findings.allInner])

theorem framed_declaration (name : String) (v? : Option Value) (important : Bool) :
    Framed (ofNodes [some (.statement (.declaration name v? important))] ++ [.tag "rule"]) := by
  have hnode : ofNodes [some (.statement (.declaration name v? important))] =
      .tag "rule" :: ofNodes [some (.property name)] ++ ofNodes [v?.map Node.value] := by
    rw [ofNodes_some rfl, Findings.tagged, ofNodes_cons]
    rfl
  have hproperty : ofNodes [some (.property name)] = [.tag "property", ⟨.properties, name⟩] := by
    rw [ofNodes_some rfl, Findings.keyed, ofNodes, List.append_nil]
  rw [hnode, hproperty]
  constructor <;> simp (disch := decide) [tags_value]

theorem framed_mixinCall (path : Selector) (args : Option Stylesheet.Arguments)
    (important : Bool) :
    Framed (ofNodes [some (.statement (.mixinCall path args important))] ++
      [.tag "mixin_call"]) := by
  have hnode : ofNodes [some (.statement (.mixinCall path args important))] =
      .tag "mixin_call" :: ofNodes [args.map Node.arguments] ++ ofNodes [some (.selector path)] := by
    rw [ofNodes_some rfl, Findings.tagged, ofNodes_cons]
    rfl
  have hpath : Inner (ofNodes [some (.selector path)]) := inner_ofNodes rfl
  rw [hnode]
  cases args with
  | none =>
    rw [Option.map_none, ofNodes_none]
    constructor <;> simp (disch := decide) [hpath.tags_eq]
  | some a =>
    have hargs {kind : String} (hkind : kind ∈ outerKinds) :
        tags (ofNodes [some (.arguments a)]) kind = tags [.tag "mixin_args"] kind :=
      tags_tagged rfl (by simp [Findings.allInner, Function.comp_def]) hkind
    rw [Option.map_some]
    constructor <;> simp (disch := decide) [hargs, hpath.tags_eq]

theorem framed_mixin (params : List Parameter) (conditions : Option (List Value)) :
    Framed (.tag "mixin" :: ofNodes [conditions.map Node.guard] ++
      ofNodes [some (.parameters params)]) := by
  have hparams {kind : String} (hkind : kind ∈ outerKinds) :
      tags (ofNodes [some (.parameters params)]) kind = tags [.tag "mixin_params"] kind :=
    tags_tagged rfl (by simp [Findings.allInner, Function.comp_def]) hkind
  cases conditions with
  | none =>
    rw [Option.map_none, ofNodes_none]
    constructor <;> simp (disch := decide) [hparams]
  | some vs =>
    have hguard {kind : String} (hkind : kind ∈ outerKinds) :
        tags (ofNodes [some (.guard vs)]) kind = tags [.tag "guard"] kind :=
      tags_tagged rfl (by simp [Findings.allInner, Findings.valueNodes, Function.comp_def]) hkind
    rw [Option.map_some]
    constructor <;> simp (disch := decide) [hguard, hparams]

theorem framed_ruleset (selectors : List Selector) :
    Framed (.tag "ruleset" :: ofNodes [some (.selectors selectors)]) := by
  have hselectors {kind : String} (hkind : kind ∈ outerKinds) :
      tags (ofNodes [some (.selectors selectors)]) kind = tags [.tag "selectors"] kind :=
    tags_tagged rfl (by simp [Findings.allInner, Function.comp_def]) hkind
  constructor <;> simp (disch := decide) [hselectors]

mutual

theorem framed_ofStatement (statements : Bool) (s : Statement) :
    Framed (ofStatement statements s) := by
  cases s with
  | empty | extend => exact Inner.framed fun _ _ => rfl
  | declaration name v? important => exact framed_declaration name v? important
  | mixinCall path args important => exact framed_mixinCall path args important
  | definition name v important =>
    rw [ofStatement]
    split
    · exact (inner_tagged rfl (by decide) rfl).framed
    · exact Inner.framed fun _ _ => rfl
  | directive name v? =>
    rw [ofStatement]
    split
    · exact (inner_tagged rfl (by decide) (by simp [Findings.allInner])).framed
    · exact Inner.framed fun _ _ => rfl
  | imported path queries options =>
    rw [ofStatement]
    split
    · exact (inner_tagged rfl (by decide) (by cases queries <;> rfl)).framed
    · exact Inner.framed fun _ _ => rfl
  | blockDirective name params body =>
    have hfront : Inner [.tag "block_directive", ⟨.directives, name⟩] :=
      inner_tag (by decide) (by simp)
    rw [ofStatement]
    exact hfront.framed.append (framed_ofStatements statements body)
  | block name body =>
    have hfront : Inner [.tag "generic_block"] := inner_tag (by decide) (by simp)
    rw [ofStatement]
    exact hfront.framed.append (framed_ofStatements statements body)
  | media queries body =>
    have hfront : Inner [.tag "media"] := inner_tag (by decide) (by simp)
    rw [ofStatement]
    exact (hfront.append (inner_features queries)).framed.append
      (framed_ofStatements statements body)
  | mixin name params conditions body =>
    rw [ofStatement]
    exact (framed_mixin params conditions).append (framed_ofStatements statements body)
  | ruleset selectors conditions body =>
    rw [ofStatement]
    exact (framed_ruleset selectors).append (framed_ofStatements statements body)

theorem framed_ofStatements (statements : Bool) (ss : List Statement) :
    Framed (ofStatements statements ss) := by
  cases ss with
  | nil =>
    rw [ofStatements]
    exact Inner.framed fun _ _ => rfl
  | cons s ss =>
    rw [ofStatements]
    exact (framed_ofStatement statements s).append (framed_ofStatements statements ss)

end

mutual

theorem paired_ofStatement (statements : Bool) (s : Statement) :
    Paired (ofStatement statements s) := by
  have hplain {kind : String} (h : ∀ part : Section, part.kinds.count kind = 0) :
      Paired [.tag kind] := paired_tag (fun part => (h part).symm) (by simp)
  cases s with
  | empty | extend => exact .nil
  | declaration | mixinCall =>
    exact (paired_ofNodes _).append (hplain fun part => by cases part <;> rfl)
  | definition | directive | imported =>
    rw [ofStatement]
    split
    · exact paired_ofNodes _
    · exact .nil
  | blockDirective name params body =>
    have hfront : Paired [.tag "block_directive", ⟨.directives, name⟩] :=
      paired_tag (fun part => by cases part <;> rfl) (by simp)
    rw [ofStatement]
    exact hfront.append (paired_ofStatements statements body)
  | block name body =>
    rw [ofStatement]
    exact (hplain fun part => by cases part <;> rfl).append (paired_ofStatements statements body)
  | media queries body =>
    rw [ofStatement]
    exact ((hplain fun part => by cases part <;> rfl).append (paired_ofNodes _)).append
      (paired_ofStatements statements body)
  | mixin name params conditions body =>
    rw [ofStatement]
    exact (((hplain fun part => by cases part <;> rfl).append (paired_ofNodes _)).append
      (paired_ofNodes _)).append (paired_ofStatements statements body)
  | ruleset selectors conditions body =>
    rw [ofStatement]
    exact ((hplain fun part => by cases part <;> rfl).append (paired_ofNodes _)).append
      (paired_ofStatements statements body)

theorem paired_ofStatements (statements : Bool) (ss : List Statement) :
    Paired (ofStatements statements ss) := by
  cases ss with
  | nil =>
    rw [ofStatements]
    exact .nil
  | cons s ss =>
    rw [ofStatements]
    exact (paired_ofStatement statements s).append (paired_ofStatements statements ss)

end

/-- Marks that are paired and framed. -/
structure Balanced (ms : List Mark) : Prop extends Paired ms, Framed ms

theorem Balanced.nil : Balanced [] := ⟨.nil, Inner.framed fun _ _ => rfl⟩

theorem Balanced.append {ms ns : List Mark} (hms : Balanced ms) (hns : Balanced ns) :
    Balanced (ms ++ ns) :=
  ⟨hms.toPaired.append hns.toPaired, hms.toFramed.append hns.toFramed⟩

theorem balanced_ofStatements (statements : Bool) (ss : List Statement) :
    Balanced (ofStatements statements ss) :=
  ⟨paired_ofStatements statements ss, framed_ofStatements statements ss⟩

end Mark

namespace Store

/-- The number of nodes of a kind. -/
def tagged (s : Store) (kind : String) : Int := s.count .nodes kind

/-- The stores that begin empty and go through classifiers, copies and merges. The classifiers may
be given any stylesheets, those that come from the parser among them. -/
inductive Reachable : Store → Prop
  | empty : Reachable .empty
  | scan {c d : Classifier} {sheet : Sheet} (hc : Reachable c.store) (h : c.scan sheet = .ok d) :
    Reachable d.store
  | snapshot {c : Classifier} (hc : Reachable c.store) : Reachable c.snapshot
  | copy {s : Store} (hs : Reachable s) : Reachable s.copy
  | freeze {s : Store} (hs : Reachable s) : Reachable s.freeze
  | merge {s t u : Store} (hs : Reachable s) (ht : Reachable t) (h : s.merge t = .ok u) : Reachable u
  | mergeAll {stores : List Store} (h : ∀ s ∈ stores, Reachable s) : Reachable (mergeAll stores)

/-- A store that holds some marks and nothing else. -/
structure Tallies (s : Store) (ms : List Mark) : Prop where
  count : ∀ part key, s.count part key = (ms.count ⟨part, key⟩ : Nat)
  total : ∀ part, s.total part = (ms.countP (·.part = part) : Nat)
  positive : ∀ part, (s.counter part).Positive

theorem Tallies.empty : Tallies .empty [] := by
  constructor
  · intro part key
    exact count_empty part key
  · intro part
    rw [Store.total, counter_empty]
    rfl
  · intro part e he
    rw [counter_empty] at he
    cases he

theorem Tallies.record {s : Store} {ms : List Mark} (h : Tallies s ms) (ns : List Mark) :
    Tallies (s.record ns) (ms ++ ns) := by
  constructor
  · intro part key
    rw [count_record, h.count, List.count_append, Int.natCast_add]
  · intro part
    rw [total_record, h.total, List.countP_append, Int.natCast_add]
  · intro part
    exact positive_record h.positive ns part

theorem Tallies.mergeCounters {s t : Store} {ms ns : List Mark} (hs : Tallies s ms)
    (ht : Tallies t ns) : Tallies (s.mergeCounters t) (ms ++ ns) := by
  constructor
  · intro part key
    rw [count_mergeCounters, hs.count, ht.count, List.count_append, Int.natCast_add]
  · intro part
    rw [total_mergeCounters, hs.total, ht.total, List.countP_append, Int.natCast_add]
  · intro part
    rw [counter_mergeCounters]
    exact (hs.positive part).merge (ht.positive part)

theorem Tallies.mergeAll {stores : List Store}
    (h : ∀ s ∈ stores, ∃ ms, s.Tallies ms ∧ Mark.Balanced ms) :
    ∃ ms, (mergeAll stores).Tallies ms ∧ Mark.Balanced ms := by
  have hfold (s : Store) (hs : ∃ ms, s.Tallies ms ∧ Mark.Balanced ms) :
      ∃ ms, (stores.foldl Store.mergeCounters s).Tallies ms ∧ Mark.Balanced ms := by
    induction stores generalizing s with
    | nil => exact hs
    | cons t stores ih =>
      obtain ⟨ms, hms, hmsBalanced⟩ := hs
      obtain ⟨ns, hns, hnsBalanced⟩ := h t List.mem_cons_self
      exact ih (fun u hu => h u (List.mem_cons_of_mem _ hu)) _
        ⟨ms ++ ns, hms.mergeCounters hns, hmsBalanced.append hnsBalanced⟩
  exact hfold .empty ⟨[], .empty, .nil⟩

/-- A reachable store holds the marks of whole stylesheets, and these are balanced. -/
theorem Reachable.tallies {s : Store} (h : Reachable s) : ∃ ms, s.Tallies ms ∧ Mark.Balanced ms := by
  induction h with
  | empty => exact ⟨[], .empty, .nil⟩
  | @scan c d sheet hc hscan ih =>
    obtain ⟨ms, hms, hbalanced⟩ := ih
    rw [Classifier.store_of_scan hscan]
    exact ⟨_, hms.record _, hbalanced.append (Mark.balanced_ofStatements c.statements sheet)⟩
  | snapshot _ ih | copy _ ih | freeze _ ih =>
    -- Freezing and copying leave the counters as they are.
    obtain ⟨ms, hms, hbalanced⟩ := ih
    exact ⟨ms, ⟨hms.count, hms.total, hms.positive⟩, hbalanced⟩
  | @merge s t u hs ht hmerge ihs iht =>
    obtain ⟨ms, hms, hmsBalanced⟩ := ihs
    obtain ⟨ns, hns, hnsBalanced⟩ := iht
    rw [Store.merge] at hmerge
    split at hmerge
    · cases hmerge
    · cases hmerge
      exact ⟨ms ++ ns, hms.mergeCounters hns, hmsBalanced.append hnsBalanced⟩
  | mergeAll _ ih => exact Tallies.mergeAll ih

/-- Totals of sections in step with tags, tags in step with one another, and no key that counts
nothing. -/
structure Balanced (s : Store) : Prop where
  totals : ∀ part, part ≠ .nodes → s.total part = (part.kinds.map s.tagged).sum
  rule : s.tagged "rule" = 2 * s.tagged "property"
  mixinCall : 2 ∣ s.tagged "mixin_call"
  selectors : s.tagged "selectors" = s.tagged "ruleset"
  parameters : s.tagged "mixin_params" = s.tagged "mixin"
  guard : s.tagged "guard" ≤ s.tagged "mixin"
  arguments : 2 * s.tagged "mixin_args" ≤ s.tagged "mixin_call"
  colorKeywords : ∀ key, s.count .colorKeywords key ≤ s.count .keywords key
  counts : ∀ part, ∀ e ∈ (s.counter part).entries, 1 ≤ e.2

/-- The sections and the tags of every reachable store are in balance. -/
theorem Reachable.balanced {s : Store} (h : Reachable s) : s.Balanced := by
  obtain ⟨ms, hms, hpaired, hframed⟩ := h.tallies
  obtain ⟨rule, mixinCall, selectors, parameters, guard, arguments⟩ := hframed
  have htagged (kind : String) : s.tagged kind = (Mark.tags ms kind : Nat) := hms.count .nodes kind
  constructor
  · intro part hpart
    have hsum (kinds : List String) :
        (kinds.map s.tagged).sum = ((kinds.map (Mark.tags ms)).sum : Nat) := by
      induction kinds with
      | nil => rfl
      | cons kind kinds ih => simp [ih, htagged]
    rw [hms.total, hpaired.totals part hpart, hsum]
  · rw [htagged, htagged]
    omega
  · rw [htagged]
    omega
  · rw [htagged, htagged, selectors]
  · rw [htagged, htagged, parameters]
  · rw [htagged, htagged]
    omega
  · rw [htagged, htagged]
    omega
  · intro key
    rw [hms.count, hms.count]
    exact Int.ofNat_le.mpr (hpaired.colorKeywords key)
  · exact hms.positive

/-- One declaration, in a rule without selectors. -/
def sampleSheet : Sheet := [.ruleset [] none [.declaration "color" (some (.colorName "red")) false]]

theorem marks_sampleSheet (statements : Bool) :
    Mark.ofStatements statements sampleSheet =
      [.tag "ruleset", .tag "selectors", .tag "rule", .tag "property", ⟨.properties, "color"⟩,
       .tag "keyword_color", ⟨.keywords, "red"⟩, ⟨.colorKeywords, "red"⟩, .tag "rule"] := by
  simp [sampleSheet, Mark.ofStatements, Mark.ofStatement, Mark.ofNodes, Findings.of?,
    Findings.ofStatement?, Findings.tagged, Findings.keyed, Findings.ofValue, Statement.node?]

/-- The snapshots of two classifiers, merged. -/
theorem balanced_sample : ∃ c d u, (Classifier.fresh false).scan sampleSheet = .ok c ∧
    (Classifier.fresh true).scan sampleSheet = .ok d ∧ c.snapshot.copy.merge d.snapshot = .ok u ∧
      u.Balanced ∧ u.tagged "rule" = 4 ∧ u.total .colorKeywords = 2 := by
  have hc : (Classifier.fresh false).scan sampleSheet = .ok _ := Classifier.scan_eq rfl _
  have hd : (Classifier.fresh true).scan sampleSheet = .ok _ := Classifier.scan_eq rfl _
  have hreachable := Reachable.merge (Reachable.snapshot (.scan .empty hc)).copy
    (.snapshot (.scan .empty hd)) rfl
  refine ⟨_, _, _, hc, hd, rfl, hreachable.balanced, ?_, ?_⟩
  · simp only [Classifier.scanned, marks_sampleSheet]
    rfl
  · simp only [Classifier.scanned, marks_sampleSheet]
    rfl

end Store

end StyleTally
