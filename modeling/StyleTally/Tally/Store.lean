import StyleTally.Tally.Counter

/-!
# Stores

A store holds one counter for each section. A frozen store never changes again; copies of it do.
-/

namespace StyleTally

inductive Section where
  | colors
  | colorKeywords
  | dimensions
  | directives
  | elements
  | functions
  | keywords
  | properties
  | ratios
  | variableUses
  | nodes
  deriving DecidableEq, Repr

namespace Section

def all : List Section :=
  [colors, colorKeywords, dimensions, directives, elements, functions, keywords, properties, ratios,
   variableUses, nodes]

def name : Section → String
  | colors => "colors"
  | colorKeywords => "color_keywords"
  | dimensions => "dimensions"
  | directives => "directives"
  | elements => "elements"
  | functions => "functions"
  | keywords => "keywords"
  | properties => "properties"
  | ratios => "ratios"
  | variableUses => "variables"
  | nodes => "syntax"

def ofName? (name : String) : Option Section := all.find? fun s => s.name == name

/-- The place of a section among all. -/
def index : Section → Fin 11
  | colors => 0
  | colorKeywords => 1
  | dimensions => 2
  | directives => 3
  | elements => 4
  | functions => 5
  | keywords => 6
  | properties => 7
  | ratios => 8
  | variableUses => 9
  | nodes => 10

theorem index_injective {s t : Section} (h : s.index = t.index) : s = t := by
  cases s <;> cases t <;> first | rfl | exact absurd h (by decide)

theorem mem_all (s : Section) : s ∈ all := by cases s <;> decide

theorem ofName?_name (s : Section) : ofName? s.name = some s := by cases s <;> decide

end Section

structure Store where
  counters : Vector Counter 11
  frozen : Bool
  deriving DecidableEq

/-- Why a store refuses an operation. -/
inductive StoreFault where
  | frozen (name : String)
  | unknownSection (name : String)
  /-- A name in the data of a store to be made. -/
  | rejectedSection (name : String)
  deriving DecidableEq, Repr

/-- The key of a name that is no section, as the fault reports it. -/
def StoreFault.key : StoreFault → String
  | frozen name | unknownSection name => name
  | rejectedSection name => "unknown counter section: " ++ name

namespace Store

def empty : Store := ⟨Vector.replicate 11 .empty, false⟩

instance : Inhabited Store := ⟨empty⟩

def counter (s : Store) (part : Section) : Counter := s.counters[part.index]

def alter (s : Store) (part : Section) (f : Counter → Counter) : Store :=
  { s with counters := s.counters.set part.index (f (s.counter part)) }

theorem counter_alter (s : Store) (a b : Section) (f : Counter → Counter) :
    (s.alter a f).counter b = if a = b then f (s.counter a) else s.counter b := by
  by_cases h : a = b
  · subst h
    simp [alter, counter]
  · have hi : (a.index : Nat) ≠ b.index := fun e => h (Section.index_injective (Fin.ext e))
    simp [alter, counter, hi, h]

@[simp] theorem frozen_alter (s : Store) (a : Section) (f : Counter → Counter) :
    (s.alter a f).frozen = s.frozen := rfl

theorem counter_empty (a : Section) : empty.counter a = .empty := by
  simp [empty, counter]

/-- Adds one to a key of a section. -/
def add (s : Store) (part : Section) (key : String) : Except StoreFault Store :=
  if s.frozen then .error (.frozen part.name) else .ok (s.alter part fun c => c.add key 1)

/-- Adds one to a key of the section with the name. A frozen store refuses any name. -/
def addNamed (s : Store) (name key : String) : Except StoreFault Store :=
  if s.frozen then .error (.frozen name)
  else
    match Section.ofName? name with
    | some part => s.add part key
    | none => .error (.unknownSection name)

def mergeCounters (s t : Store) : Store :=
  Section.all.foldl (fun s part => s.alter part fun c => c.merge (t.counter part)) s

/-- Adds every count of `t`. -/
def merge (s t : Store) : Except StoreFault Store :=
  if s.frozen then .error (.frozen "*") else .ok (s.mergeCounters t)

def mergeAll (stores : List Store) : Store := stores.foldl mergeCounters empty

def freeze (s : Store) : Store := { s with frozen := true }

/-- An unfrozen store with the same counts. -/
def copy (s : Store) : Store := { s with frozen := false }

def isEmpty (s : Store) : Bool := Section.all.all fun part => (s.counter part).isEmpty

def agrees (s t : Store) : Bool :=
  Section.all.all fun part => (s.counter part).agrees (t.counter part)

def toPairs (s : Store) : List (String × List (String × Int)) :=
  Section.all.map fun part => (part.name, (s.counter part).entries)

/-- The store with the counts given by section. A name that is no section is refused. -/
def ofPairs (data : List (String × List (String × Int))) : Except StoreFault Store :=
  List.foldlM (fun s (name, counts) =>
    match Section.ofName? name with
    | some part => .ok (s.alter part fun _ => .ofPairs counts)
    | none => .error (.rejectedSection name)) empty data

/-- What is kept of a store that is pickled. -/
def state (s : Store) : List (String × List (String × Int)) × Bool := (s.toPairs, s.frozen)

/-- The store that was pickled. A section that is missing is empty, and other names are ignored. -/
def ofState : List (String × List (String × Int)) × Bool → Store
  | (sections, frozen) =>
    let filled := Section.all.foldl (fun s part =>
      s.alter part fun _ => .ofPairs ((sections.lookup part.name).getD [])) empty
    { filled with frozen }

def named (s : Store) (name : String) : Except StoreFault Counter :=
  match Section.ofName? name with
  | some part => .ok (s.counter part)
  | none => .error (.unknownSection name)

/-- A store as diagnostics show it: whether it is frozen, and how many keys its sections hold. -/
def describe (s : Store) : String :=
  let filled := Section.all.filter fun part => !(s.counter part).isEmpty
  let sizes := filled.map fun part => part.name ++ "=" ++ Nat.repr (s.counter part).size
  let contents := if sizes.isEmpty then "empty" else String.intercalate ", " sizes
  "<CounterStore" ++ (if s.frozen then " frozen " else " ") ++ contents ++ ">"

end Store

end StyleTally
