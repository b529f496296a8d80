import StyleTally.Stylesheet.Fault

/-!
# Room for nesting

A level of nesting takes one of the levels that the limit admits, and calls on the stack, for the
rules that are under way until the next level can be opened. A rule that opens a level goes on with
the room that this leaves; where there is none, what is used up decides the fault.
-/

namespace StyleTally.Stylesheet

/-- What opens a level of nesting. -/
inductive Opening where
  | sign
  | parenthesis
  | call
  /-- A call by a percent sign in place of a name. -/
  | percentCall
  | test
  | feature
  | parameters
  | arguments
  | block
  /-- The body of a ruleset or a mixin. -/
  | ruleset
  | atRule
  deriving DecidableEq, Repr

/-- How many calls deeper the rule runs that can open the next level. Calls that no text can repeat,
those for features, parameters and arguments among them, are not counted here; `stackCalls` leaves
room for them. -/
def Opening.calls : Opening → Nat
  | sign => 1
  | parenthesis => 8
  | call => 10
  | percentCall => 9
  | test => 5
  | feature | parameters | arguments => 0
  | block => 3
  | ruleset => 4
  | atRule => 5

theorem Opening.calls_le (o : Opening) : o.calls ≤ 10 := by cases o <;> decide

structure Room where
  /-- Levels that the limit still admits. -/
  levels : Nat
  /-- Calls that the stack still holds. -/
  calls : Nat
  deriving DecidableEq, Repr

/-- What is used up where no level can be opened. -/
inductive Shortage where
  | levels
  | calls
  deriving DecidableEq, Repr

/-- What stands behind an opening, if there is room for it. -/
abbrev Deeper (α : Type) := Opening → Except Shortage α

def Deeper.All {α : Type} (P : α → Prop) (deeper : Deeper α) : Prop :=
  ∀ o a, deeper o = .ok a → P a

/-- What stands behind an opening for the one beside what stands there for the other. Where there is
no room for the one there is none for the other, for the same shortage. -/
inductive Beside {α β : Type} (R : α → β → Prop) : Except Shortage α → Except Shortage β → Prop
  | opened {a : α} {b : β} (h : R a b) : Beside R (.ok a) (.ok b)
  | short (shortage : Shortage) : Beside R (.error shortage) (.error shortage)

def Deeper.Rel {α β : Type} (R : α → β → Prop) (deeper : Deeper α) (deeper' : Deeper β) : Prop :=
  ∀ o, Beside R (deeper o) (deeper' o)

/-- Opens a level on a line. -/
def enter {α : Type} (deeper : Deeper α) (o : Opening) (line : Nat) : Except Fault α :=
  match deeper o with
  | .ok a => .ok a
  | .error .levels => .error (.tooDeep line)
  | .error .calls => .error .overflow

namespace Room

/-- The room behind an opening. The levels are looked at first. -/
def opened (room : Room) (o : Opening) : Except Shortage Room :=
  match room with
  | ⟨0, _⟩ => .error .levels
  | ⟨levels + 1, calls⟩ =>
    if o.calls ≤ calls then .ok ⟨levels, calls - o.calls⟩ else .error .calls

variable {β : Type} {room inner : Room} {o : Opening}

/-- Goes down into every opening. `step` gives what stands in a room, from what stands in the rooms
behind its openings. -/
def descend (step : Room → Deeper (Room × β) → β) (room : Room) : β := go room.levels room.calls
where
  go : Nat → Nat → β
  | 0, calls => step ⟨0, calls⟩ fun _ => .error .levels
  | levels + 1, calls =>
    step ⟨levels + 1, calls⟩ fun o =>
      if o.calls ≤ calls then .ok (⟨levels, calls - o.calls⟩, go levels (calls - o.calls))
      else .error .calls

/-- What stands behind the openings of a room, when `f` gives what stands in a room. -/
def below (f : Room → β) (room : Room) : Deeper β := fun o => (room.opened o).map f

theorem descend_eq (step : Room → Deeper (Room × β) → β) (room : Room) :
    room.descend step = step room (room.below fun inner => (inner, inner.descend step)) := by
  obtain ⟨levels, calls⟩ := room
  cases levels with
  | zero => rfl
  | succ levels =>
    change step _ _ = step _ _
    congr 1
    funext o
    simp only [below, opened]
    split <;> rfl

/-- A part of what stands behind each opening goes into what stands in the room. -/
theorem descend_map {γ : Type} (build : Room → Deeper γ → β) (part : Room × β → γ) (room : Room) :
    room.descend (fun room deeper => build room fun o => (deeper o).map part) =
      build room (room.below fun inner => part
        (inner, inner.descend fun room deeper => build room fun o => (deeper o).map part)) := by
  rw [descend_eq]
  congr 1
  funext o
  simp only [below]
  cases room.opened o <;> rfl

theorem opened_eq_ok (h : room.opened o = .ok inner) :
    room.levels = inner.levels + 1 ∧ room.calls = inner.calls + o.calls := by
  obtain ⟨levels, calls⟩ := room
  cases levels with
  | zero => cases h
  | succ levels =>
    by_cases ho : o.calls ≤ calls
    · rw [opened, if_pos ho] at h
      cases h
      exact ⟨rfl, (Nat.sub_add_cancel ho).symm⟩
    · rw [opened, if_neg ho] at h
      cases h

theorem below_eq_ok {f : Room → β} {b : β} :
    room.below f o = .ok b ↔ ∃ inner, room.opened o = .ok inner ∧ f inner = b := by
  rw [below]
  cases room.opened o <;> simp [Except.map]

theorem enter_below (f : Room → β) (h : room.opened o = .ok inner) (line : Nat) :
    enter (room.below f) o line = .ok (f inner) := by
  rw [enter, below, h]
  rfl

theorem below_all {f : Room → β} {P : β → Prop}
    (h : ∀ o inner, room.opened o = .ok inner → P (f inner)) : Deeper.All P (room.below f) := by
  intro o b hb
  obtain ⟨inner, hinner, rfl⟩ := below_eq_ok.mp hb
  exact h o inner hinner

theorem below_rel {α : Type} {R : α → β → Prop} {f : Room → α} {g : Room → β}
    (h : ∀ o inner, room.opened o = .ok inner → R (f inner) (g inner)) :
    Deeper.Rel R (room.below f) (room.below g) := by
  intro o
  simp only [below]
  cases hopened : room.opened o with
  | ok inner => exact .opened (h o inner hopened)
  | error shortage => exact .short shortage

/-- What holds of a room as soon as it holds of the rooms behind its openings, holds of all. -/
theorem induction {P : Room → Prop}
    (step : ∀ room, (∀ o inner, room.opened o = .ok inner → P inner) → P room) (room : Room) :
    P room := by
  obtain ⟨levels, calls⟩ := room
  induction levels generalizing calls with
  | zero =>
    apply step
    intro o inner h
    cases h
  | succ levels ih =>
    apply step
    intro o inner h
    obtain ⟨inside, left⟩ := inner
    obtain rfl : levels = inside := Nat.succ.inj (opened_eq_ok h).1
    exact ih left

/-- Room for so many levels of any kind. -/
structure Holds (room : Room) (n : Nat) : Prop where
  levels : n ≤ room.levels
  calls : 10 * n ≤ room.calls

theorem Holds.mono {m n : Nat} (h : room.Holds n) (hm : m ≤ n) : room.Holds m :=
  ⟨Nat.le_trans hm h.levels, Nat.le_trans (Nat.mul_le_mul_left 10 hm) h.calls⟩

/-- Where there is room for one level more, it can be opened. -/
theorem Holds.opened {n : Nat} (h : room.Holds (n + 1)) (o : Opening) :
    ∃ inner, room.opened o = .ok inner ∧ inner.Holds n := by
  obtain ⟨levels, calls⟩ := room
  obtain ⟨hlevels, hcalls⟩ := h
  have ho := o.calls_le
  cases levels with
  | zero => cases hlevels
  | succ levels =>
    simp only at hlevels hcalls
    refine ⟨⟨levels, calls - o.calls⟩, if_pos (by omega), ?_, ?_⟩
    · simp only
      omega
    · simp only
      omega

/-- A stack that holds all levels of a room holds those behind an opening. -/
theorem Holds.behind (h : room.Holds room.levels) (hopened : room.opened o = .ok inner) :
    inner.Holds inner.levels := by
  obtain ⟨hlevels, hcalls⟩ := opened_eq_ok hopened
  have hroom := h.calls
  have ho := o.calls_le
  exact ⟨Nat.le_refl _, by omega⟩

theorem Holds.opened_ne_calls (h : room.Holds room.levels) (o : Opening) :
    room.opened o ≠ .error .calls := by
  obtain ⟨levels, calls⟩ := room
  cases levels with
  | zero => rintro ⟨⟩
  | succ levels =>
    obtain ⟨inner, hinner, -⟩ := Holds.opened h o
    rw [hinner]
    rintro ⟨⟩

end Room

end StyleTally.Stylesheet
