import StyleTally.Text.Trim

/-!
# Switches

The arguments of a command are operands and switches. A switch has a long name behind two dashes, or
a letter behind one; letters may share a dash. A value stands behind an equals sign or a letter, or
is the next argument, whatever it looks like. Two dashes alone make operands of all that follows.
-/

namespace StyleTally

/-- A switch that a command knows. -/
structure Switch (α : Type) where
  key : α
  name : String
  letter : Option Char
  takesValue : Bool

/-- A switch that an argument gives; one that takes no value has an empty one. -/
structure Given (α : Type) where
  key : α
  value : String

inductive ArgumentFault where
  | unknown (written : String)
  | missingValue (name : String)
  | unwantedValue (name : String)
  deriving DecidableEq, Repr

def ArgumentFault.message : ArgumentFault → String
  | unknown written => "No such option: " ++ written
  | missingValue name => "Option --" ++ name ++ " requires an argument."
  | unwantedValue name => "Option --" ++ name ++ " does not take a value."

/-- The switches of one argument; the last of them may still wait for its value. -/
structure SwitchGroup (α : Type) where
  given : List (Given α)
  waiting : Option (Switch α)

structure Arguments (α : Type) where
  given : List (Given α)
  operands : List String

namespace Arguments

variable {α : Type}

def withGiven (given : List (Given α)) (a : Arguments α) : Arguments α :=
  { a with given := given ++ a.given }

def withOperand (operand : String) (a : Arguments α) : Arguments α :=
  { a with operands := operand :: a.operands }

end Arguments

namespace Switch

variable {α : Type}

/-- A dash alone is an operand. -/
def isWritten : List Char → Bool
  | '-' :: _ :: _ => true
  | _ => false

def readLetters (known : List (Switch α)) : List Char → Except ArgumentFault (SwitchGroup α)
  | [] => .ok ⟨[], none⟩
  | c :: cs =>
    match known.find? fun s => s.letter = some c with
    | none => .error (.unknown (String.ofList ['-', c]))
    | some s =>
      if !s.takesValue then
        (readLetters known cs).map fun g => { g with given := ⟨s.key, ""⟩ :: g.given }
      else if cs.isEmpty then .ok ⟨[], some s⟩
      else .ok ⟨[⟨s.key, String.ofList cs⟩], none⟩

def readName (known : List (Switch α)) (written : List Char) :
    Except ArgumentFault (SwitchGroup α) :=
  let name := String.ofList (written.takeWhile (· != '='))
  match known.find? fun s => s.name = name with
  | none => .error (.unknown ("--" ++ name))
  | some s =>
    match s.takesValue, written.dropWhile (· != '=') with
    | true, [] => .ok ⟨[], some s⟩
    | true, _ :: value => .ok ⟨[⟨s.key, String.ofList value⟩], none⟩
    | false, [] => .ok ⟨[⟨s.key, ""⟩], none⟩
    | false, _ :: _ => .error (.unwantedValue s.name)

def readGroup (known : List (Switch α)) : List Char → Except ArgumentFault (SwitchGroup α)
  | '-' :: '-' :: written => readName known written
  | _ :: letters => readLetters known letters
  | [] => .ok ⟨[], none⟩

/-- Reads arguments; with `stops`, everything from the first operand on is left as it is. -/
def read (known : List (Switch α)) (stops : Bool) :
    List String → Except ArgumentFault (Arguments α)
  | [] => .ok ⟨[], []⟩
  | argument :: rest =>
    if argument = "--" then .ok ⟨[], rest⟩
    else if isWritten argument.toList then
      match readGroup known argument.toList with
      | .error fault => .error fault
      | .ok ⟨given, none⟩ => (read known stops rest).map (.withGiven given)
      | .ok ⟨given, some s⟩ =>
        match rest with
        | [] => .error (.missingValue s.name)
        | value :: rest => (read known stops rest).map (.withGiven (given ++ [⟨s.key, value⟩]))
    else if stops then .ok ⟨[], argument :: rest⟩
    else (read known stops rest).map (.withOperand argument)

end Switch

namespace Arguments

variable {α : Type} [DecidableEq α]

def has (a : Arguments α) (key : α) : Bool := a.given.any fun g => g.key = key

def values (a : Arguments α) (key : α) : List String :=
  a.given.filterMap fun g => if g.key = key then some g.value else none

/-- A value that is given again replaces the one before. -/
def value? (a : Arguments α) (key : α) : Option String := (a.values key).getLast?

end Arguments

end StyleTally
