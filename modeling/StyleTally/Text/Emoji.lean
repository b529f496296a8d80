import StyleTally.Text.Emoji.Flags
import StyleTally.Text.Emoji.Persons
import StyleTally.Text.Emoji.Pictures
import StyleTally.Text.LowerCase
import StyleTally.Text.Trim

/-!
# Emoji codes

A code is the name of a picture between two colons. `replace` draws the codes of a text and leaves
a name that names no picture as it is. Names count without regard to case, and `-text` or `-emoji`
behind a name asks for that form of the picture.

The table stands in for that of a console library. No result rests on it.
-/

namespace StyleTally.Text.Emoji

/-- Words that stand in turn for a name and for what it names. -/
def pairs : List String → List (String × String)
  | name :: value :: rest => (name, value) :: pairs rest
  | _ => []

def entries (written : String) : List (String × String) := pairs (words written)

def places : List (String × String) := entries placeWords

def flags : List (String × String) := entries flagWords

def persons : List (String × String) := entries personWords

def pictures : List (String × String) := entries pictureWords

/-- A flag is drawn by the two letters of its place, as regional indicators. -/
def drawFlag (letters : String) : List Char :=
  letters.toList.map fun c => Char.ofNat (c.toNat - 'A'.toNat + 0x1F1E6)

def flag? (name : String) : Option (List Char) :=
  let place := if startsWith name "flag_for_" then
      String.ofList (name.toList.drop "flag_for_".length)
    else name
  ((places.lookup place).or (flags.lookup name)).map drawFlag

/-- The skin tones by the end of a name, each with the character that asks for it. -/
def tones : List (String × Char) :=
  [("_light_skin_tone", .ofNat 0x1F3FB), ("_medium-light_skin_tone", .ofNat 0x1F3FC),
   ("_medium_skin_tone", .ofNat 0x1F3FD), ("_medium-dark_skin_tone", .ofNat 0x1F3FE),
   ("_dark_skin_tone", .ofNat 0x1F3FF)]

/-- Asks for the form of a picture as text. -/
def textForm : Char := .ofNat 0xFE0E

/-- Asks for the form of a picture in color. -/
def pictureForm : Char := .ofNat 0xFE0F

/-- The tone stands behind the first character and takes the place of a form. -/
def withTone (tone : Char) : List Char → List Char
  | c :: cs => c :: tone :: (if cs.head? = some pictureForm then cs.drop 1 else cs)
  | [] => []

/-- A name without what it ends in. -/
def dropEnd? (name ending : List Char) : Option (List Char) :=
  if startsWithChars ending.reverse name.reverse then
    some (name.take (name.length - ending.length))
  else none

def person? (name : String) : Option (List Char) :=
  match persons.lookup name with
  | some picture => some picture.toList
  | none => tones.findSome? fun (ending, tone) => do
    let person ← dropEnd? name.toList ending.toList
    let picture ← persons.lookup (String.ofList person)
    return withTone tone picture.toList

def picture? (name : String) : Option (List Char) :=
  ((flag? name).or (person? name)).or ((pictures.lookup name).map String.toList)

/-- What a code shows, if it names a picture. -/
def draw? (code : List Char) : Option (List Char) :=
  let draw (name form : List Char) : Option (List Char) :=
    (picture? (lowerCase (String.ofList name))).map (· ++ form)
  match dropEnd? code "-text".toList, dropEnd? code "-emoji".toList with
  | some name, _ => draw name [textForm]
  | none, some name => draw name [pictureForm]
  | none, none => draw code []

/-- The characters up to the next colon, when none of them is blank. -/
def code? : List Char → Option (List Char)
  | [] => none
  | c :: cs =>
    if c == ':' then some []
    else if isBlank c then none
    else (code? cs).map (c :: ·)

/-- Draws the codes of a text; `skip` characters belong to a code that has been dealt with. -/
def replaceFrom (skip : Nat) : List Char → List Char
  | [] => []
  | c :: cs =>
    match skip with
    | skip + 1 => replaceFrom skip cs
    | 0 =>
      if c == ':' then
        match code? cs with
        | some code => (draw? code).getD (':' :: code ++ [':']) ++ replaceFrom (code.length + 1) cs
        | none => ':' :: replaceFrom 0 cs
      else c :: replaceFrom 0 cs

def replace (cs : List Char) : List Char := replaceFrom 0 cs

end StyleTally.Text.Emoji
