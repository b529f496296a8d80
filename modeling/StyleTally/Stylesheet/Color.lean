import StyleTally.Decimal.Notation
import StyleTally.Text.LowerCase
import StyleTally.Text.Quoted

/-!
# Colors

Named color words, colors written in hexadecimal, and the one text that stands for a color however
it was written.
-/

namespace StyleTally.Stylesheet

open Text

structure Color where
  red : Int
  green : Int
  blue : Int
  alpha : Binary64
  source : String
  deriving DecidableEq, Repr

namespace Color

/-- The named colors. `transparent` and `currentcolor` are words, not colors. -/
def names : List String :=
  ["aliceblue", "antiquewhite", "aqua", "aquamarine", "azure", "beige", "bisque", "black",
   "blanchedalmond", "blue", "blueviolet", "brown", "burlywood", "cadetblue", "chartreuse",
   "chocolate", "coral", "cornflowerblue", "cornsilk", "crimson", "cyan", "darkblue", "darkcyan",
   "darkgoldenrod", "darkgray", "darkgreen", "darkgrey", "darkkhaki", "darkmagenta",
   "darkolivegreen", "darkorange", "darkorchid", "darkred", "darksalmon", "darkseagreen",
   "darkslateblue", "darkslategray", "darkslategrey", "darkturquoise", "darkviolet",
   "deeppink", "deepskyblue", "dimgray", "dimgrey", "dodgerblue", "firebrick", "floralwhite",
   "forestgreen", "fuchsia", "gainsboro", "ghostwhite", "gold", "goldenrod", "gray", "green",
   "greenyellow", "grey", "honeydew", "hotpink", "indianred", "indigo", "ivory", "khaki",
   "lavender", "lavenderblush", "lawngreen", "lemonchiffon", "lightblue", "lightcoral",
   "lightcyan", "lightgoldenrodyellow", "lightgray", "lightgreen", "lightgrey", "lightpink",
   "lightsalmon", "lightseagreen", "lightskyblue", "lightslategray", "lightslategrey",
   "lightsteelblue", "lightyellow", "lime", "limegreen", "linen", "magenta", "maroon",
   "mediumaquamarine", "mediumblue", "mediumorchid", "mediumpurple", "mediumseagreen",
   "mediumslateblue", "mediumspringgreen", "mediumturquoise", "mediumvioletred",
   "midnightblue", "mintcream", "mistyrose", "moccasin", "navajowhite", "navy", "oldlace", "olive",
   "olivedrab", "orange", "orangered", "orchid", "palegoldenrod", "palegreen", "paleturquoise",
   "palevioletred", "papayawhip", "peachpuff", "peru", "pink", "plum", "powderblue", "purple",
   "rebeccapurple", "red", "rosybrown", "royalblue", "saddlebrown", "salmon", "sandybrown",
   "seagreen", "seashell", "sienna", "silver", "skyblue", "slateblue", "slategray", "slategrey",
   "snow", "springgreen", "steelblue", "tan", "teal", "thistle", "tomato", "turquoise", "violet",
   "wheat", "white", "whitesmoke", "yellow", "yellowgreen"]

def isName (word : String) : Bool := names.contains (lowerCase word)

/-- The share of opacity that one byte stands for, to two places. -/
def alphaOfByte (n : Nat) : Binary64 := (Binary64.ofRatio false n 255).roundPlaces 2

/-- The color written as `#` and three, four, six or eight hexadecimal digits. Three or four
digits stand for twice as many, each doubled. -/
def ofHex? (text : String) : Option Color :=
  match text.toList with
  | '#' :: digits =>
    if !digits.all isHexDigit then none
    else
      let double (c : Char) := 17 * hexValue c
      let pair (a b : Char) := 16 * hexValue a + hexValue b
      match digits with
      | [r, g, b] => some ⟨double r, double g, double b, .ofNat 1, text⟩
      | [r, g, b, a] => some ⟨double r, double g, double b, alphaOfByte (double a), text⟩
      | [r, r', g, g', b, b'] => some ⟨pair r r', pair g g', pair b b', .ofNat 1, text⟩
      | [r, r', g, g', b, b', a, a'] =>
        some ⟨pair r r', pair g g', pair b b', alphaOfByte (pair a a'), text⟩
      | _ => none
  | _ => none

/-- Two hexadecimal digits at least, and a sign for a negative channel. -/
def channelChars (n : Int) : List Char :=
  if n < 0 then '-' :: padLeft 1 '0' (Nat.toDigits 16 n.natAbs) else hexPadded 2 n.natAbs

def channelsText (c : Color) : List Char :=
  channelChars c.red ++ channelChars c.green ++ channelChars c.blue

/-- The text of a color: in `rgba` form when it is not opaque, in three hexadecimal digits when
all three channels are doubled digits, and in six otherwise. -/
def render (c : Color) : String :=
  if c.alpha.lt (.ofNat 1) then
    s!"rgba({decimal c.red},{decimal c.green},{decimal c.blue},{Decimal.plain c.alpha})"
  else
    match channelsText c with
    | r :: r' :: g :: g' :: b :: b' :: rest =>
      String.ofList <|
        if r == r' && g == g' && b == b' then ['#', r, g, b]
        else '#' :: r :: r' :: g :: g' :: b :: b' :: rest
    | short => String.ofList ('#' :: short)

end Color

end StyleTally.Stylesheet
