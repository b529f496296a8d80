import StyleTally.Text.Trim

/-!
# Quoted text

A text is shown between single quotes, or between double quotes when it holds a single quote and
no double one. The quote itself and the backslash get a backslash in front; characters that do not
print are written by their code point in hexadecimal.
-/

namespace StyleTally.Text

/-- Hexadecimal digits in lower case, with zeros in front up to the width. -/
def hexPadded (width n : Nat) : List Char :=
  padLeft width '0' (Nat.toDigits 16 n)

def quoteFor (cs : List Char) : Char :=
  if cs.contains '\'' && !cs.contains '"' then '"' else '\''

def quotedChar (quote c : Char) : List Char :=
  if c == quote || c == '\\' then ['\\', c]
  else if c == '\n' then ['\\', 'n']
  else if c == '\r' then ['\\', 'r']
  else if c == '\t' then ['\\', 't']
  else if isPrintable c then [c]
  else if c.toNat < 0x100 then '\\' :: 'x' :: hexPadded 2 c.toNat
  else if c.toNat < 0x10000 then '\\' :: 'u' :: hexPadded 4 c.toNat
  else '\\' :: 'U' :: hexPadded 8 c.toNat

def quotedChars (cs : List Char) : List Char :=
  let quote := quoteFor cs
  quote :: cs.flatMap (quotedChar quote) ++ [quote]

def quoted (s : String) : String :=
  String.ofList (quotedChars s.toList)

end StyleTally.Text
