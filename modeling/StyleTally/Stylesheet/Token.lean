import StyleTally.Decimal.Binary64
import StyleTally.Text.Quoted

/-!
# Tokens

A token carries its source text and the skipped text in front of it, so that the tokens of a
stylesheet put together give back the stylesheet.
-/

namespace StyleTally.Stylesheet

inductive Lexeme where
  | ident (text : String)
  /-- A name after an at sign; a second at sign is part of the name. -/
  | atKeyword (name : String)
  | interpolation (name : String)
  /-- A name with the number sign in front. -/
  | hash (text : String)
  | number (text : String) (value : Binary64) (unit : String)
  | quoted (text : String) (quote : Char)
  | url (text : String)
  | unicodeRange (text : String)
  | delim (c : Char)
  | ellipsis
  | endOfInput
  deriving DecidableEq, Repr

namespace Lexeme

def kind : Lexeme → String
  | ident _ => "ident"
  | atKeyword _ => "atkeyword"
  | interpolation _ => "interp"
  | hash _ => "hash"
  | number _ _ _ => "number"
  | quoted _ _ => "string"
  | url _ => "url"
  | unicodeRange _ => "unicode_range"
  | delim _ | ellipsis => "delim"
  | endOfInput => "eof"

def value : Lexeme → String
  | ident s | atKeyword s | interpolation s | hash s | number s _ _ | quoted s _ | url s
  | unicodeRange s => s
  | delim c => String.singleton c
  | ellipsis => "..."
  | endOfInput => ""

end Lexeme

structure Token where
  lexeme : Lexeme
  /-- Blank space and comments in front of the token. -/
  gap : List Char
  text : List Char
  line : Nat
  start : Nat
  deriving DecidableEq, Repr

namespace Token

def stop (t : Token) : Nat := t.start + t.text.length

def spaced (t : Token) : Bool := !t.gap.isEmpty

def isDelim (t : Token) (c : Char) : Bool := t.lexeme == .delim c

/-- Whether the token is the word, in capitals or small letters. -/
def isWord (t : Token) (word : String) : Bool :=
  match t.lexeme with
  | .ident s => s.toList.map Char.toLower == word.toList
  | _ => false

/-- The token as diagnostics list it. -/
def describe (t : Token) : String :=
  s!"Token({t.lexeme.kind}, {Text.quoted t.lexeme.value}, line={t.line})"

end Token

/-- The text that tokens span, without the skipped text in front of the first. -/
def spannedChars : List Token → List Char
  | [] => []
  | t :: ts => t.text ++ ts.flatMap fun u => u.gap ++ u.text

end StyleTally.Stylesheet
