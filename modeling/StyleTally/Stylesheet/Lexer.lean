import StyleTally.Decimal.Reading
import StyleTally.Stylesheet.Fault

/-!
# Reading tokens

Each token follows a gap of blank space and comments. A token is the longest one of the first kind
that fits, in a fixed order of kinds; a character that opens no other token stands for itself.
-/

namespace StyleTally.Stylesheet

open Text

/-- What the characters of a gap belong to; a block comment remembers the line it opens on. -/
inductive Skipping where
  | blank
  | block (line : Nat)
  | untilLineEnd

def lineAfter (line : Nat) (c : Char) : Nat := if c == '\n' then line + 1 else line

def linesAfter (line : Nat) (cs : List Char) : Nat := cs.foldl lineAfter line

/-- Blank space and comments at the front of a text, and the rest of the text. -/
def gapFrom (line : Nat) : Skipping → List Char → Except Fault (List Char × List Char)
  | .blank, '/' :: '*' :: cs => skip ['/', '*'] (gapFrom line (.block line) cs)
  | .blank, '/' :: '/' :: cs => skip ['/', '/'] (gapFrom line .untilLineEnd cs)
  | .blank, c :: cs =>
    if isBlank c then skip [c] (gapFrom (lineAfter line c) .blank cs) else .ok ([], c :: cs)
  | .block _, '*' :: '/' :: cs => skip ['*', '/'] (gapFrom line .blank cs)
  | .block opened, c :: cs => skip [c] (gapFrom (lineAfter line c) (.block opened) cs)
  | .block opened, [] => .error (.malformed .unterminatedComment opened)
  | .untilLineEnd, c :: cs =>
    if c == '\n' then skip [c] (gapFrom (line + 1) .blank cs)
    else skip [c] (gapFrom line .untilLineEnd cs)
  | _, [] => .ok ([], [])
where
  skip (cs : List Char) (r : Except Fault (List Char × List Char)) :
      Except Fault (List Char × List Char) :=
    r.map fun (gap, rest) => (cs ++ gap, rest)

/-- Letters, digits, the underscore and the hyphen. -/
def isNameChar (c : Char) : Bool := isWordChar c || c == '-'

/-- Name characters and all others beyond ASCII, up to the sixteen-bit limit. -/
def isIdentChar (c : Char) : Bool := isNameChar c || (0x80 ≤ c.toNat && c.toNat ≤ 0xFFFF)

def isIdentStart (c : Char) : Bool :=
  c.isAlpha || c == '_' || (0x80 ≤ c.toNat && c.toNat ≤ 0xFFFF)

/-- The length of the longest front part of such characters and of escapes, which are a backslash
and any character but a line feed. -/
def escapedRun (p : Char → Bool) : List Char → Nat
  | [] => 0
  | '\\' :: c :: cs => if c == '\n' then 0 else escapedRun p cs + 2
  | c :: cs => if p c then escapedRun p cs + 1 else 0

/-- The length of an identifier after its dashes. -/
def undashedLength? : List Char → Option Nat
  | '\\' :: c :: rest => if c == '\n' then none else some (2 + escapedRun isIdentChar rest)
  | c :: rest => if isIdentStart c then some (1 + escapedRun isIdentChar rest) else none
  | [] => none

def identLength? (cs : List Char) : Option Nat :=
  let dashes := (cs.takeWhile (· == '-')).length
  if 2 < dashes then none else (undashedLength? (cs.drop dashes)).map (dashes + ·)

/-- Whether a text opens with characters that pass the tests, one after the other. -/
def opensWith : List (Char → Bool) → List Char → Bool
  | [], _ => true
  | _ :: _, [] => false
  | p :: ps, c :: cs => p c && opensWith ps cs

/-- Whether a character is the given small letter or its capital. -/
def isLetter (small c : Char) : Bool := c.toLower == small

/-- The letters and the colon in front of the name of a filter. The letter `i` may also be one of
its two relatives with a different dot. -/
def filterMark : List (Char → Bool) :=
  [isLetter 'p', isLetter 'r', isLetter 'o', isLetter 'g', ['i', 'I', 'ı', 'İ'].contains,
   isLetter 'd', (· == ':')]

/-- A filter name: `progid`, a colon, and a run of word characters and points. -/
def filterNameLength? (cs : List Char) : Option Nat :=
  let run := ((cs.drop 7).takeWhile fun c => isWordChar c || c == '.').length
  if opensWith filterMark cs && 0 < run then some (7 + run) else none

/-- The contents of a string after its opening quote. A backslash keeps the next character from
ending the string, and a line feed ends it early unless the quote is a backtick. -/
def stringBody? (quote : Char) : List Char → Option (List Char)
  | [] | ['\\'] => none
  | '\\' :: c :: cs => (stringBody? quote cs).map ('\\' :: c :: ·)
  | c :: cs =>
    if c == quote then some []
    else if c == '\n' && quote != '\x60' then none
    else (stringBody? quote cs).map (c :: ·)

/-- The contents of a URL after its opening parenthesis; closing parentheses within quotes belong
to it. -/
def urlBody? : Option Char → List Char → Option (List Char)
  | _, [] | _, ['\\'] => none
  | open?, '\\' :: c :: cs => (urlBody? open? cs).map ('\\' :: c :: ·)
  | some quote, c :: cs =>
    (urlBody? (if c == quote then none else some quote) cs).map (c :: ·)
  | none, c :: cs =>
    if c == ')' then some []
    else (urlBody? (if c == '"' || c == '\'' then some c else none) cs).map (c :: ·)

def opensUrl : List Char → Bool :=
  opensWith [isLetter 'u', isLetter 'r', isLetter 'l', (· == '(')]

/-- `U+` with one to six hexadecimal digits or question marks, and perhaps the end of a range. -/
def unicodeRangeLength? : List Char → Option Nat
  | u :: '+' :: cs =>
    let first := (cs.takeWhile fun c => isHexDigit c || c == '?').length
    let first := min first 6
    if (u == 'u' || u == 'U') && 0 < first then
      match cs.drop first with
      | '-' :: rest =>
        let last := min (rest.takeWhile isHexDigit).length 6
        some (if 0 < last then 3 + first + last else 2 + first)
      | _ => some (2 + first)
    else none
  | _ => none

/-- A number as it is written: its sign, digits before and after the point, its exponent with the
text of it, and the unit. -/
structure NumberText where
  sign : List Char
  whole : List Char
  places : List Char
  exponent : List Char
  unit : List Char

namespace NumberText

/-- The text of a number; the point is there exactly when digits follow it. -/
def text (n : NumberText) : List Char :=
  n.sign ++ n.whole ++ (if n.places.isEmpty then [] else '.' :: n.places) ++ n.exponent ++ n.unit

def value (n : NumberText) : Binary64 :=
  let digits := (n.whole ++ n.places).map Decimal.plainChar
  let exponent := (Decimal.readExponent? (n.exponent.map Decimal.plainChar)).getD 0
  .ofDecimal (n.sign == ['-']) (Decimal.digitsValue digits) (exponent - n.places.length)

def readExponent : List Char → List Char
  | e :: cs =>
    let sign := cs.takeWhile (fun c => c == '+' || c == '-') |>.take 1
    let digits := (cs.drop sign.length).takeWhile isDecimalDigit
    if (e == 'e' || e == 'E') && !digits.isEmpty then e :: sign ++ digits else []
  | [] => []

def unitWord : List Char → List Char
  | '%' :: _ => ['%']
  | cs => cs.takeWhile Char.isAlpha

/-- A percent sign or letters, and perhaps the escape of a hexadecimal digit. -/
def readUnit (cs : List Char) : List Char :=
  let word := unitWord cs
  match cs.drop word.length with
  | '\\' :: c :: _ => if isHexDigit c then word ++ ['\\', c] else word
  | _ => word

/-- The digits after a point. -/
def readPlaces : List Char → List Char
  | '.' :: cs => cs.takeWhile isDecimalDigit
  | _ => []

def read? (cs : List Char) : Option NumberText :=
  let sign := cs.takeWhile (fun c => c == '+' || c == '-') |>.take 1
  let cs := cs.drop sign.length
  let whole := cs.takeWhile isDecimalDigit
  let rest := cs.drop whole.length
  let places := readPlaces rest
  if whole.isEmpty && places.isEmpty then none
  else
    let rest := if places.isEmpty then rest else rest.drop (places.length + 1)
    let exponent := readExponent rest
    some ⟨sign, whole, places, exponent, readUnit (rest.drop exponent.length)⟩

end NumberText

/-- Delimiters after which a sign belongs to the number that follows it. -/
def signContext : List Char := "(,:/*+-=<>\x7b\x7d;".toList

/-- A sign belongs to a number at the start, after blank space and after such a delimiter;
elsewhere it is an operator. -/
def signBinds (previous : Option Token) (spaced : Bool) : Bool :=
  match previous with
  | none => true
  | some t =>
    match t.lexeme with
    | .delim c => signContext.contains c || spaced
    | _ => spaced

/-- The text of a token that opens at `c` and has so many characters after it. -/
def nameFrom (c : Char) (cs : List Char) (length : Nat) : String := String.ofList (c :: cs.take length)

/-- A string, after its opening quote. -/
def quotedAt (quote : Char) (cs : List Char) : Except Cause (Lexeme × Nat) :=
  match stringBody? quote cs with
  | none => .error .unterminatedString
  | some body => .ok (.quoted (String.ofList body) quote, body.length + 1)

/-- A URL, after its first letter. -/
def urlAt (cs : List Char) : Except Cause (Lexeme × Nat) :=
  match urlBody? none (cs.drop 3) with
  | none => .error .unterminatedUrl
  | some body => .ok (.url (String.ofList (trimChars body)), body.length + 4)

/-- A variable in braces, after its at sign. -/
def interpolation? : List Char → Option (Lexeme × Nat)
  | '{' :: cs =>
    let name := cs.takeWhile isNameChar
    match name, cs.drop name.length with
    | _ :: _, '}' :: _ => some (.interpolation (String.ofList name), name.length + 2)
    | _, _ => none
  | _ => none

/-- A name after an at sign, and perhaps after a second one. -/
def atKeyword? (cs : List Char) : Option (Lexeme × Nat) :=
  let at? := cs.takeWhile (· == '@') |>.take 1
  let name := (cs.drop at?.length).takeWhile isNameChar
  if name.isEmpty then none
  else some (.atKeyword (String.ofList (at? ++ name)), at?.length + name.length)

/-- A number; a sign in front of it is part of it where signs bind. -/
def number? (previous : Option Token) (spaced : Bool) (cs : List Char) : Option (Lexeme × Nat) := do
  let n ← NumberText.read? cs
  if n.sign.isEmpty || signBinds previous spaced then
    some (.number (String.ofList n.text) n.value (String.ofList n.unit), n.text.length - 1)
  else none

/-- A name after a number sign, or the sign alone. -/
def hashAt (c : Char) (cs : List Char) : Lexeme × Nat :=
  let n := escapedRun isNameChar cs
  if 0 < n then (.hash (nameFrom c cs n), n) else (.delim c, 0)

/-- A name, three points, or a character that stands for itself. -/
def wordAt (c : Char) (cs : List Char) : Lexeme × Nat :=
  match (filterNameLength? (c :: cs)).or (identLength? (c :: cs)) with
  | some n => (.ident (nameFrom c cs (n - 1)), n - 1)
  | none =>
    if opensWith [(· == '.'), (· == '.'), (· == '.')] (c :: cs) then (.ellipsis, 2)
    else (.delim c, 0)

/-- The token text that opens at `c` and is neither a string nor a URL. -/
def plainAt (previous : Option Token) (spaced : Bool) (c : Char) (cs : List Char) :
    Lexeme × Nat :=
  match unicodeRangeLength? (c :: cs) with
  | some n => (.unicodeRange (nameFrom c cs (n - 1)), n - 1)
  | none =>
    if c == '@' then (interpolation? cs).getD ((atKeyword? cs).getD (.delim c, 0))
    else
      match number? previous spaced (c :: cs) with
      | some found => found
      | none => if c == '#' then hashAt c cs else wordAt c cs

/-- The token text that opens at `c`, as a lexeme and the number of characters after `c`. -/
def lexemeAt (previous : Option Token) (gap : List Char) (c : Char) (cs : List Char) :
    Except Cause (Lexeme × Nat) :=
  let spaced := !gap.isEmpty
  let joined := !spaced && previous.any fun t => t.text.getLast?.any isNameChar
  if c == '"' || c == '\'' || c == '\x60' then quotedAt c cs
  else if opensUrl (c :: cs) && !joined then urlAt cs
  else .ok (plainAt previous spaced c cs)

theorem gapFrom.skip_eq_ok {cs gap rest : List Char} {r : Except Fault (List Char × List Char)}
    (h : gapFrom.skip cs r = .ok (gap, rest)) : ∃ front, r = .ok (front, rest) ∧ gap = cs ++ front := by
  cases r with
  | error e => cases h
  | ok p =>
    obtain ⟨front, rest'⟩ := p
    cases h
    exact ⟨front, rfl, rfl⟩

theorem gapFrom_append {line : Nat} {mode : Skipping} {cs gap rest : List Char}
    (h : gapFrom line mode cs = .ok (gap, rest)) : gap ++ rest = cs := by
  fun_induction gapFrom line mode cs generalizing gap rest with
  | case1 _ cs ih | case2 _ cs ih | case3 _ c cs _ _ _ ih | case5 _ _ cs ih | case6 _ _ c cs _ ih
  | case8 _ c cs _ ih | case9 _ c cs _ ih =>
    obtain ⟨front, hfront, rfl⟩ := gapFrom.skip_eq_ok h
    simpa using ih hfront
  | case4 | case10 =>
    cases h
    rfl
  | case7 => cases h

/-- The next token of a text that starts at the given line and offset, after the previous token, and
the text after it. The token without a text stands for the end of the input. -/
def nextToken (line start : Nat) (previous : Option Token) (cs : List Char) :
    Except Fault (Token × List Char) :=
  match gapFrom line .blank cs with
  | .error e => .error e
  | .ok (gap, []) => .ok (⟨.endOfInput, gap, [], linesAfter line gap, start + gap.length⟩, [])
  | .ok (gap, c :: cs) =>
    match lexemeAt previous gap c cs with
    | .error cause => .error (.malformed cause (linesAfter line gap))
    | .ok (lexeme, extra) =>
      .ok (⟨lexeme, gap, c :: cs.take extra, linesAfter line gap, start + gap.length⟩, cs.drop extra)

/-- A token has its place, and with its gap it is cut off the front of the text. -/
theorem nextToken_spec {line start : Nat} {previous : Option Token} {cs rest : List Char}
    {t : Token} (h : nextToken line start previous cs = .ok (t, rest)) :
    cs = t.gap ++ t.text ++ rest ∧ (t.text = [] → rest = []) ∧ t.line = linesAfter line t.gap ∧
      t.start = start + t.gap.length := by
  unfold nextToken at h
  split at h
  · cases h
  · rename_i hgap
    cases h
    have happend := gapFrom_append hgap
    exact ⟨by simpa using happend.symm, fun _ => rfl, rfl, rfl⟩
  · rename_i gap c cs' hgap
    have happend := gapFrom_append hgap
    split at h
    · cases h
    · rename_i lexeme extra hlexeme
      cases h
      exact ⟨by simp [← happend], by simp, rfl, rfl⟩

/-- The tokens of a text that starts at the given line and offset, after the previous token. -/
def tokensFrom (line start : Nat) (previous : Option Token) (cs : List Char) :
    Except Fault (List Token) :=
  match _h : nextToken line start previous cs with
  | .error e => .error e
  | .ok (t, rest) =>
    if _ht : t.text = [] then .ok [t]
    else (tokensFrom (linesAfter t.line t.text) t.stop (some t) rest).map (t :: ·)
termination_by cs.length
decreasing_by
  have hcs := (nextToken_spec _h).1
  have htext := List.length_pos_iff.mpr _ht
  simp only [hcs, List.length_append]
  omega

/-- The tokens of a stylesheet; the last one stands for the end of it. -/
def tokenize (source : String) : Except Fault (List Token) :=
  tokensFrom 1 0 none source.toList

end StyleTally.Stylesheet
