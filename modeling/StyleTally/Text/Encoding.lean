/-!
# Text encodings

Decoding reads a byte at a time from the front and stops at the first byte that cannot continue
the text; the fault says why. Seven encodings are known here. A system knows more of them; their
names are unknown here, as the names are that stand for nothing.
-/

namespace StyleTally.Text

inductive Encoding where
  | utf8
  | utf8Signed
  | utf16
  | utf16Little
  | utf16Big
  | latin1
  | ascii
  deriving DecidableEq, Repr

inductive DecodingFault where
  | invalidStart
  | invalidContinuation
  | endsEarly
  | notAscii
  | oddLength
  | lowSurrogate
  | highSurrogateAlone
  | noByteOrder
  deriving DecidableEq, Repr

namespace DecodingFault

def message : DecodingFault → String
  | invalidStart => "invalid start byte"
  | invalidContinuation => "invalid continuation byte"
  | endsEarly => "unexpected end of data"
  | notAscii => "ordinal not in range(128)"
  | oddLength => "truncated data"
  | lowSurrogate => "illegal encoding"
  | highSurrogateAlone => "illegal UTF-16 surrogate"
  | noByteOrder => "UTF-16 stream does not start with BOM"

end DecodingFault

/-- The name of each encoding, and the other names that it goes by. -/
def encodingNames : List (Encoding × String × List String) :=
  [(.utf8, "utf_8", ["utf8", "u8", "utf", "utf8_ucs2", "utf8_ucs4", "cp65001"]),
   (.utf8Signed, "utf_8_sig", []),
   (.utf16, "utf_16", ["utf16", "u16"]),
   (.utf16Little, "utf_16_le", ["utf_16le", "unicodelittleunmarked"]),
   (.utf16Big, "utf_16_be", ["utf_16be", "unicodebigunmarked"]),
   (.latin1, "latin_1", ["latin1", "latin", "l1", "iso8859_1", "iso_8859_1", "iso8859", "8859",
      "cp819", "csisolatin1", "ibm819", "iso_8859_1_1987", "iso_ir_100"]),
   (.ascii, "ascii", ["us_ascii", "us", "646", "ansi_x3.4_1968", "ansi_x3_4_1968",
      "ansi_x3.4_1986", "cp367", "csascii", "ibm367", "iso646_us", "iso_646.irv_1991",
      "iso_ir_6"])]

/-- What counts of a name: letters and digits of ASCII without regard to case, and points. All that
stands between two of them is one underscore. -/
def plainName (begun parted : Bool) : List Char → List Char
  | [] => []
  | c :: cs =>
    if c.isAlphanum || c == '.' then
      (if begun && parted then ['_'] else []) ++ c.toLower :: plainName true false cs
    else plainName begun true cs

/-- One of the seven encodings by its name. In a name that is not an encoding's first one, a point
may stand for an underscore. -/
def Encoding.ofName? (name : String) : Option Encoding :=
  let plain := plainName false false name.toList
  let pointless := plain.map fun c => if c == '.' then '_' else c
  let matching := encodingNames.find? fun (_, first, others) =>
    first.toList = plain ||
      others.any fun other => other.toList = plain || other.toList = pointless
  matching.map (·.1)

def isContinuation (b : UInt8) : Bool := 0x80 ≤ b && b < 0xC0

/-- The number of bytes after a first byte, and the least and greatest value of the next one. -/
def sequenceShape? (b : UInt8) : Option (Nat × UInt8 × UInt8) :=
  if b < 0xC2 then none
  else if b < 0xE0 then some (1, 0x80, 0xBF)
  else if b == 0xE0 then some (2, 0xA0, 0xBF)
  else if b == 0xED then some (2, 0x80, 0x9F)
  else if b < 0xF0 then some (2, 0x80, 0xBF)
  else if b == 0xF0 then some (3, 0x90, 0xBF)
  else if b < 0xF4 then some (3, 0x80, 0xBF)
  else if b == 0xF4 then some (3, 0x80, 0x8F)
  else none

/-- A character that has begun: the continuation bytes still missing, the value so far, and the
bounds of the next byte. -/
structure Partial where
  missing : Nat
  value : Nat
  least : UInt8
  greatest : UInt8

def decodeUtf8From : Option Partial → List UInt8 → Except DecodingFault (List Char)
  | none, [] => .ok []
  | some _, [] => .error .endsEarly
  | none, b :: bs =>
    if b < 0x80 then (decodeUtf8From none bs).map (Char.ofNat b.toNat :: ·)
    else
      match sequenceShape? b with
      | none => .error .invalidStart
      | some (missing, least, greatest) =>
        decodeUtf8From (some ⟨missing, b.toNat % Nat.pow 2 (6 - missing), least, greatest⟩) bs
  | some part, b :: bs =>
    if b < part.least || part.greatest < b then .error .invalidContinuation
    else
      let value := part.value * 64 + b.toNat % 64
      if part.missing ≤ 1 then (decodeUtf8From none bs).map (Char.ofNat value :: ·)
      else decodeUtf8From (some ⟨part.missing - 1, value, 0x80, 0xBF⟩) bs

def decodeUtf8 (bs : List UInt8) : Except DecodingFault (List Char) :=
  decodeUtf8From none bs

/-- A signature at the front is dropped; a text cut off within the signature is empty. -/
def decodeUtf8Signed : List UInt8 → Except DecodingFault (List Char)
  | [0xEF] | [0xEF, 0xBB] => .ok []
  | 0xEF :: 0xBB :: 0xBF :: bs => decodeUtf8 bs
  | bs => decodeUtf8 bs

/-- Decodes two-byte units, the low byte first when `littleEndian` holds; `high` is a high
surrogate that waits for its partner. -/
def decodeUnits (littleEndian : Bool) : Option Nat → List UInt8 → Except DecodingFault (List Char)
  | none, [] => .ok []
  | none, [_] => .error .oddLength
  | some _, [] | some _, [_] => .error .endsEarly
  | high, a :: b :: bs =>
    let unit := if littleEndian then a.toNat + 256 * b.toNat else 256 * a.toNat + b.toNat
    let isHigh := 0xD800 ≤ unit && unit < 0xDC00
    let isLow := 0xDC00 ≤ unit && unit < 0xE000
    match high with
    | some first =>
      if isLow then
        (decodeUnits littleEndian none bs).map
          (Char.ofNat (0x10000 + (first - 0xD800) * 0x400 + (unit - 0xDC00)) :: ·)
      else .error .highSurrogateAlone
    | none =>
      if isHigh then decodeUnits littleEndian (some unit) bs
      else if isLow then .error .lowSurrogate
      else (decodeUnits littleEndian none bs).map (Char.ofNat unit :: ·)

/-- The first two bytes must give the byte order; without them a text is faulty even where its
units could be read. -/
def decodeUtf16 : List UInt8 → Except DecodingFault (List Char)
  | 0xFF :: 0xFE :: bs => decodeUnits true none bs
  | 0xFE :: 0xFF :: bs => decodeUnits false none bs
  | [] => .ok []
  | bs => (decodeUnits true none bs).bind fun _ => .error .noByteOrder

def decodeAscii : List UInt8 → Except DecodingFault (List Char)
  | [] => .ok []
  | b :: bs =>
    if b < 0x80 then (decodeAscii bs).map (Char.ofNat b.toNat :: ·) else .error .notAscii

def Encoding.decode : Encoding → List UInt8 → Except DecodingFault (List Char)
  | .utf8, bs => decodeUtf8 bs
  | .utf8Signed, bs => decodeUtf8Signed bs
  | .utf16, bs => decodeUtf16 bs
  | .utf16Little, bs => decodeUnits true none bs
  | .utf16Big, bs => decodeUnits false none bs
  | .latin1, bs => .ok (bs.map fun b => Char.ofNat b.toNat)
  | .ascii, bs => decodeAscii bs

end StyleTally.Text
