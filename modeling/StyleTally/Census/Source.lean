import StyleTally.Files.Tree
import StyleTally.Problem

/-!
# Reading sources

A stylesheet is read as bytes, decoded, and its line ends are unified. A file that cannot be read
or decoded is a problem of that file; an encoding that is not known concerns every file.
-/

namespace StyleTally

inductive SourceFault where
  | problem (p : Problem)
  | unknownEncoding (name : String)
  | noByteOrder
  | badPath
  | badEncodingName
  deriving Repr

/-- What a fault that concerns every file is reported as. -/
def SourceFault.message : SourceFault → String
  | problem p => p.text
  | unknownEncoding name => "unknown encoding: " ++ name
  | noByteOrder => Text.DecodingFault.noByteOrder.message
  | badPath => FileFault.badCharacter.reason
  | badEncodingName => "embedded null character"

/-- Reads a file in the encoding of the name; without a name it is UTF-8. -/
def readSource (t : FileTree) (encoding : Option String) (path : String) :
    Except SourceFault String :=
  let name := encoding.getD "None"
  if name.toList.contains '\x00' then .error .badEncodingName
  else match t.read path with
  | .error .badCharacter => .error .badPath
  | .error fault => .error (.problem (.fileAccess path fault.reason))
  | .ok bytes =>
    match encoding.elim (some .utf8) Text.Encoding.ofName? with
    | none => .error (.unknownEncoding name)
    | some e =>
      match e.decode bytes with
      | .ok cs => .ok (String.ofList (Text.unifyLineEnds cs))
      | .error .noByteOrder => .error .noByteOrder
      | .error fault =>
        let reason := "Cannot decode as " ++ name ++ ": " ++ fault.message
        .error (.problem (.fileAccess path reason))

end StyleTally
