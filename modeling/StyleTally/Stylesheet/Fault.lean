import StyleTally.Stylesheet.Token

/-!
# Faults of a stylesheet

Why a stylesheet is refused, and on which line.
-/

namespace StyleTally.Stylesheet

/-- What stands where something else was wanted. -/
inductive Found where
  | endOfInput
  | text (value : String)
  deriving DecidableEq, Repr

inductive Cause where
  | unterminatedComment
  | unterminatedString
  | unterminatedUrl
  | expected (c : Char) (found : Found)
  | unclosed (opener : Char)
  | unexpected (found : Found)
  | unclosedBlock
  | unexpectedInMixinCall (found : Found)
  | unexpectedAfterMixinCall (found : Found)
  | unexpectedInSelector (found : Found)
  | missingColon
  | missingPropertyName
  | missingMixinName
  | missingGuard
  | missingValue (name : String)
  | missingFeatureValue (name : String)
  | missingMediaBody
  | missingImportPath
  | missingSelector
  | emptySelector
  | emptyMediaQuery
  | missingPseudoName
  | missingAttributeName
  | missingAttributeOperator
  | missingAttributeValue
  | missingExpression
  deriving DecidableEq, Repr

def Found.describe : Found → String
  | endOfInput => "end of input"
  | text value => Text.quoted value

def Cause.message : Cause → String
  | unterminatedComment => "unterminated comment"
  | unterminatedString => "unterminated string"
  | unterminatedUrl => "unterminated url()"
  | expected c found => s!"expected '{c}' but found {found.describe}"
  | unclosed opener => s!"unclosed '{opener}'"
  | unexpected found => s!"unexpected {found.describe}"
  | unclosedBlock => "unexpected end of input, expected '\x7d'"
  | unexpectedInMixinCall found => s!"unexpected {found.describe} in mixin call"
  | unexpectedAfterMixinCall found => s!"unexpected {found.describe} after mixin call"
  | unexpectedInSelector found => s!"unexpected {found.describe} in selector"
  | missingColon => "expected ':' in declaration"
  | missingPropertyName => "missing property name"
  | missingMixinName => "missing mixin name"
  | missingGuard => "missing guard condition"
  | missingValue name => s!"missing value for @{name}"
  | missingFeatureValue name => s!"missing value for media feature {name}"
  | missingMediaBody => "expected '\x7b' after @media"
  | missingImportPath => "missing import path"
  | missingSelector => "missing selector"
  | emptySelector => "empty selector"
  | emptyMediaQuery => "empty media query"
  | missingPseudoName => "expected pseudo-class name"
  | missingAttributeName => "expected attribute name"
  | missingAttributeOperator => "expected attribute operator"
  | missingAttributeValue => "expected attribute value"
  | missingExpression => "expected a value"

/-- The first fault of a stylesheet. -/
inductive Fault where
  | malformed (cause : Cause) (line : Nat)
  /-- The text nests deeper than the limit. -/
  | tooDeep (line : Nat)
  /-- The calls of the rules do not fit on the stack; where they stopped is not known. -/
  | overflow
  deriving DecidableEq, Repr

namespace Fault

def line? : Fault → Option Nat
  | malformed _ line | tooDeep line => some line
  | overflow => none

end Fault

end StyleTally.Stylesheet
