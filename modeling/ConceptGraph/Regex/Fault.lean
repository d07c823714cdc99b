/-
Why a text is no regular expression, one cause for each place where reading can stop.
-/
namespace ConceptGraph.Regex

inductive Fault where
  | tooNested
  | tooLarge
  | duplicateName
  | unclosedGroup
  | unclosedGroupQuestion
  | unopenedGroup
  | lookAround
  | emptyFlags
  | missingName
  | invalidName
  | unclosedName
  | emptyName
  | unknownFlag
  | repeatedNegation
  | duplicateFlag
  | unclosedFlags
  | danglingNegation
  | noDigits
  | invalidDecimal
  | hexBraceDigit
  | hexBraceUnclosed
  | hexBraceEmpty
  | hexBraceInvalid
  | hexFixedUnclosed
  | hexFixedDigit
  | hexFixedInvalid
  | hexUnclosed
  | escapeUnclosed
  | backReference
  | unicodeClass
  | unknownEscape
  | nothingToRepeat
  | nothingToCount
  | countUnclosed
  | countMinUnclosed
  | countCommaUnclosed
  | countMaxUnclosed
  | countInvalid
  | countReversed
  | classUnclosedAfterItem
  | classRangeItem
  | classItem
  | classUnclosedAfterDash
  | classUnclosedAfterNegation
  | classUnclosedAfterBracket
  | classRangeUnclosed
  | classRangeReversed
  | classUnclosed
  | classNested
  | classIntersection
  | classDifference
  | classSymmetricDifference
  | boundaryUnclosed
  | boundaryUnknown
  | boundaryOrCountUnclosed
  deriving DecidableEq, Repr

namespace Fault

def message : Fault → String
  | tooNested => "pattern has too much nesting"
  | tooLarge => "compiled regex exceeded size limit"
  | duplicateName => "duplicate capture group name"
  | unclosedGroup => "found open group without closing ')'"
  | unclosedGroupQuestion => "expected closing ')', but got end of pattern"
  | unopenedGroup => "found closing ')' without matching '('"
  | lookAround => "look-around is not supported"
  | emptyFlags => "empty flag directive '(?)' is not allowed"
  | missingName => "expected capture group name, but got end of pattern"
  | invalidName => "invalid group name"
  | unclosedName => "expected end of capture group name, but got end of pattern"
  | emptyName => "empty capture group names are not allowed"
  | unknownFlag => "unrecognized inline flag"
  | repeatedNegation => "inline flag negation cannot be repeated"
  | duplicateFlag => "duplicate inline flag is not allowed"
  | unclosedFlags => "expected ':' or ')' to end inline flags, but got end of pattern"
  | danglingNegation => "inline flags cannot end with negation directive"
  | noDigits => "expected decimal number, but found no digits"
  | invalidDecimal => "got invalid decimal number"
  | hexBraceDigit => "expected hexadecimal number in braces, but got non-hex digit"
  | hexBraceUnclosed => "expected hexadecimal number, but saw end of pattern before closing brace"
  | hexBraceEmpty => "expected hexadecimal number in braces, but got no digits"
  | hexBraceInvalid => "got invalid hexadecimal number in braces"
  | hexFixedUnclosed => "expected fixed length hexadecimal number, but saw end of pattern first"
  | hexFixedDigit => "expected fixed length hexadecimal number, but got non-hex digit"
  | hexFixedInvalid => "got invalid fixed length hexadecimal number"
  | hexUnclosed => "expected hexadecimal number, but saw end of pattern first"
  | escapeUnclosed => "saw start of escape sequence, but saw end of pattern before it finished"
  | backReference => "backreferences are not supported"
  | unicodeClass => "Unicode character classes are not supported"
  | unknownEscape => "unrecognized escape sequence"
  | nothingToRepeat => "uncounted repetition operator must be applied to a sub-expression"
  | nothingToCount => "counted repetition operator must be applied to a sub-expression"
  | countUnclosed => "found unclosed counted repetition operator"
  | countMinUnclosed => "found incomplete and unclosed counted repetition operator"
  | countCommaUnclosed => "found counted repetition operator with a comma that is unclosed"
  | countMaxUnclosed => "found counted repetition with min and max that is unclosed"
  | countInvalid => "expected closing brace for counted repetition, but got something else"
  | countReversed => "found counted repetition with a min bigger than its max"
  | classUnclosedAfterItem => "non-empty character class has no closing bracket"
  | classRangeItem => "character class ranges must start and end with a single character"
  | classItem => "invalid escape sequence in character class"
  | classUnclosedAfterDash => "non-empty character class has no closing bracket after dash"
  | classUnclosedAfterNegation => "negated character class has no closing bracket"
  | classUnclosedAfterBracket => "character class begins with literal ']' but has no closing bracket"
  | classRangeUnclosed => "character class has an unclosed range"
  | classRangeReversed => "invalid range in character class"
  | classUnclosed => "found unclosed character class"
  | classNested => "nested character classes are not supported"
  | classIntersection => "character class intersection is not supported"
  | classDifference => "character class difference is not supported"
  | classSymmetricDifference => "character class symmetric difference is not supported"
  | boundaryUnclosed => "special word boundary assertion is unclosed or has an invalid character"
  | boundaryUnknown => "special word boundary assertion is unrecognized"
  | boundaryOrCountUnclosed => "found start of special word boundary or repetition without an end"

end Fault

end ConceptGraph.Regex
