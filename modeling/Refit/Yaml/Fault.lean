import Refit.Decimal
import Refit.Text.Quoted

namespace Refit.Yaml

inductive ValueFault where
  | noInteger (base : Nat) (text : String)
  | noNumber (text : String)
  | emptyNumber
  | noTruth (text : String)
  | noMoment
  | yearOutOfRange (year : Nat)
  | monthOutOfRange
  | dayOutOfRange
  | hourOutOfRange
  | minuteOutOfRange
  | secondOutOfRange
  /-- An offset of a day or more, as days and seconds that are added to them. -/
  | offsetOutOfRange (days : Int) (seconds : Nat)
  | noCharacter (code : Nat)
  | longInteger (digits : Nat)
  | hugeInteger
  deriving DecidableEq

namespace ValueFault

def durationText (days : Int) (seconds : Nat) : String :=
  "datetime.timedelta(days=" ++ toString days
    ++ (if seconds = 0 then "" else ", seconds=" ++ toString seconds) ++ ")"

def message : ValueFault → String
  | noInteger base text =>
    "invalid literal for int() with base " ++ toString base ++ ": " ++ Text.Quoted.encode text
  | noNumber text => "could not convert string to float: " ++ Text.Quoted.encode text
  | emptyNumber => "string index out of range"
  | noTruth text => Text.Quoted.encode text
  | noMoment => "'NoneType' object has no attribute 'groupdict'"
  | yearOutOfRange year => "year " ++ toString year ++ " is out of range"
  | monthOutOfRange => "month must be in 1..12"
  | dayOutOfRange => "day is out of range for month"
  | hourOutOfRange => "hour must be in 0..23"
  | minuteOutOfRange => "minute must be in 0..59"
  | secondOutOfRange => "second must be in 0..59"
  | offsetOutOfRange days seconds =>
    "offset must be a timedelta strictly between -timedelta(hours=24) and timedelta(hours=24), not "
      ++ durationText days seconds ++ "."
  | noCharacter code =>
    if code < Nat.pow 2 31 then "chr() arg not in range(0x110000)"
    else "Python int too large to convert to C int"
  | longInteger digits => Decimal.overlongText digits
  | hugeInteger => Decimal.limitText ++ Decimal.remedyText

end ValueFault

inductive Fault where
  | unprintable (c : Char)
  | stray (c : Char)
  | missingColon
  | misplacedEntry
  | misplacedKey
  | misplacedValue
  | unbalanced
  | badDirective
  | badAnchor
  | badTag
  | badHeader
  | badEscape
  | misplacedSeparator
  | unexpectedEnd
  | unexpectedToken
  | repeatedVersion
  | wrongVersion
  | repeatedHandle (handle : String)
  | unknownHandle (handle : String)
  | repeatedAnchor (name : String)
  | unknownAnchor (name : String)
  | severalDocuments
  | unknownTag
  | wrongKind
  | collectionAsKey
  | badMerge
  | value (fault : ValueFault)
  deriving DecidableEq

namespace Fault

def message : Fault → String
  | unprintable c => "special characters are not allowed: " ++ Text.Quoted.encode (String.singleton c)
  | stray c => "found character " ++ Text.Quoted.encode (String.singleton c) ++ " that cannot start any token"
  | missingColon => "could not find expected ':'"
  | misplacedEntry => "sequence entries are not allowed here"
  | misplacedKey => "mapping keys are not allowed here"
  | misplacedValue => "mapping values are not allowed here"
  | unbalanced => "found a closing bracket without an opening one"
  | badDirective => "malformed directive"
  | badAnchor => "malformed anchor or alias"
  | badTag => "malformed tag"
  | badHeader => "malformed block scalar header"
  | badEscape => "found unknown escape character"
  | misplacedSeparator => "found unexpected document separator"
  | unexpectedEnd => "found unexpected end of stream"
  | unexpectedToken => "found unexpected token"
  | repeatedVersion => "found duplicate YAML directive"
  | wrongVersion => "found incompatible YAML document (version 1.* is required)"
  | repeatedHandle handle => "duplicate tag handle " ++ Text.Quoted.encode handle
  | unknownHandle handle => "found undefined tag handle " ++ Text.Quoted.encode handle
  | repeatedAnchor name => "found duplicate anchor " ++ Text.Quoted.encode name
  | unknownAnchor name => "found undefined alias " ++ Text.Quoted.encode name
  | severalDocuments => "expected a single document in the stream"
  | unknownTag => "could not determine a constructor for the tag"
  | wrongKind => "found a node of another kind than its tag asks for"
  | collectionAsKey => "found unhashable key"
  | badMerge => "expected a mapping or list of mappings for merging"
  | value fault => fault.message

end Fault
end Refit.Yaml
