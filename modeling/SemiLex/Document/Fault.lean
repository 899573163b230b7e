import SemiLex.Decimal.Style
import SemiLex.Text.Quoted

/-!
# Faults of a document

A document is read from the front, and the first fault ends the reading.
-/

namespace SemiLex

inductive Number where
  | integer (n : Int)
  | float (x : Float)

/-- What stands at a place where another type of value is wanted. -/
inductive Found where
  | null
  | boolean (b : Bool)
  | number (n : Number)
  | string (text : Text)
  | sequence
  | object

inductive Wanted where
  | settings
  | scanSettings
  | groupSettings
  | sequence
  | string
  | boolean
  deriving DecidableEq, Repr

inductive DocumentFault where
  | duplicateField (name : Text)
  | wrongType (found : Found) (wanted : Wanted)
  | noValue
  | unclosedSequence
  | unclosedObject
  | unclosedString
  | notAValue
  /-- A misspelt `true`, `false` or `null`. -/
  | notALiteral
  | invalidNumber
  | numberOutOfRange
  | colonMissing
  | sequenceCommaMissing
  | objectCommaMissing
  | keyNotAString
  | trailingComma
  | trailingCharacters
  | invalidEscape
  | controlCharacter
  | loneSurrogate
  /-- A leading surrogate that no escape follows. -/
  | surrogateCutOff

inductive FaultCategory where
  | data
  | early
  | malformed
  deriving DecidableEq, Repr

def Number.describe : Number → String
  | integer n => "integer `" ++ toString n ++ "`"
  | float x => "floating point `" ++ .ofList (NumberStyle.standard.float x) ++ "`"

def Found.describe : Found → String
  | null => "null"
  | boolean b => "boolean `" ++ toString b ++ "`"
  | number n => n.describe
  | string text => "string " ++ Text.quoted text
  | sequence => "sequence"
  | object => "map"

def Wanted.describe : Wanted → String
  | settings => "struct Config"
  | scanSettings => "struct ScannerOptions"
  | groupSettings => "struct SemiOptions"
  | sequence => "a sequence"
  | string => "a string"
  | boolean => "a boolean"

namespace DocumentFault

def category : DocumentFault → FaultCategory
  | duplicateField _ | wrongType .. => .data
  | noValue | unclosedSequence | unclosedObject | unclosedString => .early
  | _ => .malformed

def message : DocumentFault → String
  | duplicateField name => "duplicate field `" ++ .ofList name ++ "`"
  | wrongType found wanted => "invalid type: " ++ found.describe ++ ", expected " ++ wanted.describe
  | noValue => "EOF while parsing a value"
  | unclosedSequence => "EOF while parsing a list"
  | unclosedObject => "EOF while parsing an object"
  | unclosedString => "EOF while parsing a string"
  | notAValue => "expected value"
  | notALiteral => "expected ident"
  | invalidNumber => "invalid number"
  | numberOutOfRange => "number out of range"
  | colonMissing => "expected `:`"
  | sequenceCommaMissing => "expected `,` or `]`"
  | objectCommaMissing => "expected `,` or `\x7d`"
  | keyNotAString => "key must be a string"
  | trailingComma => "trailing comma"
  | trailingCharacters => "trailing characters"
  | invalidEscape => "invalid escape"
  | controlCharacter => "control character (\\u0000-\\u001F) found while parsing a string"
  | loneSurrogate => "lone leading surrogate in hex escape"
  | surrogateCutOff => "unexpected end of hex escape"

end DocumentFault

end SemiLex
