import Herald.Decimal.Shortest
import Herald.Text.Quoted
import Herald.Text.Utf8

/-! What is wrong with a JSON text and where. The text may break off, be no JSON, or be JSON of the
wrong shape; a place is a line and the number of bytes read of it. -/
namespace Herald.Json

open Herald.Text

inductive Found
  | null
  | boolean (value : Bool)
  | natural (value : Nat)
  | negative (size : Nat)
  | fractional (value : Float)
  | text (value : List Char)
  | sequence
  | map

def Found.describe : Found → String
  | .null => "null"
  | .boolean value => s!"boolean \x60{value}\x60"
  | .natural value => s!"integer \x60{value}\x60"
  | .negative size => s!"integer \x60-{size}\x60"
  | .fractional value =>
    s!"floating point \x60{String.ofList (Decimal.shortestText (.ofFloat value))}\x60"
  | .text value => s!"string {String.ofList (quoted value)}"
  | .sequence => "sequence"
  | .map => "map"

inductive Mismatch
  | type (found : Found) (expected : String)
  | value (found : Found) (expected : String)
  | length (count : Nat) (expected : String)
  | missing (field : String)
  | duplicate (field : String)
  | variant (name : String)
  | time

def Mismatch.message : Mismatch → String
  | .type found expected => s!"invalid type: {found.describe}, expected {expected}"
  | .value found expected => s!"invalid value: {found.describe}, expected {expected}"
  | .length count expected => s!"invalid length {count}, expected {expected}"
  | .missing field => s!"missing field \x60{field}\x60"
  | .duplicate field => s!"duplicate field \x60{field}\x60"
  | .variant name => s!"unknown variant \x60{name}\x60"
  | .time => "input contains invalid characters"

inductive Cause
  | endInList
  | endInObject
  | endInString
  | endInValue
  | noColon
  | noListEnd
  | noObjectEnd
  | badWord
  | noValue
  | badEscape
  | badNumber
  | numberRange
  | controlCharacter
  | keyNotText
  | loneSurrogate
  | trailingComma
  | trailingText
  | brokenEscape
  | shape (mismatch : Mismatch)

def Cause.message : Cause → String
  | .endInList => "EOF while parsing a list"
  | .endInObject => "EOF while parsing an object"
  | .endInString => "EOF while parsing a string"
  | .endInValue => "EOF while parsing a value"
  | .noColon => "expected \x60:\x60"
  | .noListEnd => "expected \x60,\x60 or \x60]\x60"
  | .noObjectEnd => "expected \x60,\x60 or \x60\x7d\x60"
  | .badWord => "expected ident"
  | .noValue => "expected value"
  | .badEscape => "invalid escape"
  | .badNumber => "invalid number"
  | .numberRange => "number out of range"
  | .controlCharacter => "control character (\\u0000-\\u001F) found while parsing a string"
  | .keyNotText => "key must be a string"
  | .loneSurrogate => "lone leading surrogate in hex escape"
  | .trailingComma => "trailing comma"
  | .trailingText => "trailing characters"
  | .brokenEscape => "unexpected end of hex escape"
  | .shape mismatch => mismatch.message

inductive Category
  | broken
  | notJson
  | wrongShape
  deriving DecidableEq, Repr

def Cause.category : Cause → Category
  | .endInList | .endInObject | .endInString | .endInValue => .broken
  | .shape _ => .wrongShape
  | _ => .notJson

/-- The text that is left at the fault, how many of its bytes the place counts as read, and whether the
place is settled: a mismatch is placed where the value around it ends. -/
structure Fault where
  cause : Cause
  rest : List Char
  ahead : Nat := 0
  placed : Bool := true

namespace Fault

/-- A fault that is noticed before the next byte is read; the place counts that byte. -/
def next (cause : Cause) (rest : List Char) : Fault := ⟨cause, rest, if rest = [] then 0 else 1, true⟩

def here (cause : Cause) (rest : List Char) : Fault := ⟨cause, rest, 0, true⟩

def mismatch (m : Mismatch) (rest : List Char) : Fault := ⟨.shape m, rest, 0, false⟩

def placeAt (f : Fault) (rest : List Char) : Fault :=
  if f.placed then f else ⟨f.cause, rest, 0, true⟩

def category (f : Fault) : Category := f.cause.category

end Fault

def placeOf (bytes : List UInt8) : Nat × Nat :=
  bytes.foldl (fun place b => if b = 10 then (place.1 + 1, 0) else (place.1, place.2 + 1)) (1, 0)

def Fault.message (f : Fault) (whole : List Char) : String :=
  let bytes := Utf8.encode whole
  let place := placeOf (bytes.take (bytes.length - (Utf8.encode f.rest).length + f.ahead))
  s!"{f.cause.message} at line {place.1} column {place.2}"

end Herald.Json
