import Schemata.Json.Basic
import Schemata.Text.Quoted
namespace Schemata

/-! Declared types of fields, and the shorthands that stand for a whole field. -/

inductive FieldType where
  | string
  | boolean
  | number
  | date
  | datetime
  | timestamp
  | buffer
  | subschema
  | calculated
deriving DecidableEq

namespace FieldType

def all : List FieldType :=
  [string, boolean, number, date, datetime, timestamp, buffer, subschema, calculated]

def name : FieldType → String
  | string => "string"
  | boolean => "boolean"
  | number => "number"
  | date => "date"
  | datetime => "datetime"
  | timestamp => "timestamp"
  | buffer => "buffer"
  | subschema => "subschema"
  | calculated => "calculated"

/-- The name of the values that a field of the type holds. -/
def valueName : FieldType → String
  | string => "String"
  | boolean => "Boolean"
  | number => "Number"
  | date => "DateOnly"
  | datetime => "Date"
  | timestamp => "Date"
  | buffer => "Buffer"
  | subschema => "Object"
  | calculated => "Function"

def isSubschema (type : FieldType) : Bool := type = subschema

/-- A calculated field is computed from the others and never stored. -/
def isPersisted (type : FieldType) : Bool := type ≠ calculated

/-- A length or a value can be held to bounds. -/
def isBounded (type : FieldType) : Bool := type = string || type = number

def ofName? (text : String) : Option FieldType :=
  all.find? fun type => type.name = Text.toSmallAscii text

/-- The type that JSON writes: its name, or an object of that one key and null. -/
def ofJson? : Json → Option FieldType
  | .text text => all.find? fun type => type.name = text
  | .object [(key, .null)] => all.find? fun type => type.name = key
  | _ => none

def unknownMessage (text : String) : String :=
  s!"unknown field type {Text.quoted text}"

end FieldType

/-- A name that stands for a field of a type, required or not. -/
structure Shorthand where
  name : String
  type : FieldType
  required : Bool
deriving DecidableEq

namespace Shorthand

def all : List Shorthand :=
  [⟨"string", .string, true⟩, ⟨"optstring", .string, false⟩,
    ⟨"boolean", .boolean, true⟩, ⟨"optboolean", .boolean, false⟩,
    ⟨"number", .number, true⟩, ⟨"date", .date, true⟩,
    ⟨"datetime", .datetime, true⟩, ⟨"timestamp", .timestamp, true⟩]

def ofName? (text : String) : Option Shorthand :=
  all.find? fun shorthand => shorthand.name = Text.toSmallAscii text

end Shorthand

end Schemata
