import Schemata.Description.Field
import Schemata.Text.Case
namespace Schemata

/-! Schema descriptions: a name, a version and fields in the order of declaration. -/

inductive DescriptionError where
  | notAnObject (origin : String)
  | missingName (origin : String)
  | missingFields (schema : String)
  | invalidVersion (schema : String)
  | customImports (schema : String)
  | field (schema field : String) (fault : FieldFault)

namespace DescriptionError

def message : DescriptionError → String
  | notAnObject origin => s!"{origin}: schema description must be a JSON object"
  | missingName origin => s!"{origin}: no 'name' field"
  | missingFields schema => s!"{schema}: no 'fields' field"
  | invalidVersion schema =>
      s!"{schema}: 'version' field must exist and must be a non-negative integer"
  | customImports schema => s!"{schema}: customImportLines must be an array of strings"
  | field schema name fault => fault.message s!"{schema}.{name}"

/-- The schema that the error is about, once it has a name. -/
def schema? : DescriptionError → Option String
  | notAnObject _ => none
  | missingName _ => none
  | missingFields schema => some schema
  | invalidVersion schema => some schema
  | customImports schema => some schema
  | field schema _ _ => some schema

end DescriptionError

structure SchemaDescription where
  name : String
  version : Nat
  origin : String
  fields : List (String × FieldSpec)
  /-- The schemas that fields refer to; known after linking. -/
  imports : List String := []
  /-- Whether a field holds dates without a time; known after linking. -/
  requiresDateOnly : Bool := false
  customImportLines : List String := []

namespace SchemaDescription

/-- The first version that does not fit. -/
def versionLimit : Nat := powerOfTwo 32

def nonEmptyText? : Json → Option String
  | .text text => if text.isEmpty then none else some text
  | _ => none

def version? (json : Json) : Option Nat :=
  json.int?.bind fun version =>
    if 0 ≤ version ∧ version < versionLimit then some version.toNat else none

def customImportLines? : Option Json → Option (List String)
  | none => some []
  | some lines => lines.texts?

def part {α : Type} (fault : DescriptionError) (found : Option α) :
    Except DescriptionError α :=
  match found with
  | some value => .ok value
  | none => .error fault

def normalizedField (schema : String) (entry : String × Json) :
    Except DescriptionError (String × FieldSpec) :=
  match FieldSpec.ofJson entry.1 entry.2 with
  | .ok spec => .ok (entry.1, spec)
  | .error fault => .error (.field schema entry.1 fault)

/-- What stands above the fields, and the fields as they are written. -/
structure Header where
  name : String
  version : Nat
  customImportLines : List String
  fields : Keyed Json

def Header.ofJson (json : Json) (origin : String) : Except DescriptionError Header := do
  let members ← part (.notAnObject origin) json.members?
  let name ← part (.missingName origin) ((Keyed.get? members "name").bind nonEmptyText?)
  let fields ← part (.missingFields name) ((Keyed.get? members "fields").bind Json.members?)
  let version ← part (.invalidVersion name) ((Keyed.get? members "version").bind version?)
  let customImportLines ← part (.customImports name)
    (customImportLines? (Keyed.get? members "customImportLines"))
  .ok { name, version, customImportLines, fields }

/-- Checks a description and normalizes its fields; the first fault in the order of the
parts and of the fields is reported. -/
def ofJson (json : Json) (origin : String) : Except DescriptionError SchemaDescription := do
  let header ← Header.ofJson json origin
  let fields ← header.fields.mapM (normalizedField header.name)
  .ok
    { name := header.name, version := header.version, origin, fields,
      customImportLines := header.customImportLines }

/-- Remarks on the fields up to the first that is refused. -/
def notices (json : Json) : List Notice :=
  match Header.ofJson json "" with
  | .error _ => []
  | .ok header =>
      (header.fields.takeWhile fun entry =>
        (normalizedField header.name entry).toOption.isSome).flatMap fun entry =>
          fieldNotices header.name entry.1 entry.2

def doctype (schema : SchemaDescription) : String := Text.toSmallLetters schema.name

def field? (schema : SchemaDescription) (name : String) : Option FieldSpec :=
  Keyed.get? schema.fields name

end SchemaDescription

end Schemata
