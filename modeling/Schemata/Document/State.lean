import Schemata.Notice
import Schemata.Schema.Basic
import Schemata.Validation.Fault
namespace Schemata

/-! Binding of a body to a schema.

Two control members of a body say what it is: its doctype and the version of the schema
that it was written with.  A body of an older version, or of none, is handed to the
upgrader; one of a newer version is refused.  What comes out carries both tags. -/

def doctypeKey : String := "doctype__"

def versionKey : String := "schema_version__"

structure StoreError where
  reason : String
deriving DecidableEq

def StoreError.message (error : StoreError) : String := s!"store error: {error.reason}"

inductive DocumentError where
  | wrongDoctype (expected found : String)
  | futureVersion (schema : String) (found current : Nat)
  | malformedControl (key : String)
  | notAnObject
  | unknownField (schema field : String)
  | readOnlyField (field : String)
  | validation (fault : ValidationFault)
  | store (error : StoreError)
deriving DecidableEq

def DocumentError.message : DocumentError → String
  | wrongDoctype expected found =>
      s!"document type mismatch: expected '{expected}', found '{found}'"
  | futureVersion schema found current =>
      s!"document version {found} is newer than schema {schema} version {current}"
  | malformedControl key => s!"control field {key} is malformed"
  | notAnObject => "persisted document is not a JSON object"
  | unknownField schema field => s!"schema {schema} has no field {field}"
  | readOnlyField field => s!"field {field} is calculated and cannot be set"
  | validation fault => fault.message
  | store error => error.message

/-- A result and the remarks made on the way, also on the way to a failure. -/
abbrev Noted (α : Type) := Except DocumentError α × List Notice

inductive DocumentState where
  | unbound
  | versioned (version : Nat)
deriving DecidableEq

namespace DocumentState

def version? : DocumentState → Option Nat
  | unbound => none
  | versioned version => some version

def text : DocumentState → String
  | unbound => "UNBOUND"
  | versioned version => s!"VERSIONED({version})"

/-- Versions of bodies are read up to this one; larger ones count as this one. -/
def largestVersion : Nat := powerOfTwo 64 - 1

/-- A whole number that is not negative is a version. -/
def versionOf? : Value → Option Nat
  | .number (.finite number) =>
      number.toInt?.bind fun whole =>
        if 0 ≤ whole then some (min whole.toNat largestVersion) else none
  | _ => none

def foundVersion (body : Body) : Except DocumentError (Option Nat) :=
  match body.get? versionKey with
  | none => .ok none
  | some .null => .ok none
  | some value =>
      match versionOf? value with
      | some version => .ok (some version)
      | none => .error (.malformedControl versionKey)

/-- Runs the upgrader on a body that had the version `found`. -/
def modernized (schema : Schema) (found : Option Nat) (body : Body) : Body × List Notice :=
  match schema.upgrade? body with
  | some next => (next, [.upgraded schema.name found schema.version])
  | none => (body, [])

def current (schema : Schema) (body : Body) : Except DocumentError (Body × List Notice) :=
  match foundVersion body with
  | .error error => .error error
  | .ok none => .ok (modernized schema none body)
  | .ok (some version) =>
      if schema.version < version then
        .error (.futureVersion schema.name version schema.version)
      else if version = schema.version then .ok (body, [])
      else .ok (modernized schema (some version) body)

/-- The body with the doctype of the schema, unless it has another. -/
def withDoctype (schema : Schema) (body : Body) : Except DocumentError Body :=
  match body.get? doctypeKey with
  | none => .ok (body.insert doctypeKey (.text schema.doctype))
  | some .null => .ok (body.insert doctypeKey (.text schema.doctype))
  | some (.text tag) =>
      if tag = schema.doctype then .ok body else .error (.wrongDoctype schema.doctype tag)
  | some _ => .error (.malformedControl doctypeKey)

def stamped (schema : Schema) (body : Body) : Except DocumentError Body :=
  (withDoctype schema body).map fun tagged =>
    tagged.insert versionKey (.nat schema.version)

/-- Binds a body to a schema, whatever state it is said to be in. -/
def bind (_ : DocumentState) (schema : Schema) (body : Body) :
    Noted (Body × DocumentState) :=
  match current schema body with
  | .error error => (.error error, [])
  | .ok (body, notices) =>
      ((stamped schema body).map (·, versioned schema.version), notices)

end DocumentState

end Schemata
