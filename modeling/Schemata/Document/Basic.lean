import Schemata.Document.Store
import Schemata.Validation.Body
namespace Schemata

/-! Documents: a body that is bound to its schema, and what the last validation of it
found.  A document that does not fit its schema is still a document. -/

structure Document where
  schema : Schema
  body : Body
  state : DocumentState
  outcome : Outcome

namespace Document

def isValid (document : Document) : Bool := document.outcome.passed

def ofBound (schema : Schema) (body : Body) (state : DocumentState) :
    Except DocumentError Document :=
  let examined := schema.validateBody body
  match examined.verdict with
  | .ok outcome => .ok ⟨schema, examined.edited, state, outcome⟩
  | .error fault => .error (.validation fault)

def load (schema : Schema) (body : Body) : Noted Document :=
  let (bound, notices) := DocumentState.unbound.bind schema body
  (bound.bind fun (body, state) => ofBound schema body state, notices)

/-- A document that holds nothing but defaults. -/
def new (schema : Schema) : Noted Document :=
  load schema (Table.empty.insert versionKey (.nat schema.version))

def ofJson (schema : Schema) : Json → Noted Document
  | .object members => load schema (Body.ofJson members)
  | _ => (.error .notAnObject, [])

/-- The value of a field or of any other member; a calculated field has the value that
the body implies. -/
def get? (document : Document) (name : String) : Option Value :=
  match document.schema.field? name with
  | some field =>
      if field.isPersisted then document.body.get? name
      else field.calculator.map fun calculator => calculator.run document.body
  | none => document.body.get? name

def formatted (rule : FieldRule) (value : Value) : Value :=
  match rule.formatter with
  | some formatter => formatter.run value
  | none => value

/-- The body with a field assigned, or removed if there is no value. -/
def assigned (body : Body) (rule : FieldRule) : Option Value → Body
  | some value => body.insert rule.name (formatted rule value)
  | none => body.erase rule.name

def set (document : Document) (name : String) (value : Option Value) :
    Except DocumentError Document :=
  match document.schema.field? name with
  | none => .error (.unknownField document.schema.name name)
  | some field =>
      if field.isPersisted then
        .ok { document with body := assigned document.body field.toFieldRule value }
      else .error (.readOnlyField name)

/-- Validates the body as it is now.  A fault leaves the outcome of the time before. -/
def revalidate (document : Document) : Document × Option ValidationFault :=
  let examined := document.schema.validateBody document.body
  match examined.verdict with
  | .ok outcome => ({ document with body := examined.edited, outcome }, none)
  | .error fault => ({ document with body := examined.edited }, some fault)

/-- Whether a member is stored: all are but calculated fields. -/
def isStored (schema : Schema) (key : String) : Bool :=
  (schema.field? key).all fun field => field.isPersisted

/-- The body without its calculated members. -/
def stored (document : Document) : Body :=
  document.body.filter (isStored document.schema)

def toJson (document : Document) : Json := document.stored.value.toJson

def doctype (document : Document) : String :=
  ((document.body.get? doctypeKey).bind Value.text?).getD document.schema.doctype

def fetch {σ : Type} [DocumentStore σ] (store : σ) (schema : Schema) (id : String) :
    Noted (Option Document) :=
  match DocumentStore.get store id with
  | .error error => (.error (.store error), [])
  | .ok none => (.ok none, [])
  | .ok (some payload) =>
      let (loaded, notices) := ofJson schema payload
      (loaded.map some, notices)

def save {σ : Type} [DocumentStore σ] (document : Document) (store : σ) (id : String) :
    Except DocumentError σ :=
  (DocumentStore.put store id document.toJson).mapError .store

end Document

end Schemata
