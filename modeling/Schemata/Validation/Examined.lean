import Schemata.Validation.Scalar
namespace Schemata

/-! Validation of documents.

Validating edits: defaults are filled in and values take the form of their type.  What
has been edited stays edited when a fault cuts the validation short, so an answer holds
the edited part in any case and the outcome only if there is one. -/

structure Examined (α : Type) where
  edited : α
  verdict : Except ValidationFault Outcome

def Examined.map {α β : Type} (f : α → β) (examined : Examined α) : Examined β :=
  ⟨f examined.edited, examined.verdict⟩

/-- The outcome for a whole, whose parts have all been judged. -/
def Outcome.closed (outcome : Outcome) (path : String) : Outcome :=
  outcome.mark path outcome.passed

@[simp] theorem Outcome.passed_closed (outcome : Outcome) (path : String) :
    (outcome.closed path).passed = outcome.passed :=
  Bool.and_self outcome.passed

def itemPath (path : String) (position : Nat) : String := s!"{path}[{position}]"

/-- Examines items one after the other, up to the first fault. -/
def examineItems (examine : String → Value → Examined Value) (path : String) :
    Nat → List Value → Outcome → Examined (List Value)
  | _, [], outcome => ⟨[], .ok outcome⟩
  | position, item :: rest, outcome =>
      let first := examine (itemPath path position) item
      match first.verdict with
      | .error fault => ⟨first.edited :: rest, .error fault⟩
      | .ok part =>
          (examineItems examine path (position + 1) rest (outcome.merge "" part)).map
            (first.edited :: ·)

def examineArray (examine : String → Value → Examined Value) (path : String)
    (items : List Value) : Examined Value :=
  let examined := examineItems examine path 0 items .empty
  ⟨.array examined.edited, examined.verdict.map fun outcome => outcome.closed path⟩

/-- Examines a value that has to be a document. -/
def examineDocument (validate : Members → Examined Members) (path : String) :
    Value → Examined Value
  | .object members =>
      let examined := validate members
      ⟨.object examined.edited,
        examined.verdict.map fun part => (Outcome.empty.merge s!"{path}." part).closed path⟩
  | value => ⟨value, .ok (.ofFailure path s!"{path} must be an object")⟩

namespace FieldRule

def examineNested (rule : FieldRule) (validate : Members → Examined Members) :
    Value → Examined Value
  | .array items =>
      if rule.isArray then examineArray (examineDocument validate) rule.name items
      else ⟨.array items, .ok (.ofFailure rule.name s!"{rule.name} must not be an array")⟩
  | value =>
      if rule.isArray then
        ⟨value, .ok (.ofFailure rule.name s!"{rule.name} must be an array")⟩
      else examineDocument validate rule.name value

/-- Examines what a field of plain values holds.  The items of an array take their form
before any of them is judged. -/
def examinePlain (rule : FieldRule) (value : Value) : Examined Value :=
  if rule.isArray then
    match value with
    | .array items =>
        examineArray (fun path item => ⟨item, rule.judge path item⟩) rule.name
          (items.map rule.type.coerce)
    | value => ⟨value, .ok (.ofFailure rule.name s!"{rule.name} must be an array")⟩
  else
    let coerced := rule.type.coerce value
    ⟨coerced, rule.judge rule.name coerced⟩

/-- The body with the default for a field that has no value. -/
def fill (rule : FieldRule) (body : Members) : Members :=
  match rule.default with
  | some value =>
      if Value.isAbsent (Keyed.get? body rule.name) then Keyed.insert body rule.name value
      else body
  | none => body

/-- Examines the field in a body once its default is filled in. -/
def examineHeld (rule : FieldRule) (examine : Value → Examined Value) (body : Members) :
    Examined Members :=
  let filled := rule.fill body
  match Keyed.get? filled rule.name with
  | none => ⟨filled, .ok (rule.absent rule.name)⟩
  | some .null => ⟨filled, .ok (rule.absent rule.name)⟩
  | some value => (examine value).map (Keyed.insert filled rule.name)

/-- Examines the field in a body; `nested` validates the documents that it holds. -/
def examine (rule : FieldRule) (nested : Option (Members → Examined Members)) (body : Members) :
    Examined Members :=
  match rule.type, nested with
  | .calculated, _ => ⟨body, .error (.unhandledType rule.name .calculated)⟩
  | .subschema, none => ⟨rule.fill body, .error (.missingSubschema rule.name)⟩
  | .subschema, some validate => rule.examineHeld (rule.examineNested validate) body
  | _, _ => rule.examineHeld rule.examinePlain body

end FieldRule

mutual

/-- Examines the stored fields of a schema in the order of declaration, up to the first
fault. -/
def Schema.validate (schema : Schema) (body : Members) : Examined Members :=
  match schema with
  | ⟨_, _, fields, _⟩ => validateFields fields body .empty

def validateFields (fields : List Field) (body : Members) (outcome : Outcome) : Examined Members :=
  match fields with
  | [] => ⟨body, .ok outcome⟩
  | field :: rest =>
      if field.isPersisted then
        let first := field.validate body
        match first.verdict with
        | .error fault => ⟨first.edited, .error fault⟩
        | .ok part => validateFields rest first.edited (outcome.merge "" part)
      else validateFields rest body outcome

def Field.validate (field : Field) (body : Members) : Examined Members :=
  match field with
  | ⟨rule, schema⟩ => rule.examine (validateNested schema) body

def validateNested (schema : Option Schema) : Option (Members → Examined Members) :=
  match schema with
  | none => none
  | some schema => some fun body => schema.validate body

end

theorem validateNested_eq (schema : Option Schema) :
    validateNested schema = schema.map Schema.validate := by
  cases schema <;> simp only [validateNested, Option.map_none, Option.map_some]

theorem Schema.validate_eq (schema : Schema) (body : Members) :
    schema.validate body = validateFields schema.fields body .empty := by
  cases schema
  simp only [Schema.validate]

theorem Field.validate_eq (field : Field) (body : Members) :
    field.validate body = field.examine (field.schema.map Schema.validate) body := by
  cases field
  simp only [Field.validate, validateNested_eq]

end Schemata
