import Schemata.Proofs.Validation.Examination
namespace Schemata

/-! What a validation makes of a body, apart from what it finds.

Of a schema only the names, types and defaults of the fields and the schemas of their
documents count for that, which make its `Shape`.  `Shape.normalize` fills in defaults and
brings values into the form of their types without judging anything, and
`Schema.validate_normalizes` says that a validation that is not cut short edits a body in the
same way. -/

/-- What a field says of where its value is found and which form it takes. -/
structure Slot where
  name : String
  type : FieldType
  isArray : Bool
  default : Option Value

mutual

structure Shape where
  fields : List FieldShape

structure FieldShape extends Slot where
  shape : Option Shape

end

def FieldRule.slot (rule : FieldRule) : Slot where
  name := rule.name
  type := rule.type
  isArray := rule.isArray
  default := rule.default

mutual

def Schema.shape (schema : Schema) : Shape :=
  match schema with
  | ⟨_, _, fields, _⟩ => ⟨fieldShapes fields⟩

def fieldShapes (fields : List Field) : List FieldShape :=
  match fields with
  | [] => []
  | field :: rest => field.fieldShape :: fieldShapes rest

def Field.fieldShape (field : Field) : FieldShape :=
  match field with
  | ⟨rule, schema⟩ => ⟨rule.slot, nestedShape schema⟩

def nestedShape (schema : Option Schema) : Option Shape :=
  match schema with
  | none => none
  | some schema => some schema.shape

end

theorem fieldShapes_eq (fields : List Field) :
    fieldShapes fields = fields.map Field.fieldShape := by
  induction fields with
  | nil => simp only [fieldShapes, List.map_nil]
  | cons field rest inductionHypothesis =>
      simp only [fieldShapes, inductionHypothesis, List.map_cons]

theorem Schema.shape_fields (schema : Schema) :
    schema.shape.fields = schema.fields.map Field.fieldShape := by
  cases schema
  simp only [Schema.shape, fieldShapes_eq]

theorem Field.fieldShape_eq (field : Field) :
    field.fieldShape = ⟨field.slot, field.schema.map Schema.shape⟩ := by
  cases field with
  | mk rule schema => cases schema <;> simp only [Field.fieldShape, nestedShape, Option.map]

@[simp] theorem Field.fieldShape_toSlot (field : Field) :
    field.fieldShape.toSlot = field.slot := by
  rw [Field.fieldShape_eq]

@[simp] theorem Field.fieldShape_shape (field : Field) :
    field.fieldShape.shape = field.schema.map Schema.shape := by
  rw [Field.fieldShape_eq]

namespace Slot

def isPersisted (slot : Slot) : Bool := slot.type.isPersisted

/-- A single value in the form of the type; `nested` is for the members of a document. -/
def item (slot : Slot) (nested : Members → Members) : Value → Value
  | .object members =>
      if slot.type = .subschema then .object (nested members)
      else slot.type.coerce (.object members)
  | value => slot.type.coerce value

/-- A value, or each item of one that is an array; what should be an array and is none stays
as it is. -/
def value (slot : Slot) (nested : Members → Members) (given : Value) : Value :=
  if slot.isArray then
    match given with
    | .array items => .array (items.map (slot.item nested))
    | other => other
  else slot.item nested given

/-- The default stands in for a value that is absent. -/
def held (slot : Slot) (nested : Members → Members) (held : Option Value) : Option Value :=
  (if Value.isAbsent held then slot.default.or held else held).map (slot.value nested)

variable {slot : Slot} {nested : Members → Members} {single : Value}

theorem value_of_single (declared : slot.isArray = false) :
    slot.value nested single = slot.item nested single := by
  simp [value, declared]

theorem value_array {items : List Value} (declared : slot.isArray = true) :
    slot.value nested (.array items) = .array (items.map (slot.item nested)) := by
  simp [value, declared]

theorem value_of_mismatch (declared : slot.isArray = true) (other : single.items? = none) :
    slot.value nested single = single := by
  cases single with
  | array items => simp [Value.items?] at other
  | _ => simp [value, declared]

/-- What is no document only takes the form of its type. -/
theorem item_of_members? (other : single.members? = none) :
    slot.item nested single = slot.type.coerce single := by
  cases single with
  | object members => simp [Value.members?] at other
  | _ => rfl

theorem item_of_plain (plain : slot.type ≠ .subschema) (single : Value) :
    slot.item nested single = slot.type.coerce single := by
  cases single with
  | object members => exact if_neg plain
  | _ => rfl

theorem item_object {members : Members} (type : slot.type = .subschema) :
    slot.item nested (.object members) = .object (nested members) :=
  if_pos type

theorem value_null (slot : Slot) : slot.value nested .null = .null := by
  cases declared : slot.isArray with
  | true => exact value_of_mismatch declared rfl
  | false =>
      rw [value_of_single declared, item_of_members? rfl]
      cases slot.type <;> rfl

theorem map_value_of_absent {held : Option Value} (absent : Value.isAbsent held = true) :
    held.map (slot.value nested) = held := by
  cases held with
  | none => rfl
  | some value =>
      cases value with
      | null => exact congrArg some (value_null slot)
      | _ => simp [Value.isAbsent, Value.isNull] at absent

end Slot

mutual

def Shape.normalize (shape : Shape) (body : Members) : Members :=
  match shape with
  | ⟨fields⟩ => normalizeFields fields body

def normalizeFields (fields : List FieldShape) (body : Members) : Members :=
  match fields with
  | [] => body
  | field :: rest => normalizeFields rest (field.normalize body)

/-- Calculated fields are left out. -/
def FieldShape.normalize (field : FieldShape) (body : Members) : Members :=
  match field with
  | ⟨slot, shape⟩ =>
      if slot.isPersisted then
        Keyed.write body slot.name
          (slot.held (fun members => normalizeNested shape members) (Keyed.get? body slot.name))
      else body

def normalizeNested (shape : Option Shape) (members : Members) : Members :=
  match shape with
  | none => members
  | some shape => shape.normalize members

end

theorem Shape.normalize_eq (shape : Shape) (body : Members) :
    shape.normalize body = shape.fields.foldl (fun body field => field.normalize body) body := by
  have each : ∀ fields body, normalizeFields fields body =
      fields.foldl (fun body field => field.normalize body) body := by
    intro fields
    induction fields with
    | nil => intro body; simp only [normalizeFields, List.foldl_nil]
    | cons field rest inductionHypothesis =>
        intro body
        simp only [normalizeFields, inductionHypothesis, List.foldl_cons]
  cases shape
  simp only [Shape.normalize, each]

/-- What a field makes of the value under its name. -/
def FieldShape.normalized (field : FieldShape) (held : Option Value) : Option Value :=
  field.toSlot.held (fun members => normalizeNested field.shape members) held

theorem FieldShape.normalize_eq (field : FieldShape) (body : Members) :
    field.normalize body =
      if field.isPersisted then
        Keyed.write body field.name (field.normalized (Keyed.get? body field.name))
      else body := by
  cases field
  rw [FieldShape.normalize]
  rfl

theorem Field.normalize_fieldShape (field : Field) (body : Members) :
    field.fieldShape.normalize body =
      if field.isPersisted then
        Keyed.write body field.name (field.fieldShape.normalized (Keyed.get? body field.name))
      else body := by
  rw [FieldShape.normalize_eq, fieldShape_toSlot]
  rfl

theorem FieldType.coerce_subschema {type : FieldType} (subschema : type = .subschema)
    (value : Value) : type.coerce value = value := by
  subst subschema
  cases value <;> rfl

namespace FieldRule

variable {rule : FieldRule} {value edited : Value} {part : Outcome}
  {validate : Members → Examined Members} {nested : Members → Members}

/-- A document is edited by its schema, and what is none stays as it is. -/
theorem examineDocument_eq_item {path : String} (type : rule.type = .subschema)
    (inner : ∀ {members body outcome}, validate members = ⟨body, .ok outcome⟩ →
      body = nested members)
    (examined : examineDocument validate path value = ⟨edited, .ok part⟩) :
    edited = rule.slot.item nested value := by
  rcases examineDocument_ok examined with
    ⟨members, body, outcome, rfl, validated, rfl, _⟩ | ⟨other, rfl, _⟩
  · rw [inner validated, Slot.item_object type]
  · rw [Slot.item_of_members? other]
    exact (FieldType.coerce_subschema type edited).symm

theorem examineNested_eq_value (type : rule.type = .subschema)
    (inner : ∀ {members body outcome}, validate members = ⟨body, .ok outcome⟩ →
      body = nested members)
    (examined : rule.examineNested validate value = ⟨edited, .ok part⟩) :
    edited = rule.slot.value nested value := by
  rcases examineNested_ok examined with
    ⟨array, items, rfl, found⟩ | ⟨single, other, found⟩ | ⟨mismatch, rfl, _⟩
  · obtain ⟨after, total, ran, rfl, _⟩ := examineArray_ok found
    rw [Slot.value_array array]
    exact congrArg Value.array (examineItems_eq_map (examineDocument_eq_item type inner) ran)
  · rw [Slot.value_of_single single]
    exact examineDocument_eq_item type inner found
  · cases edited with
    | array items =>
        rw [Slot.value_of_single mismatch, Slot.item_of_members? rfl]
        exact (FieldType.coerce_subschema type (.array items)).symm
    | _ => exact (Slot.value_of_mismatch mismatch rfl).symm

theorem examinePlain_eq_value (plain : rule.type ≠ .subschema)
    (examined : rule.examinePlain value = ⟨edited, .ok part⟩) :
    edited = rule.slot.value nested value := by
  have formed : ∀ item, rule.slot.item nested item = rule.type.coerce item :=
    Slot.item_of_plain plain
  rcases examinePlain_ok examined with
    ⟨array, items, rfl, found⟩ | ⟨array, other, rfl, _⟩ | ⟨single, rfl, _⟩
  · obtain ⟨after, total, ran, rfl, _⟩ := examineArray_ok found
    rw [examineItems_unedited (fun _ _ => rfl) ran, Slot.value_array array]
    exact congrArg Value.array (List.map_congr_left fun item _ => (formed item).symm)
  · exact (Slot.value_of_mismatch array other).symm
  · rw [Slot.value_of_single single, formed]

theorem settleBy_eq_held {examine : Value → Examined Value} {held after : Option Value}
    (each : ∀ {value edited part}, examine value = ⟨edited, .ok part⟩ →
      edited = rule.slot.value nested value)
    (settled : rule.settleBy examine held = ⟨after, .ok part⟩) :
    after = rule.slot.held nested held := by
  change after = (rule.defaulted held).map (rule.slot.value nested)
  rcases settleBy_ok settled with ⟨rfl, absent, _⟩ | ⟨value, edited, same, _, examined, rfl⟩
  · exact (Slot.map_value_of_absent absent).symm
  · rw [same, Option.map_some, each examined]

end FieldRule

theorem Field.settle_eq_normalized {field : Field} {held after : Option Value} {part : Outcome}
    (nested : ∀ inner, field.schema = some inner → ∀ {members body outcome},
      inner.validate members = ⟨body, .ok outcome⟩ → body = inner.shape.normalize members)
    (settled : field.settle held = ⟨after, .ok part⟩) :
    after = field.fieldShape.normalized held := by
  rw [FieldShape.normalized, fieldShape_toSlot, fieldShape_shape]
  rcases FieldRule.settle_ok settled with ⟨_, type, declared, settled⟩ | ⟨plain, _, settled⟩
  · obtain ⟨inner, schema, rfl⟩ := Option.map_eq_some_iff.mp declared
    rw [schema]
    refine FieldRule.settleBy_eq_held (FieldRule.examineNested_eq_value type ?_) settled
    intro members body outcome validated
    rw [Option.map_some, normalizeNested]
    exact nested inner schema validated
  · exact FieldRule.settleBy_eq_held (FieldRule.examinePlain_eq_value plain) settled

theorem validateFields_eq_foldl {fields : List Field} {body after : Members}
    {outcome total : Outcome}
    (each : ∀ field ∈ fields, ∀ {held value part}, field.settle held = ⟨value, .ok part⟩ →
      value = field.fieldShape.normalized held)
    (ran : validateFields fields body outcome = ⟨after, .ok total⟩) :
    after = fields.foldl (fun body field => field.fieldShape.normalize body) body := by
  induction fields generalizing body outcome with
  | nil =>
      simp only [validateFields, Examined.mk.injEq] at ran
      exact ran.1.symm
  | cons field rest inductionHypothesis =>
      have later := fun other member => @each other (List.mem_cons_of_mem field member)
      rw [List.foldl_cons, Field.normalize_fieldShape]
      rcases validateFields_cons_ok ran with
        ⟨persisted, ran⟩ | ⟨persisted, middle, part, first, ran⟩
      · rw [persisted, if_neg Bool.false_ne_true]
        exact inductionHypothesis later ran
      · rw [Field.validate_eq_settle] at first
        obtain ⟨value, settled, rfl⟩ := Examined.map_eq_mk first
        rw [persisted, if_pos rfl, ← each field List.mem_cons_self settled]
        exact inductionHypothesis later ran

/-- A validation that ends with an outcome edits a body as its normalization does, whatever
the outcome is. -/
theorem Schema.validate_normalizes {schema : Schema} {body after : Members} {outcome : Outcome}
    (validated : schema.validate body = ⟨after, .ok outcome⟩) :
    after = schema.shape.normalize body := by
  induction schema using Schema.induction generalizing body after outcome with
  | step schema inductionHypothesis =>
      rw [Schema.validate_eq] at validated
      rw [Shape.normalize_eq, Schema.shape_fields, List.foldl_map]
      exact validateFields_eq_foldl (fun field member => Field.settle_eq_normalized
        (inductionHypothesis field member)) validated

end Schemata
