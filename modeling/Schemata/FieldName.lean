namespace Schemata

/-! Names that a schema may give its fields. -/

inductive FieldNameFault where
  | keyword
  | storeKey
  | ambiguousKey
  | leadingUnderscore
  | empty
deriving DecidableEq

namespace FieldNameFault

def reason : FieldNameFault → String
  | keyword => "reserved keyword"
  | storeKey => "the document store already supplies '_id'"
  | ambiguousKey => "the document store already has an '_id' field; 'id' is ambiguous"
  | leadingUnderscore => "leading underscores are reserved by the document store"
  | empty => "field names must not be empty"

def message (fault : FieldNameFault) (name : String) : String :=
  s!"invalid field name '{name}': {fault.reason}"

end FieldNameFault

def reservedFieldNames : List (String × FieldNameFault) :=
  [("get", .keyword), ("set", .keyword), ("doctype__", .keyword), ("_id", .storeKey),
    ("id", .ambiguousKey)]

/-- Why a name is refused; a reserved name is refused for its own reason. -/
def fieldNameFault? (name : String) : Option FieldNameFault :=
  match reservedFieldNames.find? fun entry => entry.1 = name with
  | some (_, fault) => some fault
  | none =>
      if name.toList.head? = some '_' then some .leadingUnderscore
      else if name.isEmpty then some .empty
      else none

theorem fieldNameFault?_eq_none_iff {name : String} :
    fieldNameFault? name = none ↔
      name ∉ reservedFieldNames.map Prod.fst ∧ name.toList.head? ≠ some '_' ∧ name ≠ "" := by
  rw [fieldNameFault?]
  cases found : reservedFieldNames.find? fun entry => entry.1 = name with
  | some entry =>
      have same : entry.1 = name := by simpa using List.find?_some found
      have reserved := List.mem_map.mpr ⟨entry, List.mem_of_find?_eq_some found, same⟩
      simp [reserved]
  | none =>
      have free : name ∉ reservedFieldNames.map Prod.fst := by
        intro reserved
        obtain ⟨entry, member, same⟩ := List.mem_map.mp reserved
        have other := List.find?_eq_none.mp found entry member
        simp [same] at other
      by_cases hidden : name.toList.head? = some '_'
      · simp [free, hidden]
      · simp [free, hidden]

end Schemata
