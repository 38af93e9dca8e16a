import Schemata.Description.Basic
namespace Schemata

/-! What can go wrong from descriptions to artifacts. -/

inductive GenerationError where
  | description (error : DescriptionError)
  | duplicate (schema : String)
  | unnamedReference (schema field : String)
  | danglingReference (schema field target : String)
  /-- References lead from a schema back to itself; a step is a schema and one of its
  fields. -/
  | circular (schema : String) (steps : List (String × String))
  | noInput (directory : String)
  | outputExists (path : String)
  | inputOutput (path : String)
  | malformed (path : String)

namespace GenerationError

def cyclePath (schema : String) (steps : List (String × String)) : String :=
  " -> ".intercalate (steps.map (fun step => s!"{step.1}.{step.2}") ++ [schema])

def message : GenerationError → String
  | description error => error.message
  | duplicate schema =>
      s!"'{schema}' already exists; check for duplicates in the source files"
  | unnamedReference schema field =>
      s!"{schema}: missing 'schema' field for field '{field}'"
  | danglingReference schema field target =>
      s!"{schema}: field '{field}' refers to missing subschema named {target}"
  | circular schema steps =>
      s!"{schema} is in a circular dependency: cycle at {cyclePath schema steps}"
  | noInput directory => s!"no input files found in {directory}"
  | outputExists path => s!"{path} already exists; use --force to overwrite"
  | inputOutput path => s!"io error on {path}"
  | malformed path => s!"invalid JSON in {path}"

/-- The schema that the error is about, where there is one. -/
def schema? : GenerationError → Option String
  | description error => error.schema?
  | duplicate schema => some schema
  | unnamedReference schema _ => some schema
  | danglingReference schema _ _ => some schema
  | circular schema _ => some schema
  | noInput _ => none
  | outputExists _ => none
  | inputOutput _ => none
  | malformed _ => none

end GenerationError

end Schemata
