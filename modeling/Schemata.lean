import Schemata.Document.Basic
import Schemata.Main
import Schemata.Schema.Set
import Schemata.Proofs.Validation.Local
import Schemata.Proofs.Validation.Examination
import Schemata.Proofs.Validation.Conformance
import Schemata.Proofs.Validation.Coherence
import Schemata.Proofs.Validation.Merging
import Schemata.Proofs.Validation.Shape
import Schemata.Proofs.Validation.Editing
import Schemata.Proofs.Validation.Idempotence
import Schemata.Proofs.Validation.Undeclared
import Schemata.Proofs.Validation.FieldOrder
import Schemata.Proofs.Validation.Location
import Schemata.Proofs.Validation.Items
import Schemata.Proofs.Validation.Stopped
import Schemata.Proofs.Validation.Located
import Schemata.Proofs.Validation.Validators
import Schemata.Proofs.Validation.Resumption
import Schemata.Proofs.Validation.Passed
import Schemata.Proofs.Validation.Placeholders
import Schemata.Proofs.Validation.Comparable
import Schemata.Proofs.Collect
import Schemata.Proofs.Graph.Finishing
import Schemata.Proofs.Graph.Resolution
import Schemata.Proofs.Graph.Linked
import Schemata.Proofs.Number.Decimal
import Schemata.Proofs.Number.Whole
import Schemata.Proofs.Number.Numeral
import Schemata.Proofs.Number.Comparison
import Schemata.Proofs.Time.Layout
import Schemata.Proofs.Time.Reading
import Schemata.Proofs.Time.Agreement
import Schemata.Proofs.Time.RoundTrip
import Schemata.Proofs.Time.Overlap
import Schemata.Proofs.Description.Accepted
import Schemata.Proofs.Schema.Fault
import Schemata.Proofs.Schema.Assembled
import Schemata.Proofs.Validation.Faults
import Schemata.Proofs.Validation.Raised
import Schemata.Proofs.Document.Binding
import Schemata.Proofs.Document.Versions
import Schemata.Proofs.Document.Rebinding
import Schemata.Proofs.Document.Tags
import Schemata.Proofs.Document.Reload
import Schemata.Proofs.Document.Exposure
import Schemata.Proofs.Document.Doctypes
import Schemata.Proofs.Document.Assignments
import Schemata.Proofs.Document.Bounds
import Schemata.Proofs.Value.Persisted
import Schemata.Proofs.Description.Canonical
import Schemata.Proofs.Description.Restated
import Schemata.Proofs.Description.Grammar
import Schemata.Proofs.Graph.Circle
import Schemata.Proofs.Graph.Links
import Schemata.Proofs.Graph.Registered
import Schemata.Proofs.Graph.Restated
import Schemata.Proofs.Graph.Reordered
import Schemata.Proofs.Graph.Dependency
import Schemata.Proofs.Files.Loading
import Schemata.Proofs.Files.Containment
import Schemata.Proofs.Files.Emission
import Schemata.Proofs.Command.Generation
