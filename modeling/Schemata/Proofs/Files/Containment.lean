import Schemata.Files.Emission
import Schemata.Proofs.Description.Restated
import Schemata.Proofs.Files.Tree
namespace Schemata

/-! Where manifests go.

The name of a schema is joined to the output directory as it is, and a description is refused
only if it has none.  So a manifest is an entry of the directory exactly if the name has no
separator; any other name leads on from the directory part by part, also upwards, or away from
it if it starts with a separator (`Emission.manifest_contained`). -/

namespace Path

variable {directory name : String}

/-- A path that leads to an entry of a directory, whichever it is. -/
def IsChild (directory path : String) : Prop :=
  ∃ name, IsEntry name ∧ path = join directory name

theorem isChild_join_iff (relative : isAbsolute name = false) :
    IsChild directory (join directory name) ↔ IsEntry name := by
  constructor
  · rintro ⟨other, entry, same⟩
    obtain ⟨stem, joined⟩ := join_relative directory
    rw [joined name relative, joined other entry.relative, String.append_right_inj] at same
    exact same ▸ entry
  · exact fun entry => ⟨name, entry, rfl⟩

/-- No entry of a directory that is seen from elsewhere is seen from the root. -/
theorem IsChild.relative {path : String} (child : IsChild directory path) (named : directory ≠ "")
    (relative : isAbsolute directory = false) : isAbsolute path = false := by
  obtain ⟨name, entry, rfl⟩ := child
  rw [isAbsolute_join named entry.relative, relative]

theorem isEntry_append_json_iff : IsEntry (name ++ ".json") ↔ '/' ∉ name.toList := by
  have single : '/' ∉ (name ++ ".json").toList ↔ '/' ∉ name.toList := by simp
  have long : ∀ other : String, other.toList.length < 5 → name ++ ".json" ≠ other := by
    rintro other short rfl
    rw [String.toList_append, List.length_append, show ".json".toList.length = 5 from rfl] at short
    omega
  exact ⟨fun entry => single.mp entry.single, fun plain => ⟨single.mpr plain,
    long "" (by decide), long "." (by decide), long ".." (by decide)⟩⟩

theorem isAbsolute_append_json : isAbsolute (name ++ ".json") = isAbsolute name := by
  rw [isAbsolute, isAbsolute, String.toList_append]
  cases name.toList <;> rfl

end Path

namespace FileTree

variable {tree next : FileTree} {directory name : String} {content : ByteArray}

/-- What is written to an entry of a directory is put into that directory. -/
theorem write?_join (entry : Path.IsEntry name)
    (written : tree.write? (Path.join directory name) content = some next) :
    ∃ place, tree.start? directory = some place ∧ tree.directoryAt place = true ∧
      next = tree.put (name :: place) (.file content) := by
  rw [write?, locate_join tree directory entry.relative entry.named, parts_entry entry,
    Option.bind_eq_some_iff] at written
  obtain ⟨reached, there, written⟩ := written
  obtain ⟨place, started, walked⟩ := Option.bind_eq_some_iff.mp there
  obtain rfl := walk_entry entry walked
  refine ⟨place, started, ?_, ?_⟩
  · cases inside : tree.directoryAt place with
    | true => rfl
    | false => simp [walk, inside] at walked
  · split at written
    · simp at written
    · exact (Option.some.inj written).symm

end FileTree

/-- Any name that is not empty is accepted in the place of one that is accepted. -/
theorem SchemaDescription.ofJson_renamed {json : Json} {origin name : String}
    {schema : SchemaDescription} (accepted : ofJson json origin = .ok schema) (named : name ≠ "") :
    ∃ other, ofJson other origin = .ok { schema with name } := by
  have canonical := ofJson_canonical accepted
  have renamed : Canonical { schema with name } := { canonical with named }
  have again := ofJson_statement renamed origin
  have placed := ofJson_origin accepted
  subst placed
  exact ⟨_, again⟩

namespace Emission

variable {json : Json} {origin : String} {schema : SchemaDescription}

theorem path_manifest_absolute (absolute : Path.isAbsolute schema.name = true)
    (options : EmissionOptions) : path options (.manifest schema) = schema.name ++ ".json" :=
  Path.join_absolute (Path.isAbsolute_append_json.trans absolute)

theorem manifest_isChild_iff (relative : Path.isAbsolute schema.name = false)
    (options : EmissionOptions) :
    Path.IsChild options.directory (path options (.manifest schema)) ↔
      '/' ∉ schema.name.toList := by
  rw [path, Path.isChild_join_iff (Path.isAbsolute_append_json.trans relative),
    Path.isEntry_append_json_iff]

/-- A manifest is put into the output directory, whichever it is, exactly if the name of its
schema has no separator, which nothing asks of it.  A name that has one leads on from the
directory part by part, and out of it if it starts with one. -/
theorem manifest_contained (accepted : SchemaDescription.ofJson json origin = .ok schema) :
    (∀ name ≠ "", ∃ other, SchemaDescription.ofJson other origin = .ok { schema with name }) ∧
    ((∀ options, Path.IsChild options.directory (path options (.manifest schema))) ↔
      '/' ∉ schema.name.toList) ∧
    ('/' ∉ schema.name.toList → ∀ options tree content next,
      FileTree.write? tree (path options (.manifest schema)) content = some next →
        ∃ place, tree.start? options.directory = some place ∧ tree.directoryAt place = true ∧
          next = tree.put ((schema.name ++ ".json") :: place) (.file content)) ∧
    (Path.isAbsolute schema.name = false → ∀ options,
      (Path.IsChild options.directory (path options (.manifest schema)) ↔
        '/' ∉ schema.name.toList) ∧
      ∀ tree, FileTree.locate tree (path options (.manifest schema)) =
        (tree.start? options.directory).bind fun place =>
          tree.walk place (Path.parts (schema.name ++ ".json"))) ∧
    (Path.isAbsolute schema.name = true → ∀ options,
      path options (.manifest schema) = schema.name ++ ".json") := by
  have file : schema.name ++ ".json" ≠ "" := by simp
  refine ⟨fun name => SchemaDescription.ofJson_renamed accepted, ⟨fun contained => ?_, ?_⟩, ?_, ?_,
    path_manifest_absolute⟩
  · -- A directory that is not seen from the root shows also that the name is not absolute.
    have child := contained ⟨"models", false, ""⟩
    have relative : Path.isAbsolute schema.name = false := by
      rw [← Path.isAbsolute_append_json, ← Bool.not_eq_true]
      intro absolute
      have outside := child.relative (by decide) (by decide)
      rw [path_manifest_absolute (Path.isAbsolute_append_json.symm.trans absolute)] at outside
      simp [outside] at absolute
    exact (manifest_isChild_iff relative _).mp child
  · exact fun plain options => ⟨_, Path.isEntry_append_json_iff.mpr plain, rfl⟩
  · exact fun plain options tree content next written =>
      FileTree.write?_join (Path.isEntry_append_json_iff.mpr plain) written
  · exact fun relative options => ⟨manifest_isChild_iff relative options, fun tree =>
      tree.locate_join _ (Path.isAbsolute_append_json.trans relative) file⟩

end Emission

namespace Sample

/-- A directory for artifacts below the root. -/
def yardTree : FileTree := ⟨[], [("/yard", .directory)]⟩

def yardEmission : EmissionOptions := ⟨"yard", false, "library"⟩

def yardDescription (name : String) : Json :=
  .object [("name", .text name), ("version", .nat 1), ("fields", .object [])]

def yardSchema (name : String) : SchemaDescription :=
  { name, version := 1, origin := "yard.json", fields := [] }

def yardRegistry (name : String) : Registry :=
  Registry.empty.registerAll [(yardDescription name, "yard.json")]

def yardGraph (name : String) : ResolvedGraph := Resolution.linkedGraph (yardRegistry name)

end Sample

open Sample in
theorem Emission.manifest_contained_of_yard :
    SchemaDescription.ofJson (yardDescription "Crane") "yard.json" = .ok (yardSchema "Crane") ∧
    Path.IsChild "yard" (path yardEmission (.manifest (yardSchema "Crane"))) ∧
    ∃ next, yardTree.write? (path yardEmission (.manifest (yardSchema "Crane"))) ByteArray.empty =
        some next ∧
      ∃ place, yardTree.start? "yard" = some place ∧ yardTree.directoryAt place = true ∧
        next = yardTree.put ("Crane.json" :: place) (.file ByteArray.empty) := by
  have accepted : SchemaDescription.ofJson (yardDescription "Crane") "yard.json" =
      .ok (yardSchema "Crane") := rfl
  have plain : '/' ∉ (yardSchema "Crane").name.toList := by decide
  obtain ⟨next, written⟩ := Option.isSome_iff_exists.mp (show (yardTree.write?
    (path yardEmission (.manifest (yardSchema "Crane"))) ByteArray.empty).isSome = true by
      decide +kernel)
  obtain ⟨_, contained_iff, stored, _⟩ := Emission.manifest_contained accepted
  exact ⟨accepted, contained_iff.mpr plain yardEmission, next, written,
    stored plain yardEmission yardTree ByteArray.empty next written⟩

open Sample in
/-- A name that leads upwards takes the manifest out of the output directory. -/
theorem Emission.manifest_escapes :
    let schema := yardSchema "../Crane"
    let outcome := ((emit yardEmission (yardGraph "../Crane") :
      StateM FileTree EmissionReport).run yardTree).run
    SchemaDescription.ofJson (yardDescription "../Crane") "yard.json" = .ok schema ∧
    Resolution.resolve (yardRegistry "../Crane") = .ok (yardGraph "../Crane") ∧
    (yardGraph "../Crane").schemas = [schema] ∧
    ¬ Path.IsChild yardEmission.directory (path yardEmission (.manifest schema)) ∧
    outcome.1.written = ["yard/../Crane.json", "yard/models.json"] ∧
    outcome.2.entries? "/" = some [("Crane.json", true), ("yard", false)] ∧
    outcome.2.entries? "yard" = some [("models.json", true)] := by
  have backward : ∀ position < (yardGraph "../Crane").schemas.length,
      ∀ reference ∈ references (yardGraph "../Crane").schemas position,
        reference.2 < position := by decide +kernel
  refine ⟨rfl, Resolution.resolve_of_order rfl (Graph.finishingOrder_of_backward backward), rfl,
    fun child => ?_, by decide +kernel, by decide +kernel, by decide +kernel⟩
  have plain := (manifest_isChild_iff (by decide) yardEmission).mp child
  exact plain (by decide)

end Schemata
