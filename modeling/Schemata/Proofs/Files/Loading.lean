import Mathlib.Data.List.Induction
import Mathlib.Data.List.Sort
import Mathlib.Data.String.Basic
import Schemata.Files.Loading
import Schemata.Proofs.Description.Canonical
import Schemata.Proofs.Files.Tree
import Schemata.Proofs.Graph.Resolution
namespace Schemata

/-! What is loaded from a directory.

Descriptions are read in ascending order of their paths, so the order in which the file system
enumerates them is of no account.  A file fails by itself or because an earlier one has taken
its name; the first that does ends the loading with its error, and if none does all of them are
registered, each at its place (`Registry.loadDirectory_enumerated`). -/

namespace Path

/-- An entry of a directory that is a file with a description. -/
def IsDescription (entry : String × Bool) : Prop :=
  entry.2 = true ∧ extension? entry.1 = some "json"

instance : DecidablePred IsDescription := fun _ => inferInstanceAs (Decidable (_ ∧ _))

theorem append_le_append {left right : String} (ordered : left ≤ right) (stem : String) :
    stem ++ left ≤ stem ++ right := by
  intro lower
  rw [String.lt_iff_toList_lt, String.toList_append, String.toList_append] at lower
  exact List.append_left_le (fun below => ordered (String.lt_iff_toList_lt.mpr below)) lower

end Path

namespace Registry

variable {entries others : List (String × Bool)}

theorem descriptionNames_eq (entries : List (String × Bool)) :
    descriptionNames entries = ((entries.filter (Path.IsDescription ·)).map Prod.fst).mergeSort
      fun left right => left ≤ right := by
  rw [descriptionNames]
  congr 2
  exact List.filter_congr fun entry _ => Bool.eq_iff_iff.mpr <| by
    rw [Bool.and_eq_true, decide_eq_true_eq, decide_eq_true_eq, Path.IsDescription]

theorem descriptionNames_perm (entries : List (String × Bool)) :
    (descriptionNames entries).Perm ((entries.filter (Path.IsDescription ·)).map Prod.fst) :=
  descriptionNames_eq entries ▸ List.mergeSort_perm _ _

theorem descriptionNames_ascend (entries : List (String × Bool)) :
    (descriptionNames entries).Pairwise (· ≤ ·) :=
  List.pairwise_mergeSort' (· ≤ ·) _

theorem descriptionNames_congr (same : entries.Perm others) :
    descriptionNames entries = descriptionNames others := by
  refine List.Perm.eq_of_pairwise' (r := (· ≤ ·)) (descriptionNames_ascend entries)
    (descriptionNames_ascend others) ?_
  exact ((descriptionNames_perm entries).trans ((same.filter _).map _)).trans
    (descriptionNames_perm others).symm

/-- What a file describes, taken by itself. -/
def SourceFile.description (file : SourceFile) : Except GenerationError SchemaDescription :=
  file.json.bind fun json => (SchemaDescription.ofJson json file.path).mapError .description

/-- Why a file cannot be registered after others: it describes nothing, or its name is that of
one of them. -/
inductive SourceFile.Fails (earlier : List SourceFile) (file : SourceFile) :
    GenerationError → Prop
  | refused {error : GenerationError} (refused : file.description = .error error) :
      Fails earlier file error
  | taken {other : SourceFile} {schema namesake : SchemaDescription}
      (described : file.description = .ok schema) (before : other ∈ earlier)
      (there : other.description = .ok namesake) (same : namesake.name = schema.name) :
      Fails earlier file (.duplicate schema.name)

/-- No file of a list fails after those before it. -/
def Flawless (files : List SourceFile) : Prop :=
  ∀ earlier file later, files = earlier ++ file :: later → ∀ error, ¬ file.Fails earlier error

/-- The error of the first file of a list that fails. -/
def FirstFault (files : List SourceFile) (error : GenerationError) : Prop :=
  ∃ earlier file later, files = earlier ++ file :: later ∧ Flawless earlier ∧
    file.Fails earlier error

/-- A registry holds what all files of a list describe, each at the position of its file. -/
structure Loaded (files : List SourceFile) (registry : Registry) : Prop where
  described : files.map SourceFile.description = registry.schemas.map .ok
  names : registry.names.Nodup

section Files

variable {earlier files : List SourceFile} {file : SourceFile} {registry next : Registry}
  {error other : GenerationError} {schema : SchemaDescription}

theorem SourceFile.Fails.unique (fails : file.Fails earlier error)
    (again : file.Fails earlier other) : error = other := by
  cases fails with
  | refused refused =>
      cases again with
      | refused same => exact Except.error.inj (refused.symm.trans same)
      | taken described => simp [refused] at described
  | taken described =>
      cases again with
      | refused refused => simp [refused] at described
      | taken same => rw [Except.ok.inj (described.symm.trans same)]

theorem SourceFile.Fails.ne_noInput (fails : file.Fails earlier error) (directory : String) :
    error ≠ .noInput directory := by
  cases fails with
  | taken => simp
  | refused refused =>
      rintro rfl
      rw [SourceFile.description, SourceFile.json] at refused
      split at refused
      · simp [Except.bind] at refused
      · split at refused
        · rename_i json _
          rw [Except.bind] at refused
          cases read : SchemaDescription.ofJson json file.path with
          | ok schema => simp [read, Except.mapError] at refused
          | error fault => simp [read, Except.mapError] at refused
        · simp [Except.bind] at refused

section Descriptions

variable {schemas : List SchemaDescription}

theorem mem_names_iff (described : files.map SourceFile.description = schemas.map .ok)
    {name : String} : name ∈ schemas.map SchemaDescription.name ↔
      ∃ file ∈ files, ∃ schema, file.description = .ok schema ∧ schema.name = name := by
  have mem_iff : ∀ schema, schema ∈ schemas ↔
      ∃ file ∈ files, file.description = .ok schema := by
    intro schema
    have same := congrArg ((Except.ok schema : Except GenerationError _) ∈ ·) described
    simpa [eq_comm] using same
  rw [List.mem_map]
  constructor
  · rintro ⟨schema, member, named⟩
    obtain ⟨file, inside, described⟩ := (mem_iff schema).mp member
    exact ⟨file, inside, schema, described, named⟩
  · rintro ⟨file, inside, schema, described, named⟩
    exact ⟨schema, (mem_iff schema).mpr ⟨file, inside, described⟩, named⟩

/-- A file that describes something fails after others when these describe its name. -/
theorem fails_iff_of_described (before : earlier.map SourceFile.description = schemas.map .ok)
    (described : file.description = .ok schema) :
    file.Fails earlier error ↔
      schema.name ∈ schemas.map SchemaDescription.name ∧ error = .duplicate schema.name := by
  rw [mem_names_iff before]
  constructor
  · intro fails
    cases fails with
    | refused refused => simp [refused] at described
    | taken same before there named =>
        obtain rfl := Except.ok.inj (described.symm.trans same)
        exact ⟨⟨_, before, _, there, named⟩, rfl⟩
  · rintro ⟨⟨other, before, namesake, there, named⟩, rfl⟩
    exact .taken described before there named

end Descriptions

theorem registerFile_eq (registry : Registry) (file : SourceFile) :
    registry.registerFile file = file.description.bind registry.add := by
  rw [registerFile, SourceFile.description]
  cases file.json with
  | error error => rfl
  | ok json =>
      simp only [bind, Except.bind, register]
      cases SchemaDescription.ofJson json file.path <;> rfl

/-- The step lemma: a file fails after those that have been loaded, or is loaded with them. -/
theorem registerFile_steps (loaded : Loaded earlier registry) (file : SourceFile) :
    (∃ error, file.Fails earlier error ∧ registry.registerFile file = .error error) ∨
    ((∀ error, ¬ file.Fails earlier error) ∧ ∃ next,
      registry.registerFile file = .ok (next, registry.size) ∧
        Loaded (earlier ++ [file]) next) := by
  rw [registerFile_eq]
  cases described : file.description with
  | error error => exact .inl ⟨error, .refused described, rfl⟩
  | ok schema =>
      rw [Except.bind]
      by_cases taken : schema.name ∈ registry.names
      · rw [add_of_taken taken]
        exact .inl ⟨_, (fails_iff_of_described loaded.described described).mpr ⟨taken, rfl⟩, rfl⟩
      · rw [add_of_free taken]
        refine .inr ⟨fun error fails =>
          taken ((fails_iff_of_described loaded.described described).mp fails).1, _, rfl, ?_,
          names_nodup _⟩
        rw [List.map_append, push, List.map_append, loaded.described, List.map_singleton,
          described, List.map_singleton]

theorem flawless_append_singleton :
    Flawless (earlier ++ [file]) ↔ Flawless earlier ∧ ∀ error, ¬ file.Fails earlier error := by
  constructor
  · intro flawless
    refine ⟨fun before other after parts => ?_, flawless earlier file [] rfl⟩
    exact flawless before other (after ++ [file]) (by rw [parts]; simp)
  · rintro ⟨flawless, last⟩ before other after parts
    rcases List.eq_nil_or_concat after with rfl | ⟨after, final, rfl⟩
    · obtain ⟨rfl, same⟩ := List.append_inj' parts rfl
      obtain rfl := List.singleton_inj.mp same
      exact last
    · refine flawless before other after ?_
      rw [List.concat_eq_append, ← List.cons_append, ← List.append_assoc] at parts
      exact (List.append_inj' parts rfl).1

theorem not_firstFault_of_flawless (flawless : Flawless files) : ¬ FirstFault files error := by
  rintro ⟨earlier, file, later, parts, _, fails⟩
  exact flawless earlier file later parts error fails

theorem registerFiles_append_singleton (registry : Registry) (files : List SourceFile)
    (file : SourceFile) :
    registry.registerFiles (files ++ [file]) =
      (registry.registerFiles files).bind fun next => (next.registerFile file).map Prod.fst := by
  rw [registerFiles, List.foldlM_append]
  simp only [List.foldlM_cons, List.foldlM_nil, bind_pure]
  rfl

/-- The run lemma: the files are loaded up to the first that fails. -/
theorem registerFiles_runs (files : List SourceFile) :
    (∃ registry, empty.registerFiles files = .ok registry ∧ Loaded files registry ∧
      Flawless files) ∨
    ∃ error, empty.registerFiles files = .error error ∧ FirstFault files error := by
  induction files using List.reverseRecOn with
  | nil => exact .inl ⟨empty, rfl, ⟨rfl, List.nodup_nil⟩, by simp [Flawless]⟩
  | append_singleton files file inductionHypothesis =>
      rw [registerFiles_append_singleton]
      rcases inductionHypothesis with ⟨registry, ran, loaded, flawless⟩ | ⟨error, ran, fault⟩
      · rw [ran, Except.bind]
        rcases registerFile_steps loaded file with
          ⟨error, fails, stepped⟩ | ⟨sound, next, stepped, added⟩
        · rw [stepped]
          exact .inr ⟨error, rfl, files, file, [], rfl, flawless, fails⟩
        · rw [stepped]
          exact .inl ⟨next, rfl, added, flawless_append_singleton.mpr ⟨flawless, sound⟩⟩
      · obtain ⟨earlier, first, later, rfl, sound, fails⟩ := fault
        rw [ran]
        exact .inr ⟨error, rfl, earlier, first, later ++ [file], by simp, sound, fails⟩

theorem FirstFault.unique (fault : FirstFault files error) (again : FirstFault files other) :
    error = other := by
  obtain ⟨earlier, file, later, rfl, sound, fails⟩ := fault
  obtain ⟨before, first, after, parts, flawless, failed⟩ := again
  rcases List.append_eq_append_iff.mp parts with ⟨between, rfl, same⟩ | ⟨between, rfl, same⟩
  · cases between with
    | nil =>
        obtain ⟨rfl, _⟩ := List.cons.inj same
        rw [List.append_nil] at failed
        exact fails.unique failed
    | cons _ between =>
        obtain ⟨rfl, _⟩ := List.cons.inj same
        exact absurd fails (flawless earlier file between rfl error)
  · cases between with
    | nil =>
        obtain ⟨rfl, _⟩ := List.cons.inj same
        rw [List.append_nil] at fails
        exact fails.unique failed
    | cons _ between =>
        obtain ⟨rfl, _⟩ := List.cons.inj same
        exact absurd failed (sound before first between rfl other)

theorem registerFiles_error_iff :
    empty.registerFiles files = .error error ↔ FirstFault files error := by
  rcases registerFiles_runs files with ⟨registry, ran, _, flawless⟩ | ⟨first, ran, fault⟩
  · rw [ran]
    exact iff_of_false (by simp) (not_firstFault_of_flawless flawless)
  · rw [ran, Except.error.injEq]
    exact ⟨fun same => same ▸ fault, fault.unique⟩

theorem Loaded.unique (loaded : Loaded files registry) (again : Loaded files next) :
    registry = next := by
  have same := loaded.described.symm.trans again.described
  rw [List.map_inj_right fun _ _ => Except.ok.inj] at same
  exact Registry.ext same

theorem Loaded.flawless (loaded : Loaded files registry) : Flawless files := by
  rintro earlier file later rfl error fails
  have described := loaded.described.symm
  rw [List.map_append, List.map_cons] at described
  obtain ⟨before, rest, schemas, first, after⟩ := List.map_eq_append_iff.mp described
  obtain ⟨schema, last, rfl, same, _⟩ := List.map_eq_cons_iff.mp after
  have names := loaded.names
  rw [Registry.names, schemas, List.map_append, List.map_cons, List.nodup_append] at names
  obtain ⟨taken, _⟩ := (fails_iff_of_described first.symm same.symm).mp fails
  exact names.2.2 _ taken _ List.mem_cons_self rfl

theorem registerFiles_ok_iff :
    empty.registerFiles files = .ok registry ↔ Loaded files registry := by
  rcases registerFiles_runs files with ⟨next, ran, loaded, _⟩ | ⟨error, ran, fault⟩
  · rw [ran, Except.ok.injEq]
    exact ⟨fun same => same ▸ loaded, loaded.unique⟩
  · rw [ran]
    exact iff_of_false (by simp) fun loaded => not_firstFault_of_flawless loaded.flawless fault

theorem SourceFile.origin_of_description (described : file.description = .ok schema) :
    schema.origin = file.path := by
  rw [SourceFile.description] at described
  obtain ⟨json, _, read⟩ := ok_of_bind described
  cases accepted : SchemaDescription.ofJson json file.path with
  | error fault => simp [accepted, Except.mapError] at read
  | ok found =>
      rw [accepted, Except.mapError, Except.ok.injEq] at read
      exact read ▸ SchemaDescription.ofJson_origin accepted

theorem Loaded.origins (loaded : Loaded files registry) :
    registry.schemas.map SchemaDescription.origin = files.map SourceFile.path := by
  obtain ⟨described, _⟩ := loaded
  generalize registry.schemas = schemas at described
  induction files generalizing schemas with
  | nil => rw [List.map_eq_nil_iff.mp described.symm, List.map_nil, List.map_nil]
  | cons file files inductionHypothesis =>
      obtain ⟨schema, rest, rfl, same, others⟩ := List.map_eq_cons_iff.mp described.symm
      rw [List.map_cons, List.map_cons, SourceFile.origin_of_description same.symm,
        inductionHypothesis rest others.symm]

end Files

/-- Steps that leave the state as it is are run one after the other. -/
theorem mapM_run {σ α β : Type} {state : σ} {step : α → StateM σ β} {value : α → β} {items : List α}
    (each : ∀ item ∈ items, ((step item).run state).run = (value item, state)) :
    ((items.mapM step).run state).run = (items.map value, state) := by
  induction items with
  | nil => rfl
  | cons item items inductionHypothesis =>
      have first := each item List.mem_cons_self
      have rest := inductionHypothesis fun other later => each other (List.mem_cons_of_mem _ later)
      rw [List.mapM_cons, StateT.run_bind, Id.run_bind, first]
      dsimp only
      rw [StateT.run_bind, Id.run_bind, rest]
      rfl

/-- What a file system shows of a directory: its entries in the order in which they are
enumerated, and what is in the files among them.  Entries have names without a separator. -/
structure Shows {σ : Type} [FileSystem (StateM σ)] (state : σ) (directory : String)
    (entries : List (String × Bool)) (content : String → Option ByteArray) : Prop where
  listed : ((FileSystem.entries directory : StateM σ _).run state).run = (some entries, state)
  read : ∀ entry ∈ entries,
    ((FileSystem.read (Path.join directory entry.1) : StateM σ _).run state).run =
      (content entry.1, state)
  single : ∀ entry ∈ entries, '/' ∉ entry.1.toList

/-- The descriptions of a directory in ascending order. -/
def sources (directory : String) (entries : List (String × Bool))
    (content : String → Option ByteArray) : List SourceFile :=
  (descriptionNames entries).map fun name => sourceFile (Path.join directory name) (content name)

section Directory

variable {σ : Type} [FileSystem (StateM σ)] {state : σ} {directory : String}
  {content : String → Option ByteArray}

theorem mem_descriptionNames_iff {name : String} :
    name ∈ descriptionNames entries ↔ ∃ entry ∈ entries, Path.IsDescription entry ∧
      entry.1 = name := by
  rw [(descriptionNames_perm entries).mem_iff, List.mem_map]
  simp only [List.mem_filter, decide_eq_true_eq, and_assoc]

theorem readDirectory_run (shown : Shows state directory entries content) :
    ((readDirectory directory : StateM σ _).run state).run =
      (if sources directory entries content = [] then .error (.noInput directory)
        else .ok (sources directory entries content), state) := by
  have files : (((descriptionNames entries).mapM fun name => do
      let path := Path.join directory name
      return sourceFile path (← FileSystem.read path) : StateM σ _).run state).run =
        (sources directory entries content, state) := by
    refine mapM_run fun name member => ?_
    obtain ⟨entry, inside, _, rfl⟩ := mem_descriptionNames_iff.mp member
    dsimp only
    rw [StateT.run_bind, Id.run_bind, shown.read entry inside]
    rfl
  have none_iff : sources directory entries content = [] ↔
      (descriptionNames entries).isEmpty = true := by
    rw [sources, List.map_eq_nil_iff, List.isEmpty_iff]
  rw [readDirectory, StateT.run_bind, Id.run_bind, shown.listed]
  dsimp only
  by_cases none : (descriptionNames entries).isEmpty = true
  · rw [if_pos none, if_pos (none_iff.mpr none)]
    rfl
  · rw [if_neg none, if_neg (mt none_iff.mp none), StateT.run_bind, Id.run_bind, files]
    rfl

theorem loadDirectory_run (shown : Shows state directory entries content) :
    ((loadDirectory directory : StateM σ _).run state).run =
      (if sources directory entries content = [] then (.error (.noInput directory), [])
        else (empty.registerFiles (sources directory entries content),
          noticesOfFiles empty (sources directory entries content)), state) := by
  rw [loadDirectory, StateT.run_bind, Id.run_bind, readDirectory_run shown]
  by_cases none : sources directory entries content = []
  · rw [if_pos none, if_pos none]
    rfl
  · rw [if_neg none, if_neg none]
    rfl

/-- The entries of a directory in a tree of files. -/
theorem shows_tree {tree : FileTree} (found : tree.entries? directory = some entries)
    (held : ∀ entry ∈ entries, tree.read? (Path.join directory entry.1) = content entry.1) :
    Shows tree directory entries content := by
  refine ⟨congrArg (·, tree) found, fun entry member => congrArg (·, tree) (held entry member),
    fun entry member => ?_⟩
  obtain ⟨place, _, found⟩ := Option.bind_eq_some_iff.mp found
  split at found
  · obtain rfl := Option.some.inj found
    obtain ⟨node, _, named⟩ := List.mem_filterMap.mp member
    obtain ⟨name, inside, rfl⟩ := Option.map_eq_some_iff.mp named
    unfold FileTree.nameIn? at inside
    dsimp only at inside
    split at inside
    · rename_i conditions
      simp only [Bool.and_eq_true, Bool.not_eq_true', List.contains_eq_mem, decide_eq_false_iff_not]
        at conditions
      rw [← Option.some.inj inside, String.toList_ofList]
      exact conditions.2
    · simp at inside
  · simp at found

theorem sources_ascend (single : ∀ entry ∈ entries, '/' ∉ entry.1.toList)
    (directory : String) (content : String → Option ByteArray) :
    ((sources directory entries content).map SourceFile.path).Pairwise (· ≤ ·) := by
  obtain ⟨stem, joined⟩ := Path.join_relative directory
  have relative : ∀ name ∈ descriptionNames entries, Path.isAbsolute name = false := by
    intro name member
    obtain ⟨entry, inside, _, rfl⟩ := mem_descriptionNames_iff.mp member
    refine decide_eq_false fun absolute => single entry inside ?_
    exact List.mem_of_head? absolute
  have paths : (sources directory entries content).map SourceFile.path =
      (descriptionNames entries).map (stem ++ ·) := by
    rw [sources, List.map_map]
    exact List.map_congr_left fun name member => joined name (relative name member)
  rw [paths]
  exact (descriptionNames_ascend entries).map _ fun _ _ ordered =>
    Path.append_le_append ordered stem

theorem sources_perm (directory : String) (entries : List (String × Bool))
    (content : String → Option ByteArray) :
    (sources directory entries content).Perm ((entries.filter (Path.IsDescription ·)).map
      fun entry => sourceFile (Path.join directory entry.1) (content entry.1)) := by
  have names := (descriptionNames_perm entries).map fun name =>
    sourceFile (Path.join directory name) (content name)
  rwa [List.map_map] at names

theorem sources_eq_nil_iff : sources directory entries content = [] ↔
    ∀ entry ∈ entries, ¬ Path.IsDescription entry := by
  rw [sources, List.map_eq_nil_iff, List.eq_nil_iff_forall_not_mem]
  simp only [mem_descriptionNames_iff]
  constructor
  · exact fun none entry inside described => none entry.1 ⟨entry, inside, described, rfl⟩
  · rintro none name ⟨entry, inside, described, _⟩
    exact none entry inside described

end Directory

/-- Whichever order the entries of a directory are enumerated in, its descriptions are loaded
in ascending order of their paths: there is an error if there are none, or if one of them fails
after those before it, and it is that of the first that does; else all of them are registered
in this order. -/
theorem loadDirectory_enumerated {σ τ : Type} [FileSystem (StateM σ)] [FileSystem (StateM τ)]
    {state : σ} {other : τ} {directory : String} {content : String → Option ByteArray}
    (shown : Shows state directory entries content) (again : Shows other directory others content)
    (same : entries.Perm others) :
    let outcome := ((loadDirectory directory : StateM σ _).run state).run.1
    let files := sources directory entries content
    ((loadDirectory directory : StateM τ _).run other).run.1 = outcome ∧
    (files.map SourceFile.path).Pairwise (· ≤ ·) ∧
    files.Perm ((entries.filter (Path.IsDescription ·)).map fun entry =>
      sourceFile (Path.join directory entry.1) (content entry.1)) ∧
    (outcome.1 = .error (.noInput directory) ↔ ∀ entry ∈ entries, ¬ Path.IsDescription entry) ∧
    ((∃ entry ∈ entries, Path.IsDescription entry) →
      (∀ error, outcome.1 = .error error ↔ FirstFault files error) ∧
      (∀ registry, outcome.1 = .ok registry ↔ Loaded files registry) ∧
      ∀ registry, Loaded files registry →
        registry.schemas.map SchemaDescription.origin = files.map SourceFile.path) := by
  intro outcome files
  have run : outcome = if files = [] then (.error (.noInput directory), [])
      else (empty.registerFiles files, noticesOfFiles empty files) :=
    congrArg Prod.fst (loadDirectory_run shown)
  have rerun := congrArg Prod.fst (loadDirectory_run again)
  have reordered : sources directory others content = files := by
    rw [sources, ← descriptionNames_congr same]
    rfl
  have none_iff : files = [] ↔ _ := sources_eq_nil_iff
  refine ⟨?_, sources_ascend shown.single directory content, sources_perm _ _ _, ?_, ?_⟩
  · rw [rerun, reordered, run]
  · rw [run, ← none_iff]
    by_cases none : files = []
    · simp [none]
    · rw [if_neg none]
      refine iff_of_false (fun failed => ?_) none
      obtain ⟨_, _, _, _, _, fails⟩ := registerFiles_error_iff.mp failed
      exact fails.ne_noInput directory rfl
  · rintro ⟨entry, inside, described⟩
    have some : files ≠ [] := fun none => none_iff.mp none entry inside described
    rw [run, if_neg some]
    exact ⟨fun error => registerFiles_error_iff, fun registry => registerFiles_ok_iff,
      fun registry loaded => loaded.origins⟩

end Registry

namespace Sample

def berth : String :=
  "\x7b\"name\": \"Berth\", \"version\": 1, \"fields\": \x7b\"length\": \"number\"\x7d\x7d"

/-- Two files that describe the same, one that describes nothing, and what is no description. -/
def quayTree : FileTree :=
  ⟨[], [("/quay", .directory), ("/quay/pier.json", .file "\x7b".toUTF8),
    ("/quay/berth.json", .file berth.toUTF8), ("/quay/Berth.json", .file berth.toUTF8),
    ("/quay/old.json", .directory), ("/quay/readme.txt", .file ByteArray.empty)]⟩

/-- The same files, enumerated the other way round. -/
def quayTreeReversed : FileTree := { quayTree with nodes := quayTree.nodes.reverse }

def quayEntries : List (String × Bool) :=
  [("pier.json", true), ("berth.json", true), ("Berth.json", true), ("old.json", false),
    ("readme.txt", true)]

def quayContent (name : String) : Option ByteArray :=
  quayTree.read? (Path.join "/quay" name)

theorem quay_sources : Registry.sources "/quay" quayEntries quayContent =
    ["Berth.json", "berth.json", "pier.json"].map fun name =>
      Registry.sourceFile (Path.join "/quay" name) (quayContent name) := by
  have names : Registry.descriptionNames quayEntries = ["Berth.json", "berth.json", "pier.json"] :=
    ((Registry.descriptionNames_perm quayEntries).trans (by decide +kernel)).eq_of_pairwise'
      (Registry.descriptionNames_ascend quayEntries) (by decide +kernel)
  rw [Registry.sources, names]

end Sample

open Sample in
/-- The name of the second file is taken, in either order, and the third is not looked at. -/
theorem Registry.loadDirectory_enumerated_of_quay :
    (Shows quayTree "/quay" quayEntries quayContent ∧
      Shows quayTreeReversed "/quay" quayEntries.reverse quayContent ∧
      quayEntries.Perm quayEntries.reverse ∧ ∃ entry ∈ quayEntries, Path.IsDescription entry) ∧
    ((loadDirectory "/quay" : StateM FileTree _).run quayTreeReversed).run.1 =
      ((loadDirectory "/quay" : StateM FileTree _).run quayTree).run.1 ∧
    ∃ error, ((loadDirectory "/quay" : StateM FileTree _).run quayTree).run.1.1 = .error error ∧
      error.message = "'Berth' already exists; check for duplicates in the source files" := by
  have shown : Shows quayTree "/quay" quayEntries quayContent :=
    shows_tree (by decide +kernel) fun _ _ => rfl
  have again : Shows quayTreeReversed "/quay" quayEntries.reverse quayContent :=
    shows_tree (by decide +kernel) (by decide +kernel)
  have same : quayEntries.Perm quayEntries.reverse := (List.reverse_perm _).symm
  have described : ∃ entry ∈ quayEntries, Path.IsDescription entry :=
    ⟨("pier.json", true), by decide, by decide +kernel⟩
  have message : (match empty.registerFiles (sources "/quay" quayEntries quayContent) with
      | .ok _ => ""
      | .error error => error.message) =
        "'Berth' already exists; check for duplicates in the source files" := by
    rw [quay_sources]
    decide +kernel
  obtain ⟨reordered, _, _, _, loads⟩ := Registry.loadDirectory_enumerated shown again same
  refine ⟨⟨shown, again, same, described⟩, reordered, ?_⟩
  cases ended : empty.registerFiles (sources "/quay" quayEntries quayContent) with
  | ok registry => simp [ended] at message
  | error error =>
      rw [ended] at message
      exact ⟨error, ((loads described).1 error).mpr (registerFiles_error_iff.mp ended), message⟩

end Schemata
