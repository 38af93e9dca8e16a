import Schemata.Files.Emission
import Schemata.Proofs.Files.Tree
import Schemata.Proofs.Graph.Restated
namespace Schemata

/-! What is found after artifacts have been written.

The paths that a run reports are those of the artifacts that it has written, in their order,
and each place holds what was last written to it.  So all of them are there exactly as far as no
two lead to one place (`Emission.emit_written`): without overwriting that is always so, and
with overwriting it takes names that are no paths and none that is the name of the index. -/

/-- A write that leaves the tree as it is if it does not succeed. -/
def FileTree.attempt (tree : FileTree) (path text : String) : Bool × FileTree :=
  match tree.write? path text.toUTF8 with
  | some next => (true, next)
  | none => (false, tree)

/-- A tree of files on a disk that may refuse to write.  `refusals` tells of the writes to come
whether they are refused; those after them are not. -/
structure Disk where
  tree : FileTree
  refusals : List Bool

namespace Disk

def attempt (disk : Disk) (path text : String) : Bool × Disk :=
  if disk.refusals.headD false then (false, ⟨disk.tree, disk.refusals.tail⟩)
  else
    ((disk.tree.attempt path text).1, ⟨(disk.tree.attempt path text).2, disk.refusals.tail⟩)

end Disk

instance : FileSystem (StateM Disk) where
  read path := do return (← get).tree.read? path
  write path text := modifyGet fun disk => disk.attempt path text
  exists? path := do return ((← get).tree.node? path).isSome
  isDirectory path := do return (← get).tree.isDirectory path
  entries path := do return (← get).tree.entries? path

namespace Emission

variable {options : EmissionOptions} {graph : ResolvedGraph} {artifact : Artifact}

/-- One artifact in a file system that is known by what it has and what a write does to it. -/
theorem emitOne_run {σ : Type} [FileSystem (StateM σ)] {has : σ → String → Bool}
    {attempt : σ → String → String → Bool × σ}
    (exists? : ∀ state path,
      (FileSystem.exists? path : StateM σ Bool).run state = pure (has state path, state))
    (write : ∀ state path text,
      (FileSystem.write path text : StateM σ Bool).run state = pure (attempt state path text))
    (state : σ) :
    ((emitOne options graph artifact : StateM σ _).run state).run =
      if options.force = false ∧ has state (path options artifact) = true then
        (.error (.outputExists (path options artifact)), state)
      else
        let written := attempt state (path options artifact) (content options graph artifact)
        (if written.1 then .ok (path options artifact)
          else .error (.inputOutput (path options artifact)), written.2) := by
  cases done : (attempt state (path options artifact) (content options graph artifact)).1 <;>
    cases forced : options.force <;>
    cases there : has state (path options artifact) <;>
    simp [emitOne, forced, there, done, exists?, write]

theorem emitOne_disk (disk : Disk) :
    ((emitOne options graph artifact : StateM Disk _).run disk).run =
      if options.force = false ∧ (disk.tree.node? (path options artifact)).isSome = true then
        (.error (.outputExists (path options artifact)), disk)
      else
        let written := disk.attempt (path options artifact) (content options graph artifact)
        (if written.1 then .ok (path options artifact)
          else .error (.inputOutput (path options artifact)), written.2) :=
  emitOne_run (fun _ _ => rfl) (fun _ _ _ => rfl) disk

theorem emitOne_tree (tree : FileTree) :
    ((emitOne options graph artifact : StateM FileTree _).run tree).run =
      if options.force = false ∧ (tree.node? (path options artifact)).isSome = true then
        (.error (.outputExists (path options artifact)), tree)
      else
        let written := tree.attempt (path options artifact) (content options graph artifact)
        (if written.1 then .ok (path options artifact)
          else .error (.inputOutput (path options artifact)), written.2) := by
  refine emitOne_run (fun _ _ => rfl) (fun tree path text => ?_) tree
  simp only [FileSystem.write, StateT.run_bind, StateT.run_get, pure_bind, FileTree.attempt]
  cases tree.write? path text.toUTF8 <;> rfl

/-- A disk that refuses no write is the tree on it. -/
theorem emit_reliable (options : EmissionOptions) (graph : ResolvedGraph) (tree : FileTree) :
    ((emit options graph : StateM Disk EmissionReport).run ⟨tree, []⟩).run =
      (((emit options graph : StateM FileTree EmissionReport).run tree).run.1,
        ⟨((emit options graph : StateM FileTree EmissionReport).run tree).run.2, []⟩) := by
  rw [emit, emit]
  induction artifacts graph generalizing tree with
  | nil => rfl
  | cons artifact rest inductionHypothesis =>
      have first : ((emitOne options graph artifact : StateM Disk _).run ⟨tree, []⟩).run =
          (((emitOne options graph artifact : StateM FileTree _).run tree).run.1,
            ⟨((emitOne options graph artifact : StateM FileTree _).run tree).run.2, []⟩) := by
        rw [emitOne_disk, emitOne_tree]
        split <;> rfl
      simp only [emitEach, StateT.run_bind, Id.run_bind, first, inductionHypothesis]
      generalize ((emitOne options graph artifact : StateM FileTree _).run tree).run = step
      obtain ⟨answer, next⟩ := step
      cases answer <;> rfl

/-- What becomes of one artifact: without overwriting its path is free or nothing happens, the
disk may refuse it, and else it is at its path. -/
inductive Steps (options : EmissionOptions) (graph : ResolvedGraph) (artifact : Artifact)
    (before : FileTree) : Except GenerationError String → FileTree → Prop
  | taken (careful : options.force = false)
      (there : (before.node? (path options artifact)).isSome = true) :
      Steps options graph artifact before (.error (.outputExists (path options artifact))) before
  | refused :
      Steps options graph artifact before (.error (.inputOutput (path options artifact))) before
  | written {after : FileTree}
      (free : options.force = false → before.node? (path options artifact) = none)
      (stores : before.Stores (path options artifact) (content options graph artifact).toUTF8
        after) :
      Steps options graph artifact before (.ok (path options artifact)) after

/-- The step lemma. -/
theorem emitOne_steps (disk : Disk) :
    Steps options graph artifact disk.tree
      ((emitOne options graph artifact : StateM Disk _).run disk).run.1
      ((emitOne options graph artifact : StateM Disk _).run disk).run.2.tree := by
  rw [emitOne_disk]
  split
  · rename_i occupied
    exact .taken occupied.1 occupied.2
  · rename_i free
    have free : options.force = false → disk.tree.node? (path options artifact) = none := by
      intro careful
      simpa using fun there => free ⟨careful, there⟩
    rw [Disk.attempt, FileTree.attempt]
    cases disk.refusals.headD false with
    | true => exact .refused
    | false =>
        cases stored : disk.tree.write? (path options artifact)
            (content options graph artifact).toUTF8 with
        | none => exact .refused
        | some after => exact .written free (FileTree.stores_of_write? stored)

/-- What a run has done with its artifacts, the written ones among them. -/
structure Accounts (options : EmissionOptions) (graph : ResolvedGraph)
    (artifacts written : List Artifact) (before after : FileTree) (report : EmissionReport) :
    Prop where
  sublist : written.Sublist artifacts
  all : (written ++ report.failures.map Prod.fst).Perm artifacts
  reported : report.written = written.map (path options)
  alike : before.Alike after
  placed : ∀ artifact ∈ written, ∃ place, before.place? (path options artifact) = some place
  kept : ∀ other, (∀ artifact ∈ written, before.place? other ≠
    before.place? (path options artifact)) → after.node? other = before.node? other
  last : ∀ earlier artifact later, written = earlier ++ artifact :: later →
    (∀ other ∈ later, before.place? (path options artifact) ≠
      before.place? (path options other)) →
    after.read? (path options artifact) = some (content options graph artifact).toUTF8
  free : options.force = false → ∀ artifact ∈ written,
    before.node? (path options artifact) = none
  apart : options.force = false → (written.map fun artifact =>
    before.place? (path options artifact)).Nodup

theorem accounts_nil (tree : FileTree) :
    Accounts options graph [] [] tree tree ⟨[], []⟩ where
  sublist := .slnil
  all := .nil
  reported := rfl
  alike := ⟨rfl, fun _ => rfl⟩
  placed := by simp
  kept _ _ := rfl
  last earlier artifact later parts := by simp at parts
  free := by simp
  apart := by simp

/-- An artifact that fails leaves the tree to those after it. -/
theorem Accounts.skip {artifacts written : List Artifact} {before after : FileTree}
    {report : EmissionReport}
    (accounts : Accounts options graph artifacts written before after report)
    (artifact : Artifact) (error : GenerationError) :
    Accounts options graph (artifact :: artifacts) written before after
      { report with failures := (artifact, error) :: report.failures } where
  sublist := accounts.sublist.cons artifact
  all := by
    rw [List.map_cons]
    exact List.perm_middle.trans (accounts.all.cons artifact)
  reported := accounts.reported
  alike := accounts.alike
  placed := accounts.placed
  kept := accounts.kept
  last := accounts.last
  free := accounts.free
  apart := accounts.apart

/-- An artifact that is written is there unless one of those after it leads to its place. -/
theorem Accounts.cons {artifacts written : List Artifact} {before next after : FileTree}
    {report : EmissionReport}
    (free : options.force = false → before.node? (path options artifact) = none)
    (stores : before.Stores (path options artifact) (content options graph artifact).toUTF8 next)
    (accounts : Accounts options graph artifacts written next after report) :
    Accounts options graph (artifact :: artifacts) (artifact :: written) before after
      { report with written := path options artifact :: report.written } := by
  -- Without overwriting the places of the others have still been free after this write.
  have absent : options.force = false → ∀ other ∈ written,
      before.place? (path options other) ≠ before.place? (path options artifact) := by
    intro careful other member same
    rw [← stores.alike.place?, ← stores.alike.place?] at same
    have there := stores.node?_isSome
    rw [← FileTree.node?_congr same, accounts.free careful other member] at there
    simp at there
  refine ⟨accounts.sublist.cons_cons artifact, accounts.all.cons artifact, ?_,
    stores.alike.trans accounts.alike, ?_, ?_, ?_, ?_, ?_⟩
  · rw [List.map_cons, accounts.reported]
  · intro one member
    rcases List.mem_cons.mp member with rfl | later
    · exact stores.placed
    · rw [← stores.alike.place?]
      exact accounts.placed one later
  · intro other others
    have later : ∀ one ∈ written, next.place? other ≠ next.place? (path options one) := by
      intro one member
      rw [stores.alike.place?, stores.alike.place?]
      exact others one (List.mem_cons_of_mem _ member)
    rw [accounts.kept other later, stores.kept other (others artifact List.mem_cons_self)]
  · intro earlier one later parts others
    cases earlier with
    | nil =>
        obtain ⟨rfl, rfl⟩ := List.cons.inj parts
        rw [FileTree.read?_congr (accounts.kept _ fun other member => ?_), stores.read]
        rw [stores.alike.place?, stores.alike.place?]
        exact others other member
    | cons first earlier =>
        refine accounts.last earlier one later (List.cons.inj parts).2 fun other member => ?_
        rw [stores.alike.place?, stores.alike.place?]
        exact others other member
  · intro careful one member
    rcases List.mem_cons.mp member with rfl | later
    · exact free careful
    · rw [← stores.kept _ (absent careful one later)]
      exact accounts.free careful one later
  · intro careful
    rw [List.map_cons, List.nodup_cons]
    refine ⟨fun same => ?_, ?_⟩
    · obtain ⟨other, member, same⟩ := List.mem_map.mp same
      exact absent careful other member same
    · have nodup := accounts.apart careful
      simp only [stores.alike.place?] at nodup
      exact nodup

/-- The disk after some artifacts, whatever became of them. -/
def turn (options : EmissionOptions) (graph : ResolvedGraph) (earlier : List Artifact)
    (disk : Disk) : Disk :=
  ((emitEach options graph earlier : StateM Disk _).run disk).run.2

theorem turn_cons (earlier : List Artifact) (disk : Disk) :
    turn options graph (artifact :: earlier) disk =
      turn options graph earlier
        ((emitOne options graph artifact : StateM Disk _).run disk).run.2 := by
  simp only [turn, emitEach, StateT.run_bind, Id.run_bind]
  split <;> rfl

/-- An artifact can be written: its path is free, if it has to be, and the disk takes it. -/
structure Succeeds (options : EmissionOptions) (graph : ResolvedGraph) (disk : Disk)
    (artifact : Artifact) : Prop where
  free : options.force = false → disk.tree.node? (path options artifact) = none
  taken : (disk.attempt (path options artifact) (content options graph artifact)).1 = true

theorem emitOne_of_succeeds {disk : Disk} (succeeds : Succeeds options graph disk artifact) :
    ((emitOne options graph artifact : StateM Disk _).run disk).run.1 =
      .ok (path options artifact) := by
  rw [emitOne_disk, if_neg]
  · simp only [succeeds.taken, ↓reduceIte]
  · rintro ⟨careful, there⟩
    simp [succeeds.free careful] at there

/-- The run lemma. -/
theorem emitEach_accounts (artifacts : List Artifact) (disk : Disk) :
    ∃ written, Accounts options graph artifacts written disk.tree
        ((emitEach options graph artifacts : StateM Disk _).run disk).run.2.tree
        ((emitEach options graph artifacts : StateM Disk _).run disk).run.1 ∧
      ∀ earlier artifact later, artifacts = earlier ++ artifact :: later →
        Succeeds options graph (turn options graph earlier disk) artifact →
        artifact ∈ written := by
  induction artifacts generalizing disk with
  | nil => exact ⟨[], accounts_nil disk.tree, by simp⟩
  | cons artifact rest inductionHypothesis =>
      have step : Steps options graph artifact disk.tree _ _ := emitOne_steps disk
      have here : Succeeds options graph disk artifact → _ := emitOne_of_succeeds
      have turns : ∀ earlier, turn options graph (artifact :: earlier) disk = _ :=
        fun earlier => turn_cons earlier disk
      simp only [emitEach, StateT.run_bind, Id.run_bind]
      generalize ((emitOne options graph artifact : StateM Disk _).run disk).run = first
        at step here turns ⊢
      obtain ⟨answer, tree, refusals⟩ := first
      obtain ⟨written, accounts, served⟩ := inductionHypothesis ⟨tree, refusals⟩
      have reached : ∀ earlier one later, artifact :: rest = earlier ++ one :: later →
          Succeeds options graph (turn options graph earlier disk) one →
          (one = artifact ∧ answer = .ok (path options artifact)) ∨ one ∈ written := by
        intro earlier one later parts succeeds
        cases earlier with
        | nil =>
            obtain ⟨rfl, rfl⟩ := List.cons.inj parts
            exact .inl ⟨rfl, here succeeds⟩
        | cons first earlier =>
            obtain ⟨rfl, tail⟩ := List.cons.inj parts
            exact .inr (served earlier one later tail (turns earlier ▸ succeeds))
      generalize ((emitEach options graph rest : StateM Disk _).run ⟨tree, refusals⟩).run = second
        at accounts ⊢
      cases step with
      | taken careful there =>
          refine ⟨written, accounts.skip artifact _, fun earlier one later parts succeeds => ?_⟩
          exact (reached earlier one later parts succeeds).resolve_left (by simp)
      | refused =>
          refine ⟨written, accounts.skip artifact _, fun earlier one later parts succeeds => ?_⟩
          exact (reached earlier one later parts succeeds).resolve_left (by simp)
      | written free stores =>
          refine ⟨artifact :: written, accounts.cons free stores,
            fun earlier one later parts succeeds => ?_⟩
          rcases reached earlier one later parts succeeds with ⟨rfl, _⟩ | member
          · exact List.mem_cons_self
          · exact List.mem_cons_of_mem _ member

/-- No two artifacts lead to one place. -/
def Apart (options : EmissionOptions) (graph : ResolvedGraph) (tree : FileTree) : Prop :=
  (artifacts graph).Pairwise fun first second => ∀ place,
    tree.place? (path options first) = some place →
      tree.place? (path options second) ≠ some place

theorem Accounts.places_nodup {written : List Artifact} {before after : FileTree}
    {report : EmissionReport}
    (accounts : Accounts options graph (artifacts graph) written before after report)
    (apart : options.force = false ∨ Apart options graph before) :
    (written.map fun artifact => before.place? (path options artifact)).Nodup := by
  rcases apart with careful | apart
  · exact accounts.apart careful
  · rw [List.Nodup, List.pairwise_map]
    refine (apart.sublist accounts.sublist).imp_of_mem fun member _ different same => ?_
    obtain ⟨place, found⟩ := accounts.placed _ member
    exact different place found (same ▸ found)

/-- Artifacts that are written to places of their own are all there. -/
theorem Accounts.intact {written : List Artifact} {before after : FileTree}
    {report : EmissionReport} {artifacts : List Artifact}
    (accounts : Accounts options graph artifacts written before after report)
    (places : (written.map fun artifact => before.place? (path options artifact)).Nodup) :
    report.written.Nodup ∧ ∀ artifact ∈ written,
      after.read? (path options artifact) = some (content options graph artifact).toUTF8 := by
  constructor
  · have paths : ((written.map (path options)).map before.place?).Nodup := by
      rw [List.map_map]
      exact places
    exact accounts.reported ▸ List.Nodup.of_map _ paths
  · intro artifact member
    obtain ⟨earlier, later, parts⟩ := List.append_of_mem member
    refine accounts.last earlier artifact later parts fun other after same => ?_
    rw [parts, List.map_append, List.map_cons] at places
    have fresh := (List.nodup_cons.mp (List.nodup_append.mp places).2.1).1
    exact fresh (same ▸ List.mem_map_of_mem after)

theorem isEntry_file {name : String} (single : '/' ∉ name.toList) :
    Path.IsEntry (name ++ ".json") := by
  have long : ∀ short : String, short.length < 5 → name ++ ".json" ≠ short := by
    rintro short few rfl
    have suffix : ".json".length = 5 := rfl
    rw [String.length_append] at few
    omega
  exact ⟨by simp [single], long _ (by decide), long _ (by decide), long _ (by decide)⟩

/-- Artifacts lead to places of their own if no name is a path or that of the index. -/
theorem apart_of_plain (plain : ∀ name ∈ graph.names, '/' ∉ name.toList ∧ name ≠ "models")
    (tree : FileTree) : Apart options graph tree := by
  have entry : ∀ schema ∈ graph.schemas, Path.IsEntry (schema.name ++ ".json") :=
    fun schema loaded => isEntry_file (plain _ (List.mem_map_of_mem loaded)).1
  have index : Path.IsEntry indexName := ⟨by decide, by decide, by decide, by decide⟩
  refine List.pairwise_append.mpr ⟨?_, List.pairwise_singleton _ _, ?_⟩
  · rw [List.pairwise_map]
    refine (List.pairwise_map.mp graph.names_nodup).imp_of_mem ?_
    intro _ _ first second different place found
    exact FileTree.place?_join_ne (entry _ first) (entry _ second) (by simpa using different) found
  · intro manifest member last added place found
    obtain ⟨schema, loaded, rfl⟩ := List.mem_map.mp member
    obtain rfl := List.mem_singleton.mp added
    refine FileTree.place?_join_ne (entry schema loaded) index (fun same => ?_) found
    have named : schema.name ++ ".json" = "models" ++ ".json" := same
    exact (plain _ (List.mem_map_of_mem loaded)).2 ((String.append_left_inj _).mp named)

/-- Whatever writes are refused, the paths that are reported are those of the artifacts that
have been written, each once and with what was rendered for it, unless existing files are
overwritten and two artifacts lead to one place; which they do not if no name is a path or that
of the index. -/
theorem emit_written (options : EmissionOptions) (graph : ResolvedGraph) (disk : Disk) :
    let outcome := ((emit options graph : StateM Disk EmissionReport).run disk).run
    ∃ written, Accounts options graph (artifacts graph) written disk.tree outcome.2.tree
        outcome.1 ∧
      (options.force = false ∨ Apart options graph disk.tree →
        outcome.1.written.Nodup ∧ ∀ artifact ∈ written,
          outcome.2.tree.read? (path options artifact) =
            some (content options graph artifact).toUTF8) ∧
      ((∀ name ∈ graph.names, '/' ∉ name.toList ∧ name ≠ "models") →
        Apart options graph disk.tree) := by
  obtain ⟨written, accounts, _⟩ := emitEach_accounts (artifacts graph) disk
  exact ⟨written, accounts, fun apart => accounts.intact (accounts.places_nodup apart),
    fun plain => apart_of_plain plain disk.tree⟩

end Emission

namespace Sample

/-- A directory for artifacts, with one of another time in it. -/
def outputTree : FileTree :=
  ⟨[], [("/models", .directory), ("/models/Book.json", .file ByteArray.empty)]⟩

/-- One schema has the name of the index. -/
def clashDescriptions : List (Json × String) :=
  [(.object [("name", .text "models"), ("version", .nat 1),
    ("fields", .object [("title", .text "string")])], "clash.json")]

def clashSchema : SchemaDescription :=
  { name := "models", version := 1, origin := "clash.json",
    fields := [("title", { type := .string })] }

def clashGraph : ResolvedGraph :=
  Resolution.linkedGraph (Registry.empty.registerAll clashDescriptions)

def clashEmission : EmissionOptions := ⟨"models", true, "library"⟩

end Sample

open Sample in
theorem Emission.emit_written_of_loan :
    let outcome := ((emit loanEmission loanGraph : StateM Disk EmissionReport).run
      ⟨outputTree, [false, true]⟩).run
    Resolution.resolve (Registry.empty.registerAll loanDescriptions) = .ok loanGraph ∧
    ∃ written, Accounts loanEmission loanGraph (artifacts loanGraph) written outputTree
        outcome.2.tree outcome.1 ∧
      outcome.1.written.Nodup ∧ ∀ artifact ∈ written,
        outcome.2.tree.read? (path loanEmission artifact) =
          some (content loanEmission loanGraph artifact).toUTF8 := by
  obtain ⟨written, accounts, intact, _⟩ :=
    Emission.emit_written loanEmission loanGraph ⟨outputTree, [false, true]⟩
  exact ⟨loan_resolved, written, accounts, intact (.inl rfl)⟩

open Sample in
/-- The index is written over the manifest of a schema of its name, and nobody is told. -/
theorem Emission.manifest_overwritten :
    let outcome := ((emit clashEmission clashGraph : StateM FileTree EmissionReport).run
      outputTree).run
    Resolution.resolve (Registry.empty.registerAll clashDescriptions) = .ok clashGraph ∧
    outcome.1.isSuccess = true ∧
    outcome.1.written = ["models/models.json", "models/models.json"] ∧
    outcome.2.read? (path clashEmission (.manifest clashSchema)) ≠
      some (content clashEmission clashGraph (.manifest clashSchema)).toUTF8 := by
  have alone : references clashGraph.schemas 0 = [] := by decide +kernel
  have ordered : Graph.finishingOrder clashGraph.schemas = .ok [0] := by
    rw [Graph.finishingOrder, show clashGraph.schemas.length = 1 from rfl]
    simp [Graph.finishFrom, alone, Graph.follow, List.range_succ]
  exact ⟨Resolution.resolve_of_order rfl ordered, by decide +kernel⟩

end Schemata
