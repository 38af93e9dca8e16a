import Schemata.Files.System
namespace Schemata

/-! What a write does to a tree of files.

A write leaves all directories as they are, so every path leads afterwards to where it has led
before.  Two paths are the same to a tree if they lead to the same place; what is at a place
changes only if it is written to. -/

namespace FileTree

variable {tree next : FileTree} {place other : List String} {path : String}
  {content : ByteArray}

theorem placeText_cons (name : String) (place : List String) :
    placeText (name :: place) = placeText place ++ ("/" ++ name) := by
  simp [placeText, String.join]

theorem placeText_eq_empty_iff : placeText place = "" ↔ place = [] := by
  cases place with
  | nil => simp [placeText, String.join]
  | cons name rest => simp [placeText_cons]

theorem nodeAt_congr (same : placeText place = placeText other) :
    tree.nodeAt place = tree.nodeAt other := by
  have root : place = [] ↔ other = [] := by
    rw [← placeText_eq_empty_iff, same, placeText_eq_empty_iff]
  simp only [nodeAt, List.isEmpty_iff, root, same]

theorem ne_nil_of_file (file : tree.directoryAt place = false) : place ≠ [] := by
  rintro rfl
  simp [directoryAt, nodeAt] at file

theorem nodeAt_put_of_ne (node : FileNode) (apart : placeText place ≠ placeText other) :
    (tree.put place node).nodeAt other = tree.nodeAt other := by
  simp only [nodeAt, put, Keyed.get?_insert_of_ne _ _ apart]

theorem nodeAt_put_self (node : FileNode) (inside : place ≠ []) :
    (tree.put place node).nodeAt place = some node := by
  simp [nodeAt, put, inside]

/-- Where a path leads, as a text. -/
def place? (tree : FileTree) (path : String) : Option String :=
  (tree.locate path).map placeText

theorem node?_congr {left right : String} (same : tree.place? left = tree.place? right) :
    tree.node? left = tree.node? right := by
  rw [place?, place?] at same
  rw [node?, node?]
  cases there : tree.locate left with
  | none =>
      rw [there, Option.map_none, eq_comm, Option.map_eq_none_iff] at same
      rw [same]
  | some place =>
      rw [there, Option.map_some, eq_comm, Option.map_eq_some_iff] at same
      obtain ⟨other, found, same⟩ := same
      rw [found]
      exact nodeAt_congr same.symm

theorem read?_congr {left right : FileTree} {first second : String}
    (same : left.node? first = right.node? second) : left.read? first = right.read? second := by
  rw [read?, read?, same]

/-- Trees in which all paths lead alike. -/
structure Alike (tree next : FileTree) : Prop where
  working : next.working = tree.working
  directoryAt : ∀ place, next.directoryAt place = tree.directoryAt place

theorem Alike.locate (alike : tree.Alike next) (path : String) :
    next.locate path = tree.locate path := by
  have walk : ∀ parts place, next.walk place parts = tree.walk place parts := by
    intro parts
    induction parts with
    | nil => exact fun _ => rfl
    | cons part rest inductionHypothesis =>
        intro place
        simp only [FileTree.walk, alike.directoryAt, inductionHypothesis]
  simp only [FileTree.locate, walk, alike.working]

theorem Alike.place? (alike : tree.Alike next) (path : String) :
    next.place? path = tree.place? path := by
  rw [FileTree.place?, FileTree.place?, alike.locate]

theorem Alike.trans {last : FileTree} (first : tree.Alike next) (second : next.Alike last) :
    tree.Alike last :=
  ⟨second.working.trans first.working, fun place =>
    (second.directoryAt place).trans (first.directoryAt place)⟩

/-- What a write does: the content is at the end of the path, and all else is as it was. -/
structure Stores (tree : FileTree) (path : String) (content : ByteArray) (next : FileTree) :
    Prop where
  alike : tree.Alike next
  read : next.read? path = some content
  kept : ∀ other, tree.place? other ≠ tree.place? path → next.node? other = tree.node? other

theorem Stores.node?_isSome (stores : tree.Stores path content next) :
    (next.node? path).isSome = true := by
  have read := stores.read
  rw [read?] at read
  split at read
  · rename_i found
    rw [found, Option.isSome_some]
  · simp at read

theorem Stores.placed (stores : tree.Stores path content next) :
    ∃ place, tree.place? path = some place := by
  have there := stores.node?_isSome
  rw [node?, stores.alike.locate] at there
  cases found : tree.locate path with
  | none => simp [found] at there
  | some place => exact ⟨placeText place, by rw [place?, found, Option.map_some]⟩

theorem alike_put (file : tree.directoryAt place = false) (content : ByteArray) :
    tree.Alike (tree.put place (.file content)) := by
  refine ⟨rfl, fun other => ?_⟩
  by_cases same : placeText place = placeText other
  · rw [directoryAt, ← nodeAt_congr same, nodeAt_put_self _ (ne_nil_of_file file), directoryAt,
      ← nodeAt_congr same]
    exact file.symm
  · rw [directoryAt, nodeAt_put_of_ne _ same, directoryAt]

theorem stores_of_write? (written : tree.write? path content = some next) :
    tree.Stores path content next := by
  rw [write?, Option.bind_eq_some_iff] at written
  obtain ⟨place, there, written⟩ := written
  split at written
  · simp at written
  · rename_i file
    have file : tree.directoryAt place = false := by simpa using file
    have alike := alike_put file content
    obtain rfl := Option.some.inj written
    refine ⟨alike, ?_, fun other apart => ?_⟩
    · rw [read?, node?, alike.locate, there, Option.bind_some,
        nodeAt_put_self _ (ne_nil_of_file file)]
    · rw [node?, node?, alike.locate]
      cases found : tree.locate other with
      | none => rfl
      | some place =>
          refine nodeAt_put_of_ne _ fun same => apart ?_
          rw [place?, place?, there, found, Option.map_some, Option.map_some, same]

theorem walk_append (tree : FileTree) (place left right : List String) :
    tree.walk place (left ++ right) =
      (tree.walk place left).bind fun reached => tree.walk reached right := by
  induction left generalizing place with
  | nil => rfl
  | cons part rest inductionHypothesis =>
      simp only [List.cons_append, walk, inductionHypothesis]
      split
      · rfl
      · split
        · rfl
        · split
          · rfl
          · split <;> rfl

end FileTree

/-- A name that stands for an entry of a directory, whichever it is. -/
structure Path.IsEntry (name : String) : Prop where
  single : '/' ∉ name.toList
  named : name ≠ ""
  notHere : name ≠ "."
  notParent : name ≠ ".."

namespace Path

variable {base name : String}

theorem IsEntry.relative (entry : IsEntry name) : isAbsolute name = false := by
  refine decide_eq_false fun absolute => entry.single ?_
  cases parts : name.toList with
  | nil => simp [parts] at absolute
  | cons first rest =>
      rw [parts, List.head?_cons, Option.some.injEq] at absolute
      exact absolute ▸ List.mem_cons_self

/-- A relative name is put at the end of a path. -/
theorem join_relative (base : String) : ∃ stem : String, ∀ name, isAbsolute name = false →
    join base name = stem ++ name := by
  cases closed : base.isEmpty || base.toList.getLast? = some '/' with
  | true => exact ⟨base, fun name relative => by simp only [join, relative, closed]; rfl⟩
  | false => exact ⟨base ++ "/", fun name relative => by simp only [join, relative, closed]; rfl⟩

theorem join_absolute (absolute : isAbsolute name = true) : join base name = name := by
  rw [join, if_pos absolute]

/-- A separator parts what is before it from what is after it. -/
theorem parts_of_toList {path : String} {left right : List Char}
    (split : path.toList = left ++ '/' :: right) :
    parts path = parts (String.ofList left) ++ parts (String.ofList right) := by
  rw [parts, parts, parts, split, List.splitOnP_append_cons _ _ (by simp), List.map_append,
    String.toList_ofList, String.toList_ofList]

theorem isAbsolute_join (named : base ≠ "") (relative : isAbsolute name = false) :
    isAbsolute (join base name) = isAbsolute base := by
  have filled : base.toList ≠ [] := by simpa using named
  obtain ⟨first, rest, parts⟩ := List.exists_cons_of_ne_nil filled
  have started : (join base name).toList.head? = some first := by
    rw [join, if_neg (by simp [relative])]
    split <;> simp [parts]
  rw [isAbsolute, isAbsolute, started, parts, List.head?_cons]

end Path

namespace FileTree

variable {tree : FileTree} {base name : String} {place : List String}

theorem walk_entry (entry : Path.IsEntry name) {reached : List String}
    (walked : tree.walk place [name] = some reached) : reached = name :: place := by
  have here : ¬ (name = "" ∨ name = ".") := not_or.mpr ⟨entry.named, entry.notHere⟩
  simp only [walk, Bool.or_eq_true, decide_eq_true_eq, if_neg here, if_neg entry.notParent]
    at walked
  split at walked
  · simp at walked
  · split at walked
    · exact (Option.some.inj walked).symm
    · simp at walked

theorem parts_entry (entry : Path.IsEntry name) : Path.parts name = [name] := by
  rw [Path.parts, List.splitOnP_eq_singleton, List.map_singleton, String.ofList_toList]
  intro char member
  exact decide_eq_false fun same => entry.single (same ▸ member)

/-- The place from which a path goes on from a directory; an empty one is where relative paths
start. -/
def start? (tree : FileTree) (directory : String) : Option (List String) :=
  if directory = "" then some tree.working else tree.locate directory

/-- A part that stands for the directory itself asks for what every part asks for. -/
theorem walk_here (tree : FileTree) (place : List String) {parts : List String}
    (some : parts ≠ []) :
    ((tree.walk place [""]).bind fun reached => tree.walk reached parts) =
      tree.walk place parts := by
  cases parts with
  | nil => exact absurd rfl some
  | cons part rest =>
      cases there : tree.directoryAt place <;> simp [walk, there]

theorem locate_eq_walk (tree : FileTree) {path : String} (named : path ≠ "") :
    tree.locate path =
      tree.walk (if Path.isAbsolute path then [] else tree.working) (Path.parts path) := by
  rw [locate, if_neg (by simpa using named)]
  split <;> rfl

theorem locate_join (tree : FileTree) (base : String) (relative : Path.isAbsolute name = false)
    (named : name ≠ "") : tree.locate (Path.join base name) =
      (tree.start? base).bind fun place => tree.walk place (Path.parts name) := by
  by_cases empty : base = ""
  · have joined : Path.join base name = name := by simp [Path.join, relative, empty]
    rw [joined, tree.locate_eq_walk named, relative, start?, if_pos empty]
    rfl
  · have long : Path.join base name ≠ "" := by
      obtain ⟨stem, joined⟩ := Path.join_relative base
      simp [joined name relative, named]
    rw [start?, if_neg empty, tree.locate_eq_walk long, tree.locate_eq_walk empty,
      Path.isAbsolute_join empty relative]
    by_cases closed : base.toList.getLast? = some '/'
    · -- The separator is there already, and leaves an empty part at the end of the directory.
      obtain ⟨stem, split⟩ := List.getLast?_eq_some_iff.mp closed
      have joined : (Path.join base name).toList = stem ++ '/' :: name.toList := by
        simp [Path.join, relative, split]
      have parts : Path.parts name ≠ [] := by simp [Path.parts, List.splitOnP_ne_nil]
      rw [Path.parts_of_toList joined, Path.parts_of_toList split, String.ofList_toList,
        walk_append, walk_append, Option.bind_assoc]
      exact Option.bind_congr fun place _ => (tree.walk_here place parts).symm
    · have joined : (Path.join base name).toList = base.toList ++ '/' :: name.toList := by
        simp [Path.join, relative, closed, empty]
      rw [Path.parts_of_toList joined, String.ofList_toList, String.ofList_toList, walk_append]

/-- Different entries of a directory are at different places. -/
theorem place?_join_ne {left right place : String} (first : Path.IsEntry left)
    (second : Path.IsEntry right) (different : left ≠ right)
    (found : tree.place? (Path.join base left) = some place) :
    tree.place? (Path.join base right) ≠ some place := by
  intro same
  rw [place?, locate_join tree base first.relative first.named, parts_entry first,
    Option.map_eq_some_iff] at found
  rw [place?, locate_join tree base second.relative second.named, parts_entry second,
    Option.map_eq_some_iff] at same
  obtain ⟨reached, found, rfl⟩ := found
  obtain ⟨other, there, same⟩ := same
  obtain ⟨directory, begun, walked⟩ := Option.bind_eq_some_iff.mp found
  rw [begun, Option.bind_some] at there
  rw [walk_entry first walked, walk_entry second there, placeText_cons, placeText_cons] at same
  exact different (by simpa using same.symm)

end FileTree

end Schemata
