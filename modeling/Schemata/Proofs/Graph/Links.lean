import Mathlib.Data.List.Forall2
import Mathlib.Data.List.Induction
import Schemata.Proofs.Description.Canonical
import Schemata.Proofs.Graph.Linked
namespace Schemata

/-! What resolution changes in a description.

A field of documents is given the position of the schema that it names, and a schema the list
of the names that its fields refer to and the remark whether it needs dates.  Nothing else
changes, neither in a description nor in their order (`Resolution.resolve_links`). -/

/-- A list of the items of another, each once, in the order in which they come first. -/
structure FirstOccurrences (all once : List String) : Prop where
  distinct : once.Nodup
  mem_iff : ∀ item, item ∈ once ↔ item ∈ all
  ordered : once.Pairwise fun earlier later => all.idxOf earlier < all.idxOf later

theorem eraseDups_concat (items : List String) (last : String) :
    (items ++ [last]).eraseDups =
      if last ∈ items then items.eraseDups else items.eraseDups ++ [last] := by
  rw [List.eraseDups_append]
  by_cases member : last ∈ items
  · simp [List.removeAll, member]
  · simp [List.removeAll, member, List.eraseDups_cons]

theorem firstOccurrences_eraseDups (items : List String) :
    FirstOccurrences items items.eraseDups := by
  suffices ordered : items.eraseDups.Pairwise fun earlier later =>
      items.idxOf earlier < items.idxOf later by
    refine ⟨ordered.imp ?_, fun _ => List.mem_eraseDups, ordered⟩
    rintro earlier later before rfl
    exact Nat.lt_irrefl _ before
  induction items using List.reverseRecOn with
  | nil => exact .nil
  | append_singleton items last inductionHypothesis =>
      -- An item that has come before keeps its place when one more follows.
      have kept : ∀ item ∈ items, (items ++ [last]).idxOf item = items.idxOf item :=
        fun item member => by rw [List.idxOf_append, if_pos member]
      have before : items.eraseDups.Pairwise fun earlier later =>
          (items ++ [last]).idxOf earlier < (items ++ [last]).idxOf later := by
        refine inductionHypothesis.imp_of_mem fun earlier later less => ?_
        rw [kept _ (List.mem_eraseDups.mp earlier), kept _ (List.mem_eraseDups.mp later)]
        exact less
      rw [eraseDups_concat]
      split
      · exact before
      · rename_i fresh
        refine List.pairwise_append.mpr ⟨before, List.pairwise_singleton _ _, ?_⟩
        intro earlier member later added
        obtain rfl := List.mem_singleton.mp added
        have inside := List.mem_eraseDups.mp member
        rw [kept _ inside, List.idxOf_append, if_neg fresh]
        exact Nat.lt_of_lt_of_le (List.idxOf_lt_length_of_mem inside) (Nat.le_add_left _ _)

/-- The names that fields of documents refer to, in the order of the fields. -/
def SchemaDescription.targets (description : SchemaDescription) : List String :=
  description.fields.filterMap fun entry =>
    if entry.2.type = .subschema then entry.2.reference.map Reference.name else none

namespace ResolvedGraph

/-- A field before and after: one of documents now refers to the position that the index has for
the name that it gives, and the schema there has that name and is the one found under it and
through the field; any other is as it was, without a reference. -/
inductive LinksField (graph : ResolvedGraph) (before after : String × FieldSpec) : Prop
  | plain (type : before.2.type ≠ .subschema) (unreferenced : before.2.reference = none)
      (same : after = before)
  | subschema {name : String} {position : Nat} {target : SchemaDescription}
      (type : before.2.type = .subschema) (stated : before.2.reference = some ⟨name, none⟩)
      (linked : after =
        (before.1, { before.2 with reference := some ⟨name, some position⟩ }))
      (indexed : graph.index.get? name = some position)
      (there : graph.schemas[position]? = some target) (named : target.name = name)
      (found : graph.get? name = some target)
      (governed : graph.subschema? after.2 = some target)

/-- A description before and after. -/
structure Links (graph : ResolvedGraph) (before after : SchemaDescription) : Prop where
  name : after.name = before.name
  version : after.version = before.version
  origin : after.origin = before.origin
  customImportLines : after.customImportLines = before.customImportLines
  fields : List.Forall₂ graph.LinksField before.fields after.fields
  imports : FirstOccurrences before.targets after.imports
  requiresDateOnly_iff :
    after.requiresDateOnly = true ↔ ∃ entry ∈ before.fields, entry.2.type = .date

end ResolvedGraph

namespace Resolution

variable {index : Table Nat} {graph : ResolvedGraph}

theorem linkedField_of_plain {entry : String × FieldSpec} (type : entry.2.type ≠ .subschema) :
    linkedField index entry = entry := by
  have other : ¬ entry.2.type.isSubschema = true := fun subschema =>
    type (of_decide_eq_true subschema)
  rw [linkedField, if_neg other]

theorem linkedField_of_subschema {entry : String × FieldSpec}
    (type : entry.2.type = .subschema) :
    linkedField index entry = (entry.1, { entry.2 with
      reference := entry.2.reference.map fun reference =>
        ⟨reference.name, index.get? reference.name⟩ }) := by
  have subschema : entry.2.type.isSubschema = true := decide_eq_true type
  rw [linkedField, if_pos subschema]

theorem importsOf_linked (description : SchemaDescription) :
    importsOf (description.fields.map (linkedField index)) =
      description.targets.eraseDups := by
  rw [importsOf, SchemaDescription.targets, List.filterMap_map]
  congr 2
  funext entry
  by_cases type : entry.2.type = .subschema
  · simp [linkedField_of_subschema, type, FieldType.isSubschema, Function.comp_def]
  · simp [linkedField_of_plain, type, FieldType.isSubschema]

theorem linkedField_type (entry : String × FieldSpec) :
    (linkedField index entry).2.type = entry.2.type := by
  rw [linkedField]
  split <;> rfl

theorem linksField_of_linked {entry : String × FieldSpec}
    (canonical : entry.2.Canonical)
    (linked : (linkedField index entry).2.Linked graph.schemas) :
    graph.LinksField entry (linkedField index entry) := by
  by_cases type : entry.2.type = .subschema
  · have made := @linkedField_of_subschema index entry type
    cases linked with
    | plain other => exact absurd ((linkedField_type entry).trans type) other
    | @subschema position target subschema refers there =>
        have governed : graph.subschema? (linkedField index entry).2 = some target := by
          rw [ResolvedGraph.subschema?, FieldSpec.target?_of_subschema subschema refers,
            Option.bind_some, there]
        rw [made] at refers
        cases stated : entry.2.reference with
        | none => simp [stated] at refers
        | some reference =>
            have unlinked : reference = ⟨reference.name, none⟩ := by
              rw [← canonical.unlinked reference stated]
            simp only [stated, Option.map_some, Option.some.injEq, Reference.mk.injEq] at refers
            obtain ⟨named, at_position⟩ := refers
            rw [stated, Option.map_some, at_position] at made
            exact .subschema type (stated.trans (congrArg some unlinked)) made
              (named ▸ graph.indexes.get?_of_there there) there named.symm
              (named ▸ ResolvedGraph.get?_of_there there) governed
  · rw [linkedField_of_plain type]
    exact .plain type (canonical.unreferenced type) rfl

/-- Resolution links each field of documents to the schema that it names, lists for each
schema the names that its fields refer to and remarks on dates, and changes nothing else. -/
theorem resolve_links {calls : List (Json × String)}
    (resolved : resolve (Registry.empty.registerAll calls) = .ok graph) :
    graph.index = (Registry.empty.registerAll calls).index ∧
      List.Forall₂ graph.Links (Registry.empty.registerAll calls).schemas graph.schemas := by
  have sound := resolve_sound resolved
  have canonical := Registry.registerAll_canonical calls
  generalize Registry.empty.registerAll calls = registry at resolved canonical
  obtain ⟨_, rfl, _⟩ := resolve_parts resolved
  refine ⟨rfl, ?_⟩
  rw [linkedGraph, List.forall₂_map_right_iff, List.forall₂_same]
  intro description loaded
  have member : linkedSchema registry.index description ∈ (linkedGraph registry).schemas :=
    List.mem_map_of_mem loaded
  have each : ∀ entry ∈ description.fields,
      (linkedGraph registry).LinksField entry (linkedField registry.index entry) :=
    fun entry declared =>
      linksField_of_linked ((canonical description loaded).fields entry declared)
        (sound.linked _ member _ (List.mem_map_of_mem declared))
  have fields : List.Forall₂ (linkedGraph registry).LinksField description.fields
      (description.fields.map (linkedField registry.index)) := by
    rw [List.forall₂_map_right_iff, List.forall₂_same]
    exact each
  have imports : FirstOccurrences description.targets
      (importsOf (description.fields.map (linkedField registry.index))) := by
    rw [importsOf_linked]
    exact firstOccurrences_eraseDups _
  refine ⟨rfl, rfl, rfl, rfl, fields, imports, ?_⟩
  simp only [linkedSchema, List.any_map, List.any_eq_true, Function.comp_apply,
    linkedField_type, decide_eq_true_eq]

end Resolution

namespace Sample

/-- A loan refers to a book twice and to its reader, and is due on a day. -/
def loanDescriptions : List (Json × String) :=
  [(.object [("name", .text "Loan"), ("version", .nat 3),
      ("fields", .object
        [("book", .object [("type", .text "subschema"), ("schema", .text "Book")]),
          ("due", .text "date"),
          ("earlier", .array [.object [("type", .text "subschema"), ("schema", .text "Book"),
            ("required", .text "False")]]),
          ("reader", .object [("type", .text "SubSchema"), ("schema", .text "Reader")])]),
      ("customImportLines", .array [.text "use shelf;"])], "loan.json"),
    (.object [("name", .text "Book"), ("version", .nat 1),
      ("fields", .object
        [("title", .text "string"),
          ("pages", .object [("type", .text "number"), ("min", .number (.int 1)),
            ("default", .null)])])], "book.json"),
    (.object [("name", .text "Reader"), ("version", .nat 1),
      ("fields", .object
        [("label", .object [("type", .text "calculated"), ("calculator", .text "keys"),
          ("calculatedType", .text "string")])])], "reader.json")]

def loanGraph : ResolvedGraph :=
  Resolution.linkedGraph (Registry.empty.registerAll loanDescriptions)

theorem loan_ended : Graph.finishingOrder loanGraph.schemas = .ok [1, 2, 0] := by
  have size : loanGraph.schemas.length = 3 := by decide +kernel
  have first : references loanGraph.schemas 0 = [("book", 1), ("earlier", 1), ("reader", 2)] := by
    decide +kernel
  have second : references loanGraph.schemas 1 = [] := by decide +kernel
  have third : references loanGraph.schemas 2 = [] := by decide +kernel
  rw [Graph.finishingOrder, size]
  simp [List.range_succ, Graph.finishFrom, first, second, third, Graph.follow]

theorem loan_resolved :
    Resolution.resolve (Registry.empty.registerAll loanDescriptions) = .ok loanGraph :=
  Resolution.resolve_of_order (by decide +kernel) loan_ended

end Sample

open Sample in
theorem Resolution.resolve_links_of_loan :
    Resolution.resolve (Registry.empty.registerAll loanDescriptions) = .ok loanGraph ∧
    loanGraph.schemas.map SchemaDescription.imports = [["Book", "Reader"], [], []] ∧
    loanGraph.index.entries = [("Book", 1), ("Loan", 0), ("Reader", 2)] ∧
    List.Forall₂ loanGraph.Links (Registry.empty.registerAll loanDescriptions).schemas
      loanGraph.schemas :=
  ⟨loan_resolved, by decide +kernel, by decide +kernel,
    (Resolution.resolve_links loan_resolved).2⟩

end Schemata
