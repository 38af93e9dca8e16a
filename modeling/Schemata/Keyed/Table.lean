import Schemata.Keyed.Ordered
namespace Schemata

/-! Tables: values under keys that ascend.

A table is determined by what it answers (`Table.ext`). -/

universe u v

structure Table (α : Type u) where
  entries : Keyed α
  ordered : Keyed.Ordered entries
deriving DecidableEq

namespace Table

variable {α : Type u} {β : Type v}

def empty : Table α := ⟨[], Keyed.ordered_nil⟩

def get? (table : Table α) (key : String) : Option α := Keyed.get? table.entries key

def size (table : Table α) : Nat := table.entries.length

def contains (table : Table α) (key : String) : Bool := (table.get? key).isSome

def insert (table : Table α) (key : String) (value : α) : Table α :=
  ⟨Keyed.insert table.entries key value, Keyed.ordered_insert key value table.ordered⟩

def erase (table : Table α) (key : String) : Table α :=
  ⟨Keyed.erase table.entries key, Keyed.ordered_erase key table.ordered⟩

/-- The entries whose keys pass a test. -/
def filter (test : String → Bool) (table : Table α) : Table α :=
  ⟨table.entries.filter fun entry => test entry.1, Keyed.ordered_filter _ table.ordered⟩

def mapValues (f : α → β) (table : Table α) : Table β :=
  ⟨Keyed.mapValues f table.entries, Keyed.ordered_mapValues f table.ordered⟩

/-- The entries written one after the other. -/
def ofList (entries : List (String × α)) : Table α :=
  ⟨Keyed.ofList entries, Keyed.ordered_ofList entries⟩

@[simp] theorem get?_entries (table : Table α) (key : String) :
    Keyed.get? table.entries key = table.get? key := rfl

theorem eq_of_entries {left right : Table α} (same : left.entries = right.entries) :
    left = right := by
  cases left
  cases right
  rw [mk.injEq]
  exact same

@[ext] theorem ext {left right : Table α} (alike : ∀ key, left.get? key = right.get? key) :
    left = right :=
  eq_of_entries (Keyed.eq_of_get? left.ordered right.ordered alike)

@[simp] theorem get?_empty (key : String) : (empty : Table α).get? key = none := rfl

@[simp] theorem get?_insert_self (table : Table α) (key : String) (value : α) :
    (table.insert key value).get? key = some value :=
  Keyed.get?_insert_self table.entries key value

theorem get?_insert_of_ne {key other : String} (table : Table α) (value : α)
    (distinct : key ≠ other) : (table.insert key value).get? other = table.get? other :=
  Keyed.get?_insert_of_ne table.entries value distinct

@[simp] theorem get?_erase_self (table : Table α) (key : String) :
    (table.erase key).get? key = none :=
  Keyed.get?_erase_self table.entries key

theorem get?_erase_of_ne {key other : String} (table : Table α) (distinct : key ≠ other) :
    (table.erase key).get? other = table.get? other :=
  Keyed.get?_erase_of_ne table.entries distinct

theorem get?_filter (test : String → Bool) (table : Table α) (key : String) :
    (table.filter test).get? key = if test key then table.get? key else none :=
  Keyed.get?_filter test table.entries key

@[simp] theorem get?_mapValues (f : α → β) (table : Table α) (key : String) :
    (table.mapValues f).get? key = (table.get? key).map f :=
  Keyed.get?_mapValues f table.entries key

theorem insert_of_get? {table : Table α} {key : String} {value : α}
    (found : table.get? key = some value) : table.insert key value = table :=
  eq_of_entries (Keyed.insert_of_get? found)

end Table

end Schemata
