import Schemata.Document.State
namespace Schemata

/-! Where documents are kept. -/

/-- Payloads by identifier.  Asking may fail, and so may writing, which answers with the
store as it is then. -/
class DocumentStore (σ : Type) where
  get : σ → String → Except StoreError (Option Json)
  put : σ → String → Json → Except StoreError σ

structure MemoryStore where
  payloads : Keyed Json

namespace MemoryStore

def empty : MemoryStore := ⟨[]⟩

def size (store : MemoryStore) : Nat := store.payloads.length

def get? (store : MemoryStore) (id : String) : Option Json := Keyed.get? store.payloads id

def put (store : MemoryStore) (id : String) (payload : Json) : MemoryStore :=
  ⟨Keyed.put store.payloads id payload⟩

def remove (store : MemoryStore) (id : String) : MemoryStore :=
  ⟨Keyed.erase store.payloads id⟩

end MemoryStore

instance : DocumentStore MemoryStore where
  get store id := .ok (store.get? id)
  put store id payload := .ok (store.put id payload)

end Schemata
