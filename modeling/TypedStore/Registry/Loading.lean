/-
Registries of what a store has. The store is asked for the types of the builder's schemas, and the
answer is merged strictly.
-/
import TypedStore.Registry.Builder
import TypedStore.Store

set_option autoImplicit false

namespace TypedStore

/-- Loads the registry of a store whose types a source reads. -/
def RegistryBuilder.loadBy {σ : Type} (b : RegistryBuilder)
    (source : List String → Action σ Catalog) : Action σ Registry := do
  let catalog ← source b.effectiveSchemas
  Action.notes ((b.withCatalog catalog).notes true)
  Action.ofExcept (b.loadFrom catalog)

end TypedStore
