import TuxBooks.Catalog.Project
import TuxBooks.Device.Device

set_option relaxedAutoImplicit false
set_option autoImplicit false

/-!
# Projecting an entity

The body of the loop of `project` in `sidecar/src/sync/merge.rs` for the kinds that belong to a
book: the final state of the entity in the mirror becomes its local row. A book without a durable
record waits.

## Main definitions

* `TuxBooks.Mirror.affectedRow` — one row of the query of `project_book`.
* `TuxBooks.Device.projectState` — project one entity.
-/

namespace TuxBooks

/-- An entity of the mirror as `project_book` lists it. -/
def Mirror.affectedRow (m : Mirror) (kind : EntityKind) (uid : String) : Option Affected :=
  (m.entities.lookup (kind, uid)).map fun row => ⟨kind, uid, row.bookUid⟩

namespace Device

variable (jsonReal : ℚ → Value)

/-- A projection that writes rows of the catalog. -/
def onCatalog (d : Device) (r : Catalog × Except AppError Unit) : Device × Except AppError Unit :=
  ({ d with catalog := r.1 }, r.2)

/-- Project one entity that belongs to a book. -/
def projectState (d : Device) (source : CoverSource) (now : String) (item : Affected) :
    Device × Except AppError Unit :=
  match item.bookUid with
  | none => (d, .ok ())
  | some bookUid =>
    if ¬d.catalog.hasRecord bookUid then (d, .ok ())
    else
      let state := d.mirror.loadState item.kind item.entityUid
      match item.kind with
      | EntityKind.annotation => d.onCatalog
          (d.catalog.projectAnnotation jsonReal bookUid item.entityUid state.1 state.2 now)
      | .progress => d.onCatalog (d.catalog.projectProgress jsonReal bookUid state.1 state.2 now)
      | .metadata => d.onCatalog (d.catalog.projectMetadata jsonReal bookUid source state.1)
      | .opened => d.onCatalog (d.catalog.projectOpened bookUid state.1, .ok ())
      | .membership =>
        d.onCatalog (d.catalog.projectMembership item.entityUid state.1 now, .ok ())
      | .collection | .bookIdentity | .book => (d, .ok ())

end Device

end TuxBooks
