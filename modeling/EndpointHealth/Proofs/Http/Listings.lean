import EndpointHealth.Proofs.Http.Chronicles
import EndpointHealth.Proofs.Prober.Observing
set_option autoImplicit false

/-!
Listings of a service whose registry may be seeded at any moment without its prober being told of
it, so that an endpoint need not have a status just because it is registered.

Main statement: a listing tells of every registered endpoint, in the order of registration, with the
status that it had or the one that it gets by being probed now, and probes no other; then listings
are answered the same, and probe nothing, until a status changes (`list_begins_unseen`).
-/

namespace EndpointHealth.Http

open EndpointHealth.Service (Confined Holds)

variable {τ : Type} {p : Service.Prober τ} {h : Chronicle} {w : Service.State τ}

/-- States of a service that has been served and whose registry has been seeded, perhaps in between,
from endpoints of which its prober was not told. What this does to the registry is what a start
does. -/
inductive Stocked (p : Service.Prober τ) : Chronicle → Service.State τ → Prop
  | served {h : Chronicle} {w : Service.State τ} (before : Served p h w) : Stocked p h w
  | seeded {h : Chronicle} {w : Service.State τ} (before : Stocked p h w) (seeds : List Endpoint)
      {s : Registry.Seeding} (seeded : w.env.registry.seed (.ofEndpoints seeds) = .ok s)
      (notices : List Notice) :
      Stocked p (.started seeds :: h)
        ({ w with env := { w.env with registry := s.registry } }.note notices)
  | handled {h : Chronicle} {w : Service.State τ} (before : Stocked p h w) (fresh : EndpointId)
      (r : Request) :
      Stocked p ((deed? fresh r (handle p fresh r w).1).toList ++ h) (handle p fresh r w).2
  | work {h : Chronicle} {w v : Service.State τ} {e : Option Prober.Event}
      (before : Stocked p h w) (next : p.Work w e v) : Stocked p h v

theorem holds_of_stocked (confined : Confined p) (stocked : Stocked p h w) :
    h.Lawful ∧ Holds h.book w := by
  induction stocked with
  | served before => exact holds_of_served confined before
  | seeded before seeds seeded notices ih =>
    obtain ⟨lawful, holds⟩ := ih
    exact ⟨⟨trivial, lawful⟩, registry_of_seed holds seeded, holds.whole⟩
  | handled before fresh r ih =>
    exact entered_chronicle ih.1 (entered_handle confined ih.2 fresh r)
  | work before next ih => exact ⟨ih.1, ih.2.shelf (Service.sameShelf_of_work confined next)⟩

theorem list_of_holds {b : Book} (holds : Holds b w) : w.env.registry.list = .ok b.list := by
  rw [holds.registry, Book.list_registry]

/-- Whatever the prober has seen of what is registered, a listing has one entry for each endpoint,
in the order of registration. It gives the status that the endpoint had, or pending if it had none.
For each of the latter it begins a sequence, and does nothing else. A further listing, whatever the
prober has done by itself since, answers the same and does nothing as long as no status has
changed. -/
theorem list_begins_unseen (confined : Confined p) (stocked : Stocked p h w) (fresh : EndpointId)
    (type : Option String) (body : Bytes) :
    ∃ es, w.env.registry.list = .ok es ∧ es.map (·.id) = h.ids ∧ h.ids.Nodup ∧
      let x := handle p fresh ⟨"GET", "/models", type, body⟩ w
      x.1 = .now (.json 200
        (.list (es.map fun e => listed e (some ((w.status? e.id).getD .pending))))) ∧
      x.2.env.registry = w.env.registry ∧
      (∃ begun, p.Opens begun w x.2 ∧
        begun.map (·.endpoint) = h.ids.filter fun id => (w.status? id).isNone) ∧
      ∀ v, p.Proceeds x.2 v → (∀ id, v.status? id = x.2.status? id) →
        ∀ fresh' type' body',
          handle p fresh' ⟨"GET", "/models", type', body'⟩ v = (x.1, v) := by
  obtain ⟨lawful, holds⟩ := holds_of_stocked confined stocked
  have read := list_of_holds holds
  have ids : h.book.list.map (·.id) = h.ids := by
    rw [Registry.ids_of_list h.book.list_registry, Book.ids_registry, Chronicle.ids_book lawful]
  have nodup : h.ids.Nodup := Chronicle.ids_book lawful ▸ h.book.nodup
  have told (e : Endpoint) (he : e ∈ h.book.list) : (p.observe h.ids w).status? e.id =
      some ((w.status? e.id).getD .pending) :=
    p.status_observe (ids ▸ List.mem_map_of_mem he) w
  have opens := p.opens_observe h.ids w
  refine ⟨h.book.list, read, ids, nodup, ?_⟩
  -- The listing is told after it has been observed, when nothing in it is without a status.
  rw [handle_listing p holds.whole read, ids, List.map_congr_left fun e he => by rw [told e he]]
  refine ⟨rfl, congrArg (·.registry) opens.env, ⟨_, opens, ?_⟩, fun v later same => ?_⟩
  · rw [Prober.endpoint_newSequences, p.newcomers_of_nodup nodup]
  · intro fresh' type' body'
    have holds' : Holds h.book v :=
      (holds.observe h.ids).shelf (Service.sameShelf_of_proceeds confined later)
    have seen (e : Endpoint) (he : e ∈ h.book.list) : v.status? e.id =
        some ((w.status? e.id).getD .pending) := (same e.id).trans (told e he)
    rw [handle_listing_seen p holds'.whole (list_of_holds holds') fun e he => by simp [seen e he]]
    rw [List.map_congr_left fun e he => by rw [seen e he]]

/-- Two endpoints have been seeded beside the prober, a third one has been registered. -/
theorem list_begins_unseen_seeded : ∃ h w, Stocked slow h w ∧ h.ids = ["a", "b", "m"] ∧
    w.status? "a" = none ∧ w.status? "m" = some .pending ∧
    let x := handle slow "" ⟨"GET", "/models", none, []⟩ w
    (∃ begun, slow.Opens begun w x.2 ∧ begun.map (·.endpoint) = ["a", "b"]) ∧
      handle slow "" ⟨"GET", "/models", none, []⟩ x.2 = x := by
  have seeded := (Stocked.served (Served.empty (p := slow) ())).seeded
    [claimant "a", claimant "b"] rfl []
  have added := seeded.handled "m" adding
  obtain ⟨es, -, -, -, -, -, ⟨begun, opens, unseen⟩, again⟩ :=
    list_begins_unseen confined_slow added "" none []
  refine ⟨_, _, added, by decide +kernel, by decide +kernel, by decide +kernel,
    ⟨begun, opens, unseen.trans (by decide +kernel)⟩, again _ .refl (fun _ => rfl) "" none []⟩

end EndpointHealth.Http
