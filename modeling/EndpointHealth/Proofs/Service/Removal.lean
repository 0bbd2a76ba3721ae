import EndpointHealth.Client.RegistryTester
import EndpointHealth.Proofs.Prober.Forgetting
import EndpointHealth.Proofs.Registry.Ids
import EndpointHealth.Proofs.Service.Sections
set_option autoImplicit false

/-!
What is left of an endpoint that has been removed, when other requests are served at the same time.

A removal takes the endpoint out of the registry, and only then has it forgotten. Main statements:
a removed endpoint has a status exactly if it has been probed or tested since it was forgotten
(`removed_status_iff`), as a request can have it that found it in the registry before
(`removal_overtaken`). Where there is no such request, the removal is for good
(`removed_for_good`).
-/

namespace EndpointHealth.Service

open EndpointHealth.Prober (Event History Work Sequence ManualTest)

variable {τ : Type}

/-! ### Removals -/

theorem andThen_ok {α β : Type} {x : Except ServiceError α × State τ}
    {next : α → State τ → Except ServiceError β × State τ} {b : β}
    (h : (andThen x next).1 = .ok b) : ∃ a v, x = (.ok a, v) ∧ (next a v).1 = .ok b := by
  obtain ⟨result, v⟩ := x
  cases result with
  | error why => cases h
  | ok a => exact ⟨a, v, rfl, h⟩

theorem remove_of_enter {p : Prober τ} {r : Request} {id : EndpointId} {w : State τ}
    (h : (r.enter p w).1 = .ok (.forget id)) : r = .remove id := by
  cases r with
  | list =>
    obtain ⟨es, v, -, h⟩ := andThen_ok h
    cases h
  | register j req =>
    unfold Request.enter at h
    dsimp only at h
    split at h
    · cases h
    · obtain ⟨_, v, -, h⟩ := andThen_ok h
      cases h
  | update j req =>
    obtain ⟨edited, v, -, h⟩ := andThen_ok h
    cases edited with
    | error why => cases h
    | ok e => cases h
  | probe j =>
    obtain ⟨e, v, -, h⟩ := andThen_ok h
    cases h
  | test j message =>
    obtain ⟨e, v, -, h⟩ := andThen_ok h
    cases h
  | remove j =>
    obtain ⟨found, v, -, h⟩ := andThen_ok h
    cases found with
    | false => cases h
    | true =>
      cases h
      rfl

theorem forget_of_event {id : EndpointId} {w : State τ} {x : Errand}
    (h : x.event? w = some (.forgotten id)) : x = .forget id := by
  cases x with
  | forget j =>
    cases h
    rfl
  | _ => cases h

theorem rest_ne_forget {id : EndpointId} {w : State τ} (x : Errand) :
    x.rest? w ≠ some (.forget id) := by
  intro h
  cases x with
  | observe ids =>
    cases ids with
    | nil => cases h
    | cons i ids =>
      have h := Option.some.inj h
      split at h
      · cases h
      · cases h
  | _ => cases h

/-- After a section of an errand what is left of it is new, and nothing else. -/
theorem errand_left {w : State τ} {es a b : List Errand} {x y : Errand} (h : es = a ++ x :: b)
    (hy : y ∈ a ++ (x.rest? w).toList ++ b) : y ∈ es ∨ x.rest? w = some y := by
  subst h
  rcases List.mem_append.mp hy with hy | hy
  · rcases List.mem_append.mp hy with hy | hy
    · exact .inl (List.mem_append_left _ hy)
    · exact .inr (Option.mem_toList.mp hy)
  · exact .inl (List.mem_append_right a (List.mem_cons_of_mem x hy))

theorem removal_of_errand {p : Prober τ} {h : Record} {site : Site τ} (run : Site.Run p h site)
    {id : EndpointId} (waiting : .forget id ∈ site.errands) : .entered (.remove id) ∈ h := by
  obtain ⟨b, ids, sections⟩ := run
  induction sections with
  | refl => simp at waiting
  | step before step ih =>
    rename_i h v v' m
    refine List.mem_append.mpr ?_
    cases step with
    | work work => exact .inr (ih waiting)
    | note notices => exact .inr (ih waiting)
    | enter r =>
      unfold Site.enter at waiting
      split at waiting
      · rename_i x w entered
        rcases List.mem_cons.mp waiting with rfl | waiting
        · rw [remove_of_enter (congrArg Prod.fst entered)]
          exact .inl (List.mem_cons_self ..)
        · exact .inr (ih waiting)
      · exact .inr (ih waiting)
    | proceed hv =>
      rename_i a b x
      rcases errand_left hv waiting with waiting | left
      · exact .inr (ih waiting)
      · exact absurd left (rest_ne_forget x)

/-- Endpoints are forgotten for removals only. -/
theorem removal_of_forgotten {p : Prober τ} {later earlier : Record} {site : Site τ}
    {id : EndpointId} (run : Site.Run p (later ++ .did (.forgotten id) :: earlier) site) :
    .entered (.remove id) ∈ earlier := by
  obtain ⟨b, ids, sections⟩ := run
  obtain ⟨u, u', before, step, -⟩ := sections.split
  refine removal_of_errand ⟨b, ids, before⟩ ?_
  generalize hm : some (Mark.did (.forgotten id)) = m at step
  cases step with
  | work work =>
    obtain ⟨e, rfl, hmark⟩ := Option.map_eq_some_iff.mp hm.symm
    cases hmark
    cases EndpointHealth.Prober.isEnd_of_work work
  | note notices => cases hm
  | enter r => cases hm
  | proceed hv =>
    obtain ⟨e, hevent, hmark⟩ := Option.map_eq_some_iff.mp hm.symm
    cases hmark
    rw [hv, forget_of_event hevent]
    exact List.mem_append_right _ (List.mem_cons_self ..)

theorem enter_of_remove {p : Prober τ} {id : EndpointId} {w : State τ}
    (h : (remove p id w).1 = .ok ()) :
    (Request.enter p (.remove id) w).1 = .ok (.forget id) := by
  obtain ⟨found, v, taken, h⟩ := andThen_ok h
  unfold Request.enter
  dsimp only
  rw [taken]
  cases found with
  | false => cases h
  | true => rfl

theorem status_after_forgotten {p : Prober τ} {id : EndpointId} {later earlier : Record}
    {site : Site τ} (run : Site.Run p (later ++ .did (.forgotten id) :: earlier) site) :
    History.Possible (later.history ++ .forgotten id :: Record.history earlier) ∧
      site.world.status? id =
        History.status? id (later.history ++ .forgotten id :: Record.history earlier) := by
  have tracks := EndpointHealth.Prober.tracks_of_run (run_of_site run)
  have history : Record.history (later ++ .did (.forgotten id) :: earlier) =
      later.history ++ .forgotten id :: Record.history earlier := by
    simp [Record.history, Mark.event?]
  rw [history] at tracks
  refine ⟨tracks.possible, ?_⟩
  rw [← History.status_ledger tracks.possible, ← tracks.ledger]
  rfl

/-! ### Requests that overlap with a removal -/

/-- An endpoint is forgotten in the last section of its removal; `later` has happened since. -/
theorem removed_status_iff (p : Prober τ) {id : EndpointId} {later earlier : Record}
    {site : Site τ} (run : Site.Run p (later ++ .did (.forgotten id) :: earlier) site)
    (last : .did (.forgotten id) ∉ later) :
    .entered (.remove id) ∈ earlier ∧
    (site.world.status? id = none ↔
      (∀ s, .did (.begun s) ∈ later → s.endpoint ≠ id) ∧
      ∀ t, t.endpoint = id → .did (.testBegun t) ∈ later → .did (.testPassed t) ∉ later) := by
  obtain ⟨possible, status⟩ := status_after_forgotten run
  have absent := History.status_none_iff possible (mt mem_history.mp last)
  simp only [mem_history] at absent
  rw [status]
  exact ⟨removal_of_forgotten run, absent⟩

def instant : Prober Unit where
  policy := .standard
  tester := fun b _ _ => (⟨some 0, .text "pong", []⟩, b)

def shelf : State Unit :=
  .start ⟨⟨some [⟨"m", "alias", "OPENAI", "", none, "key", 1⟩]⟩, false, ()⟩

def another : Registration where
  name := "other"
  provider := .openai
  model := ""
  apiBase := none
  apiKey := "key"
  makeDefault := false

/-- The sequence of an endpoint passes after its removal, when another endpoint is being probed. -/
theorem removed_status_iff_probed_before :
    ∃ site, Site.Run instant ([.did (.ended ⟨"m", 1⟩ .success), .did (.begun ⟨"n", 3⟩),
          .entered (.register "n" another)] ++ .did (.forgotten "m") ::
        [.entered (.remove "m"), .did (.begun ⟨"m", 1⟩)]) site ∧
      site.world.status? "m" = none ∧ site.world.status? "n" = some .pending := by
  have looked := Site.Steps.single (head_section instant (.observe ["m"]) shelf [])
  have begun := looked.step (head_section instant (.begin "m" []) shelf [])
  have answered := begun.step (head_section instant (.observe []) (instant.probe "m" shelf) [])
  have removed := answered.step (.enter (.remove "m"))
  have forgotten := removed.step (head_section instant (.forget "m") _ [])
  have registered := forgotten.step (.enter (.register "n" another))
  have probed := registered.step (head_section instant (.begin "n" []) _ [])
  have launched := probed.step
    (.work (.attempt (a := []) (b := [⟨0, .attempt ⟨"n", 3⟩ 4⟩]) rfl))
  have ended := launched.step (.work (.close (a := [⟨0, .attempt ⟨"n", 3⟩ 4⟩]) (b := []) rfl))
  have run : Site.Run instant ([.did (.ended ⟨"m", 1⟩ .success), .did (.begun ⟨"n", 3⟩),
      .entered (.register "n" another)] ++ .did (.forgotten "m") ::
        [.entered (.remove "m"), .did (.begun ⟨"m", 1⟩)]) _ := ⟨_, ["m"], ended⟩
  refine ⟨_, run, (removed_status_iff instant run (by simp)).2.mpr (by simp), ?_⟩
  decide

/-- A probe of the endpoint overlaps with its removal: it has been to the registry before the
removal, and has its sequence begun after it. -/
theorem removal_overtaken :
    ¬ ∀ (h : Record) (site : Site Unit), Site.Run instant h site →
      (∀ req, .entered (.register "m" req) ∉ h) → .did (.forgotten "m") ∈ h →
      site.errands = [] → site.world.agenda = [] → site.world.status? "m" = none := by
  intro always
  have started := Site.Steps.single (head_section instant (.observe []) shelf [])
  have probed := started.step (.enter (.probe "m"))
  have removed := probed.step (.enter (.remove "m"))
  have forgotten := removed.step (head_section instant (.forget "m") _ [.begin "m" []])
  have begun := forgotten.step (head_section instant (.begin "m" []) _ [])
  have answered := begun.step (head_section instant (.observe []) _ [])
  have launched := answered.step (.work (.attempt (a := []) (b := []) rfl))
  have ended := launched.step (.work (.close (a := []) (b := []) rfl))
  have run : Site.Run instant [.did (.ended ⟨"m", 2⟩ .success), .did (.begun ⟨"m", 2⟩),
      .did (.forgotten "m"), .entered (.remove "m"), .entered (.probe "m")] _ := ⟨_, [], ended⟩
  have gone := always _ _ run (by simp) (by simp) rfl rfl
  revert gone
  decide

/-! ### Removed for good -/

/-- Whether an errand may have an endpoint probed or tested. -/
def Errand.Reaches (id : EndpointId) : Errand → Prop
  | .observe ids => id ∈ ids
  | .begin i rest => i = id ∨ id ∈ rest
  | .forget _ => False
  | .test i _ => i = id

/-- A tester that leaves the registry as it is. -/
def Keeps (p : Prober τ) : Prop := ∀ b now r, (p.tester b now r).2.registry = b.registry

theorem registryTester_keeps {ν : Type} (policy : Policy) (n : Client.Network ν) :
    Keeps ⟨policy, Client.registryTester n⟩ := by
  intro b now r
  show (Client.registryTester n b now r).2.registry = b.registry
  unfold Client.registryTester
  split
  · rfl
  · split <;> rfl

theorem registry_of_work {p : Prober τ} (keeps : Keeps p) {w v : State τ} {e : Option Event}
    (work : p.Work w e v) : v.env.registry = w.env.registry := by
  cases work with
  | tick time => rfl
  | attempt h => exact keeps _ _ _
  | close h =>
    unfold EndpointHealth.Prober.settle EndpointHealth.Prober.closeWith
    dsimp only
    split
    · rfl
    · rfl
    · split
      · rfl
      · split <;> rfl
  | conclude h =>
    unfold EndpointHealth.Prober.closeTest
    dsimp only
    split <;> rfl

/-- An endpoint is not in the registry, and nobody who found it there is still under way. -/
structure Gone (id : EndpointId) (site : Site τ) : Prop where
  absent : id ∉ site.world.env.registry.ids
  idle : ∀ x ∈ site.errands, ¬ x.Reaches id

/-- A section in the registry leaves an endpoint out, and no errand that reaches it. -/
def Passes (id : EndpointId) (entered : Except ServiceError Errand × State τ) : Prop :=
  id ∉ entered.2.env.registry.ids ∧ ∀ x, entered.1 = .ok x → ¬ x.Reaches id

theorem passes_refused {id : EndpointId} {w : State τ} (why : ServiceError)
    (absent : id ∉ w.env.registry.ids) : Passes id (.error why, w) :=
  ⟨absent, fun x hx => by cases hx⟩

theorem passes_left {id : EndpointId} {w : State τ} {x : Errand}
    (absent : id ∉ w.env.registry.ids) (hx : ¬ x.Reaches id) : Passes id (.ok x, w) :=
  ⟨absent, fun y hy => by cases hy; exact hx⟩

theorem passes_inRegistry {α : Type} {id : EndpointId}
    {action : Registry → Except RegistryFault (Change α)} {w : State τ}
    {next : α → State τ → Except ServiceError Errand × State τ}
    (absent : id ∉ w.env.registry.ids)
    (h : ∀ c, action w.env.registry = .ok c → ∀ v : State τ, v.env.registry = c.registry →
      Passes id (next c.result v)) : Passes id (andThen (inRegistry action w) next) := by
  unfold inRegistry
  split
  · exact passes_refused _ absent
  · cases hc : action w.env.registry with
    | error f => exact passes_refused _ absent
    | ok c => exact h c hc _ rfl

theorem passes_reading {α : Type} {id : EndpointId} {read : Registry → Except RegistryFault α}
    {w : State τ} {next : α → State τ → Except ServiceError Errand × State τ}
    (absent : id ∉ w.env.registry.ids)
    (h : ∀ a, read w.env.registry = .ok a → ∀ v : State τ, v.env.registry = w.env.registry →
      Passes id (next a v)) : Passes id (andThen (reading read w) next) := by
  refine passes_inRegistry absent fun c hc v hv => ?_
  obtain ⟨a, ha, rfl⟩ := ok_of_map hc
  exact h a ha v hv

theorem andThen_assoc {α β γ : Type} (x : Except ServiceError α × State τ)
    (f : α → State τ → Except ServiceError β × State τ)
    (g : β → State τ → Except ServiceError γ × State τ) :
    andThen (andThen x f) g = andThen x fun a v => andThen (f a v) g := by
  obtain ⟨result, v⟩ := x
  cases result with
  | error why => rfl
  | ok a => rfl

theorem passes_get {id j : EndpointId} {w : State τ}
    {next : Endpoint → State τ → Except ServiceError Errand × State τ}
    (absent : id ∉ w.env.registry.ids)
    (h : j ≠ id → ∀ e, ∀ v : State τ, id ∉ v.env.registry.ids → Passes id (next e v)) :
    Passes id (andThen (get j w) next) := by
  unfold get
  rw [andThen_assoc]
  refine passes_reading absent fun found hfound v hv => ?_
  rw [← hv] at absent
  cases found with
  | none => exact passes_refused _ absent
  | some e =>
    refine h ?_ e v absent
    rintro rfl
    rw [hv] at absent
    exact absent (Registry.mem_ids_of_get hfound).2

theorem passes_enter (p : Prober τ) {id : EndpointId} {r : Request} {w : State τ}
    (absent : id ∉ w.env.registry.ids) (fresh : ∀ req, r ≠ .register id req) :
    Passes id (r.enter p w) := by
  cases r with
  | list =>
    refine passes_reading absent fun es hes v hv => ?_
    refine passes_left (hv ▸ absent) ?_
    rw [Errand.Reaches, Registry.ids_of_list hes]
    exact absent
  | register j req =>
    have hj : j ≠ id := fun hj => fresh req (hj ▸ rfl)
    unfold Request.enter
    dsimp only
    split
    · exact passes_refused _ absent
    · refine passes_inRegistry absent fun c hc v hv => ?_
      refine passes_left ?_ (by simp [Errand.Reaches, hj])
      rw [hv, (ids_of_store hc).1]
      simpa [Registration.endpoint, Ne.symm hj] using absent
  | update j req =>
    refine passes_inRegistry absent fun c hc v hv => ?_
    obtain ⟨hids, found⟩ := ids_of_edit hc
    have absent' : id ∉ v.env.registry.ids := by rwa [hv, hids]
    cases hresult : c.result with
    | error why => exact passes_refused _ absent'
    | ok e =>
      refine passes_left absent' ?_
      have hj : j ≠ id := fun hj => absent (hj ▸ found e hresult)
      simp [Errand.Reaches, hj]
  | probe j =>
    refine passes_get absent fun hj e v absent => passes_left absent ?_
    simp [Errand.Reaches, hj]
  | test j message =>
    exact passes_get absent fun hj e v absent => passes_left absent hj
  | remove j =>
    refine passes_inRegistry absent fun c hc v hv => ?_
    have absent' : id ∉ v.env.registry.ids := by
      rw [hv, (ids_of_takeOut hc).2]
      exact fun h => absent (List.mem_filter.mp h).1
    cases c.result with
    | false => exact passes_refused _ absent'
    | true => exact passes_left absent' (by simp [Errand.Reaches])

theorem gone_enter (p : Prober τ) {id : EndpointId} {r : Request} {site : Site τ}
    (gone : Gone id site) (fresh : ∀ req, r ≠ .register id req) : Gone id (site.enter p r) := by
  have passes := passes_enter p gone.absent fresh
  unfold Site.enter
  split
  · rename_i x w hx
    rw [hx] at passes
    refine ⟨passes.1, fun y hy => ?_⟩
    rcases List.mem_cons.mp hy with rfl | hy
    · exact passes.2 y rfl
    · exact gone.idle y hy
  · rename_i why w hx
    rw [hx] at passes
    exact ⟨passes.1, gone.idle⟩

theorem reaches_of_rest {id : EndpointId} {w : State τ} {x y : Errand} (hy : x.rest? w = some y)
    (reaches : y.Reaches id) : x.Reaches id := by
  cases x with
  | observe ids =>
    cases ids with
    | nil => cases hy
    | cons i ids =>
      cases hy
      split at reaches
      · simpa [Errand.Reaches, eq_comm] using reaches
      · exact List.mem_cons_of_mem i reaches
  | begin i rest =>
    cases hy
    exact .inr reaches
  | forget i => cases hy
  | test i message => cases hy

theorem registry_of_proceed {p : Prober τ} (keeps : Keeps p) (x : Errand) (w : State τ) :
    (x.proceed p w).env.registry = w.env.registry := by
  cases x with
  | test id message => exact keeps _ _ _
  | _ => rfl

/-- Whether an event begins a sequence or a manual test of an endpoint. -/
def Starts (id : EndpointId) : Event → Prop
  | .begun s => s.endpoint = id
  | .testBegun t => t.endpoint = id
  | _ => False

theorem gone_step {p : Prober τ} (keeps : Keeps p) {id : EndpointId} {site next : Site τ}
    {m : Option Mark} (gone : Gone id site) (step : site.Step p m next)
    (fresh : ∀ req, m ≠ some (.entered (.register id req))) :
    Gone id next ∧ ∀ e, m = some (.did e) → ¬ Starts id e := by
  cases step with
  | work h =>
    refine ⟨⟨?_, gone.idle⟩, fun e he starts => ?_⟩
    · rw [registry_of_work keeps h]
      exact gone.absent
    · obtain ⟨e', rfl, hmark⟩ := Option.map_eq_some_iff.mp he
      cases hmark
      -- By itself a prober only ends what has been begun.
      have ends := EndpointHealth.Prober.isEnd_of_work h
      cases e with
      | begun s => cases ends
      | testBegun t => cases ends
      | _ => exact starts
  | note notices => exact ⟨⟨gone.absent, gone.idle⟩, by simp⟩
  | enter r => exact ⟨gone_enter p gone fun req hr => fresh req (hr ▸ rfl), by simp⟩
  | proceed h =>
    rename_i a b x
    have hx : ¬ x.Reaches id := gone.idle x (by simp [h])
    refine ⟨⟨?_, fun y hy reaches => ?_⟩, fun e he starts => ?_⟩
    · rw [registry_of_proceed keeps]
      exact gone.absent
    · rcases errand_left h hy with hy | left
      · exact gone.idle y hy reaches
      · exact hx (reaches_of_rest left reaches)
    · obtain ⟨e', hevent, hmark⟩ := Option.map_eq_some_iff.mp he
      cases hmark
      cases x with
      | observe ids => cases hevent
      | begin i rest =>
        cases hevent
        exact hx (.inl starts)
      | forget i =>
        cases hevent
        exact starts
      | test i message =>
        cases hevent
        exact hx starts

theorem gone_steps {p : Prober τ} (keeps : Keeps p) {id : EndpointId} {site next : Site τ}
    {h : Record} (gone : Gone id site) (sections : Site.Steps p site h next)
    (fresh : ∀ req, .entered (.register id req) ∉ h) :
    Gone id next ∧ ∀ e, .did e ∈ h → ¬ Starts id e := by
  induction sections with
  | refl => exact ⟨gone, by simp⟩
  | step _ step ih =>
    rename_i m _
    obtain ⟨gone, quiet⟩ := ih fun req hreq => fresh req (List.mem_append_right _ hreq)
    have hm : ∀ req, m ≠ some (.entered (.register id req)) := by
      rintro req rfl
      exact fresh req (by simp)
    obtain ⟨gone, still⟩ := gone_step keeps gone step hm
    refine ⟨gone, fun e he => ?_⟩
    rcases List.mem_append.mp he with he | he
    · exact still e (Option.mem_toList.mp he)
    · exact quiet e he

theorem gone_of_removal (p : Prober τ) {id : EndpointId} {site : Site τ}
    (idle : ∀ x ∈ site.errands, ¬ x.Reaches id)
    (found : (Request.enter p (.remove id) site.world).1 = .ok (.forget id)) :
    Gone id (site.enter p (.remove id)) := by
  have absent : id ∉ (Request.enter p (.remove id) site.world).2.env.registry.ids := by
    unfold Request.enter inRegistry at found ⊢
    dsimp only at found ⊢
    split at found
    · cases found
    · rename_i locked
      rw [if_neg locked]
      cases hc : takeOut id site.world.env.registry with
      | error f =>
        rw [hc] at found
        cases found
      | ok c =>
        have left : id ∉ c.registry.ids := by simp [(ids_of_takeOut hc).2]
        dsimp only [andThen]
        split
        · exact left
        · exact left
  unfold Site.enter
  generalize Request.enter p (.remove id) site.world = entered at found absent ⊢
  obtain ⟨result, w⟩ := entered
  cases found
  refine ⟨absent, fun x hx => ?_⟩
  rcases List.mem_cons.mp hx with rfl | hx
  · simp [Errand.Reaches]
  · exact idle x hx

/-- When the endpoint is taken out of the registry, no request that found it there is still under
way; and it is not registered again. -/
theorem removed_for_good {p : Prober τ} (keeps : Keeps p) {id : EndpointId}
    {earlier later : Record} {site next : Site τ} (run : Site.Run p earlier site)
    (idle : ∀ x ∈ site.errands, ¬ x.Reaches id) (removed : (remove p id site.world).1 = .ok ())
    (sections : Site.Steps p (site.enter p (.remove id)) later next)
    (fresh : ∀ req, .entered (.register id req) ∉ later)
    (forgotten : .did (.forgotten id) ∈ later) : next.world.status? id = none := by
  have gone := gone_of_removal p idle (enter_of_remove removed)
  have quiet := (gone_steps keeps gone sections fresh).2
  obtain ⟨a, b, rfl, last⟩ := List.eq_append_cons_of_mem forgotten
  have run : Site.Run p (a ++ .did (.forgotten id) :: (b ++ .entered (.remove id) :: earlier))
      next := by
    obtain ⟨start, ids, before⟩ := run
    have all := (before.step (.enter (.remove id))).trans sections
    exact ⟨start, ids, by simpa using all⟩
  obtain ⟨possible, status⟩ := status_after_forgotten run
  rw [status]
  refine History.status_none_of_forgotten possible (mt mem_history.mp last) (fun s hs hid => ?_)
    fun t ht begun => ?_
  · exact absurd hid (quiet _ (List.mem_append_left _ (mem_history.mp hs)))
  · exact absurd ht (quiet _ (List.mem_append_left _ (mem_history.mp begun)))

end EndpointHealth.Service
