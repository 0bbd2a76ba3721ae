import EndpointHealth.Proofs.Prober.Steps
import EndpointHealth.Service
set_option autoImplicit false

/-!
Requests that are served at the same time. A request is in the registry first, in one section, and
leaves an errand with the prober behind; an errand is run in sections too. Sections are not
interrupted, but anything may come between two of them: sections of other requests, and what the
prober does by itself.

Main statements: to the prober all this is a run like any other (`run_of_site`), and a request that
is served alone is served in these sections (`serve_sections`).
-/

namespace EndpointHealth.Service

open EndpointHealth.Prober (Event History Work Steps Proceeds Sequence ManualTest)

variable {τ : Type}

/-- What a request still wants of the prober. -/
inductive Errand where
  /-- To have endpoints probed that have no status, looking at one after another. -/
  | observe (ids : List EndpointId)
  /-- To have an endpoint probed whatever its status is, and then others that have none. -/
  | begin (id : EndpointId) (rest : List EndpointId)
  | forget (id : EndpointId)
  | test (id : EndpointId) (message : String)
  deriving DecidableEq, Repr

inductive Request where
  | list
  | register (id : EndpointId) (req : Registration)
  | update (id : EndpointId) (req : Edit)
  | probe (id : EndpointId)
  | test (id : EndpointId) (message : Option String)
  | remove (id : EndpointId)

/-! ### Sections -/

def messageFor (p : Prober τ) (message : Option String) : String :=
  (message.bind Text.nonBlank?).getD p.policy.prompt

/-- The section of a request in the registry, and its errand if it is not refused. -/
def Request.enter (p : Prober τ) : Request → State τ → Except ServiceError Errand × State τ
  | .list, w => andThen (reading Registry.list w) fun es w => (.ok (.observe (es.map (·.id))), w)
  | .register id req, w =>
    match (req.endpoint id).refusal? with
    | some why => (.error (.refused why), w)
    | none => andThen (inRegistry (store (req.endpoint id) req.makeDefault) w) fun _ w =>
      (.ok (.begin id []), w)
  | .update id req, w => andThen (inRegistry (edit id req) w) fun
    | .ok _, w => (.ok (.begin id []), w)
    | .error why, w => (.error why, w)
  | .probe id, w => andThen (get id w) fun _ w => (.ok (.begin id []), w)
  | .test id message, w => andThen (get id w) fun _ w =>
    (.ok (.test id (messageFor p message)), w)
  | .remove id, w => andThen (inRegistry (takeOut id) w) fun found w =>
    if found then (.ok (.forget id), w) else (.error (.unknownEndpoint id), w)

/-- The event that the next section of an errand is. -/
def Errand.event? (w : State τ) : Errand → Option Event
  | .observe _ => none
  | .begin id _ => some (.begun ⟨id, w.ledger.next⟩)
  | .forget id => some (.forgotten id)
  | .test id _ => some (.testBegun ⟨id, w.ledger.next⟩)

/-- What the next section of an errand leaves of it. -/
def Errand.rest? (w : State τ) : Errand → Option Errand
  | .observe [] => none
  | .observe (id :: ids) => some (if (w.status? id).isNone then .begin id ids else .observe ids)
  | .begin _ rest => some (.observe rest)
  | .forget _ | .test _ _ => none

def Errand.proceed (p : Prober τ) (w : State τ) : Errand → State τ
  | .observe _ => w
  | .begin id _ => p.probe id w
  | .forget id => p.forget id w
  | .test id message => p.launchTest id message w

/-- The service with the errands that are still to be run. -/
structure Site (τ : Type) where
  world : State τ
  errands : List Errand

/-- What happens at a site. -/
inductive Mark where
  | entered (r : Request)
  | did (e : Event)

def Mark.event? : Mark → Option Event
  | .entered _ => none
  | .did e => some e

/-- A request comes in and has been to the registry. -/
def Site.enter (p : Prober τ) (r : Request) (site : Site τ) : Site τ :=
  match r.enter p site.world with
  | (.ok x, w) => ⟨w, x :: site.errands⟩
  | (.error _, w) => ⟨w, site.errands⟩

/-- One section of a request or an errand, or one step of the prober by itself. -/
inductive Site.Step (p : Prober τ) (site : Site τ) : Option Mark → Site τ → Prop
  | work {e : Option Event} {v : State τ} (h : p.Work site.world e v) :
      Step p site (e.map .did) { site with world := v }
  | note (notices : List Notice) :
      Step p site none { site with world := { site.world with notices := notices } }
  | enter (r : Request) : Step p site (some (.entered r)) (site.enter p r)
  | proceed {a b : List Errand} {x : Errand} (h : site.errands = a ++ x :: b) :
      Step p site ((x.event? site.world).map .did)
        ⟨x.proceed p site.world, a ++ (x.rest? site.world).toList ++ b⟩

/-- Marks, the newest first. -/
abbrev Record := List Mark

def Record.history (h : Record) : History := h.filterMap Mark.event?

inductive Site.Steps (p : Prober τ) (site : Site τ) : Record → Site τ → Prop
  | refl : Steps p site [] site
  | step {h : Record} {v v' : Site τ} {m : Option Mark} (before : Steps p site h v)
      (next : v.Step p m v') : Steps p site (m.toList ++ h) v'

/-- A run with its record. At its start the prober looks at the endpoints that are there. -/
def Site.Run (p : Prober τ) (h : Record) (site : Site τ) : Prop :=
  ∃ b ids, Site.Steps p ⟨.start b, [.observe ids]⟩ h site

theorem Site.Steps.single {p : Prober τ} {v v' : Site τ} {m : Option Mark} (next : v.Step p m v') :
    Site.Steps p v m.toList v' := by
  simpa using Site.Steps.refl.step next

theorem Site.Steps.trans {p : Prober τ} {v v' v'' : Site τ} {h h' : Record}
    (first : Site.Steps p v h v') (second : Site.Steps p v' h' v'') :
    Site.Steps p v (h' ++ h) v'' := by
  induction second with
  | refl => exact first
  | step _ next ih => simpa [List.append_assoc] using ih.step next

theorem Site.Steps.split {p : Prober τ} {v v' : Site τ} {a b : Record} {m : Mark}
    (sections : Site.Steps p v (a ++ m :: b) v') :
    ∃ u u', Site.Steps p v b u ∧ u.Step p (some m) u' ∧ Site.Steps p u' a v' := by
  generalize hrecord : a ++ m :: b = h at sections
  induction sections generalizing a with
  | refl => cases a <;> cases hrecord
  | step before next ih =>
    rename_i h w w' m'
    cases m' with
    | none =>
      obtain ⟨u, u', first, made, rest⟩ := ih hrecord
      exact ⟨u, u', first, made, rest.step next⟩
    | some m' =>
      cases a with
      | nil =>
        cases hrecord
        exact ⟨w, w', before, next, .refl⟩
      | cons m'' a =>
        obtain ⟨rfl, hrest⟩ := List.cons.inj hrecord
        obtain ⟨u, u', first, made, rest⟩ := ih hrest
        exact ⟨u, u', first, made, rest.step next⟩

/-! ### What a site is to its prober -/

def Beside (w v : State τ) : Prop :=
  ∃ env notices, v = { w with env := env, notices := notices }

theorem Beside.refl (w : State τ) : Beside w w := ⟨w.env, w.notices, rfl⟩

theorem Beside.trans {w v u : State τ} (first : Beside w v) (second : Beside v u) :
    Beside w u := by
  obtain ⟨env, notices, rfl⟩ := first
  obtain ⟨env', notices', rfl⟩ := second
  exact ⟨env', notices', rfl⟩

theorem inRegistry_beside {α : Type} (action : Registry → Except RegistryFault (Change α))
    (w : State τ) : Beside w (inRegistry action w).2 := by
  unfold inRegistry
  split
  · exact ⟨_, _, rfl⟩
  · split
    · exact ⟨_, _, rfl⟩
    · exact ⟨_, _, rfl⟩

theorem andThen_beside {α β : Type} {x : Except ServiceError α × State τ} {w : State τ}
    {next : α → State τ → Except ServiceError β × State τ} (hx : Beside w x.2)
    (hnext : ∀ a v, Beside v (next a v).2) : Beside w (andThen x next).2 := by
  obtain ⟨result, v⟩ := x
  cases result with
  | error why => exact hx
  | ok a => exact hx.trans (hnext a v)

theorem get_beside (id : EndpointId) (w : State τ) : Beside w (get id w).2 := by
  refine andThen_beside (inRegistry_beside _ _) fun e v => ?_
  cases e with
  | none => exact .refl v
  | some e => exact .refl v

theorem enter_beside (p : Prober τ) (r : Request) (w : State τ) : Beside w (r.enter p w).2 := by
  cases r with
  | list => exact andThen_beside (inRegistry_beside _ _) fun _ v => .refl v
  | register id req =>
    unfold Request.enter
    dsimp only
    split
    · exact .refl w
    · exact andThen_beside (inRegistry_beside _ _) fun _ v => .refl v
  | update id req =>
    refine andThen_beside (inRegistry_beside _ _) fun edited v => ?_
    cases edited with
    | error why => exact .refl v
    | ok e => exact .refl v
  | probe id => exact andThen_beside (get_beside _ _) fun _ v => .refl v
  | test id message => exact andThen_beside (get_beside _ _) fun _ v => .refl v
  | remove id =>
    refine andThen_beside (inRegistry_beside _ _) fun found v => ?_
    cases found with
    | false => exact .refl v
    | true => exact .refl v

theorem Site.enter_world (p : Prober τ) (r : Request) (site : Site τ) :
    (site.enter p r).world = (r.enter p site.world).2 := by
  unfold Site.enter
  split <;> simp [*]

theorem steps_of_section {p : Prober τ} {site next : Site τ} {m : Option Mark}
    (step : site.Step p m next) :
    p.Steps site.world (m.bind Mark.event?).toList next.world := by
  cases step with
  | work h =>
    rename_i e v
    have events : (e.map Mark.did).bind Mark.event? = e := by cases e <;> rfl
    rw [events]
    exact .single (.work h)
  | note notices => exact .single (.aside _ notices)
  | enter r =>
    obtain ⟨env, notices, hw⟩ := enter_beside p r site.world
    rw [Site.enter_world, hw]
    exact .single (.aside env notices)
  | proceed h =>
    rename_i a b x
    cases x with
    | observe ids => exact .refl
    | begin id rest => exact .single (.begin id)
    | forget id => exact .single (.forget id)
    | test id message => exact .single (.beginTest id message)

theorem history_append (m : Option Mark) (h : Record) :
    Record.history (m.toList ++ h) = (m.bind Mark.event?).toList ++ h.history := by
  cases m with
  | none => rfl
  | some m => cases m <;> rfl

theorem steps_of_sections {p : Prober τ} {site next : Site τ} {h : Record}
    (sections : Site.Steps p site h next) : p.Steps site.world h.history next.world := by
  induction sections with
  | refl => exact .refl
  | step _ next ih =>
    rw [history_append]
    exact ih.trans (steps_of_section next)

theorem run_of_site {p : Prober τ} {h : Record} {site : Site τ} (run : Site.Run p h site) :
    p.Run h.history site.world := by
  obtain ⟨b, ids, sections⟩ := run
  exact ⟨b, steps_of_sections sections⟩

theorem mem_history {h : Record} {e : Event} : e ∈ h.history ↔ .did e ∈ h := by
  unfold Record.history
  rw [List.mem_filterMap]
  constructor
  · rintro ⟨m, hm, he⟩
    cases m with
    | entered r => cases he
    | did e' =>
      cases he
      exact hm
  · intro he
    exact ⟨.did e, he, rfl⟩

/-! ### Requests that are served alone -/

/-- What has become of the service when an errand has been run in one go. -/
def Errand.run (p : Prober τ) (w : State τ) : Errand → State τ
  | .observe ids => p.observe ids w
  | .begin id rest => p.observe rest (p.probe id w)
  | .forget id => p.forget id w
  | .test id message => p.test id message w

/-- What has become of the service when a request has been served in one go. -/
def Request.serve (p : Prober τ) (w : State τ) : Request → State τ
  | .list => (Service.list p w).2
  | .register id req => (Service.register p id req w).2
  | .update id req => (Service.update p id req w).2
  | .probe id => (Service.probe p id w).2
  | .test id message => (Service.test p id message w).2
  | .remove id => (Service.remove p id w).2

theorem proceeds_sections {p : Prober τ} {w v : State τ} (es : List Errand)
    (proceeds : p.Proceeds w v) : ∃ h, Site.Steps p ⟨w, es⟩ h ⟨v, es⟩ := by
  induction proceeds with
  | refl => exact ⟨[], .refl⟩
  | work _ next ih =>
    obtain ⟨h, sections⟩ := ih
    exact ⟨_, sections.step (.work next)⟩

theorem head_section (p : Prober τ) (x : Errand) (w : State τ) (es : List Errand) :
    Site.Step p ⟨w, x :: es⟩ ((x.event? w).map .did) ⟨x.proceed p w, (x.rest? w).toList ++ es⟩ :=
  .proceed (a := []) rfl

theorem observe_sections (p : Prober τ) (ids : List EndpointId) (w : State τ)
    (es : List Errand) :
    ∃ h, Site.Steps p ⟨w, .observe ids :: es⟩ h ⟨p.observe ids w, es⟩ := by
  have looked : ∃ h, Site.Steps p ⟨w, .observe ids :: es⟩ h
      ⟨ids.foldl (fun v id => p.observeOne id v) w, .observe [] :: es⟩ := by
    induction ids generalizing w with
    | nil => exact ⟨[], .refl⟩
    | cons id ids ih =>
      obtain ⟨h, sections⟩ := ih (p.observeOne id w)
      have look := head_section p (.observe (id :: ids)) w es
      rw [List.foldl_cons]
      by_cases unseen : (w.status? id).isNone
      · have begun : p.observeOne id w = p.probe id w := if_pos unseen
        simp only [Errand.rest?, if_pos unseen] at look
        rw [begun] at sections ⊢
        have begin := head_section p (.begin id ids) w es
        exact ⟨_, ((Site.Steps.single look).step begin).trans sections⟩
      · have passed : p.observeOne id w = w := if_neg unseen
        simp only [Errand.rest?, if_neg unseen] at look
        rw [passed] at sections ⊢
        exact ⟨_, (Site.Steps.single look).trans sections⟩
  obtain ⟨h, sections⟩ := looked
  have answered := sections.step (head_section p (.observe []) _ es)
  unfold EndpointHealth.Prober.observe
  dsimp only
  split
  · exact ⟨_, answered⟩
  · exact ⟨_, answered.step (.note _)⟩

theorem errand_sections (p : Prober τ) (x : Errand) (w : State τ) (es : List Errand) :
    ∃ h, Site.Steps p ⟨w, x :: es⟩ (h ++ ((x.event? w).map .did).toList) ⟨x.run p w, es⟩ := by
  cases x with
  | observe ids =>
    obtain ⟨h, sections⟩ := observe_sections p ids w es
    exact ⟨h, by rwa [Errand.event?, Option.map_none, Option.toList_none, List.append_nil]⟩
  | begin id rest =>
    obtain ⟨h, sections⟩ := observe_sections p rest (p.probe id w) es
    exact ⟨h, (Site.Steps.single (head_section p (.begin id rest) w es)).trans sections⟩
  | forget id => exact ⟨[], .single (head_section p (.forget id) w es)⟩
  | test id message =>
    obtain ⟨h, sections⟩ := proceeds_sections es (p.test_proceeds id message w)
    exact ⟨h, (Site.Steps.single (head_section p (.test id message) w es)).trans sections⟩

/-- After its section in the registry a request has had its errand run in one go. -/
def Served (p : Prober τ) (w : State τ) : Except ServiceError Errand × State τ → Prop
  | (.error _, v) => w = v
  | (.ok x, v) => ∃ notices, w = { x.run p v with notices := notices }

theorem served_andThen {α β : Type} {p : Prober τ} (x : Except ServiceError α × State τ)
    {enter : α → State τ → Except ServiceError Errand × State τ}
    {act : α → State τ → Except ServiceError β × State τ}
    (h : ∀ a v, Served p (act a v).2 (enter a v)) :
    Served p (andThen x act).2 (andThen x enter) := by
  obtain ⟨result, v⟩ := x
  cases result with
  | error why => exact rfl
  | ok a => exact h a v

theorem served (p : Prober τ) (r : Request) (w : State τ) :
    Served p (r.serve p w) (r.enter p w) := by
  cases r with
  | list => exact served_andThen _ fun es v => ⟨_, rfl⟩
  | register id req =>
    unfold Request.serve Service.register Request.enter
    dsimp only
    cases (req.endpoint id).refusal? with
    | some why => exact rfl
    | none => exact served_andThen _ fun _ v => ⟨_, rfl⟩
  | update id req =>
    refine served_andThen _ fun edited v => ?_
    cases edited with
    | error why => exact rfl
    | ok e => exact ⟨_, rfl⟩
  | probe id => exact served_andThen _ fun _ v => ⟨_, rfl⟩
  | test id message => exact served_andThen _ fun _ v => ⟨_, rfl⟩
  | remove id =>
    refine served_andThen _ fun found v => ?_
    cases found with
    | false => exact rfl
    | true => exact ⟨_, rfl⟩

theorem serve_sections (p : Prober τ) (r : Request) (w : State τ) (es : List Errand) :
    ∃ h, Site.Steps p ⟨w, es⟩ h ⟨r.serve p w, es⟩ := by
  have served := served p r w
  have entered : Site.Steps p ⟨w, es⟩ [.entered r] (Site.enter p r ⟨w, es⟩) :=
    .single (.enter r)
  unfold Site.enter at entered
  dsimp only at entered
  generalize r.enter p w = entry at served entered
  obtain ⟨result, v⟩ := entry
  cases result with
  | error why =>
    rw [show r.serve p w = v from served]
    exact ⟨_, entered⟩
  | ok x =>
    obtain ⟨notices, hw⟩ := served
    obtain ⟨h, sections⟩ := errand_sections p x v es
    rw [hw]
    exact ⟨_, (entered.trans sections).step (.note notices)⟩

end EndpointHealth.Service
