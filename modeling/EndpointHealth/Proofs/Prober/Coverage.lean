import EndpointHealth.Proofs.Prober.Forgetting
set_option autoImplicit false

/-!
Endpoints with a status. A prober is told of an endpoint by having it probed, and to drop it by
having it forgotten; manual tests are only asked for of endpoints that it has been told of. Main
statement: then the endpoints with a status are those that it has been told of, whatever is under
way for the others (`covers_cons`, and `upholds_covers` of probers at work).
-/

namespace EndpointHealth.Prober

variable {ε : Type} {known : EndpointId → Prop}

def Event.leaves (known : EndpointId → Prop) : Event → EndpointId → Prop
  | .begun s => fun id => id = s.endpoint ∨ known id
  | .forgotten i => fun id => id ≠ i ∧ known id
  | _ => known

namespace History

/-- The endpoints with a status are the known ones, and what is under way for others will not be
written. -/
structure Covers (known : EndpointId → Prop) (h : History) : Prop where
  status : ∀ id, status? id h ≠ none ↔ known id
  newest : ∀ s, newest? s.endpoint h = some (.begun s) → known s.endpoint
  tests : ∀ t ∈ tests h, ¬ known t.endpoint → withdrawn t h = true

theorem covers_nil : Covers (fun _ => False) [] :=
  ⟨by simp [status?], by simp [newest?], by simp [History.tests]⟩

theorem covers_begun {h : History} (covers : Covers known h) (s : Sequence) :
    Covers ((Event.begun s).leaves known) (.begun s :: h) := by
  refine ⟨fun id => ?_, fun s' newest => ?_, fun t ht unknown => ?_⟩
  · by_cases hs : s.endpoint = id
    · simp [status_cons, effect?, Event.leaves, hs]
    · simp [status_cons, effect?, Event.leaves, hs, Ne.symm hs, covers.status id]
  · by_cases hs : s'.endpoint = s.endpoint
    · exact .inl hs
    · rw [newest_cons, if_neg (by simp [Event.renews, Ne.symm hs])] at newest
      exact .inr (covers.newest s' newest)
  · have hs : s.endpoint ≠ t.endpoint := fun hs => unknown (.inl hs.symm)
    rw [withdrawn_cons, if_neg (by simp [Event.renews, hs])]
    exact covers.tests t ht fun ht => unknown (.inr ht)

theorem covers_forgotten {h : History} (covers : Covers known h) (i : EndpointId) :
    Covers ((Event.forgotten i).leaves known) (.forgotten i :: h) := by
  refine ⟨fun id => ?_, fun s newest => ?_, fun t ht unknown => ?_⟩
  · by_cases hi : i = id
    · simp [status_cons, effect?, Event.leaves, hi]
    · simp [status_cons, effect?, Event.leaves, hi, Ne.symm hi, covers.status id]
  · by_cases hi : i = s.endpoint
    · simp [newest_cons, Event.renews, hi] at newest
    · rw [newest_cons, if_neg (by simp [Event.renews, hi])] at newest
      exact ⟨Ne.symm hi, covers.newest s newest⟩
  · rw [withdrawn_cons]
    by_cases hi : i = t.endpoint
    · have begun := testBegun_of_mem_tests (h := h) ht
      simp [Event.renews, hi, begun]
    · rw [if_neg (by simp [Event.renews, hi])]
      exact covers.tests t ht fun ht => unknown ⟨Ne.symm hi, ht⟩

/-- An event that only known endpoints may gain a status by. -/
theorem covers_quiet {h : History} {e : Event} (covers : Covers known h)
    (quiet : ∀ id, e.renews id = false)
    (kept : ∀ t ∈ History.tests (e :: h), known t.endpoint ∨ t ∈ History.tests h)
    (effect : ∀ id, effect? id h e ≠ none → known id) : Covers known (e :: h) := by
  refine ⟨fun id => ?_, fun s newest => ?_, fun t ht unknown => ?_⟩
  · rw [status_cons]
    cases he : effect? id h e with
    | none => exact covers.status id
    | some status =>
      cases status with
      | none =>
        have renews := quiet id
        simp [forgotten_of_effect he, Event.renews] at renews
      | some status => exact iff_of_true (by simp) (effect id (by simp [he]))
  · rw [newest_cons, if_neg (by simp [quiet])] at newest
    exact covers.newest s newest
  · rw [withdrawn_cons, if_neg (by simp [quiet])]
    exact covers.tests t ((kept t ht).resolve_left unknown) unknown

theorem covers_cons {h : History} {e : Event} (covers : Covers known h) (fits : Fits h e)
    (tested : ∀ t, e = .testBegun t → known t.endpoint) :
    Covers (e.leaves known) (e :: h) := by
  cases e with
  | begun s => exact covers_begun covers s
  | forgotten i => exact covers_forgotten covers i
  | ended s outcome =>
    refine covers_quiet covers (fun _ => rfl) (fun t ht => .inr ht) fun id effect => ?_
    by_cases hs : s.endpoint = id ∧ newest? id h = some (.begun s)
    · obtain ⟨rfl, newest⟩ := hs
      exact covers.newest s newest
    · simp [effect?, hs] at effect
  | broken s =>
    exact covers_quiet covers (fun _ => rfl) (fun t ht => .inr ht) (by simp [effect?])
  | testBegun t =>
    refine covers_quiet covers (fun _ => rfl) (fun t' ht' => ?_) (by simp [effect?])
    rcases List.mem_cons.mp ht' with rfl | ht'
    · exact .inl (tested t' rfl)
    · exact .inr ht'
  | testPassed t =>
    refine covers_quiet covers (fun _ => rfl) (fun t' ht' => .inr (List.mem_of_mem_erase ht'))
      fun id effect => ?_
    by_cases ht : t.endpoint = id ∧ withdrawn t h = false
    · obtain ⟨rfl, kept⟩ := ht
      refine Classical.byContradiction fun unknown => ?_
      rw [covers.tests t fits unknown] at kept
      cases kept
    · simp [effect?, ht] at effect
  | testFailed t =>
    exact covers_quiet covers (fun _ => rfl) (fun t' ht' => .inr (List.mem_of_mem_erase ht'))
      (by simp [effect?])

theorem nodup_statuses (h : History) : (ledger h).statuses.keys.Nodup := by
  induction h with
  | nil => exact List.nodup_nil
  | cons e h ih =>
    cases e with
    | begun s => exact Table.nodup_set ih _ _
    | ended s outcome =>
      show ((ledger h).finish _ _ _).statuses.keys.Nodup
      rcases Ledger.finish_cases (ledger h) s.endpoint s.number outcome with same | same
      · rw [same]
        exact Table.nodup_set ih _ _
      · rwa [same]
    | forgotten i => exact Table.nodup_erase ih _
    | testPassed t =>
      show ((ledger h).passTest _ _).statuses.keys.Nodup
      rcases Ledger.passTest_cases (ledger h) t.endpoint t.number with same | same
      · rw [same]
        exact Table.nodup_set ih _ _
      · rwa [same]
    | _ => exact ih

end History

/-! ### Probers at work -/

/-- What is said of the endpoints that a prober knows, and of its world, stays true with each of its
steps, as long as it is asked to test known endpoints only. -/
def Upholds (p : Prober ε) (Q : (EndpointId → Prop) → World ε → Prop) : Prop :=
  ∀ ⦃known : EndpointId → Prop⦄ ⦃w v : World ε⦄ ⦃e : Option Event⦄, Q known w → p.Step w e v →
    (∀ t, e = some (.testBegun t) → known t.endpoint) → Q (e.elim known (·.leaves known)) v

section
variable {p : Prober ε} {Q : (EndpointId → Prop) → World ε → Prop} {w v : World ε}

theorem Upholds.aside (upholds : p.Upholds Q) (holds : Q known w) (env : ε)
    (notices : List Notice) : Q known { w with env := env, notices := notices } :=
  upholds holds (.aside env notices) (by simp)

theorem Upholds.work (upholds : p.Upholds Q) {e : Option Event} (holds : Q known w)
    (work : p.Work w e v) : Q known v := by
  cases e with
  | none => exact upholds holds (.work work) (by simp)
  | some e =>
    have ends := isEnd_of_work work
    cases e with
    | begun s => cases ends
    | forgotten i => cases ends
    | testBegun t => cases ends
    | _ => exact upholds holds (.work work) (by simp)

theorem Upholds.proceeds (upholds : p.Upholds Q) (holds : Q known w)
    (proceeds : p.Proceeds w v) : Q known v := by
  induction proceeds with
  | refl => exact holds
  | work _ next ih => exact upholds.work ih next

theorem Upholds.probe (upholds : p.Upholds Q) (holds : Q known w) (id : EndpointId) :
    Q (fun i => i = id ∨ known i) (p.probe id w) := upholds holds (.begin id) (by simp)

theorem Upholds.forget (upholds : p.Upholds Q) (holds : Q known w) (id : EndpointId) :
    Q (fun i => i ≠ id ∧ known i) (p.forget id w) := upholds holds (.forget id) (by simp)

theorem Upholds.launchTest (upholds : p.Upholds Q) (holds : Q known w) {id : EndpointId}
    (hid : known id) (message : String) : Q known (p.launchTest id message w) :=
  upholds holds (.beginTest id message) fun t ht => by
    cases ht
    exact hid

theorem Upholds.test (upholds : p.Upholds Q) (holds : Q known w) {id : EndpointId}
    (hid : known id) (message : String) : Q known (p.test id message w) :=
  upholds.proceeds (upholds.launchTest holds hid message) (p.test_proceeds id message w)

theorem congr_known {known' : EndpointId → Prop} (holds : Q known w)
    (same : ∀ id, known id ↔ known' id) : Q known' w := by
  rwa [← funext fun id => propext (same id)]

theorem Upholds.observe (upholds : p.Upholds Q) (holds : Q known w) {ids : List EndpointId}
    (hids : ∀ id ∈ ids, known id) : Q known (p.observe ids w) := by
  obtain ⟨h, begun, steps⟩ := p.observe_steps ids w
  generalize p.observe ids w = v at steps
  induction steps with
  | refl => exact holds
  | step _ next ih =>
    rename_i e _
    have holds := ih fun f hf => begun f (List.mem_append_right _ hf)
    cases e with
    | none => exact upholds holds next (by simp)
    | some e =>
      obtain ⟨s, rfl, listed⟩ := begun e (List.mem_append_left _ (by simp))
      refine congr_known (upholds holds next (by simp)) fun id => ?_
      exact or_iff_right_of_imp fun same => same ▸ hids _ listed

end

/-- A run has led here, in which only known endpoints have been tested. -/
def Covers (p : Prober ε) (known : EndpointId → Prop) (w : World ε) : Prop :=
  ∃ h, p.Run h w ∧ History.Covers known h

variable {p : Prober ε} {w : World ε}

theorem covers_start (env : ε) : p.Covers (fun _ => False) (.start env) :=
  ⟨[], ⟨env, .refl⟩, History.covers_nil⟩

theorem Covers.status (covers : p.Covers known w) (id : EndpointId) :
    w.status? id ≠ none ↔ known id := by
  obtain ⟨h, run, covers⟩ := covers
  rw [status_of_run run]
  exact covers.status id

theorem Covers.nodup (covers : p.Covers known w) : w.ledger.statuses.keys.Nodup := by
  obtain ⟨h, run, -⟩ := covers
  rw [(tracks_of_run run).ledger]
  exact History.nodup_statuses h

theorem Covers.mem_keys (covers : p.Covers known w) (id : EndpointId) :
    id ∈ w.ledger.statuses.keys ↔ known id := by
  rw [Table.mem_keys, ← covers.status id]
  exact Option.isSome_iff_ne_none

theorem upholds_covers (p : Prober ε) : p.Upholds p.Covers := by
  rintro known w v e ⟨h, run, covers⟩ next tested
  refine ⟨e.toList ++ h, run.step next, ?_⟩
  have possible := (tracks_of_run (run.step next)).possible
  cases e with
  | none => exact covers
  | some e => exact History.covers_cons covers possible.1 fun t ht => tested t (ht ▸ rfl)

end EndpointHealth.Prober
