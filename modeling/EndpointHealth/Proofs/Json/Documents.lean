import EndpointHealth.Proofs.Json.Shapes
import EndpointHealth.Settings
set_option autoImplicit false

/-!
The documents of endpoints, requests and settings.

Main statement: reading undoes writing (`documents_read_back`). An endpoint loses its key, which is
never written; a temperature must be finite and its shortest decimal read back.
-/

namespace EndpointHealth

open EndpointHealth.Json (ReadsBack Shape Fields Presence)
open EndpointHealth.Number (Format Floating)
open EndpointHealth.Text

theorem Endpoint.ofDocument_toText (e : Endpoint) :
    Endpoint.ofDocument (Utf8.ofText e.toText) = .ok { e with apiKey := "" } := by
  have legible : Endpoint.shape.Legible e.toRecord := by
    simp [shape, fields, toRecord, Provider.shape, Shape.Legible, Fields.Legible, Presence.Each]
  have read := Shape.ofDocument_write (by decide) (by decide) legible
  rw [Endpoint.ofDocument, toText, toValue, read, Except.map, ofRecord_toRecord]

theorem TestRequest.ofDocument_toText {r : TestRequest}
    (finite : Format.single.isFinite r.temperature.magnitude = true)
    (reads : ReadsBack r.temperature) :
    TestRequest.ofDocument (Utf8.ofText r.toText) = .ok r := by
  have legible : TestRequest.shape.Legible r.toRecord := by
    simpa [shape, toRecord, Role.shape, Shape.Legible, Fields.Legible, Presence.Each] using
      And.intro finite reads
  have read := Shape.ofDocument_write (by decide) (by decide) legible
  rw [TestRequest.ofDocument, toText, read, Except.map, ofRecord_toRecord]

theorem Policy.ofDocument_toText {p : Policy}
    (finite : Format.single.isFinite p.temperature.magnitude = true)
    (reads : ReadsBack p.temperature) :
    Policy.ofDocument (Utf8.ofText p.toText) = .ok p := by
  have legible : Policy.shape.Legible p.toRecord := by
    simpa [shape, toRecord, Shape.Legible, Fields.Legible, Presence.Each] using
      And.intro finite reads
  have read := Shape.ofDocument_write (by decide) (by decide) legible
  rw [Policy.ofDocument, toText, read, Except.map, ofRecord_toRecord]

theorem ServerSettings.ofDocument_toText (s : ServerSettings) :
    ServerSettings.ofDocument (Utf8.ofText s.toText) = .ok s := by
  have legible : ServerSettings.shape.Legible s.toRecord := by
    simp [shape, toRecord, Shape.Legible, Fields.Legible, Presence.Each]
  have read := Shape.ofDocument_write (by decide) (by decide) legible
  rw [ServerSettings.ofDocument, toText, read, Except.map, ofRecord_toRecord]

/-- A policy that is in range has a finite temperature. -/
theorem Policy.finite_of_inRange {p : Policy} (valid : p.outOfRange? = none) :
    Format.single.isFinite p.temperature.magnitude = true := by
  have range : temperatureInRange p.temperature = true := by
    unfold outOfRange? at valid
    dsimp only at valid
    split at valid
    · cases valid
    split at valid
    · cases valid
    · rename_i range
      simpa using range
  have below : two.magnitude < Format.single.infinity := by decide
  simp only [temperatureInRange, Bool.and_eq_true, decide_eq_true_eq] at range
  exact decide_eq_true (Nat.lt_of_le_of_lt range.1 below)

theorem Settings.ofDocument_toText {s : Settings} (valid : s.probe.outOfRange? = none)
    (reads : ReadsBack s.probe.temperature) :
    Settings.ofDocument (Utf8.ofText s.toText) = .ok s := by
  have finite := Policy.finite_of_inRange valid
  have legible : Settings.shape.Legible s.toRecord := by
    simp [shape, toRecord, ServerSettings.shape, ServerSettings.toRecord, Policy.shape,
      Policy.toRecord, Shape.Legible, Fields.Legible, Presence.Each, finite, reads]
  have read := Shape.ofDocument_write (by decide) (by decide) legible
  rw [Settings.ofDocument, toText, read]
  simp only [ofRecord_toRecord, valid]

/-- Reading undoes writing: an endpoint loses its key only, requests and policies with a finite
temperature and server settings lose nothing, and settings whose policy is in range are accepted
again. -/
theorem documents_read_back :
    (∀ e : Endpoint, Endpoint.ofDocument (Utf8.ofText e.toText) = .ok { e with apiKey := "" }) ∧
      (∀ r : TestRequest, Format.single.isFinite r.temperature.magnitude = true →
        ReadsBack r.temperature → TestRequest.ofDocument (Utf8.ofText r.toText) = .ok r) ∧
      (∀ p : Policy, Format.single.isFinite p.temperature.magnitude = true →
        ReadsBack p.temperature → Policy.ofDocument (Utf8.ofText p.toText) = .ok p) ∧
      (∀ s : ServerSettings, ServerSettings.ofDocument (Utf8.ofText s.toText) = .ok s) ∧
      ∀ s : Settings, s.probe.outOfRange? = none → ReadsBack s.probe.temperature →
        Settings.ofDocument (Utf8.ofText s.toText) = .ok s :=
  ⟨Endpoint.ofDocument_toText, fun _ => TestRequest.ofDocument_toText,
    fun _ => Policy.ofDocument_toText, ServerSettings.ofDocument_toText,
    fun _ => Settings.ofDocument_toText⟩

/-- The standard policy, what it asks, and settings with it. -/
theorem documents_read_back_standard :
    TestRequest.ofDocument (Utf8.ofText (Policy.standard.probeRequest "m").toText) =
        .ok (Policy.standard.probeRequest "m") ∧
      Policy.ofDocument (Utf8.ofText Policy.standard.toText) = .ok .standard ∧
      Settings.ofDocument (Utf8.ofText Settings.standard.toText) = .ok .standard := by
  have reads : ReadsBack Policy.standard.temperature := by decide
  obtain ⟨-, request, policy, -, settings⟩ := documents_read_back
  exact ⟨request _ (by decide) reads, policy _ (by decide) reads, settings _ (by decide) reads⟩

end EndpointHealth
