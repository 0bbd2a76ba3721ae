import EndpointHealth.Proofs.Http.Chronicles
import Mathlib.Data.List.TakeWhile
set_option autoImplicit false

/-!
The addresses of endpoints: the path of all endpoints, and behind it the id in percent coding.

Main statement: the address of an endpoint asks for what is done with that endpoint exactly if the
id as it is written is not empty and no plain name (`addressed_iff`). Nothing keeps an endpoint from
having such an id, and then its address asks for something else (`default_overshadowed`). Behind the
address a manual test is asked for, whatever the id, unless it is empty (`actionOf_address_test`).
-/

namespace EndpointHealth.Http

open EndpointHealth.Service (Confined Holds Gives)
open EndpointHealth.Text

variable {τ : Type} {p : Service.Prober τ} {b : Book} {w : Service.State τ} {h : Chronicle}
  {set : UInt8 → Bool}

/-- With these bytes in percent coding any text is written as one segment of a path: the percent
sign itself, all that ends a segment or a path, and all that is not ASCII. -/
structure Segmental (set : UInt8 → Bool) : Prop where
  percent : set 0x25 = true
  slash : set 0x2F = true
  query : set 0x3F = true
  fragment : set 0x23 = true
  ascii : ∀ b, set b = false → b.toNat < 0x80

/-- An id as a segment of a path. -/
def segment (set : UInt8 → Bool) (id : EndpointId) : String :=
  String.ofList (Percent.encode set (Utf8.ofText id))

def address (set : UInt8 → Bool) (id : EndpointId) : String := "/models/" ++ segment set id

/-- What has a meaning of its own where an id may stand. -/
def reserved : List String := ["", "default", "status"]

/-! ### Segments -/

/-- A character that neither ends a segment nor a path. -/
def isInner (c : Char) : Bool := c.toNat < 0x80 && c ≠ '/' && c ≠ '?' && c ≠ '#'

theorem isInner_upper {n : Nat} (h : n < 16) : isInner (Hex.upper n) = true := by
  have digits : ∀ k : Fin 16, isInner (Hex.upper k) = true := by decide
  exact digits ⟨n, h⟩

theorem isInner_ofNat (segmental : Segmental set) {b : UInt8} (plain : set b = false) :
    isInner (Char.ofNat b.toNat) = true := by
  have low := segmental.ascii b plain
  have number : (Char.ofNat b.toNat).toNat = b.toNat := by
    rw [Char.ofNat, dif_pos (Or.inl (by omega))]
    rfl
  have other {c : Char} {a : UInt8} (coded : set a = true) (same : c.toNat = a.toNat) :
      Char.ofNat b.toNat ≠ c := fun h => by
    have eq : b = a := UInt8.toNat_inj.mp (by rw [← number, h, same])
    rw [eq, coded] at plain
    cases plain
  simp [isInner, number, low, other segmental.slash (c := '/') rfl,
    other segmental.query (c := '?') rfl, other segmental.fragment (c := '#') rfl]

theorem isInner_of_mem_encode (segmental : Segmental set) {bs : Bytes} {c : Char}
    (h : c ∈ Percent.encode set bs) : isInner c = true := by
  induction bs with
  | nil => cases h
  | cons b bs ih =>
    have byte : b.toNat < 256 := b.toNat_lt
    unfold Percent.encode at h
    split at h
    · simp only [List.mem_cons] at h
      rcases h with rfl | rfl | rfl | h
      · rfl
      · exact isInner_upper (by omega)
      · exact isInner_upper (by omega)
      · exact ih h
    · rename_i plain
      rcases List.mem_cons.mp h with rfl | h
      · exact isInner_ofNat segmental (by simpa using plain)
      · exact ih h

theorem decode_segment (segmental : Segmental set) (id : EndpointId) :
    Utf8.text? (Percent.decode (Utf8.encode (segment set id).toList)) = some id := by
  have ascii : ∀ c ∈ Percent.encode set (Utf8.ofText id), c.toNat < 0x80 := fun c hc => by
    have inner := isInner_of_mem_encode segmental hc
    simp only [isInner, Bool.and_eq_true, decide_eq_true_eq] at inner
    exact inner.1.1.1
  unfold segment
  rw [String.toList_ofList, Utf8.encode_of_ascii ascii,
    Percent.decode_encode set segmental.percent segmental.ascii, Utf8.text_ofText]

theorem eq_of_segment (segmental : Segmental set) {i j : EndpointId}
    (same : segment set i = segment set j) : i = j := by
  have read := decode_segment segmental i
  rw [same, decode_segment segmental j] at read
  exact (Option.some.inj read).symm

theorem segment_of_plain {s : String} (plain : ∀ b ∈ Utf8.ofText s, set b = false) :
    segment set s = String.ofList ((Utf8.ofText s).map fun b => Char.ofNat b.toNat) := by
  unfold segment
  generalize Utf8.ofText s = bs at plain
  refine congrArg String.ofList ?_
  induction bs with
  | nil => rfl
  | cons b bs ih =>
    rw [Percent.encode, plain b (List.mem_cons_self ..), if_neg (by simp),
      ih fun a ha => plain a (List.mem_cons_of_mem _ ha)]
    rfl

/-- If their letters are not put in percent coding, the reserved names are the segments of the ids
that are called so, and of no other. -/
theorem segment_reserved_iff (segmental : Segmental set)
    (plain : ∀ s ∈ reserved, ∀ b ∈ Utf8.ofText s, set b = false) (id : EndpointId) :
    segment set id ∈ reserved ↔ id ∈ reserved := by
  have itself : ∀ s ∈ reserved, segment set s = s := fun s hs => by
    have ascii : ∀ s ∈ reserved,
        String.ofList ((Utf8.ofText s).map fun b => Char.ofNat b.toNat) = s := by decide
    rw [segment_of_plain (plain s hs), ascii s hs]
  constructor
  · intro named
    rw [eq_of_segment segmental (itself _ named).symm]
    exact named
  · intro named
    rw [itself id named]
    exact named

/-! ### Routes -/

theorem withId_segment (segmental : Segmental set) (id : EndpointId)
    (action : EndpointId → Action) :
    withId (segment set id).toList action = .ok (action id) := by
  unfold withId
  rw [decode_segment segmental]

theorem mem_intercalate {c : Char} {parts : List (List Char)}
    (h : c ∈ ['/'].intercalate parts) : c = '/' ∨ ∃ part ∈ parts, c ∈ part := by
  induction parts with
  | nil => simp [List.intercalate] at h
  | cons part parts ih =>
    cases parts with
    | nil => exact .inr ⟨part, List.mem_cons_self .., by simpa [List.intercalate] using h⟩
    | cons next rest =>
      have split : ['/'].intercalate (part :: next :: rest) =
          part ++ '/' :: ['/'].intercalate (next :: rest) := by simp [List.intercalate]
      rw [split] at h
      rcases List.mem_append.mp h with h | h
      · exact .inr ⟨part, List.mem_cons_self .., h⟩
      · rcases List.mem_cons.mp h with rfl | h
        · exact .inl rfl
        · exact (ih h).imp_right fun ⟨part, among, inside⟩ =>
            ⟨part, List.mem_cons_of_mem _ among, inside⟩

/-- A path that is written with plain characters between its slashes asks for what its segments
do. -/
theorem actionOf_segments {target : String} {ss : List String} (filled : ss ≠ [])
    (inner : ∀ s ∈ ss, ∀ c ∈ s.toList, isInner c = true)
    (written : target.toList = '/' :: ['/'].intercalate (ss.map String.toList))
    (method : String) : actionOf method target = route method ss := by
  have whole : path target.toList = target.toList := by
    refine List.takeWhile_eq_self_iff.mpr fun c hc => ?_
    have kept : c = '/' ∨ isInner c = true := by
      rcases List.mem_cons.mp (written ▸ hc) with rfl | hc
      · exact .inl rfl
      · rcases mem_intercalate hc with rfl | ⟨cs, hcs, hc⟩
        · exact .inl rfl
        · obtain ⟨s, hs, rfl⟩ := List.mem_map.mp hcs
          exact .inr (inner s hs c hc)
    rcases kept with rfl | plain
    · rfl
    · simp only [isInner, Bool.and_eq_true] at plain
      exact Bool.and_eq_true_iff.mpr ⟨plain.1.2, plain.2⟩
  have unbroken : ∀ cs ∈ ss.map String.toList, '/' ∉ cs := fun cs hcs hc => by
    obtain ⟨s, hs, rfl⟩ := List.mem_map.mp hcs
    cases (inner s hs _ hc : isInner '/' = true)
  unfold actionOf
  rw [whole, written]
  show route method (((['/'].intercalate (ss.map String.toList)).splitOn '/').map String.ofList) = _
  rw [List.splitOn_intercalate '/' unbroken (by simpa using filled), List.map_map]
  simp [Function.comp_def]

theorem isInner_segment (segmental : Segmental set) (id : EndpointId) :
    ∀ c ∈ (segment set id).toList, isInner c = true := fun c hc => by
  rw [segment, String.toList_ofList] at hc
  exact isInner_of_mem_encode segmental hc

theorem actionOf_address (segmental : Segmental set) (method : String) (id : EndpointId) :
    actionOf method (address set id) = route method ["models", segment set id] := by
  have inner : ∀ s ∈ ["models", segment set id], ∀ c ∈ s.toList, isInner c = true := by
    simp only [List.forall_mem_cons]
    exact ⟨List.all_eq_true.mp rfl, isInner_segment segmental id, nofun⟩
  refine actionOf_segments (by simp) inner ?_ method
  simp [address, List.intercalate]

/-- Every id but the empty one has an address for its manual tests. -/
theorem actionOf_address_test (segmental : Segmental set) (id : EndpointId) :
    actionOf "POST" (address set id ++ "/test") = .ok (.test id) ↔ id ≠ "" := by
  have inner : ∀ s ∈ ["models", segment set id, "test"], ∀ c ∈ s.toList, isInner c = true := by
    simp only [List.forall_mem_cons]
    exact ⟨List.all_eq_true.mp rfl, isInner_segment segmental id, List.all_eq_true.mp rfl, nofun⟩
  have asked : actionOf "POST" (address set id ++ "/test") =
      route "POST" ["models", segment set id, "test"] := by
    refine actionOf_segments (by simp) inner ?_ "POST"
    simp [address, List.intercalate]
  rw [asked]
  by_cases empty : id = ""
  · rw [empty]
    exact iff_of_false nofun (not_not.mpr rfl)
  · have named : segment set id ≠ "" := fun same =>
      empty (eq_of_segment segmental (i := id) (j := "") same)
    rw [← withId_segment segmental id .test]
    exact iff_of_true (by simp [route, named, posted]) empty

theorem route_of_free {s : String} (free : s ∉ reserved) (method : String) :
    route method ["models", s] = onEndpoint method s.toList := by
  simp only [reserved, List.mem_cons, List.not_mem_nil, or_false, not_or] at free
  obtain ⟨empty, default, status⟩ := free
  unfold route
  split <;> simp_all

theorem onEndpoint_methods (s : List Char) : onEndpoint "GET" s = withId s .get ∧
    onEndpoint "PUT" s = withId s .update ∧ onEndpoint "DELETE" s = withId s .remove :=
  ⟨rfl, rfl, rfl⟩

theorem route_of_reserved {s : String} (h : s ∈ reserved) :
    (∀ id, route "GET" ["models", s] ≠ .ok (.get id)) ∧
    (∀ id, route "PUT" ["models", s] ≠ .ok (.update id)) ∧
    ∀ id, route "DELETE" ["models", s] ≠ .ok (.remove id) := by
  simp only [reserved, List.mem_cons, List.not_mem_nil, or_false] at h
  rcases h with rfl | rfl | rfl
  · exact ⟨nofun, nofun, nofun⟩
  · exact ⟨nofun, nofun, nofun⟩
  · exact ⟨nofun, nofun, nofun⟩

theorem actionOf_address_iff (segmental : Segmental set) (id : EndpointId) :
    (actionOf "GET" (address set id) = .ok (.get id) ↔ segment set id ∉ reserved) ∧
    (actionOf "PUT" (address set id) = .ok (.update id) ↔ segment set id ∉ reserved) ∧
    (actionOf "DELETE" (address set id) = .ok (.remove id) ↔ segment set id ∉ reserved) := by
  simp only [actionOf_address segmental]
  by_cases named : segment set id ∈ reserved
  · obtain ⟨get, put, delete⟩ := route_of_reserved named
    exact ⟨iff_of_false (get id) (not_not.mpr named), iff_of_false (put id) (not_not.mpr named),
      iff_of_false (delete id) (not_not.mpr named)⟩
  · obtain ⟨get, put, delete⟩ := onEndpoint_methods (segment set id).toList
    simp only [route_of_free named, get, put, delete, withId_segment segmental id]
    exact ⟨iff_of_true trivial named, iff_of_true trivial named, iff_of_true trivial named⟩

/-! ### Answers -/

theorem get?_of_removed (b : Book) {i j : EndpointId} (other : j ≠ i) :
    (b.delete i).2.get? j = b.get? j := by
  cases held : b.get? j with
  | none =>
    rw [Book.get?_eq_none_iff] at held ⊢
    rw [b.ids_delete]
    exact fun h => held (List.mem_filter.mp h).1
  | some e =>
    obtain ⟨old, hold, rfl, rfl⟩ := Book.mem_of_get? held
    have kept : old ∈ (b.delete i).2.records := List.mem_filter.mpr ⟨hold, decide_eq_true other⟩
    rw [Book.get?_of_mem kept]
    show some { old with isDefault := b.chosen?.filter (· ≠ i) = some old.id } = _
    simp [Option.filter_eq_some_iff, other, Book.shown]

theorem get_of_removed (b : Book) (i : EndpointId) : (b.delete i).2.get? i = none := by
  rw [Book.get?_eq_none_iff, b.ids_delete]
  exact fun h => of_decide_eq_true (List.mem_filter.mp h).2 rfl

theorem get_answered (holds : Holds b w) {id : EndpointId} {e : Endpoint}
    (held : b.get? id = some e) {target : String} (action : actionOf "GET" target = .ok (.get id))
    (fresh : EndpointId) (type : Option String) (body : Bytes) :
    (handle p fresh ⟨"GET", target, type, body⟩ w).1 = .now (.json 200 e.toValue) := by
  have gives := Service.get_gives holds id
  rw [held] at gives
  rw [handle_of_action (r := ⟨"GET", target, type, body⟩) action]
  show (answered endpointAnswer (Service.get id w)).1.to "GET" = _
  rw [(answered_gives _ gives).1]
  rfl

theorem remove_answered (holds : Holds b w) {id : EndpointId} (held : id ∈ b.ids)
    {target : String} (action : actionOf "DELETE" target = .ok (.remove id))
    (fresh : EndpointId) (type : Option String) (body : Bytes) :
    let x := handle p fresh ⟨"DELETE", target, type, body⟩ w
    x.1 = .now (.json 200 done) ∧ Holds (b.delete id).2 x.2 := by
  obtain ⟨given, left⟩ := answered_gives (fun _ => .json 200 done)
    (Service.remove_gives (p := p) holds held)
  rw [handle_of_action (r := ⟨"DELETE", target, type, body⟩) action]
  show (answered _ (Service.remove p id w)).1.to "DELETE" = _ ∧ _
  rw [given]
  exact ⟨rfl, left⟩

/-- The address of an endpoint in the registry asks for this endpoint exactly if its segment is not
reserved. Then who reads it gets the record, and who deletes it deletes this endpoint only. -/
theorem addressed_iff (confined : Confined p) (served : Served p h w) (segmental : Segmental set)
    {id : EndpointId} {e : Endpoint} (held : (Service.get id w).1 = .ok e) :
    ((actionOf "GET" (address set id) = .ok (.get id) ↔ segment set id ∉ reserved) ∧
      (actionOf "PUT" (address set id) = .ok (.update id) ↔ segment set id ∉ reserved) ∧
      (actionOf "DELETE" (address set id) = .ok (.remove id) ↔ segment set id ∉ reserved)) ∧
    (segment set id ∉ reserved → ∀ fresh type body,
      (handle p fresh ⟨"GET", address set id, type, body⟩ w).1 = .now (.json 200 e.toValue) ∧
      let x := handle p fresh ⟨"DELETE", address set id, type, body⟩ w
      x.1 = .now (.json 200 done) ∧ (Service.get id x.2).1 = .error (.unknownEndpoint id) ∧
        ∀ j, j ≠ id → (Service.get j x.2).1 = (Service.get j w).1) ∧
    ((∀ s ∈ reserved, ∀ b ∈ Utf8.ofText s, set b = false) →
      (segment set id ∈ reserved ↔ id ∈ reserved)) := by
  obtain ⟨-, holds⟩ := holds_of_served confined served
  have found : h.book.get? id = some e := by
    rw [(Service.get_gives holds id).1] at held
    cases got : h.book.get? id with
    | none =>
      rw [got] at held
      cases held
    | some f =>
      rw [got] at held
      cases held
      rfl
  have known : id ∈ h.book.ids := by
    by_contra absent
    cases (Book.get?_eq_none_iff.mpr absent).symm.trans found
  have actions := actionOf_address_iff segmental id
  refine ⟨actions, fun free fresh type body => ?_, fun plain =>
    segment_reserved_iff segmental plain id⟩
  obtain ⟨done, left⟩ :=
    remove_answered (p := p) holds known (actions.2.2.mpr free) fresh type body
  refine ⟨get_answered holds found (actions.1.mpr free) fresh type body, done, ?_,
    fun j other => ?_⟩
  · rw [(Service.get_gives left id).1, get_of_removed]
  · rw [(Service.get_gives left j).1, (Service.get_gives holds j).1, get?_of_removed _ other]

/-- The bytes that stand for themselves everywhere in an address: letters, digits and four marks. -/
def isUnreserved (b : UInt8) : Bool :=
  let n := b.toNat
  (0x30 ≤ n && n ≤ 0x39) || (0x41 ≤ n && n ≤ 0x5A) || (0x61 ≤ n && n ≤ 0x7A)
    || n = 0x2D || n = 0x2E || n = 0x5F || n = 0x7E

/-- All other bytes. -/
def coded (b : UInt8) : Bool := !isUnreserved b

theorem segmental_coded : Segmental coded where
  percent := by decide
  slash := by decide
  query := by decide
  fragment := by decide
  ascii b plain := by
    simp only [coded, isUnreserved, Bool.not_eq_false', Bool.or_eq_true, Bool.and_eq_true,
      decide_eq_true_eq] at plain
    omega

/-- An endpoint is seeded that has a slash and a letter beyond ASCII in its id. -/
theorem addressed_iff_slash : ∃ w, ∃ e : Endpoint, Served slow [.started [claimant "a/é"]] w ∧
    address coded "a/é" = "/models/a%2F%C3%A9" ∧ e.id = "a/é" ∧
    (handle slow "" ⟨"GET", "/models/a%2F%C3%A9", none, []⟩ w).1 = .now (.json 200 e.toValue) := by
  have started := (Served.empty (p := slow) ()).started [claimant "a/é"] rfl () []
  have written : address coded "a/é" = "/models/a%2F%C3%A9" := by decide +kernel
  obtain ⟨-, answers, free⟩ := addressed_iff confined_slow started segmental_coded
    (show (Service.get "a/é" _).1 = .ok (claimant "a/é") from rfl)
  have free : segment coded "a/é" ∉ reserved := by
    rw [free (by decide +kernel)]
    decide
  exact ⟨_, claimant "a/é", started, written, rfl, written ▸ (answers free "" none []).1⟩

/-- Another endpoint is seeded whose id is a plain name. Its address gives the default endpoint, and
it can be neither edited nor deleted there. -/
theorem default_overshadowed : ∃ w, Served slow [.started [claimant "a", claimant "default"]] w ∧
    (∃ e : Endpoint, (Service.get "default" w).1 = .ok e ∧ e.id = "default") ∧
    address coded "default" = "/models/default" ∧
    (∃ e : Endpoint,
      (handle slow "" ⟨"GET", "/models/default", none, []⟩ w).1 = .now (.json 200 e.toValue) ∧
      e.id = "a") ∧
    (handle slow "" ⟨"PUT", "/models/default", none, []⟩ w).1 = .now (.bare 405) ∧
    (handle slow "" ⟨"DELETE", "/models/default", none, []⟩ w).1 = .now (.bare 405) := by
  have started := (Served.empty (p := slow) ()).started
    [claimant "a", claimant "default"] rfl () []
  exact ⟨_, started, ⟨_, rfl, rfl⟩, by decide +kernel, ⟨_, rfl, rfl⟩, rfl, rfl⟩

end EndpointHealth.Http
