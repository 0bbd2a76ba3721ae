import EndpointHealth.Proofs.Catalog.Merging
import EndpointHealth.Proofs.Json.Documents
import EndpointHealth.Proofs.Json.Values
import EndpointHealth.Proofs.Registry.Ids
set_option autoImplicit false

/-!
Documents of endpoints, and catalogs that are gathered from them. A document holds one endpoint or
a list of them, and no document can be taken for both (`one_or_several`, `not_both_read`).

Main statement: a document changes nothing or overrides what the catalog has; a catalog lists one
endpoint for each id, in order; and the list of what some endpoints are written as is read as these
endpoints (`documents_override`).
-/

namespace EndpointHealth

open EndpointHealth.Json (Fields Reading Shape Value Wordy)
open EndpointHealth.Text

/-! ### What is written of an endpoint -/

namespace Endpoint

theorem toValue_eq (e : Endpoint) : e.toValue = .record
    [("model_id", .text e.id), ("model_name", .text e.name),
      ("model_type", Provider.shape.toValue e.provider.index), ("provider_model", .text e.model),
      ("api_base", (Shape.optional .text).toValue e.apiBase),
      ("is_studio_default", .flag e.isDefault)] := rfl

theorem wordy_toValue (e : Endpoint) (depth : Nat) : Wordy (depth + 2) e.toValue := by
  rw [toValue_eq]
  refine .record fun m hm => ?_
  simp only [List.mem_cons, List.not_mem_nil, or_false] at hm
  rcases hm with rfl | rfl | rfl | rfl | rfl | rfl
  · exact .text ..
  · exact .text ..
  · exact .text ..
  · exact .text ..
  · cases e.apiBase with
    | none => exact .null ..
    | some base => exact .text ..
  · exact .flag ..

/-- An endpoint without its key, which is never written. -/
def keyless (e : Endpoint) : Endpoint := { e with apiKey := "" }

theorem ofValue?_toValue (e : Endpoint) : ofValue? e.toValue = some e.keyless := by
  obtain ⟨_, _, provider, _, base, _, _⟩ := e
  cases provider <;> cases base <;> rfl

theorem ofValue?_text (s : String) : ofValue? (.text s) = none := rfl

end Endpoint

namespace Json

/-! ### How values begin -/

theorem ok_of_inside {α : Type} {s : Segment} {x : Reading α} {a : α}
    (h : inside s x = .ok a) : x = .ok a := by
  cases x with
  | error why => cases h
  | ok b => exact h

theorem first_of_readTextValue {expected : String} {bs : Bytes} {x : String × Bytes}
    (h : readTextValue expected bs = .ok x) : ∃ r, skipSpace bs = 0x22 :: r := by
  unfold readTextValue at h
  split at h
  · cases h
  · rename_i b r first
    split at h
    · rename_i quote
      exact ⟨r, quote ▸ first⟩
    · exact absurd h (unexpected_ne _ _)

theorem first_of_record {name : String} {fs : Fields} {depth : Nat} {bs : Bytes}
    {x : fs.Carrier × Bytes} (h : (Shape.record name fs).read depth bs = .ok x) :
    ∃ b r, skipSpace bs = b :: r ∧ b ≠ 0x22 := by
  unfold Shape.read at h
  split at h
  · cases h
  · rename_i b r first
    refine ⟨b, r, first, fun quote => ?_⟩
    rw [if_neg (quote ▸ by decide), if_neg (quote ▸ by decide)] at h
    exact absurd h (unexpected_ne _ _)

theorem items_of_list {s : Shape} {depth : Nat} {bs : Bytes} {x : List s.Carrier × Bytes}
    (h : (Shape.list s).read depth bs = .ok x) :
    ∃ r items, skipSpace bs = 0x5B :: r ∧
      readItems (s.read (depth - 1)) (r.length + 1) 0 r = .ok items := by
  unfold Shape.read at h
  split at h
  · cases h
  · rename_i b r first
    split at h
    · rename_i bracket
      split at h
      · cases h
      · obtain ⟨items, read, -⟩ := ok_of_bind h
        exact ⟨r, items, bracket ▸ first, read⟩
    · exact absurd h (unexpected_ne _ _)

theorem fields_of_record {name : String} {fs : Fields} {depth : Nat} {bs r : Bytes}
    {x : fs.Carrier × Bytes} (h : (Shape.record name fs).read depth bs = .ok x)
    (bracket : skipSpace bs = 0x5B :: r) :
    ∃ y, fs.readInOrder (depth - 1) (Fields.expectedLength name fs.size) 0 r = .ok y := by
  unfold Shape.read at h
  rw [bracket] at h
  dsimp only at h
  rw [if_neg (by decide), if_pos rfl] at h
  split at h
  · cases h
  · obtain ⟨y, read, -⟩ := ok_of_bind h
    exact ⟨y, read⟩

theorem first_of_readItems {α : Type} {read : Bytes → Reading (α × Bytes)} {fuel : Nat}
    {bs r : Bytes} {x : List α × Bytes} (h : readItems read (fuel + 1) 0 bs = .ok x)
    (more : nextItem false bs = .ok (true, r)) : ∃ y, read r = .ok y := by
  unfold readItems at h
  obtain ⟨⟨more', r'⟩, next, h⟩ := ok_of_bind h
  have same : Except.ok (more', r') = Except.ok (true, r) := (ok_of_inside next).symm.trans more
  cases same
  obtain ⟨y, read, -⟩ := ok_of_bind h
  exact ⟨y, ok_of_inside read⟩

/-- A record that is written as a list, and whose first field must be there, has that field in
front. -/
theorem first_of_readInOrder {name : String} {s : Shape} {fs : Fields} {depth : Nat}
    {expected : String} {bs : Bytes} {x : (Fields.field .required name s fs).Carrier × Bytes}
    (h : (Fields.field .required name s fs).readInOrder depth expected 0 bs = .ok x) :
    ∃ r y, nextItem false bs = .ok (true, r) ∧ s.read depth r = .ok y := by
  unfold Fields.readInOrder at h
  obtain ⟨⟨more, r⟩, next, h⟩ := ok_of_bind h
  cases more with
  | false => cases h
  | true =>
    obtain ⟨y, read, -⟩ := ok_of_bind h
    exact ⟨r, y, ok_of_inside next, ok_of_inside read⟩

end Json

namespace Catalog

open EndpointHealth.Json

/-! ### One endpoint or several -/

/-- The endpoints of a value that is a list of them. -/
def severalOf? (v : Value) : Option (List Endpoint) :=
  ((Shape.list Endpoint.shape).ofValue? v).map fun rs => rs.map Endpoint.ofRecord

theorem severalOf?_list (vs : List Value) :
    severalOf? (.list vs) = vs.mapM Endpoint.ofValue? := by
  have items (vs : List Value) :
      (vs.mapM Endpoint.shape.ofValue?).map (fun rs => rs.map Endpoint.ofRecord) =
        vs.mapM Endpoint.ofValue? := by
    induction vs with
    | nil => rfl
    | cons v vs ih =>
      rw [List.mapM_cons, List.mapM_cons, ← ih, Endpoint.ofValue?]
      cases Endpoint.shape.ofValue? v with
      | none => rfl
      | some r => cases vs.mapM Endpoint.shape.ofValue? <;> rfl
  exact items vs

theorem endpointsOf?_eq (v : Value) :
    endpointsOf? v = ((Endpoint.ofValue? v).map fun e => [e]).or (severalOf? v) := by
  unfold endpointsOf?
  cases Endpoint.ofValue? v <;> rfl

/-- The first item of an endpoint that is written as a list is a text, its id, but the items of a
list of endpoints are none. -/
theorem one_or_several (v : Value) : Endpoint.ofValue? v = none ∨ severalOf? v = none := by
  cases v with
  | list items =>
    cases items with
    | nil => exact .inl rfl
    | cons v vs =>
      cases v with
      | text id =>
        refine .inr ?_
        rw [severalOf?_list, List.mapM_cons, Endpoint.ofValue?_text]
        rfl
      | _ => exact .inl rfl
  | _ => exact .inr rfl

theorem several_first (v : Value) :
    endpointsOf? v = (severalOf? v).or ((Endpoint.ofValue? v).map fun e => [e]) := by
  rw [endpointsOf?_eq]
  rcases one_or_several v with one | several
  · rw [one, Option.map_none, Option.none_or, Option.or_none]
  · rw [several, Option.none_or, Option.or_none]

/-- Nor can the two forms be confused when a document is read without its value being kept. -/
theorem not_both_read {doc : Bytes} {e : Endpoint} (one : Endpoint.ofDocument doc = .ok e)
    (rs : List Endpoint.shape.Carrier) : (Shape.list Endpoint.shape).ofDocument doc ≠ .ok rs := by
  intro several
  obtain ⟨r, one, -⟩ := ok_of_map one
  obtain ⟨⟨r, rest⟩, one, -⟩ := ok_of_bind one
  obtain ⟨⟨rs, rest'⟩, several, -⟩ := ok_of_bind several
  obtain ⟨r, items, bracket, items_read⟩ := items_of_list several
  obtain ⟨fields, fields_read⟩ := fields_of_record one bracket
  obtain ⟨r', id, more, id_read⟩ := first_of_readInOrder fields_read
  obtain ⟨item, item_read⟩ := first_of_readItems items_read more
  obtain ⟨_, first⟩ := first_of_readTextValue id_read
  obtain ⟨b, _, first', other⟩ := first_of_record item_read
  rw [first] at first'
  cases first'
  exact other rfl

/-! ### Documents -/

theorem endpointsOfDocument_eq_ok_iff {doc : Bytes} {es : List Endpoint} :
    endpointsOfDocument doc = .ok es ↔
      ∃ v, Value.ofDocument doc = .ok v ∧ endpointsOf? v = some es := by
  unfold endpointsOfDocument Value.ofDocument readDocument
  constructor
  · intro h
    obtain ⟨⟨v, rest⟩, read, h⟩ := ok_of_bind h
    dsimp only at h
    split at h
    · cases h
    · rename_i es' found
      obtain ⟨_, closed, h⟩ := ok_of_bind h
      cases h
      refine ⟨v, ?_, found⟩
      rw [read]
      show (closeDocument rest >>= _) = _
      rw [closed]
      rfl
  · rintro ⟨v, h, found⟩
    obtain ⟨⟨v', rest⟩, read, h⟩ := ok_of_bind h
    obtain ⟨_, closed, h⟩ := ok_of_bind h
    cases h
    rw [read]
    dsimp only [bind, Except.bind]
    rw [found]
    show (closeDocument rest >>= _) = _
    rw [closed]
    rfl

def document (es : List Endpoint) : Bytes :=
  Utf8.ofText ("[" ++ ",".intercalate (es.map Endpoint.toText) ++ "]")

theorem endpointsOfDocument_document (es : List Endpoint) :
    endpointsOfDocument (document es) = .ok (es.map Endpoint.keyless) := by
  have written : "[" ++ ",".intercalate (es.map Endpoint.toText) ++ "]" =
      (Value.list (es.map Endpoint.toValue)).toText := by
    rw [list_toText, List.map_map]
    rfl
  have wordy : Wordy depthLimit (.list (es.map Endpoint.toValue)) := by
    refine .list fun v hv => ?_
    obtain ⟨e, -, rfl⟩ := List.mem_map.mp hv
    exact e.wordy_toValue _
  have several : severalOf? (.list (es.map Endpoint.toValue)) = some (es.map Endpoint.keyless) := by
    rw [severalOf?_list, List.mapM_map, show Endpoint.ofValue? ∘ Endpoint.toValue =
      fun e => pure e.keyless from funext Endpoint.ofValue?_toValue]
    exact List.mapM_pure
  rw [document, written]
  refine endpointsOfDocument_eq_ok_iff.mpr ⟨_, ofDocument_toText wordy, ?_⟩
  rw [several_first, several, Option.some_or]

/-! ### Catalogs of documents -/

/-- The endpoints that a document adds: none if it cannot be read. -/
def held (doc : Bytes) : List Endpoint := (endpointsOfDocument doc).toOption.getD []

def after (c : Catalog) (doc : Bytes) : Catalog := (c.extend doc).toOption.getD c

theorem after_eq (c : Catalog) (doc : Bytes) : c.after doc = c.merge (held doc) := by
  unfold after extend held
  cases endpointsOfDocument doc <;> rfl

theorem foldl_after (c : Catalog) (docs : List Bytes) :
    docs.foldl after c = c.merge (docs.flatMap held) := by
  rw [List.flatMap_def, merge_flatten, List.foldl_map]
  exact List.foldl_ext _ _ _ fun c doc _ => c.after_eq doc

/-- A document either cannot be read, and changes nothing, or its endpoints override those of the
catalog. After any documents, a catalog lists one endpoint for each id in the order of the ids, and
gives that one for the id. A value that is an endpoint is no list of endpoints, whichever is tried
first, and what some endpoints are written as is read as these endpoints. -/
theorem documents_override :
    (∀ (c : Catalog) (doc : Bytes),
      (∃ why, c.extend doc = .error why ∧ c.after doc = c) ∨
      ∃ v es, Value.ofDocument doc = .ok v ∧ endpointsOf? v = some es ∧
        c.extend doc = .ok (c.after doc) ∧
        ∀ id, (c.after doc).get? id = (latest? id es).or (c.get? id)) ∧
    empty.InOrder ∧
    (∀ (c : Catalog) (docs : List Bytes), c.InOrder →
      (docs.foldl after c).InOrder ∧
      ((docs.foldl after c).endpoints.map (·.id)).Nodup ∧
      (docs.foldl after c).size =
        ((c.endpoints ++ docs.flatMap held).map (·.id)).dedup.length ∧
      (∀ id, (docs.foldl after c).get? id =
        (latest? id (docs.flatMap held)).or (c.get? id)) ∧
      ∀ id e, (docs.foldl after c).get? id = some e ↔
        e ∈ (docs.foldl after c).endpoints ∧ e.id = id) ∧
    (∀ v, (Endpoint.ofValue? v = none ∨ severalOf? v = none) ∧
      endpointsOf? v = (severalOf? v).or ((Endpoint.ofValue? v).map fun e => [e])) ∧
    (∀ doc e rs, Endpoint.ofDocument doc = .ok e →
      (Shape.list Endpoint.shape).ofDocument doc ≠ .ok rs) ∧
    ∀ es : List Endpoint, endpointsOfDocument (document es) = .ok (es.map Endpoint.keyless) := by
  refine ⟨fun c doc => ?_, inOrder_empty, fun c docs ordered => ?_,
    fun v => ⟨one_or_several v, several_first v⟩, fun doc e rs one => not_both_read one rs,
    endpointsOfDocument_document⟩
  · cases read : endpointsOfDocument doc with
    | error f =>
      refine .inl ⟨.document (f.message doc), ?_, ?_⟩
      · rw [extend, read]
      · rw [after, extend, read]
        rfl
    | ok es =>
      obtain ⟨v, value, found⟩ := endpointsOfDocument_eq_ok_iff.mp read
      have extended : c.extend doc = .ok (c.merge es) := by
        rw [extend, read]
        rfl
      have new : c.after doc = c.merge es := by
        rw [after, extended]
        rfl
      exact .inr ⟨v, es, value, found, new ▸ extended, fun id => new ▸ get?_merge c es id⟩
  · rw [foldl_after]
    have ordered' := ordered.merge (docs.flatMap held)
    exact ⟨ordered', ordered'.nodup, size_merge ordered _, get?_merge c _,
      fun id e => get?_eq_some_iff ordered'⟩

def brief (id : EndpointId) (name : String) (isDefault : Bool) : Endpoint :=
  { id, name, provider := .openai, model := "", apiBase := none, apiKey := "", isDefault }

/-- Of two endpoints with one id in a list, the later one is in the catalog. -/
theorem documents_override_twice :
    let doc := document [brief "b" "first" false, brief "a" "other" true, brief "b" "second" false]
    (empty.InOrder ∧ (empty.after doc).InOrder ∧ (empty.after doc).size = 2 ∧
      (empty.after doc).get? "b" = some (brief "b" "second" false)) ∧
    let doc := Utf8.ofText (brief "a" "only" true).toText
    Endpoint.ofDocument doc = .ok (brief "a" "only" true) ∧
      ∀ rs, (Shape.list Endpoint.shape).ofDocument doc ≠ .ok rs := by
  obtain ⟨-, ordered, gathered, -, single, several⟩ := documents_override
  intro doc
  have read : held doc =
      [brief "b" "first" false, brief "a" "other" true, brief "b" "second" false] := by
    rw [held, show endpointsOfDocument doc = _ from several _]
    rfl
  obtain ⟨ordered', -, size, looked, -⟩ := gathered empty [doc] ordered
  rw [List.foldl_cons, List.foldl_nil] at ordered' size looked
  rw [List.flatMap_singleton, read] at size looked
  have two : [("b" : EndpointId), "a", "b"].dedup.length = 2 := by decide +kernel
  have one := Endpoint.ofDocument_toText (brief "a" "only" true)
  exact ⟨⟨ordered, ordered', size.trans two, looked "b"⟩, one, fun rs => single _ _ rs one⟩

end Catalog
end EndpointHealth
