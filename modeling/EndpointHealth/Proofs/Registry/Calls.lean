import EndpointHealth.Proofs.Registry.Book
import Mathlib.Data.List.Nodup
import Mathlib.Data.List.Perm.Basic
set_option autoImplicit false

/-!
Calls to a registry, one after another, from the empty table.

A table has its rows in no order of their own. It is listed by the time of registration and, within
one, by the number that a row gets when it is added, which is higher than that of any row that is
there then. The clock is read again for every row, also in one call that adds many. As long as it
does not run backwards this is the order of the registry's rows.

Main statement: whatever the calls, the registry answers as its book does (`answers_as_book`).
-/

namespace EndpointHealth

def Registry.after (r : Registry) (c : Command) : Registry :=
  match r.obey c with
  | .ok (_, r) => r
  | .error _ => r

def Book.after (b : Book) (c : Command) : Book :=
  match b.obey c with
  | .ok (_, b) => b
  | .error _ => b

theorem Book.after_registry (b : Book) (c : Command) :
    b.registry.after c = (b.after c).registry := by
  unfold Registry.after Book.after
  rw [obey_registry]
  cases b.obey c <;> rfl

theorem Book.foldl_after_registry (b : Book) (cs : List Command) :
    cs.foldl Registry.after b.registry = (cs.foldl Book.after b).registry := by
  induction cs generalizing b with
  | nil => rfl
  | cons c cs ih => rw [List.foldl_cons, after_registry, ih, List.foldl_cons]

/-! ### Stamps -/

/-- What a row is listed by. -/
structure Stamp where
  time : Nat
  number : Nat
  deriving DecidableEq, Repr

namespace Stamp

/-- Whether a stamp comes before another or is the same. -/
def Le (a b : Stamp) : Prop := a.time < b.time ∨ a.time = b.time ∧ a.number ≤ b.number

instance (a b : Stamp) : Decidable (a.Le b) := inferInstanceAs (Decidable (_ ∨ _))

theorem Le.antisymm {a b : Stamp} (h : a.Le b) (h' : b.Le a) : a = b := by
  obtain ⟨t, n⟩ := a
  obtain ⟨t', n'⟩ := b
  simp only [Le, mk.injEq] at *
  omega

end Stamp

abbrev Stamps := List (EndpointId × Stamp)

namespace Stamps

def ids (st : Stamps) : List EndpointId := st.map (·.1)

/-- The highest number that is taken. -/
def top (st : Stamps) : Nat := (st.map (·.2.number)).foldr max 0

def enter (st : Stamps) (time : Nat) (id : EndpointId) : Stamps :=
  st ++ [(id, ⟨time, st.top + 1⟩)]

/-- Stamps rows that are added one after another, when the clock has been read `read` times. -/
def enterAll (clock : Nat → Nat) : Nat → List EndpointId → Stamps → Stamps
  | _, [], st => st
  | read, id :: new, st => enterAll clock (read + 1) new (st.enter (clock read) id)

def newcomers (st : Stamps) (ids : List EndpointId) : List EndpointId := ids.filter (· ∉ st.ids)

/-- The stamps when there are these ids: rows that are gone have taken theirs with them, and those
that are new have got one each. -/
def follow (clock : Nat → Nat) (read : Nat) (ids : List EndpointId) (st : Stamps) : Stamps :=
  enterAll clock read (st.newcomers ids) (st.filter (·.1 ∈ ids))

def stamp (st : Stamps) (id : EndpointId) : Stamp :=
  ((st.find? (·.1 = id)).map (·.2)).getD ⟨0, 0⟩

/-- The rows of a table are listed by their stamps. -/
def Sorts (st : Stamps) (rows : List Row) : Prop :=
  rows.Pairwise fun a b => (st.stamp a.id).Le (st.stamp b.id)

/-- Later rows have later times and higher numbers, and no time is still to come. -/
structure Timely (now : Nat) (st : Stamps) : Prop where
  ordered : st.Pairwise fun a b => a.2.time ≤ b.2.time ∧ a.2.number < b.2.number
  past : ∀ a ∈ st, a.2.time ≤ now

variable {clock : Nat → Nat} {now time read : Nat} {st : Stamps}

theorem le_top {a : EndpointId × Stamp} (h : a ∈ st) : a.2.number ≤ st.top := by
  induction st with
  | nil => cases h
  | cons b st ih =>
    show _ ≤ max b.2.number (top st)
    rcases List.mem_cons.mp h with rfl | h
    · exact Nat.le_max_left _ _
    · exact Nat.le_trans (ih h) (Nat.le_max_right _ _)

theorem Timely.later (timely : Timely now st) (h : now ≤ time) : Timely time st :=
  ⟨timely.ordered, fun a ha => Nat.le_trans (timely.past a ha) h⟩

theorem Timely.filter (timely : Timely now st) (p : EndpointId × Stamp → Bool) :
    Timely now (st.filter p) :=
  ⟨timely.ordered.filter p, fun a ha => timely.past a (List.mem_filter.mp ha).1⟩

theorem Timely.enter (timely : Timely now st) (id : EndpointId) :
    Timely now (st.enter now id) := by
  refine ⟨List.pairwise_append.mpr ⟨timely.ordered, List.pairwise_singleton _ _, ?_⟩, ?_⟩
  · intro a ha b hb
    cases List.mem_singleton.mp hb
    exact ⟨timely.past a ha, Nat.lt_succ_of_le (le_top ha)⟩
  · intro a ha
    rcases List.mem_append.mp ha with ha | ha
    · exact timely.past a ha
    · cases List.mem_singleton.mp ha
      exact Nat.le_refl _

theorem Timely.enterAll (forwards : Monotone clock) (timely : Timely (clock read) st)
    (new : List EndpointId) :
    Timely (clock (read + new.length)) (st.enterAll clock read new) := by
  induction new generalizing read st with
  | nil => exact timely
  | cons id new ih =>
    have entered := (timely.enter id).later (forwards (Nat.le_succ read))
    rw [List.length_cons, Nat.add_comm new.length, ← Nat.add_assoc]
    exact ih entered

theorem Timely.follow (forwards : Monotone clock) (timely : Timely (clock read) st)
    (ids : List EndpointId) :
    Timely (clock (read + (st.newcomers ids).length)) (st.follow clock read ids) :=
  (timely.filter _).enterAll forwards _

theorem ids_enterAll (clock : Nat → Nat) (read : Nat) (new : List EndpointId) (st : Stamps) :
    ids (st.enterAll clock read new) = st.ids ++ new := by
  induction new generalizing read st with
  | nil => simp [enterAll]
  | cons id new ih => rw [enterAll, ih]; simp [ids, enter]

theorem ids_follow (p : EndpointId → Bool) {new : List EndpointId} (fresh : ∀ i ∈ new, i ∉ st.ids) :
    ids (st.follow clock read (st.ids.filter p ++ new)) = st.ids.filter p ++ new := by
  have kept : ids (st.filter (·.1 ∈ st.ids.filter p ++ new)) = st.ids.filter p := by
    have same : st.filter (·.1 ∈ st.ids.filter p ++ new) = st.filter (p ∘ (·.1)) := by
      refine List.filter_congr fun a ha => ?_
      have held : a.1 ∈ st.ids := List.mem_map_of_mem ha
      have old : a.1 ∉ new := fun h => fresh _ h held
      have mem : a.1 ∈ st.ids.filter p ++ new ↔ p a.1 = true := by simp [held, old]
      simp only [mem, Bool.decide_eq_true, Function.comp_apply]
    rw [same, ids, ids, List.filter_map]
  have added : st.newcomers (st.ids.filter p ++ new) = new := by
    rw [newcomers, List.filter_append, List.filter_eq_nil_iff.mpr, List.filter_eq_self.mpr]
    · rfl
    · exact fun i hi => decide_eq_true (fresh i hi)
    · intro i hi h
      exact of_decide_eq_true h (List.mem_filter.mp hi).1
  unfold follow
  rw [ids_enterAll, added, kept]

theorem stamp_of_mem (nodup : st.ids.Nodup) {a : EndpointId × Stamp} (h : a ∈ st) :
    st.stamp a.1 = a.2 := by
  have found : st.find? (·.1 = a.1) = some a := by
    induction st with
    | nil => cases h
    | cons b st ih =>
      obtain ⟨first, rest⟩ := List.nodup_cons.mp nodup
      rcases List.mem_cons.mp h with rfl | h
      · simp
      · have other : b.1 ≠ a.1 := fun same => first (List.mem_map.mpr ⟨a, h, same.symm⟩)
        simpa [other] using ih rest h
  simp [stamp, found]

/-- A table that is sorted by its stamps is in the order in which its rows came. -/
theorem eq_of_sorts (timely : Timely now st) {rows table : List Row}
    (held : st.ids = rows.map (·.id)) (nodup : (rows.map (·.id)).Nodup) (perm : table.Perm rows)
    (sorts : st.Sorts table) : st.Sorts rows ∧ table = rows := by
  have upwards : st.ids.Pairwise fun i j =>
      (st.stamp i).Le (st.stamp j) ∧ st.stamp i ≠ st.stamp j := by
    refine List.pairwise_map.mpr (timely.ordered.imp_of_mem fun {a b} ha hb h => ?_)
    rw [stamp_of_mem (held ▸ nodup) ha, stamp_of_mem (held ▸ nodup) hb]
    refine ⟨?_, fun same => by simp [same] at h⟩
    unfold Stamp.Le
    omega
  rw [held] at upwards
  have upwards := List.pairwise_map.mp upwards
  have sorted : st.Sorts rows := upwards.imp And.left
  have different : (rows.map fun row => st.stamp row.id).Nodup :=
    List.pairwise_map.mpr (upwards.imp And.right)
  refine ⟨sorted, perm.eq_of_pairwise (fun a b ha hb le le' => ?_) sorts sorted⟩
  exact List.inj_on_of_nodup_map different (perm.subset ha) hb (le.antisymm le')

end Stamps

/-- A registry with the stamps of its rows. -/
structure Stamped where
  registry : Registry
  stamps : Stamps
  /-- How often the clock has been read. -/
  read : Nat

namespace Stamped

def empty : Stamped := ⟨.empty, [], 0⟩

def after (clock : Nat → Nat) (x : Stamped) (c : Command) : Stamped :=
  let r := x.registry.after c
  ⟨r, x.stamps.follow clock x.read r.ids, x.read + (x.stamps.newcomers r.ids).length⟩

theorem foldl_after_registry (clock : Nat → Nat) (x : Stamped) (calls : List Command) :
    (calls.foldl (after clock) x).registry = calls.foldl Registry.after x.registry := by
  induction calls generalizing x with
  | nil => rfl
  | cons c calls ih => exact ih (x.after clock c)

end Stamped

namespace Book

theorem ids_registry (b : Book) : b.registry.ids = b.ids := by
  simp [Registry.ids, registry, ids, row, Row.ofEndpoint, Function.comp_def]

theorem ids_update (b : Book) (e : Endpoint) : (b.update e).ids = b.ids := by
  unfold ids update rewrite
  rw [List.map_map]
  refine List.map_congr_left fun old _ => ?_
  show Endpoint.id (if old.id = e.id then edited e old else old) = old.id
  split <;> rfl

theorem ids_delete (b : Book) (id : EndpointId) :
    (b.delete id).2.ids = b.ids.filter (· ≠ id) := by
  unfold ids delete
  rw [List.filter_map]
  rfl

/-- A call takes ids away or adds new ones at the end. -/
theorem ids_after (b : Book) (c : Command) : ∃ (p : EndpointId → Bool) (new : List EndpointId),
    (b.after c).ids = b.ids.filter p ++ new ∧ ∀ i ∈ new, i ∉ b.ids := by
  have unchanged {b' : Book} (same : b'.ids = b.ids) :
      ∃ (p : EndpointId → Bool) (new : List EndpointId),
        b'.ids = b.ids.filter p ++ new ∧ ∀ i ∈ new, i ∉ b.ids :=
    ⟨fun _ => true, [], by simp [same], by simp⟩
  cases c with
  | insert e =>
    by_cases taken : e.id ∈ b.ids
    · exact unchanged (by simp [after, obey, insert, taken, Except.map])
    · refine ⟨fun _ => true, [e.id], ?_, by simpa using taken⟩
      simp only [after, obey, insert, taken, Except.map]
      simp [ids]
  | update e => exact unchanged (b.ids_update e)
  | setDefault id =>
    refine unchanged ?_
    by_cases held : id ∈ b.ids
    · simp only [after, obey, setDefault, held]
      rfl
    · simp [after, obey, setDefault, held]
  | delete id => exact ⟨(· ≠ id), [], (b.ids_delete id).trans (List.append_nil _).symm, by simp⟩
  | seed es =>
    by_cases empty : b.records = []
    · refine ⟨fun _ => true, (accepted es).map (·.id), ?_, by simp [ids, empty]⟩
      simp [after, obey, seed, empty, ids]
    · exact unchanged (by simp [after, obey, seed, empty])

end Book

/-- The registry is its book's, and its rows have been stamped in their order. -/
structure Stamped.Keeps (clock : Nat → Nat) (b : Book) (x : Stamped) : Prop where
  registry : x.registry = b.registry
  ids : x.stamps.ids = b.ids
  timely : x.stamps.Timely (clock x.read)

theorem Stamped.Keeps.after {clock : Nat → Nat} (forwards : Monotone clock) {b : Book}
    {x : Stamped} (keeps : x.Keeps clock b) (c : Command) :
    (x.after clock c).Keeps clock (b.after c) := by
  have registry : x.registry.after c = (b.after c).registry := by
    rw [keeps.registry, Book.after_registry]
  refine ⟨registry, ?_, keeps.timely.follow forwards _⟩
  obtain ⟨p, new, ids, fresh⟩ := b.ids_after c
  show Stamps.ids (x.stamps.follow clock x.read (x.registry.after c).ids) = _
  rw [registry, Book.ids_registry, ids, ← keeps.ids]
  exact Stamps.ids_follow p (keeps.ids ▸ fresh)

theorem Stamped.Keeps.foldl_after {clock : Nat → Nat} (forwards : Monotone clock) {b : Book}
    {x : Stamped} (keeps : x.Keeps clock b) (calls : List Command) :
    (calls.foldl (Stamped.after clock) x).Keeps clock (calls.foldl Book.after b) := by
  induction calls generalizing b x with
  | nil => exact keeps
  | cons c calls ih => exact ih (keeps.after forwards c)

/-- What can be looked up in a registry is as in a book. -/
structure Registry.LooksUp (r : Registry) (b : Book) : Prop where
  get : ∀ id, r.get id = .ok (b.get? id)
  getDefault : r.getDefault = .ok b.default?
  count : r.count = .ok b.count

namespace Book

theorem looksUp_registry (b : Book) : b.registry.LooksUp b :=
  ⟨b.get_registry, b.getDefault_registry, b.count_registry⟩

theorem row_eq_of_id (b : Book) {x y : Row} (hx : x ∈ b.records.map (row b.chosen?))
    (hy : y ∈ b.records.map (row b.chosen?)) (same : x.id = y.id) : x = y := by
  have nodup : ((b.records.map (row b.chosen?)).map (·.id)).Nodup := by
    rw [List.map_map]
    exact b.nodup
  exact List.inj_on_of_nodup_map nodup hx hy same

theorem row_id_of_flag (b : Book) {x : Row} (hx : x ∈ b.records.map (row b.chosen?))
    (flagged : x.flag = 1) : b.chosen? = some x.id := by
  obtain ⟨e, -, rfl⟩ := List.mem_map.mp hx
  have flagged : (if b.chosen? = some e.id then (1 : Int) else 0) = 1 := flagged
  by_contra other
  simp [show ¬ b.chosen? = some e.id from other] at flagged

/-- Looking up does not depend on the order of the rows. -/
theorem looksUp_of_perm (b : Book) {table : List Row}
    (perm : table.Perm (b.records.map (row b.chosen?))) : Registry.LooksUp ⟨some table⟩ b where
  get id := by
    have found := List.find?_eq_find?_of_perm (p := fun row => decide (row.id = id)) perm
      fun x hx y hy => b.row_eq_of_id (perm.subset hx.1) (perm.subset hy.1)
        ((of_decide_eq_true hx.2).trans (of_decide_eq_true hy.2).symm)
    rw [← b.get_registry, registry, Registry.get_rows, Registry.get_rows, found]
  getDefault := by
    have found := List.find?_eq_find?_of_perm (p := fun row => decide (row.flag = 1)) perm
      fun x hx y hy => b.row_eq_of_id (perm.subset hx.1) (perm.subset hy.1)
        (Option.some.inj ((b.row_id_of_flag (perm.subset hx.1) (of_decide_eq_true hx.2)).symm.trans
          (b.row_id_of_flag (perm.subset hy.1) (of_decide_eq_true hy.2))))
    rw [← b.getDefault_registry, registry, Registry.getDefault_rows, Registry.getDefault_rows,
      found]
  count := by
    rw [← b.count_registry]
    show Except.ok table.length = .ok (b.records.map (row b.chosen?)).length
    rw [perm.length_eq]

end Book

/-- After any calls from the empty table, every call and everything that is looked up or listed is
answered as the book of these calls does: its records come in the order of their registration, and
at most one of them is the default. The table itself may have its rows in any order. Looking up does
not depend on it, and listing by the stamps gives the same list, if the clock does not run
backwards. -/
theorem answers_as_book (clock : Nat → Nat) (calls : List Command) :
    let x := calls.foldl (Stamped.after clock) .empty
    let b := calls.foldl Book.after .empty
    (∀ c, (x.registry.obey c).map (·.1) = (b.obey c).map (·.1)) ∧
    x.registry.list = .ok b.list ∧ x.registry.LooksUp b ∧
    b.list.filter (·.isDefault) = b.default?.toList ∧
    ∃ rows, x.registry.rows? = some rows ∧ ∀ table, table.Perm rows →
      Registry.LooksUp ⟨some table⟩ b ∧
      (Monotone clock → x.stamps.Sorts table → Registry.list ⟨some table⟩ = .ok b.list) := by
  intro x b
  have registry : x.registry = b.registry := by
    show (calls.foldl (Stamped.after clock) .empty).registry = _
    rw [Stamped.foldl_after_registry]
    exact Book.foldl_after_registry .empty _
  have alike (c : Command) : (x.registry.obey c).map (·.1) = (b.obey c).map (·.1) := by
    rw [registry, b.obey_registry]
    cases b.obey c <;> rfl
  rw [registry]
  refine ⟨registry ▸ alike, b.list_registry, b.looksUp_registry, b.filter_isDefault,
    _, rfl, fun table perm => ⟨b.looksUp_of_perm perm, fun forwards sorts => ?_⟩⟩
  have start : Stamped.empty.Keeps clock .empty := ⟨rfl, rfl, .nil, by simp [Stamped.empty]⟩
  have keeps := start.foldl_after forwards calls
  have held : Stamps.ids x.stamps = (b.records.map (Book.row b.chosen?)).map (·.id) := by
    rw [List.map_map]
    exact keeps.ids
  have nodup : ((b.records.map (Book.row b.chosen?)).map (·.id)).Nodup := by
    rw [List.map_map]
    exact b.nodup
  rw [(Stamps.eq_of_sorts keeps.timely held nodup perm sorts).2]
  exact b.list_registry

def claimant (id : EndpointId) : Endpoint where
  id := id
  name := "alias"
  provider := .openai
  model := ""
  apiBase := none
  apiKey := "key"
  isDefault := true

/-- Two endpoints are seeded while the clock goes on, and the default is deleted and comes back: it
is the last then, and not the default. -/
def returning : List Command :=
  [.seed [claimant "b", claimant "a"], .delete "a", .insert (claimant "a")]

theorem answers_as_book_returning :
    Registry.list ⟨some [Row.ofEndpoint (claimant "b"), Row.ofEndpoint (claimant "a")]⟩ =
      .ok [{ claimant "b" with isDefault := false }, { claimant "a" with isDefault := false }] := by
  obtain ⟨-, -, -, -, rows, held, arranged⟩ := answers_as_book id returning
  have rows : rows = [Row.ofEndpoint (claimant "b"), Row.ofEndpoint (claimant "a")] :=
    Option.some.inj (held.symm.trans rfl)
  refine ((arranged _ (.of_eq rows.symm)).2 monotone_id ?_).trans rfl
  unfold Stamps.Sorts
  decide +kernel

end EndpointHealth
