import Mathlib.Data.List.Induction
import EndpointHealth.Proofs.Prober.Echoes
set_option autoImplicit false

/-!
The journal of a prober: the calls that it makes, each with its reply and with the number of the
sequence or manual test that makes it.

Main statements: every call of a run is in its journal, in the order in which they are made
(`journal_records`), and nobody makes a call before its number has been given out
(`journal_claimed`).
-/

namespace EndpointHealth.Prober

variable {ε : Type}

/-- What the tester is asked and replies on the way from one world to another. -/
def conversation (p : Prober ε) (w v : World ε) : List Exchange :=
  p.exchanges w.env (v.calls.drop w.calls.length)

abbrev Journal := List (Nat × Exchange)

namespace Journal

def under (number : Nat) (xs : List Exchange) : Journal := xs.map (number, ·)

def own (number : Nat) (j : Journal) : List Exchange :=
  (j.filter (·.1 = number)).map (·.2)

@[simp] theorem own_nil (number : Nat) : own number [] = [] := rfl

theorem own_append (number : Nat) (j k : Journal) :
    own number (j ++ k) = own number j ++ own number k := by
  simp [own]

theorem own_under (number : Nat) (xs : List Exchange) : own number (under number xs) = xs := by
  simp [own, under, List.filter_map, Function.comp_def]

theorem own_under_other {number other : Nat} (h : other ≠ number) (xs : List Exchange) :
    own number (under other xs) = [] := by
  simp [own, under, h]

theorem own_eq_nil {number : Nat} {j : Journal} (h : ∀ a ∈ j, a.1 ≠ number) :
    own number j = [] := by
  simpa [own] using fun n x hx => h (n, x) hx

end Journal

open Journal

/-! ### Journals -/

/-- The journal until a time, of what is on the agenda and what follows from it. -/
def journalUntil (p : Prober ε) (time : Nat) (w : World ε) : Journal :=
  match _h : w.agenda with
  | [] => []
  | e :: rest =>
    if e.due ≤ time then
      let v := p.perform e { w with agenda := rest }
      under e.task.number (p.conversation w v) ++ p.journalUntil time v
    else []
termination_by weight w.agenda
decreasing_by
  rw [_h]
  exact p.weight_perform e { w with agenda := rest }

/-- The journal of an act. Waiting for the end of something is letting time pass. -/
def journalOf (p : Prober ε) (w : World ε) : Act → Journal
  | .probe _ | .observe _ | .forget _ => []
  | .probeNow id => under w.ledger.next (p.conversation w (p.probeNow id w))
  | .test id message => under w.ledger.next (p.conversation w (p.test id message w))
  | .advance ms => p.journalUntil (w.now + ms) w
  | .await number =>
    if (w.result? number).isSome then [] else p.journalUntil (p.await number w).now w

def journal (p : Prober ε) : List Act → World ε → Journal
  | [], _ => []
  | x :: xs, w => p.journalOf w x ++ p.journal xs (p.act x w)

theorem journal_append (p : Prober ε) (xs ys : List Act) (w : World ε) :
    p.journal (xs ++ ys) w = p.journal xs w ++ p.journal ys (p.follow xs w) := by
  induction xs generalizing w with
  | nil => rfl
  | cons x xs ih =>
    simp only [List.cons_append, journal, ih, List.append_assoc]
    rfl

theorem conversation_of_asks {p : Prober ε} {w v : World ε} {cs : List Call}
    (asks : p.Asks w cs v) : p.conversation w v = p.exchanges w.env cs := by
  rw [conversation, asks.calls, List.drop_left]

theorem journalUntil_due {p : Prober ε} {w : World ε} {e : Entry} {rest : List Entry} {time : Nat}
    (h : w.agenda = e :: rest) (due : e.due ≤ time) :
    p.journalUntil time w =
      under e.task.number (p.conversation w (p.perform e { w with agenda := rest })) ++
        p.journalUntil time (p.perform e { w with agenda := rest }) := by
  rw [journalUntil.eq_def p time w]
  split
  · simp_all
  · rename_i h'
    rw [h] at h'
    cases h'
    rw [if_pos due]

theorem journalUntil_stands {p : Prober ε} {w : World ε} {time : Nat}
    (late : ∀ e ∈ w.agenda.head?, time < e.due) : p.journalUntil time w = [] := by
  rw [journalUntil.eq_def]
  split
  · rfl
  · rename_i e rest h
    rw [if_neg (Nat.not_le_of_lt (late e (by simp [h])))]

/-! ### Every call is in the journal -/

/-- Between two worlds the calls of a journal have been made, with the replies that it says. -/
structure Records (p : Prober ε) (w : World ε) (j : Journal) (v : World ε) : Prop where
  asks : p.Asks w (j.map (·.2.call)) v
  replies : p.Repeats w.env (j.map (·.2))

namespace Records

variable {p : Prober ε} {w v u : World ε} {j k : Journal} {cs : List Call}

theorem refl (p : Prober ε) (w : World ε) : p.Records w [] w := ⟨.refl p w, rfl⟩

theorem trans (first : p.Records w j v) (second : p.Records v k u) : p.Records w (j ++ k) u := by
  refine ⟨?_, ?_⟩
  · rw [List.map_append]
    exact first.asks.trans second.asks
  · rw [List.map_append]
    refine repeats_append.mpr ⟨first.replies, ?_⟩
    rw [List.map_map]
    exact first.asks.env ▸ second.replies

theorem under (number : Nat) (asks : p.Asks w cs v) :
    p.Records w (Journal.under number (p.conversation w v)) v := by
  have replies : (Journal.under number (p.conversation w v)).map (·.2) = p.exchanges w.env cs := by
    simp [Journal.under, conversation_of_asks asks, Function.comp_def]
  have calls : (Journal.under number (p.conversation w v)).map (·.2.call) = cs := by
    rw [← p.calls_exchanges w.env cs, ← replies, List.map_map]
    rfl
  refine ⟨calls.symm ▸ asks, ?_⟩
  rw [Repeats, replies, calls_exchanges]

end Records

theorem asks_perform (p : Prober ε) (e : Entry) (rest : List Entry) (w : World ε) :
    ∃ cs, p.Asks w cs (p.perform e { w with agenda := rest }) := by
  obtain ⟨due, task⟩ := e
  cases task with
  | attempt s left =>
    obtain ⟨cs, x, asks, -⟩ := attempt_turn (p := p) (q := p) (s := s) rfl left
      { w with now := max w.now due, agenda := rest }
    exact ⟨cs, asks.calls, asks.env⟩
  | close s left c =>
    obtain ⟨cs, x, asks, -⟩ := close_turn (p := p) (q := p) (s := s) rfl left c
      { w with now := max w.now due, agenda := rest }
    exact ⟨cs, asks.calls, asks.env⟩
  | conclude t c =>
    have asks := (p.closeTest_docket t c { w with now := max w.now due, agenda := rest }).2
    exact ⟨[], asks.calls, asks.env⟩

theorem runUntil_records (p : Prober ε) (time : Nat) (w : World ε) :
    p.Records w (p.journalUntil time w) (p.runUntil time w) := by
  fun_induction runUntil p time w with
  | case1 w h =>
    rw [journalUntil_stands (by simp [h])]
    exact .refl p w
  | case2 w e rest h due ih =>
    obtain ⟨cs, asks⟩ := p.asks_perform e rest w
    rw [journalUntil_due h due]
    exact (Records.under e.task.number asks).trans ih
  | case3 w e rest h due =>
    rw [journalUntil_stands (by simpa [h] using due)]
    exact .refl p w

theorem act_records (p : Prober ε) (x : Act) {w : World ε} (timely : w.docket.Timely) :
    p.Records w (p.journalOf w x) (p.act x w) := by
  have silent {v : World ε} (calls : v.calls = w.calls) (env : v.env = w.env) :
      p.Records w [] v := ⟨⟨by simp [calls], env⟩, rfl⟩
  cases x with
  | probe id => exact silent rfl rfl
  | probeNow id =>
    obtain ⟨cs, x, asks, -⟩ := attempt_turn (p := p) (q := p) (s := ⟨id, w.ledger.next⟩) rfl
      (p.attempts - 1) { w with ledger := w.ledger.start id }
    exact .under w.ledger.next ⟨asks.calls, asks.env⟩
  | observe ids =>
    have asks := p.asks_observe ids w
    exact ⟨asks, rfl⟩
  | forget id => exact silent rfl rfl
  | test id message => exact .under w.ledger.next (p.test_docket id message w).1
  | advance ms =>
    obtain ⟨asks, replies⟩ := p.runUntil_records (w.now + ms) w
    exact ⟨⟨asks.calls, asks.env⟩, replies⟩
  | await number =>
    show p.Records w (if _ then [] else _) (p.await number w)
    split
    · rename_i ended
      rw [await_stands (.inl ended)]
      exact .refl p w
    · rename_i running
      have same := (p.await_eq_runUntil number w timely (by simpa using running)).2
      have records := p.runUntil_records (p.await number w).now w
      rwa [← same] at records

theorem journal_records (p : Prober ε) (env : ε) (xs : List Act) :
    p.Records (.start env) (p.journal xs (.start env)) (p.follow xs (.start env)) := by
  induction xs using List.reverseRecOn with
  | nil => exact .refl p _
  | append_singleton xs x ih =>
    rw [journal_append, follow_append, journal, journal, List.append_nil]
    exact ih.trans (p.act_records x (p.timely_follow xs env))

/-! ### Numbers in the journal -/

theorem claimed_of_steps {p : Prober ε} {w v : World ε} {h : History} (steps : p.Steps w h v) :
    w.ledger.claimed ≤ v.ledger.claimed := by
  induction steps with
  | refl => exact Nat.le_refl _
  | step _ next ih =>
    rename_i e _
    rw [ledger_of_step next]
    cases e with
    | none => exact ih
    | some e => exact Nat.le_trans ih (History.claimed_le_after _ e)

theorem claimed_of_proceeds {p : Prober ε} {w v : World ε} (proceeds : p.Proceeds w v) :
    w.ledger.claimed ≤ v.ledger.claimed := by
  obtain ⟨h, -, steps⟩ := proceeds.steps
  exact claimed_of_steps steps

theorem claimed_act (p : Prober ε) (x : Act) (w : World ε) :
    w.ledger.claimed ≤ (p.act x w).ledger.claimed := by
  obtain ⟨h, steps⟩ := p.act_steps x w
  exact claimed_of_steps steps

theorem Run.proceeds {p : Prober ε} {w v : World ε} (run : ∃ h, p.Run h w)
    (proceeds : p.Proceeds w v) : ∃ h, p.Run h v := by
  obtain ⟨h, env, steps⟩ := run
  obtain ⟨h', -, steps'⟩ := proceeds.steps
  exact ⟨h' ++ h, env, steps.trans steps'⟩

theorem journalUntil_claimed (p : Prober ε) (time : Nat) {w : World ε} (run : ∃ h, p.Run h w) :
    ∀ a ∈ p.journalUntil time w, a.1 ≤ (p.runUntil time w).ledger.claimed := by
  fun_induction runUntil p time w with
  | case1 w h =>
    rw [journalUntil_stands (by simp [h])]
    simp
  | case2 w e rest h due ih =>
    have proceeds := p.perform_proceeds (a := []) h
    rw [journalUntil_due h due]
    intro a ha
    rcases List.mem_append.mp ha with ha | ha
    · obtain ⟨x, -, rfl⟩ := List.mem_map.mp ha
      obtain ⟨_, run'⟩ := run
      have given := (numbered_of_run run').le e.task.number
        (Docket.number_mem_agenda (d := w.docket) (by simp [World.docket, h]))
      exact Nat.le_trans given (Nat.le_trans (claimed_of_proceeds proceeds)
        (claimed_of_proceeds (p.runUntil_proceeds time _)))
    · exact ih (Run.proceeds run proceeds) a ha
  | case3 w e rest h due =>
    rw [journalUntil_stands (by simpa [h] using due)]
    simp

theorem journalOf_claimed (p : Prober ε) (x : Act) {w : World ε} (timely : w.docket.Timely)
    (run : ∃ h, p.Run h w) : ∀ a ∈ p.journalOf w x, a.1 ≤ (p.act x w).ledger.claimed := by
  have next {xs : List Exchange} (h : w.ledger.next ≤ (p.act x w).ledger.claimed) :
      ∀ a ∈ under w.ledger.next xs, a.1 ≤ (p.act x w).ledger.claimed := fun a ha => by
    obtain ⟨x, -, rfl⟩ := List.mem_map.mp ha
    exact h
  cases x with
  | probe id => simp [journalOf]
  | probeNow id =>
    exact next (claimed_of_proceeds (p.probeNow_proceeds id w))
  | observe ids => simp [journalOf]
  | forget id => simp [journalOf]
  | test id message =>
    exact next (claimed_of_proceeds (p.test_proceeds id message w))
  | advance ms => exact p.journalUntil_claimed _ run
  | await number =>
    unfold act journalOf
    dsimp only
    split
    · simp
    · rename_i running
      have same := (p.await_eq_runUntil number w timely (by simpa using running)).2
      have claimed := p.journalUntil_claimed (p.await number w).now run
      rwa [← same] at claimed

theorem journal_claimed (p : Prober ε) (env : ε) (xs : List Act) :
    ∀ a ∈ p.journal xs (.start env), a.1 ≤ (p.follow xs (.start env)).ledger.claimed := by
  induction xs using List.reverseRecOn with
  | nil => simp [journal]
  | append_singleton xs x ih =>
    rw [journal_append, follow_append, journal, journal, List.append_nil]
    intro a ha
    rcases List.mem_append.mp ha with ha | ha
    · exact Nat.le_trans (ih a ha) (p.claimed_act x _)
    · exact p.journalOf_claimed x (p.timely_follow xs env) (p.run_of_acts env xs) a ha

end EndpointHealth.Prober
