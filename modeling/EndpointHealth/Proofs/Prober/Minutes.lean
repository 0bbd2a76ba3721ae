import EndpointHealth.Proofs.Prober.Numbering
set_option autoImplicit false

/-!
The minutes of a run: which sequence has made which attempt, and which sequence, if any, has put
what on record.

Main statements: whatever is asked of a prober, minutes of it can be kept (`kept_of_acts`), and
nothing is missing in them (`complete_of_kept`).
-/

namespace EndpointHealth.Prober

open History

variable {ε : Type}

/-! ### Minutes -/

/-- Carries out a task, with all that is to follow put on the agenda. -/
def carryOut (p : Prober ε) : Task → World ε → World ε
  | .attempt s left => p.launch s left
  | .close s left c => p.settle s left c
  | .conclude t c => p.closeTest t c

def Task.event? : Task → Option Event
  | .attempt _ _ => none
  | .close s left c => Event.ofClose? s left c
  | .conclude t c => some (Event.ofTest t c)

/-- The attempt of a sequence that is made by carrying out a task. -/
def tries (p : Prober ε) (w : World ε) : Task → List (Sequence × Course)
  | .attempt s _ => [(s, (p.call (p.policy.probeRequest s.endpoint) w).1)]
  | .close _ _ _ | .conclude _ _ => []

/-- Who has made which attempts, and who has put what on record. -/
structure Minutes where
  attempts : List (Sequence × Course)
  /-- Nobody is named for what is not from a sequence. -/
  notices : List (Option Sequence × Notice)

namespace Minutes

def add (m : Minutes) (attempts : List (Sequence × Course)) (who : Option Sequence)
    (notices : List Notice) : Minutes :=
  ⟨m.attempts ++ attempts, m.notices ++ notices.map (who, ·)⟩

def attemptsOf (m : Minutes) (s : Sequence) : List Course :=
  (m.attempts.filter (·.1 = s)).map (·.2)

/-- What a sequence has put on record. -/
def saidBy (m : Minutes) (s : Sequence) : List Notice :=
  (m.notices.filter (·.1 = some s)).map (·.2)

theorem attemptsOf_add (m : Minutes) (s : Sequence) (xs : List (Sequence × Course))
    (who : Option Sequence) (ns : List Notice) :
    (m.add xs who ns).attemptsOf s = m.attemptsOf s ++ (xs.filter (·.1 = s)).map (·.2) := by
  simp [attemptsOf, add]

theorem saidBy_add (m : Minutes) {s : Sequence} {who : Option Sequence} (own : who = some s)
    (xs : List (Sequence × Course)) (ns : List Notice) :
    (m.add xs who ns).saidBy s = m.saidBy s ++ ns := by
  simp [saidBy, add, List.filter_map, Function.comp_def, own]

theorem saidBy_add_other (m : Minutes) {s : Sequence} {who : Option Sequence} (other : who ≠ some s)
    (xs : List (Sequence × Course)) (ns : List Notice) :
    (m.add xs who ns).saidBy s = m.saidBy s := by
  simp [saidBy, add, List.filter_map, Function.comp_def, other]

end Minutes

/-- Minutes are kept of a run, with its history: what is new on record when a task is carried out
is from the sequence whose task it is. -/
inductive Kept (p : Prober ε) : History → Minutes → World ε → Prop
  | start (env : ε) : Kept p [] ⟨[], []⟩ (.start env)
  | task {h : History} {m : Minutes} {w : World ε} {a b : List Entry} {due : Nat} {t : Task}
      (before : Kept p h m w) (taken : w.agenda = a ++ ⟨due, t⟩ :: b) :
      Kept p (t.event?.toList ++ h)
        (m.add (p.tries { w with agenda := a ++ b } t) t.sequence?
          ((p.carryOut t { w with agenda := a ++ b }).notices.drop w.notices.length))
        (p.carryOut t { w with agenda := a ++ b })
  | tick {h : History} {m : Minutes} {w : World ε} (before : Kept p h m w) (time : Nat) :
      Kept p h m { w with now := time }
  | aside {h : History} {m : Minutes} {w : World ε} (before : Kept p h m w) (env : ε)
      (more : List Notice) :
      Kept p h (m.add [] none more) { w with env := env, notices := w.notices ++ more }
  | begin {h : History} {m : Minutes} {w : World ε} (before : Kept p h m w) (id : EndpointId) :
      Kept p (.begun ⟨id, w.ledger.next⟩ :: h) m (p.probe id w)
  | forget {h : History} {m : Minutes} {w : World ε} (before : Kept p h m w) (id : EndpointId) :
      Kept p (.forgotten id :: h) m (p.forget id w)
  | beginTest {h : History} {m : Minutes} {w : World ε} (before : Kept p h m w) (id : EndpointId)
      (message : String) :
      Kept p (.testBegun ⟨id, w.ledger.next⟩ :: h) m (p.launchTest id message w)

theorem work_carryOut (p : Prober ε) {w : World ε} {a b : List Entry} {due : Nat} {t : Task}
    (taken : w.agenda = a ++ ⟨due, t⟩ :: b) :
    p.Work w t.event? (p.carryOut t { w with agenda := a ++ b }) := by
  cases t with
  | attempt s left => exact .attempt taken
  | close s left c => exact .close taken
  | conclude t c => exact .conclude taken

theorem run_of_kept {p : Prober ε} {h : History} {m : Minutes} {w : World ε}
    (kept : p.Kept h m w) : p.Run h w := by
  induction kept with
  | start env => exact ⟨env, .refl⟩
  | task _ taken ih => exact ih.step (.work (p.work_carryOut taken))
  | tick _ time ih => exact ih.step (.work (.tick time))
  | aside _ env more ih => exact ih.step (.aside env _)
  | begin _ id ih => exact ih.step (.begin id)
  | forget _ id ih => exact ih.step (.forget id)
  | beginTest _ id message ih => exact ih.step (.beginTest id message)

/-! ### Minutes can be kept of everything -/

/-- Minutes of some history are kept of the way to a world. -/
def Minuted (p : Prober ε) (w : World ε) : Prop := ∃ h m, p.Kept h m w

theorem minuted_of_work {p : Prober ε} {w v : World ε} {e : Option Event} (minuted : p.Minuted w)
    (work : p.Work w e v) : p.Minuted v := by
  obtain ⟨h, m, kept⟩ := minuted
  cases work with
  | tick time => exact ⟨_, _, kept.tick time⟩
  | attempt taken => exact ⟨_, _, kept.task taken⟩
  | close taken => exact ⟨_, _, kept.task taken⟩
  | conclude taken => exact ⟨_, _, kept.task taken⟩

theorem minuted_of_proceeds {p : Prober ε} {w v : World ε} (minuted : p.Minuted w)
    (proceeds : p.Proceeds w v) : p.Minuted v := by
  induction proceeds with
  | refl => exact minuted
  | work _ next ih => exact minuted_of_work ih next

theorem minuted_probe {p : Prober ε} {w : World ε} (minuted : p.Minuted w) (id : EndpointId) :
    p.Minuted (p.probe id w) := by
  obtain ⟨h, m, kept⟩ := minuted
  exact ⟨_, _, kept.begin id⟩

theorem minuted_observeOne {p : Prober ε} {w : World ε} (minuted : p.Minuted w)
    (id : EndpointId) : p.Minuted (p.observeOne id w) := by
  unfold observeOne
  split
  · exact minuted_probe minuted id
  · exact minuted

theorem minuted_observe {p : Prober ε} {w : World ε} (minuted : p.Minuted w)
    (ids : List EndpointId) : p.Minuted (p.observe ids w) := by
  have begun : p.Minuted (ids.foldl (fun w id => p.observeOne id w) w) := by
    induction ids generalizing w with
    | nil => exact minuted
    | cons id ids ih => exact ih (minuted_observeOne minuted id)
  unfold observe
  dsimp only
  split
  · exact begun
  · obtain ⟨h, m, kept⟩ := begun
    exact ⟨_, _, kept.aside _ [.probesStarted _]⟩

theorem minuted_act {p : Prober ε} {w : World ε} (minuted : p.Minuted w) (x : Act) :
    p.Minuted (p.act x w) := by
  cases x with
  | probe id => exact minuted_probe minuted id
  | probeNow id =>
    exact minuted_of_proceeds (minuted_probe minuted id) (p.probeNow_proceeds id w)
  | observe ids => exact minuted_observe minuted ids
  | forget id =>
    obtain ⟨h, m, kept⟩ := minuted
    exact ⟨_, _, kept.forget id⟩
  | test id message =>
    obtain ⟨h, m, kept⟩ := minuted
    exact minuted_of_proceeds ⟨_, _, kept.beginTest id message⟩ (p.test_proceeds id message w)
  | advance ms => exact minuted_of_proceeds minuted (p.advance_proceeds ms w)
  | await number => exact minuted_of_proceeds minuted (p.await_proceeds number w)

theorem kept_of_acts (p : Prober ε) (env : ε) (xs : List Act) :
    ∃ h m, p.Kept h m (xs.foldl (fun w x => p.act x w) (.start env)) := by
  suffices ∀ w, p.Minuted w → p.Minuted (xs.foldl (fun w x => p.act x w) w) from
    this _ ⟨_, _, .start env⟩
  induction xs with
  | nil => exact fun w minuted => minuted
  | cons x xs ih => exact fun w minuted => ih _ (minuted_act minuted x)

/-! ### What is said when an attempt is closed -/

def Course.Failed (c : Course) : Prop := ∃ why, c.outcome = .failed why

def line (p : Prober ε) (s : Sequence) (number : Nat) (c : Course) : List Notice :=
  match c.outcome with
  | .passed _ => [.attemptPassed s.endpoint number p.attempts]
  | .failed why => [.attemptFailed s.endpoint number p.attempts why]
  | .crashed => []

/-- All that a sequence says about its attempts, each with what the tester has said before. -/
def report (p : Prober ε) (s : Sequence) (cs : List Course) : List Notice :=
  (cs.zipIdx 1).flatMap fun (c, number) => c.notices ++ p.line s number c

def verdict (p : Prober ε) (l : Ledger) (s : Sequence) (outcome : Status) : List Notice :=
  if l.isCurrent s.endpoint s.number then
    if outcome = .failure then [.sequenceFailed s.endpoint p.policy.maxAttempts.toNat] else []
  else [.staleDiscarded s.endpoint outcome s.number]

@[simp] theorem report_nil (p : Prober ε) (s : Sequence) : p.report s [] = [] := rfl

theorem report_snoc (p : Prober ε) (s : Sequence) (cs : List Course) (c : Course) :
    p.report s (cs ++ [c]) = p.report s cs ++ (c.notices ++ p.line s (cs.length + 1) c) := by
  simp [report, List.zipIdx_append, Nat.add_comm]

section
variable (p : Prober ε) (s : Sequence) (left : Nat) {c : Course} (w : World ε)

theorem settle_passed {text : String} (passed : c.outcome = .passed text) :
    Event.ofClose? s left c = some (.ended s .success) ∧
    (p.settle s left c w).agenda = w.agenda ∧
    (p.settle s left c w).notices = w.notices ++ (c.notices ++ p.line s (p.attempts - left) c ++
      p.verdict w.ledger s .success) := by
  unfold Event.ofClose? settle closeWith line
  rw [passed]
  refine ⟨rfl, rfl, ?_⟩
  simp only [← List.append_assoc]
  rfl

theorem settle_broken (broken : c.outcome = .crashed) :
    Event.ofClose? s left c = some (.broken s) ∧ (p.settle s left c w).agenda = w.agenda ∧
    (p.settle s left c w).notices = w.notices ++ (c.notices ++ p.line s (p.attempts - left) c) := by
  unfold Event.ofClose? settle closeWith line
  rw [broken]
  refine ⟨rfl, rfl, ?_⟩
  rw [List.append_nil]
  rfl

theorem settle_last {why : AttemptFailure} (failed : c.outcome = .failed why) :
    Event.ofClose? s 0 c = some (.ended s .failure) ∧ (p.settle s 0 c w).agenda = w.agenda ∧
    (p.settle s 0 c w).notices = w.notices ++ (c.notices ++ p.line s p.attempts c ++
      p.verdict w.ledger s .failure) := by
  unfold Event.ofClose? settle closeWith line
  rw [failed]
  refine ⟨rfl, rfl, ?_⟩
  simp only [← List.append_assoc]
  rfl

theorem settle_retry {why : AttemptFailure} (failed : c.outcome = .failed why) :
    Event.ofClose? s (left + 1) c = none ∧
    (∃ due, (p.settle s (left + 1) c w).agenda = schedule ⟨due, .attempt s left⟩ w.agenda) ∧
    (p.settle s (left + 1) c w).notices =
      w.notices ++ (c.notices ++ p.line s (p.attempts - (left + 1)) c) := by
  unfold Event.ofClose? settle closeWith line
  rw [failed]
  dsimp only
  rw [if_neg (Nat.succ_ne_zero left), if_neg (Nat.succ_ne_zero left), ← List.append_assoc]
  split
  · exact ⟨rfl, ⟨_, rfl⟩, rfl⟩
  · exact ⟨rfl, ⟨_, rfl⟩, rfl⟩

end

/-! ### Minutes are complete -/

theorem notices_carryOut (p : Prober ε) (t : Task) (w : World ε) :
    ∃ said, (p.carryOut t w).notices = w.notices ++ said := by
  cases t with
  | attempt s left => exact ⟨[], (List.append_nil _).symm⟩
  | close s left c =>
    show ∃ said, (p.settle s left c w).notices = _
    cases outcome : c.outcome with
    | passed text => exact ⟨_, (p.settle_passed s left w outcome).2.2⟩
    | crashed => exact ⟨_, (p.settle_broken s left w outcome).2.2⟩
    | failed why =>
      cases left with
      | zero => exact ⟨_, (p.settle_last s w outcome).2.2⟩
      | succ left => exact ⟨_, (p.settle_retry s left w outcome).2.2⟩
  | conclude t c =>
    show ∃ said, (p.closeTest t c w).notices = _
    unfold closeTest
    cases c.outcome with
    | passed text => exact ⟨_, List.append_assoc ..⟩
    | crashed => exact ⟨_, rfl⟩
    | failed why =>
      cases why with
      | rejected text => exact ⟨_, List.append_assoc ..⟩
      | failed why => exact ⟨_, rfl⟩
      | timedOut timeout => exact ⟨_, rfl⟩

theorem calls_carryOut (p : Prober ε) (t : Task) (w : World ε) :
    (p.carryOut t w).calls.length = w.calls.length + (p.tries w t).length := by
  cases t with
  | attempt s left => exact List.length_append
  | close s left c =>
    show (p.settle s left c w).calls.length = _
    unfold settle closeWith
    cases c.outcome with
    | passed text => rfl
    | crashed => rfl
    | failed why =>
      dsimp only
      split
      · rfl
      · split <;> rfl
  | conclude t c =>
    show (p.closeTest t c w).calls.length = _
    unfold closeTest
    cases c.outcome with
    | passed text => rfl
    | crashed => rfl
    | failed why => cases why <;> rfl

def Event.startsTest : Event → Bool
  | .testBegun _ => true
  | _ => false

theorem not_startsTest_of_isEnd {e : Event} (ends : e.isEnd = true) : ¬ e.startsTest = true := by
  cases e with
  | testBegun t => cases ends
  | _ => exact Bool.false_ne_true

theorem Minutes.notices_add (m : Minutes) (xs : List (Sequence × Course)) (who : Option Sequence)
    (ns : List Notice) : (m.add xs who ns).notices.map (·.2) = m.notices.map (·.2) ++ ns := by
  simp [add, Function.comp_def]

/-- Everything on record is in the minutes, and every call that no manual test has made. -/
theorem complete_of_kept {p : Prober ε} {h : History} {m : Minutes} {w : World ε}
    (kept : p.Kept h m w) :
    m.notices.map (·.2) = w.notices ∧
    w.calls.length = m.attempts.length + h.countP Event.startsTest := by
  induction kept with
  | start env => exact ⟨rfl, rfl⟩
  | task before taken ih =>
    rename_i h m w a b due t
    obtain ⟨said, grown⟩ := p.notices_carryOut t { w with agenda := a ++ b }
    have quiet : t.event?.toList.countP Event.startsTest = 0 :=
      List.countP_eq_zero.mpr fun e he =>
        not_startsTest_of_isEnd (isEnd_of_work (Option.mem_toList.mp he ▸ p.work_carryOut taken))
    refine ⟨?_, ?_⟩
    · rw [grown, List.drop_left, Minutes.notices_add, ih.1]
    · rw [p.calls_carryOut, List.countP_append, quiet, Nat.zero_add]
      show w.calls.length + _ = (m.attempts ++ _).length + _
      rw [ih.2, List.length_append, Nat.add_right_comm]
  | tick _ time ih => exact ih
  | aside _ env more ih =>
    refine ⟨?_, ?_⟩
    · rw [Minutes.notices_add, ih.1]
    · simpa [Minutes.add] using ih.2
  | begin _ id ih =>
    rw [List.countP_cons_of_neg (p := Event.startsTest) (by simp [Event.startsTest])]
    exact ih
  | forget _ id ih =>
    rw [List.countP_cons_of_neg (p := Event.startsTest) (by simp [Event.startsTest])]
    exact ih
  | beginTest _ id message ih =>
    refine ⟨ih.1, ?_⟩
    show (_ ++ [_]).length = _
    rw [List.length_append, List.length_singleton, ih.2,
      List.countP_cons_of_pos (p := Event.startsTest) rfl, Nat.add_assoc]

end EndpointHealth.Prober
