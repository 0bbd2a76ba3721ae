import EndpointHealth.Proofs.Prober.Minutes
set_option autoImplicit false

/-!
What probe sequences put on record about their attempts.

Main statement: a sequence puts on record each of its attempts as it is closed, numbered from one on
and out of as many as are made at most, and then, exactly if its failure is written to the ledger,
that all attempts have failed; the number that this last notice gives is that of the attempts made
unless the policy allows for none (`told_of_kept`).
-/

namespace EndpointHealth.Prober

open History

variable {ε : Type}

/-! ### Where a sequence stands -/

/-- The task of an entry, if it is one of a sequence. -/
def turn? (s : Sequence) (e : Entry) : Option Task :=
  if e.task.sequence? = some s then some e.task else none

def turns (s : Sequence) (es : List Entry) : List Task := es.filterMap (turn? s)

/-- Whether the failure of a sequence has been written, which it is only if the sequence was the
newest of its endpoint when it ended. -/
def History.failureWritten (s : Sequence) : History → Prop
  | [] => False
  | e :: h =>
    (e = .ended s .failure ∧ (ledger h).isCurrent s.endpoint s.number = true) ∨
      failureWritten s h

/-- What the last words of a sequence come to, if there are any. -/
structure LastWords (p : Prober ε) (s : Sequence) (h : History) (made : List Course)
    (last : List Notice) : Prop where
  written : failureWritten s h → last = [.sequenceFailed s.endpoint p.policy.maxAttempts.toNat] ∧
    (∀ c ∈ made, c.Failed) ∧ made.length = p.attempts
  unwritten : ¬ failureWritten s h → ∀ n ∈ last, n.level = .debug

/-- How far a sequence has come: what is on the agenda for it, the attempts that it has made and
what it has put on record. -/
inductive Stage (p : Prober ε) (s : Sequence) (h : History) :
    List Task → List Course → List Notice → Prop
  | ahead (new : .begun s ∉ h) (unwritten : ¬ failureWritten s h) : Stage p s h [] [] []
  | waiting {left : Nat} {made : List Course} (begun : .begun s ∈ h)
      (unwritten : ¬ failureWritten s h) (failed : ∀ c ∈ made, c.Failed)
      (count : made.length + left + 1 = p.attempts) :
      Stage p s h [.attempt s left] made (p.report s made)
  | asking {left : Nat} {made : List Course} {c : Course} (begun : .begun s ∈ h)
      (unwritten : ¬ failureWritten s h) (failed : ∀ c ∈ made, c.Failed)
      (count : made.length + left + 1 = p.attempts) :
      Stage p s h [.close s left c] (made ++ [c]) (p.report s made)
  | finished {made : List Course} {c : Course} {last : List Notice} (begun : .begun s ∈ h)
      (failed : ∀ c ∈ made, c.Failed) (few : made.length + 1 ≤ p.attempts)
      (concludes : p.LastWords s h (made ++ [c]) last) :
      Stage p s h [] (made ++ [c]) (p.report s (made ++ [c]) ++ last)

section
variable {p : Prober ε} {s : Sequence} {h : History} {xs ys : List Task} {made : List Course}
  {said : List Notice}

theorem failureWritten_cons {e : Event} (other : e ≠ .ended s .failure) :
    failureWritten s (e :: h) ↔ failureWritten s h := by
  simp [failureWritten, other]

theorem Stage.beside {e : Event} (stage : p.Stage s h xs made said)
    (started : e ≠ .begun s) (ended : e ≠ .ended s .failure) :
    p.Stage s (e :: h) xs made said := by
  have written := failureWritten_cons (h := h) ended
  cases stage with
  | ahead new unwritten =>
    refine .ahead ?_ (mt written.mp unwritten)
    rintro (_ | ⟨_, mem⟩)
    · exact started rfl
    · exact new mem
  | waiting begun unwritten failed count =>
    exact .waiting (.tail _ begun) (mt written.mp unwritten) failed count
  | asking begun unwritten failed count =>
    exact .asking (.tail _ begun) (mt written.mp unwritten) failed count
  | finished begun failed few concludes =>
    exact .finished (.tail _ begun) failed few
      ⟨fun h => concludes.written (written.mp h), fun h => concludes.unwritten (mt written.mpr h)⟩

theorem Stage.perm (stage : p.Stage s h xs made said) (perm : ys.Perm xs) :
    p.Stage s h ys made said := by
  have same : ys = xs := by
    cases stage with
    | ahead | finished => exact perm.eq_nil
    | waiting | asking => exact List.perm_singleton.mp perm
  exact same ▸ stage

theorem Stage.begin (stage : p.Stage s h xs made said) (new : .begun s ∉ h) :
    p.Stage s (.begun s :: h) (.attempt s (p.attempts - 1) :: xs) made said := by
  have some : 1 ≤ p.attempts := Nat.le_max_right _ _
  cases stage with
  | ahead _ unwritten =>
    have kept := mt (failureWritten_cons (s := s) (h := h) (e := .begun s) nofun).mp unwritten
    exact .waiting (.head _) kept (by simp) (by simp; omega)
  | waiting begun | asking begun | finished begun => exact absurd begun new

/-- Nothing else is on the agenda for a sequence. -/
theorem Stage.alone {t : Task} (stage : p.Stage s h (t :: xs) made said) : xs = [] := by
  cases stage with
  | waiting | asking => rfl

theorem Stage.attempt {left : Nat} (stage : p.Stage s h [.attempt s left] made said)
    (c : Course) : p.Stage s h [.close s left c] (made ++ [c]) said := by
  cases stage with
  | waiting begun unwritten failed count => exact .asking begun unwritten failed count

theorem Stage.asked {left : Nat} {c : Course}
    (stage : p.Stage s h [.close s left c] made said) :
    ∃ before, made = before ++ [c] ∧
      said ++ (c.notices ++ p.line s (p.attempts - left) c) = p.report s made ∧
      .begun s ∈ h ∧ ¬ failureWritten s h ∧ (∀ x ∈ before, x.Failed) ∧
      before.length + left + 1 = p.attempts := by
  cases stage with
  | asking begun unwritten failed count =>
    rename_i before
    have number : p.attempts - left = before.length + 1 := by omega
    exact ⟨before, rfl, by rw [report_snoc, number], begun, unwritten, failed, count⟩

theorem debug_of_verdict_success {l : Ledger} :
    ∀ n ∈ p.verdict l s .success, n.level = .debug := by
  unfold verdict
  split
  · simp
  · simp [Notice.level]

/-- The last words of a sequence that ends with its last failed attempt. -/
theorem concludes_failure (unwritten : ¬ failureWritten s h) (failed : ∀ c ∈ made, c.Failed)
    (all : made.length = p.attempts) :
    p.LastWords s (.ended s .failure :: h) made (p.verdict (ledger h) s .failure) := by
  have written : failureWritten s (.ended s .failure :: h) ↔
      (ledger h).isCurrent s.endpoint s.number = true := by simp [failureWritten, unwritten]
  constructor
  · intro newest
    unfold verdict
    rw [if_pos (written.mp newest), if_pos rfl]
    exact ⟨rfl, failed, all⟩
  · intro stale
    unfold verdict
    rw [if_neg (mt written.mpr stale)]
    simp [Notice.level]

end

/-! ### Agendas -/

section
variable {s : Sequence} {t : Task} (due : Nat)

theorem turns_middle_own (own : t.sequence? = some s) (a b : List Entry) :
    (turns s (a ++ ⟨due, t⟩ :: b)).Perm (t :: turns s (a ++ b)) := by
  have perm := filterMap_middle (turn? s) a b ⟨due, t⟩
  rwa [turn?, if_pos own] at perm

theorem turns_middle_other (other : t.sequence? ≠ some s) (a b : List Entry) :
    (turns s (a ++ ⟨due, t⟩ :: b)).Perm (turns s (a ++ b)) := by
  have perm := filterMap_middle (turn? s) a b ⟨due, t⟩
  rwa [turn?, if_neg other] at perm

theorem turns_schedule_own (own : t.sequence? = some s) (es : List Entry) :
    (turns s (schedule ⟨due, t⟩ es)).Perm (t :: turns s es) := by
  have perm := filterMap_schedule (turn? s) ⟨due, t⟩ es
  rwa [turn?, if_pos own] at perm

theorem turns_schedule_other (other : t.sequence? ≠ some s) (es : List Entry) :
    (turns s (schedule ⟨due, t⟩ es)).Perm (turns s es) := by
  have perm := filterMap_schedule (turn? s) ⟨due, t⟩ es
  rwa [turn?, if_neg other] at perm

end

theorem agenda_carryOut (p : Prober ε) (t : Task) (w : World ε) :
    (p.carryOut t w).agenda = w.agenda ∨ ∃ due t', t'.sequence? = t.sequence? ∧
      (p.carryOut t w).agenda = schedule ⟨due, t'⟩ w.agenda := by
  cases t with
  | attempt s left => exact .inr ⟨_, .close s left _, rfl, rfl⟩
  | close s left c =>
    rcases p.settle_cases s left c w with ⟨-, -, -, -, same⟩ | ⟨-, -, same⟩ | ⟨-, -, due, same⟩
    · exact .inl same
    · exact .inl same
    · exact .inr ⟨due, .attempt s (left - 1), rfl, same⟩
  | conclude t c => exact .inl (p.closeTest_cases t c w).1

theorem turns_launch (p : Prober ε) (s : Sequence) (left : Nat) (w : World ε) :
    (turns s (p.launch s left w).agenda).Perm
      (.close s left (p.call (p.policy.probeRequest s.endpoint) w).1 :: turns s w.agenda) :=
  turns_schedule_own _ rfl w.agenda

theorem turns_carryOut_other (p : Prober ε) {s : Sequence} {t : Task}
    (other : t.sequence? ≠ some s) (w : World ε) :
    (turns s (p.carryOut t w).agenda).Perm (turns s w.agenda) := by
  rcases p.agenda_carryOut t w with same | ⟨due, t', owner, same⟩
  · rw [same]
  · rw [same]
    exact turns_schedule_other due (owner ▸ other) w.agenda

theorem event_other {s : Sequence} {t : Task} (other : t.sequence? ≠ some s) {e : Event}
    (event : t.event? = some e) : e ≠ .begun s ∧ e ≠ .ended s .failure := by
  cases t with
  | attempt s' left => cases event
  | close s' left c =>
    have apart : s' ≠ s := fun same => other (congrArg some same)
    have event : Event.ofClose? s' left c = some e := event
    unfold Event.ofClose? at event
    split at event
    · cases event
      exact ⟨nofun, nofun⟩
    · cases event
      exact ⟨nofun, nofun⟩
    · split at event
      · cases event
        exact ⟨nofun, fun same => apart (Event.ended.inj same).1⟩
      · cases event
  | conclude t c =>
    have event : some (Event.ofTest t c) = some e := event
    unfold Event.ofTest at event
    split at event
    all_goals
      cases event
      exact ⟨nofun, nofun⟩

theorem tries_own (p : Prober ε) (w : World ε) (s : Sequence) (left : Nat) :
    ((p.tries w (.attempt s left)).filter (·.1 = s)).map (·.2) =
      [(p.call (p.policy.probeRequest s.endpoint) w).1] := by
  simp [tries]

theorem tries_other (p : Prober ε) (w : World ε) {s : Sequence} {t : Task}
    (other : t.sequence? ≠ some s) : (p.tries w t).filter (·.1 = s) = [] := by
  cases t with
  | attempt s' left =>
    have apart : s' ≠ s := fun same => other (congrArg some same)
    simp [tries, apart]
  | close | conclude => rfl

/-! ### Closing an attempt -/

/-- A sequence is where it should be after one of its attempts is closed. -/
theorem stage_settle {p : Prober ε} {s : Sequence} {h : History} {left : Nat} {c : Course}
    {made : List Course} {said : List Notice}
    (stage : p.Stage s h [.close s left c] made said) {w : World ε}
    (ledger : w.ledger = History.ledger h) (none : turns s w.agenda = []) :
    p.Stage s ((Event.ofClose? s left c).toList ++ h) (turns s (p.settle s left c w).agenda) made
      (said ++ (p.settle s left c w).notices.drop w.notices.length) := by
  obtain ⟨before, rfl, report, begun, unwritten, failed, count⟩ := stage.asked
  have few : before.length + 1 ≤ p.attempts := by omega
  cases outcome : c.outcome with
  | passed text =>
    obtain ⟨event, agenda, notices⟩ := p.settle_passed s left w outcome
    rw [event, agenda, notices, none, List.drop_left, ← List.append_assoc, report]
    have kept := mt (failureWritten_cons (s := s) (h := h) (e := .ended s .success) nofun).mp
      unwritten
    exact .finished (.tail _ begun) failed few
      ⟨fun written => absurd written kept, fun _ => debug_of_verdict_success⟩
  | crashed =>
    obtain ⟨event, agenda, notices⟩ := p.settle_broken s left w outcome
    rw [event, agenda, notices, none, List.drop_left, report, ← List.append_nil (p.report _ _)]
    have kept := mt (failureWritten_cons (s := s) (h := h) (e := .broken s) nofun).mp unwritten
    exact .finished (.tail _ begun) failed few ⟨fun written => absurd written kept, by simp⟩
  | failed why =>
    have all : ∀ x ∈ before ++ [c], x.Failed := by
      intro x hx
      rcases List.mem_append.mp hx with hx | hx
      · exact failed x hx
      · exact List.mem_singleton.mp hx ▸ ⟨why, outcome⟩
    cases left with
    | zero =>
      -- It ends here with a failure, and its last words tell whether this was written.
      obtain ⟨event, agenda, notices⟩ := p.settle_last s w outcome
      rw [event, agenda, notices, none, List.drop_left, ← List.append_assoc, ledger]
      rw [Nat.sub_zero] at report
      rw [report]
      have made : (before ++ [c]).length = p.attempts := by simp; omega
      exact .finished (.tail _ begun) failed few (concludes_failure unwritten all made)
    | succ left =>
      obtain ⟨event, ⟨due, agenda⟩, notices⟩ := p.settle_retry s left w outcome
      rw [event, notices, List.drop_left, report]
      have turn := turns_schedule_own due (t := .attempt s left) rfl w.agenda
      rw [none, ← agenda] at turn
      refine .perm (.waiting begun unwritten all ?_) turn
      simp
      omega

/-! ### What has been told -/

theorem stage_of_kept {p : Prober ε} {h : History} {m : Minutes} {w : World ε}
    (kept : p.Kept h m w) (s : Sequence) :
    p.Stage s h (turns s w.agenda) (m.attemptsOf s) (m.saidBy s) := by
  induction kept with
  | start env => exact .ahead (by simp) id
  | task before taken ih =>
    rename_i h m w a b due t
    -- Its own tasks take the sequence on; all others leave what is on the agenda for it.
    by_cases own : t.sequence? = some s
    · have turn := turns_middle_own due own a b
      rw [← taken] at turn
      have stage := ih.perm turn.symm
      have none := stage.alone
      rw [none] at stage
      rw [Minutes.attemptsOf_add, Minutes.saidBy_add _ own]
      cases t with
      | attempt s' left =>
        cases own
        have asked := p.turns_launch s left { w with agenda := a ++ b }
        rw [none] at asked
        have silent : (p.carryOut (.attempt s left) { w with agenda := a ++ b }).notices =
            w.notices := rfl
        rw [silent, List.drop_length, List.append_nil, tries_own]
        exact .perm (stage.attempt _) asked
      | close s' left c =>
        cases own
        have ledger := (tracks_of_run (run_of_kept before)).ledger
        have settled := stage_settle stage (w := { w with agenda := a ++ b }) ledger none
        rwa [← List.append_nil (m.attemptsOf s)] at settled
      | conclude t c => cases own
    · have turn := turns_middle_other due own a b
      rw [← taken] at turn
      have same := (p.turns_carryOut_other own { w with agenda := a ++ b }).trans turn.symm
      rw [Minutes.attemptsOf_add, tries_other p _ own, Minutes.saidBy_add_other _ own]
      have stage := ih.perm same
      cases event : t.event? with
      | none => simpa using stage
      | some e =>
        obtain ⟨started, ended⟩ := event_other own event
        simpa using stage.beside started ended
  | tick _ time ih => exact ih
  | aside _ env more ih =>
    rw [Minutes.attemptsOf_add, Minutes.saidBy_add_other _ (Option.some_ne_none s).symm]
    simpa using ih
  | begin before id ih =>
    rename_i h m w
    have tracks := tracks_of_run (run_of_kept before)
    by_cases own : (⟨id, w.ledger.next⟩ : Sequence) = s
    · subst own
      have fits : Fits h (.begun ⟨id, w.ledger.next⟩) := congrArg Ledger.next tracks.ledger
      have new := not_mem_of_fits tracks.possible fits rfl
      exact (ih.begin new).perm (turns_schedule_own _ rfl w.agenda)
    · have started : Event.begun ⟨id, w.ledger.next⟩ ≠ .begun s := fun same =>
        own (Event.begun.inj same)
      have other : Task.sequence? (.attempt ⟨id, w.ledger.next⟩ (p.attempts - 1)) ≠ some s :=
        fun same => own (Option.some.inj same)
      exact (ih.beside started nofun).perm (turns_schedule_other _ other w.agenda)
  | forget _ id ih => exact ih.beside nofun nofun
  | beginTest before id message ih =>
    rename_i h m w
    have stage := ih.beside (e := .testBegun ⟨id, w.ledger.next⟩) nofun nofun
    have other : ∀ t c, Task.sequence? (.conclude t c) ≠ some s := fun _ _ =>
      (Option.some_ne_none s).symm
    exact stage.perm (turns_schedule_other _ (other _ _) w.agenda)

/-- What a sequence has put on record, told from its attempts: those that are closed, the one that
is not, and its last words. -/
structure Told (p : Prober ε) (s : Sequence) (h : History) (made : List Course)
    (said : List Notice) (closed asking : List Course) (last : List Notice) : Prop where
  all : made = closed ++ asking
  said : said = p.report s closed ++ last
  one : asking.length ≤ 1
  /-- Only the last attempt may do anything else than fail, and no attempt is made after it. -/
  failed : ∀ c ∈ (closed ++ asking).dropLast, c.Failed
  few : made.length ≤ p.attempts
  /-- Beside debug notices, there are last words exactly if failure is written. -/
  written : failureWritten s h → last = [.sequenceFailed s.endpoint p.policy.maxAttempts.toNat] ∧
    asking = [] ∧ (∀ c ∈ closed, c.Failed) ∧ made.length = p.attempts
  unwritten : ¬ failureWritten s h → ∀ n ∈ last, n.level = .debug

theorem told_of_stage {p : Prober ε} {s : Sequence} {h : History} {xs : List Task}
    {made : List Course} {said : List Notice} (stage : p.Stage s h xs made said) :
    ∃ closed asking last, p.Told s h made said closed asking last := by
  cases stage with
  | ahead new unwritten =>
    refine ⟨[], [], [], ⟨rfl, rfl, by simp, by simp, by simp, ?_, by simp⟩⟩
    exact fun written => absurd written unwritten
  | waiting begun unwritten failed count =>
    refine ⟨made, [], [], ⟨by simp, by simp, by simp, ?_, by omega, ?_, by simp⟩⟩
    · rw [List.append_nil]
      exact fun c hc => failed c ((List.dropLast_sublist made).subset hc)
    · exact fun written => absurd written unwritten
  | asking begun unwritten failed count =>
    rename_i left before c
    refine ⟨before, [c], [], ⟨rfl, by simp, by simp, by simpa using failed, ?_, ?_, by simp⟩⟩
    · simp
      omega
    · exact fun written => absurd written unwritten
  | finished begun failed few concludes =>
    rename_i before c last
    refine ⟨before ++ [c], [], last,
      ⟨by simp, rfl, by simp, by simpa using failed, by simpa using few, ?_, concludes.unwritten⟩⟩
    intro written
    obtain ⟨words, all, count⟩ := concludes.written written
    exact ⟨words, rfl, all, count⟩

/-- The minutes are complete, and in them the notices of every sequence are true but for the number
in its last words if the policy allows for no attempt. -/
theorem told_of_kept {p : Prober ε} {h : History} {m : Minutes} {w : World ε}
    (kept : p.Kept h m w) (s : Sequence) :
    m.notices.map (·.2) = w.notices ∧
    w.calls.length = m.attempts.length + h.countP Event.startsTest ∧
    (∃ closed asking last, p.Told s h (m.attemptsOf s) (m.saidBy s) closed asking last) ∧
    (failureWritten s h →
      (p.policy.maxAttempts.toNat = (m.attemptsOf s).length ↔ p.policy.maxAttempts ≠ 0)) := by
  obtain ⟨closed, asking, last, told⟩ := told_of_stage (stage_of_kept kept s)
  obtain ⟨notices, calls⟩ := complete_of_kept kept
  refine ⟨notices, calls, ⟨closed, asking, last, told⟩, fun written => ?_⟩
  obtain ⟨-, -, -, count⟩ := told.written written
  have zero : p.policy.maxAttempts = 0 ↔ p.policy.maxAttempts.toNat = 0 := by
    rw [← UInt32.toNat_inj]
    rfl
  rw [count, ne_eq, zero]
  unfold attempts
  omega

theorem Kept.next {p : Prober ε} {h : History} {m m' : Minutes} {w v : World ε} {b : List Entry}
    {due : Nat} {t : Task} (before : p.Kept h m w) (taken : w.agenda = ⟨due, t⟩ :: b)
    (world : p.carryOut t { w with agenda := b } = v)
    (minutes : m.add (p.tries { w with agenda := b } t) t.sequence?
      (v.notices.drop w.notices.length) = m') : p.Kept (t.event?.toList ++ h) m' v := by
  subst world minutes
  exact before.task (a := []) taken

/-- A prober whose tester never answers, and which tries a number of times with no wait. -/
def unanswered (attempts : UInt32) : Prober Unit where
  policy := { Policy.standard with maxAttempts := attempts, retryDelay := 0 }
  tester := fun _ _ _ => (⟨none, .crash, []⟩, ())

def lone : Sequence := ⟨"m", 1⟩

def silence : Course := ⟨3000, .failed (.timedOut 2), []⟩

/-- The world in which a sequence is under way that has failed so far. -/
def struggle (attempts : UInt32) (task : Entry) (calls : Nat) (notices : List Notice) :
    World Unit where
  env := ()
  now := 0
  ledger := Ledger.empty.start "m"
  agenda := [task]
  calls := List.replicate calls ⟨0, (unanswered attempts).policy.probeRequest "m"⟩
  ended := []
  notices := notices

/-- A sequence that has failed twice says so. -/
theorem told_of_kept_twice :
    ∃ h m w, (unanswered 2).Kept h m w ∧ failureWritten lone h ∧
      m.saidBy lone = [.attemptFailed "m" 1 2 (.timedOut 2),
        .attemptFailed "m" 2 2 (.timedOut 2), .sequenceFailed "m" 2] ∧
      (unanswered 2).policy.maxAttempts.toNat = (m.attemptsOf lone).length := by
  have begun : (unanswered 2).Kept [.begun lone] ⟨[], []⟩ (struggle 2 ⟨0, .attempt lone 1⟩ 0 []) :=
    (Kept.start ()).begin "m"
  have tried : (unanswered 2).Kept [.begun lone] ⟨[(lone, silence)], []⟩
      (struggle 2 ⟨3000, .close lone 1 silence⟩ 1 []) :=
    begun.next (t := .attempt lone 1) rfl rfl rfl
  have failed : (unanswered 2).Kept [.begun lone]
      ⟨[(lone, silence)], [(some lone, .attemptFailed "m" 1 2 (.timedOut 2))]⟩
      (struggle 2 ⟨0, .attempt lone 0⟩ 1 [.attemptFailed "m" 1 2 (.timedOut 2)]) :=
    tried.next (t := .close lone 1 silence) rfl rfl rfl
  have again : (unanswered 2).Kept [.begun lone]
      ⟨[(lone, silence), (lone, silence)], [(some lone, .attemptFailed "m" 1 2 (.timedOut 2))]⟩
      (struggle 2 ⟨3000, .close lone 0 silence⟩ 2 [.attemptFailed "m" 1 2 (.timedOut 2)]) :=
    failed.next (t := .attempt lone 0) rfl rfl rfl
  have finished := again.next (t := .close lone 0 silence) rfl rfl rfl
  have written : failureWritten lone [.ended lone .failure, .begun lone] := .inl ⟨rfl, rfl⟩
  obtain ⟨-, -, -, count⟩ := told_of_kept finished lone
  exact ⟨_, _, _, finished, written, rfl, (count written).mpr (by decide)⟩

/-- A policy that allows for no attempt: one is made and fails, and the last words are that all of
none have failed. -/
theorem failed_all_of_none :
    (∃ h m w, (unanswered 0).Kept h m w ∧ w.status? "m" = some .failure ∧
      m.saidBy lone = [.attemptFailed "m" 1 1 (.timedOut 2), .sequenceFailed "m" 0] ∧
      (m.attemptsOf lone).length = 1) ∧
    ¬ ∀ (h : History) (m : Minutes) (w : World Unit), (unanswered 0).Kept h m w →
      ∀ s n, .sequenceFailed s.endpoint n ∈ m.saidBy s → n = (m.attemptsOf s).length := by
  have begun : (unanswered 0).Kept [.begun lone] ⟨[], []⟩ (struggle 0 ⟨0, .attempt lone 0⟩ 0 []) :=
    (Kept.start ()).begin "m"
  have tried : (unanswered 0).Kept [.begun lone] ⟨[(lone, silence)], []⟩
      (struggle 0 ⟨3000, .close lone 0 silence⟩ 1 []) :=
    begun.next (t := .attempt lone 0) rfl rfl rfl
  have finished := tried.next (t := .close lone 0 silence) rfl rfl rfl
  refine ⟨⟨_, _, _, finished, rfl, rfl, rfl⟩, fun every => ?_⟩
  have counted := every _ _ _ finished lone 0 (.tail _ (.head _))
  exact absurd counted (by decide)

end EndpointHealth.Prober
