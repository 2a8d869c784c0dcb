import VolumeWatch.Proofs.Desk.Publishing
import VolumeWatch.Proofs.Engine.Turns

/-!
Looks: the worker looks at the alert that it holds, or at the first one of the queue, and acts on
what it finds. `Engine.Ready.of_ready?` says which alert that is and `Engine.considered` all that
the worker can do with it; what neither changes, no turn does (`Engine.SameTerms.turns`).
-/

namespace VolumeWatch

variable {α : Type}

namespace Worker

def held : Worker α → List (Alert α)
  | .waiting a _ => [a]
  | _ => []

/-- The worker is neither stopped nor lost. -/
def isRunning : Worker α → Bool
  | .idle | .waiting .. => true
  | .failed _ | .stopped => false

theorem length_held_le (w : Worker α) : w.held.length ≤ 1 := by
  cases w <;> simp [held]

end Worker

/-- The horizon of an alert cannot be told under a rule. -/
def OutcomeRule.Overflows [Scalar α] (r : OutcomeRule α) (a : Alert α) : Prop :=
  Nat.pow 2 63 ≤ r.lookahead.seconds ∨ r.horizon? a.reference = none

/-- The horizon is all that an alert may lack when it is scored. -/
theorem Desk.horizon?_of_score?_eq_none [Scalar α] {d : Desk α} {r : OutcomeRule α} {a : Alert α}
    (h : d.score? r a = none) : r.horizon? a.reference = none := by
  cases hh : r.horizon? a.reference with
  | none => rfl
  | some horizon =>
    simp only [score?, hh, Option.bind_some] at h
    split at h
    · simp at h
    · unfold OutcomeRule.evaluate? at h
      split at h
      · simp at h
      · split at h <;> simp [hh] at h

namespace Engine

/-- The alerts that the worker holds or that wait in the queue, in order. -/
def waiting (e : Engine α) : List (Alert α) := e.worker.held ++ e.desk.queue.items.toList

variable [Scalar α]

/-- What the worker finds when it looks at an alert. -/
def verdict (e : Engine α) (a : Alert α) : Fate α :=
  match e.isRipe? a with
  | none => .lost
  | some false => .pending
  | some true =>
    match e.desk.score? e.rule a with
    | none => .lost
    | some (.error fault) => .unscored fault
    | some (.ok o) => .scored o

def initial (s : Settings α) (audience : Audience α) : Engine α where
  desk := .empty s.classifier (.ofCapacity s.queueCapacity) audience
  rule := s.rule
  maturity := s.maturity
  poll := s.pollMillis
  reportEvery := s.reportSeconds * 1000
  now := 0
  worker := .idle
  nextReport := none

omit [Scalar α] in
theorem eq_initial {s : Settings α} {audience : Audience α} {e : Engine α}
    (h : ofSettings? s audience = some e) : e = initial s audience := by
  obtain ⟨queue, hq, rfl⟩ := Option.map_eq_some_iff.mp h
  unfold BoundedQueue.ofCapacity? at hq
  split at hq
  · obtain rfl := Option.some.inj hq
    rfl
  · simp at hq

/-- The worker of an engine is about to look at an alert, with the rest of the queue behind it. -/
structure Ready (e r : Engine α) (a : Alert α) : Prop where
  running : e.worker.isRunning
  waiting : e.waiting = a :: r.desk.queue.items.toList
  engine : r = e.withQueue { e.desk.queue with items := r.desk.queue.items }
  fewer : r.desk.queue.items.size ≤ e.desk.queue.items.size

omit [Scalar α] in
theorem Ready.queue {e r : Engine α} {a : Alert α} (h : Ready e r a) :
    r.desk.queue = { e.desk.queue with items := r.desk.queue.items } := by
  rw [h.engine]
  rfl

omit [Scalar α] in
theorem Ready.desk {e r : Engine α} {a : Alert α} (h : Ready e r a) :
    r.desk = { e.desk with queue := r.desk.queue } := by
  rw [h.engine]
  rfl

omit [Scalar α] in
theorem Ready.of_ready? {e r : Engine α} {a : Alert α} (h : e.ready? = some (r, a)) :
    Ready e r a := by
  unfold ready? at h
  split at h
  -- an idle worker takes the head of the queue
  · rename_i hw
    rcases e.desk.queue.receive_cases with ⟨b, items, hitems, heq⟩ | ⟨-, heq | heq⟩
    · rw [heq] at h
      obtain ⟨rfl, rfl⟩ := Prod.mk.inj (Option.some.inj h)
      refine ⟨by simp [hw, Worker.isRunning], ?_, rfl, ?_⟩
      · simp [Engine.waiting, hw, Worker.held, hitems, withQueue]
      · rw [Fifo.size_eq_length, Fifo.size_eq_length, hitems]
        exact Nat.le_succ _
    · simp [heq] at h
    · simp [heq] at h
  -- a waiting worker looks again at the alert that it holds
  · rename_i b due hw
    split at h
    · obtain ⟨rfl, rfl⟩ := Prod.mk.inj (Option.some.inj h)
      refine ⟨by simp [hw, Worker.isRunning], ?_, rfl, Nat.le_refl _⟩
      simp [Engine.waiting, hw, Worker.held]
    · simp at h
  · simp at h
  · simp at h

/-- A step changes nothing, or is a look at an alert. -/
theorem turn_step_cases (e : Engine α) :
    e.turn .step = e ∨ ∃ r a, Ready e r a ∧ e.turn .step = r.consider a := by
  unfold Engine.turn
  rw [step?]
  cases hready : e.ready? with
  | none => exact Or.inl rfl
  | some next => exact Or.inr ⟨next.1, next.2, .of_ready? hready, rfl⟩

/-- What the worker does with an alert that it looks at, by what it finds. -/
inductive Considered (e : Engine α) (a : Alert α) : Fate α → Engine α → Prop where
  | kept : Considered e a .pending { e with worker := .waiting a (e.now + e.poll) }
  | lost (status : Status) : e.rule.Overflows a → Considered e a .lost (e.fail status)
  | unscored (fault : Fault α) : e.isRipe? a = some true →
      e.desk.score? e.rule a = some (.error fault) → Considered e a (.unscored fault)
        { e with desk := { e.desk with queue := e.desk.queue.complete }, worker := .idle }
  | scored (o : Outcome α) : e.isRipe? a = some true →
      e.desk.score? e.rule a = some (.ok o) → Considered e a (.scored o)
        { e with
          desk := { e.desk.record a o with queue := e.desk.queue.complete }
          worker := .idle }

theorem overflows_of_isRipe? {e : Engine α} {a : Alert α} (h : e.isRipe? a = none) :
    e.rule.Overflows a := by
  unfold isRipe? at h
  split at h
  · split at h
    · simp at h
    · exact Or.inl (Nat.le_of_not_lt ‹_›)
  · exact Or.inr (Option.map_eq_none_iff.mp h)

theorem overflows_of_score? {e : Engine α} {a : Alert α} (h : e.desk.score? e.rule a = none) :
    e.rule.Overflows a :=
  Or.inr (Desk.horizon?_of_score?_eq_none h)

/-- The verdict of the worker is what it acts on. -/
theorem considered (e : Engine α) (a : Alert α) : Considered e a (e.verdict a) (e.consider a) := by
  unfold verdict consider
  cases hr : e.isRipe? a with
  | none => exact .lost .idle (overflows_of_isRipe? hr)
  | some ripe =>
    cases ripe with
    | false => exact .kept
    | true =>
      cases hs : e.desk.score? e.rule a with
      | none =>
        simp only [Desk.evaluate?, hs, Option.map_none]
        exact .lost .evaluating (overflows_of_score? hs)
      | some result =>
        cases result with
        | error fault =>
          simp only [Desk.evaluate?, hs, Option.map_some]
          exact .unscored fault hr hs
        | ok o =>
          simp only [Desk.evaluate?, hs, Option.map_some]
          exact .scored o hr hs

/-- A look changes neither the series nor the alerts that were noted. -/
theorem Considered.apart {e e' : Engine α} {a : Alert α} {f : Fate α} (h : Considered e a f e') :
    e'.desk.market = e.desk.market ∧ e'.desk.alerts = e.desk.alerts := by
  cases h with
  | kept => exact ⟨rfl, rfl⟩
  | lost status hover => exact ⟨rfl, rfl⟩
  | unscored fault hripe hscore => exact ⟨rfl, rfl⟩
  | scored o hripe hscore => exact ⟨rfl, e.desk.alerts_record a o⟩

/-- The series take the bar of a turn, and the alerts that it raises are noted. -/
theorem turn_bar (e : Engine α) (t : Turn α) :
    (e.turn t).desk.market = e.desk.market.ingestAll e.desk.classifier.underlying t.bar?.toList ∧
      (e.turn t).desk.alerts = e.desk.alerts ++
        t.bar?.toList.flatMap (e.desk.market.raised e.desk.classifier e.now) := by
  cases t with
  | submit b =>
    have hd : (e.turn (.submit b)).desk = (e.desk.ingest e.now b).1 := rfl
    refine ⟨?_, ?_⟩
    · rw [hd, Desk.ingest_fst]
      rfl
    · rw [hd, Desk.alerts_ingest]
      simp [Turn.bar?]
  | step =>
    rcases e.turn_step_cases with hnone | ⟨r, a, hr, hlook⟩
    · rw [hnone]
      exact ⟨rfl, (List.append_nil _).symm⟩
    · obtain ⟨hmarket, halerts⟩ := (r.considered a).apart
      rw [hr.desk] at hmarket halerts
      rw [hlook]
      exact ⟨hmarket, halerts.trans (List.append_nil _).symm⟩
  | pass millis => exact ⟨rfl, (List.append_nil _).symm⟩
  | beginReports => exact ⟨rfl, (List.append_nil _).symm⟩
  | report =>
    refine ⟨rfl, ?_⟩
    show (e.desk.note [.snapshot e.desk.statistics.snapshot]).alerts = _
    rw [Desk.alerts_note]
    rfl
  | shutdown => exact ⟨rfl, (List.append_nil _).symm⟩

omit [Scalar α] in
/-- The end of a run drops no alert as if the queue was full. -/
theorem queue_shutdown (e : Engine α) :
    e.shutdown.desk.queue.dropped = e.desk.queue.dropped ∧
      e.shutdown.desk.queue.capacity = e.desk.queue.capacity := by
  unfold shutdown
  cases e.worker <;> exact ⟨rfl, rfl⟩

/-- The terms of a run: what it is adjusted by. -/
structure SameTerms (e e' : Engine α) : Prop where
  rule : e'.rule = e.rule
  maturity : e'.maturity = e.maturity
  classifier : e'.desk.classifier = e.desk.classifier
  capacity : e'.desk.queue.capacity = e.desk.queue.capacity

namespace SameTerms

variable {e e' e'' : Engine α}

omit [Scalar α] in
theorem refl (e : Engine α) : SameTerms e e := ⟨rfl, rfl, rfl, rfl⟩

omit [Scalar α] in
theorem trans (h : SameTerms e e') (h' : SameTerms e' e'') : SameTerms e e'' :=
  ⟨h'.rule.trans h.rule, h'.maturity.trans h.maturity, h'.classifier.trans h.classifier,
    h'.capacity.trans h.capacity⟩

omit [Scalar α] in
theorem ready {r : Engine α} {a : Alert α} (h : Ready e r a) : SameTerms e r := by
  rw [h.engine]
  exact ⟨rfl, rfl, rfl, rfl⟩

theorem of_considered {a : Alert α} {f : Fate α} (h : Considered e a f e') : SameTerms e e' := by
  cases h <;> exact ⟨rfl, rfl, rfl, rfl⟩

theorem turn (e : Engine α) (t : Turn α) : SameTerms e (e.turn t) := by
  cases t with
  | submit b =>
    show SameTerms e { e with desk := (e.desk.ingest e.now b).1 }
    rw [Desk.ingest_fst]
    exact ⟨rfl, rfl, rfl, (e.desk.queue.takes_pushAll _).capacity⟩
  | step =>
    rcases e.turn_step_cases with hnone | ⟨r, a, hr, hlook⟩
    · rw [hnone]
      exact refl e
    · rw [hlook]
      exact (ready hr).trans (of_considered (r.considered a))
  | pass millis => exact ⟨rfl, rfl, rfl, rfl⟩
  | beginReports => exact ⟨rfl, rfl, rfl, rfl⟩
  | report => exact ⟨rfl, rfl, rfl, rfl⟩
  | shutdown => exact ⟨rfl, rfl, rfl, e.queue_shutdown.2⟩

theorem turns (e : Engine α) (ts : List (Turn α)) : SameTerms e (e.turns ts) := by
  induction ts generalizing e with
  | nil => exact refl e
  | cons t ts ih => exact (turn e t).trans (ih (e.turn t))

/-- A run keeps the terms of its settings. -/
theorem of_initial {s : Settings α} {audience : Audience α} {e : Engine α}
    (he : ofSettings? s audience = some e) (ts : List (Turn α)) :
    SameTerms (initial s audience) (e.turns ts) := by
  rw [← eq_initial he]
  exact turns e ts

end SameTerms

end Engine

end VolumeWatch
