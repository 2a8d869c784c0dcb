import VolumeWatch.Proofs.Engine.Feeding
import VolumeWatch.Proofs.Statistics.Totals

/-!
Accounts: the ledger of a run agrees with the engine after every turn. Its alerts are the noted
ones, its pending alerts are those in the queue and with the worker, its scored alerts are the noted
outcomes, and the counters of the queue count what the ledger counts.

The ledger is kept beside the engine (`Engine.book`), from what the queue answers to an alert and
from what the worker finds when it looks at one. The engine knows nothing of it.
-/

namespace VolumeWatch

variable {α : Type}

namespace Engine

variable [Scalar α]

def book (e : Engine α) (l : Ledger α) : Turn α → Ledger α
  | .submit b =>
    l ++ e.desk.queue.entries (e.desk.market.raised e.desk.classifier e.now b)
  | .step =>
    match e.ready? with
    | none => l
    | some (r, a) => l.meet (r.verdict a)
  | .shutdown => l.close .discarded
  | .pass _ | .beginReports | .report => l

def bookAll (e : Engine α) (l : Ledger α) : List (Turn α) → Ledger α
  | [] => l
  | t :: ts => bookAll (e.turn t) (e.book l t) ts

def ledger (e : Engine α) (ts : List (Turn α)) : Ledger α := e.bookAll [] ts

/-- The ledger agrees with the engine. -/
structure Books (e : Engine α) (l : Ledger α) : Prop where
  alerts : l.map (·.1) = e.desk.alerts
  outcomes : l.outcomes = e.desk.outcomes
  waiting : l.pending = e.waiting
  inOrder : l.InOrder
  dropped : l.countP (·.2.isFull) = e.desk.queue.dropped
  statistics : e.desk.statistics =
    (∅ : Statistics α).recordAll (e.desk.outcomes.map fun x => (x.1.tags, x.2))
  room : e.desk.queue.items.size ≤ e.desk.queue.capacity
  receiver : e.desk.queue.hasReceiver = e.worker.isRunning
  final : e.worker.isRunning → ∀ x ∈ l, x.2.isFinal = false
  completed : e.worker.isRunning →
    l.countP (·.2.result?.isSome) = e.desk.queue.completed
  enqueued : e.worker.isRunning →
    e.desk.queue.enqueued = e.desk.queue.completed + e.waiting.length
  gone : e.worker.isRunning = false → e.waiting = []
  lost : (∃ x ∈ l, x.2.isLost) → ∃ a ∈ e.desk.alerts, e.rule.Overflows a

namespace Books

variable {e e' r : Engine α} {l : Ledger α} {a : Alert α}

theorem initial {s : Settings α} {audience : Audience α} (h : ofSettings? s audience = some e) :
    Books e [] := by
  rw [eq_initial h]
  constructor <;> simp [Engine.initial, Desk.empty, Desk.alerts, Desk.outcomes, Ledger.outcomes,
    Ledger.pending, Engine.waiting, Worker.held, Worker.isRunning, BoundedQueue.ofCapacity, Statistics.recordAll,
    Ledger.InOrder, Fifo.size_eq_length]

theorem congr (h : Books e l) (hq : e'.desk.queue = e.desk.queue) (hw : e'.worker = e.worker)
    (ha : e'.desk.alerts = e.desk.alerts) (ho : e'.desk.outcomes = e.desk.outcomes)
    (hs : e'.desk.statistics = e.desk.statistics) (hr : e'.rule = e.rule) : Books e' l where
  alerts := by rw [ha, h.alerts]
  outcomes := by rw [ho, h.outcomes]
  waiting := by rw [h.waiting, Engine.waiting, Engine.waiting, hq, hw]
  inOrder := h.inOrder
  dropped := by rw [hq, h.dropped]
  statistics := by rw [hs, ho, h.statistics]
  room := by rw [hq]; exact h.room
  receiver := by rw [hq, hw, h.receiver]
  final := by rw [hw]; exact h.final
  completed := by rw [hw, hq]; exact h.completed
  enqueued := by rw [hq, hw, Engine.waiting, hq, hw]; exact h.enqueued
  gone := by rw [hw, Engine.waiting, hq, hw]; exact h.gone
  lost := by rw [ha, hr]; exact h.lost

/-- Alerts that are noted and put into the queue. -/
theorem push {as : List (Alert α)} {entries : Ledger α} (h : Books e l)
    (ht : e.desk.queue.Takes e'.desk.queue as entries) (hw : e'.worker = e.worker)
    (ha : e'.desk.alerts = e.desk.alerts ++ as) (ho : e'.desk.outcomes = e.desk.outcomes)
    (hs : e'.desk.statistics = e.desk.statistics) (hr : e'.rule = e.rule) :
    Books e' (l ++ entries) := by
  have hwaiting : e'.waiting = e.waiting ++ entries.pending := by
    rw [Engine.waiting, Engine.waiting, hw, ht.items, List.append_assoc]
  constructor
  · rw [List.map_append, h.alerts, ht.alerts, ha]
  · rw [Ledger.outcomes_append, Ledger.outcomes_eq_nil ht.result, List.append_nil, h.outcomes, ho]
  · rw [Ledger.pending_append, h.waiting, hwaiting]
  · exact h.inOrder.append ht.result
  · rw [List.countP_append, h.dropped, ht.dropped]
  · rw [hs, ho, h.statistics]
  · rw [ht.capacity]
    exact ht.room h.room
  · rw [ht.hasReceiver, hw, h.receiver]
  · intro hrun x hx
    rw [hw] at hrun
    rcases List.mem_append.mp hx with hx | hx
    · exact h.final hrun x hx
    · rw [ht.final x hx, h.receiver, hrun]
      rfl
  · intro hrun
    rw [hw] at hrun
    have hnone : entries.countP (·.2.result?.isSome) = 0 :=
      List.countP_eq_zero.mpr fun x hx => by simp [ht.result x hx]
    rw [List.countP_append, h.completed hrun, hnone, ht.completed]
    rfl
  · intro hrun
    rw [hw] at hrun
    rw [ht.enqueued, ht.completed, h.enqueued hrun, hwaiting, List.length_append, Nat.add_assoc]
  · intro hrun
    rw [hw] at hrun
    -- without a receiver the queue refuses every alert
    have hfinal : ∀ x ∈ entries, x.2.isFinal := fun x hx => by
      rw [ht.final x hx, h.receiver, hrun]
      rfl
    rw [hwaiting, h.gone hrun, Ledger.pending_eq_nil fun x hx => Fate.isPending_eq_false (hfinal x hx)]
    rfl
  · rintro ⟨x, hx, hlost⟩
    rcases List.mem_append.mp hx with hx | hx
    · obtain ⟨a, ha', hover⟩ := h.lost ⟨x, hx, hlost⟩
      rw [ha, hr]
      exact ⟨a, List.mem_append_left _ ha', hover⟩
    · rw [ht.lost x hx] at hlost
      simp at hlost

theorem submit (h : Books e l) (b : Bar α) : Books (e.turn (.submit b)) (e.book l (.submit b)) := by
  have hd : (e.turn (.submit b)).desk = (e.desk.ingest e.now b).1 := rfl
  have hq : (e.turn (.submit b)).desk.queue =
      e.desk.queue.pushAll (e.desk.market.raised e.desk.classifier e.now b) := by
    rw [hd, Desk.ingest_fst]
  refine h.push (hq ▸ e.desk.queue.takes_pushAll _) rfl ?_ ?_ ?_ rfl
  · rw [hd, Desk.alerts_ingest]
  · rw [hd, Desk.outcomes_ingest]
  · rw [hd, Desk.ingest_fst]
    rfl

/-- The worker goes, and what was pending meets one fate. -/
theorem close {f : Fate α} (h : Books e l) (hf : f.isFinal)
    (hlost : f.isLost → ∃ a ∈ e.desk.alerts, e.rule.Overflows a)
    (hitems : e'.desk.queue.items = ∅) (hreceiver : e'.desk.queue.hasReceiver = false)
    (hdropped : e'.desk.queue.dropped = e.desk.queue.dropped)
    (hw : e'.worker.held = [] ∧ e'.worker.isRunning = false)
    (ha : e'.desk.alerts = e.desk.alerts) (ho : e'.desk.outcomes = e.desk.outcomes)
    (hs : e'.desk.statistics = e.desk.statistics) (hr : e'.rule = e.rule) :
    Books e' (l.close f) := by
  have hwaiting : e'.waiting = [] := by
    rw [Engine.waiting, hw.1, hitems]
    rfl
  constructor
  · rw [Ledger.map_close, h.alerts, ha]
  · rw [Ledger.outcomes_close hf, h.outcomes, ho]
  · rw [Ledger.pending_close hf, hwaiting]
  · exact h.inOrder.close hf
  · rw [Ledger.countP_close hf, h.dropped, hdropped]
  · rw [hs, ho, h.statistics]
  · rw [hitems]
    exact Nat.zero_le _
  · rw [hreceiver, hw.2]
  · simp [hw.2]
  · simp [hw.2]
  · simp [hw.2]
  · exact fun _ => hwaiting
  · rintro ⟨x, hx, hxlost⟩
    rw [ha, hr]
    rcases Ledger.mem_close hx with hx | ⟨hx, -⟩
    · exact hlost (hx ▸ hxlost)
    · exact h.lost ⟨x, hx, hxlost⟩

theorem shutdown (h : Books e l) : Books (e.turn .shutdown) (e.book l .shutdown) := by
  exact h.close rfl (by simp [Fate.isLost]) rfl rfl e.queue_shutdown.1 ⟨rfl, rfl⟩ rfl rfl rfl rfl

theorem kept (h : Books e l) (hr : Ready e r a) (due : Nat) :
    Books { r with worker := .waiting a due } l := by
  obtain ⟨hrun, hwaiting, hengine, hfewer⟩ := hr
  generalize hitems : r.desk.queue.items = items at hwaiting hengine hfewer
  subst hengine
  constructor
  · exact h.alerts
  · exact h.outcomes
  · rw [h.waiting, hwaiting]
    rfl
  · exact h.inOrder
  · exact h.dropped
  · exact h.statistics
  · exact Nat.le_trans hfewer h.room
  · exact h.receiver.trans hrun
  · exact fun _ => h.final hrun
  · exact fun _ => h.completed hrun
  · intro _
    have := h.enqueued hrun
    rw [hwaiting] at this
    exact this
  · intro hstopped
    simp [Worker.isRunning] at hstopped
  · exact h.lost

/-- The worker is done with an alert, and has recorded its outcome if there is one. -/
theorem done {f : Fate α} {d : Desk α} (h : Books e l) (hr : Ready e r a)
    (hf : f.result?.isSome) (hq : d.queue = r.desk.queue) (ha : d.alerts = e.desk.alerts)
    (ho : d.outcomes = e.desk.outcomes ++ (f.outcome?.map (a, ·)).toList)
    (hs : d.statistics = e.desk.statistics.recordAll (f.outcome?.map (a.tags, ·)).toList) :
    Books { r with desk := { d with queue := d.queue.complete }, worker := .idle }
      (l.resolve f) := by
  have hp : l.pending = a :: r.desk.queue.items.toList := h.waiting.trans hr.waiting
  have hnone : f.isPending = false ∧ f.isFull = false ∧ f.isFinal = false ∧ f.isLost = false := by
    cases f <;> first | exact ⟨rfl, rfl, rfl, rfl⟩ | cases hf
  have hqueue := hr.queue
  have hrule := (SameTerms.ready hr).rule
  constructor
  · rw [Ledger.map_resolve hp, h.alerts]
    exact ha.symm
  · rw [Ledger.outcomes_resolve hp h.inOrder, h.outcomes]
    exact ho.symm
  · rw [Ledger.pending_resolve hnone.1 hp, Engine.waiting, hq]
    rfl
  · exact h.inOrder.resolve hp (h.final hr.running)
  · rw [Ledger.countP_resolve rfl hp, hnone.2.1, h.dropped]
    show _ = d.queue.dropped
    rw [hq, hqueue]
    rfl
  · show d.statistics = (∅ : Statistics α).recordAll (d.outcomes.map fun x => (x.1.tags, x.2))
    rw [hs, ho, h.statistics]
    cases f.outcome? <;> simp [Statistics.recordAll]
  · show d.queue.items.size ≤ d.queue.capacity
    rw [hq, hqueue]
    exact Nat.le_trans hr.fewer h.room
  · show d.queue.hasReceiver = true
    rw [hq, hqueue]
    exact h.receiver.trans hr.running
  · intro _ x hx
    rcases Ledger.mem_resolve hp hx with rfl | hx
    · exact hnone.2.2.1
    · exact h.final hr.running x hx
  · intro _
    rw [Ledger.countP_resolve (p := (·.result?.isSome)) rfl hp, hf, h.completed hr.running]
    show e.desk.queue.completed + 1 = d.queue.completed + 1
    rw [hq, hqueue]
  · intro _
    have := h.enqueued hr.running
    rw [hr.waiting, List.length_cons] at this
    show d.queue.enqueued = d.queue.completed + 1 + d.queue.items.toList.length
    rw [hq, hqueue]
    show e.desk.queue.enqueued = e.desk.queue.completed + 1 + r.desk.queue.items.toList.length
    omega
  · intro hstopped
    simp [Worker.isRunning] at hstopped
  · rintro ⟨x, hx, hlost⟩
    show ∃ b ∈ d.alerts, r.rule.Overflows b
    rw [ha, hrule]
    rcases Ledger.mem_resolve hp hx with rfl | hx
    · rw [hnone.2.2.2] at hlost
      simp at hlost
    · exact h.lost ⟨x, hx, hlost⟩

theorem mem_alerts (h : Books e l) (hr : Ready e r a) : a ∈ e.desk.alerts := by
  have hp : a ∈ l.pending := by
    rw [h.waiting, hr.waiting]
    exact List.mem_cons_self ..
  obtain ⟨x, hx, rfl⟩ := List.mem_map.mp hp
  rw [← h.alerts]
  exact List.mem_map_of_mem (List.mem_filter.mp hx).1

theorem step (h : Books e l) : Books (e.turn .step) (e.book l .step) := by
  unfold Engine.turn book
  rw [step?]
  cases hready : e.ready? with
  | none => exact h
  | some next =>
    obtain ⟨r, a⟩ := next
    have hr := Ready.of_ready? hready
    have hdesk := hr.desk
    have hrule := (SameTerms.ready hr).rule
    show Books (r.consider a) (l.meet (r.verdict a))
    generalize hv : r.verdict a = f, hc : r.consider a = e'
    cases hv ▸ hc ▸ r.considered a with
    | kept => exact h.kept hr _
    | lost status hover =>
      refine h.close rfl (fun _ => ⟨a, h.mem_alerts hr, hrule ▸ hover⟩) rfl rfl ?_ ⟨rfl, rfl⟩ ?_ ?_ ?_
        hrule
      all_goals
        rw [hr.engine]
        rfl
    | unscored fault hripe hscore =>
      refine h.done hr rfl rfl ?_ ?_ ?_
      all_goals
        rw [hdesk]
        simp [Fate.outcome?, Statistics.recordAll, Desk.alerts, Desk.outcomes]
    | scored o hripe hscore =>
      refine h.done hr rfl rfl ?_ ?_ ?_
      · rw [Desk.alerts_record, hdesk]
        rfl
      · rw [Desk.outcomes_record, hdesk]
        rfl
      · rw [hdesk]
        rfl

theorem turn (h : Books e l) (t : Turn α) : Books (e.turn t) (e.book l t) := by
  cases t with
  | submit b => exact h.submit b
  | step => exact h.step
  | pass millis => exact h.congr rfl rfl rfl rfl rfl rfl
  | beginReports => exact h.congr rfl rfl rfl rfl rfl rfl
  | report =>
    refine h.congr rfl rfl ?_ ?_ rfl rfl
    · exact (Desk.alerts_note ..).trans (List.append_nil _)
    · exact (Desk.outcomes_note ..).trans (List.append_nil _)
  | shutdown => exact h.shutdown

theorem turns (h : Books e l) (ts : List (Turn α)) : Books (e.turns ts) (e.bookAll l ts) := by
  induction ts generalizing e l with
  | nil => exact h
  | cons t ts ih => exact ih (h.turn t)

end Books

/-- Every alert of a run is accounted for once, in order. -/
structure Accounted (s : Settings α) (e : Engine α) (l : Ledger α) : Prop where
  /-- Every alert that was noted has one entry, and so one fate. -/
  alerts : l.map (·.1) = e.desk.alerts
  full : l.countP (·.2.isFull) = e.desk.queue.dropped
  /-- What is pending waits in the queue or is held by the worker, in order. -/
  pending : l.pending = e.worker.held ++ e.desk.queue.items.toList
  /-- What is scored was noted with its outcome once, in order. -/
  scored : l.outcomes = e.desk.outcomes
  inOrder : (e.desk.outcomes.map (·.1)).Sublist e.desk.alerts
  /-- What is evaluated was taken off the books of the queue once. -/
  completed : e.worker.isRunning → l.countP (·.2.result?.isSome) = e.desk.queue.completed
  count : e.worker.isRunning →
    e.desk.queue.pending = e.desk.queue.items.size + e.worker.held.length ∧
      e.desk.queue.pending ≤ max s.queueCapacity 1 + 1
  /-- No alert is refused by a closed queue, discarded or lost before the worker is gone. -/
  final : e.worker.isRunning → ∀ x ∈ l, x.2.isFinal = false
  gone : e.worker.isRunning = false → l.pending = []
  /-- No alert is lost as long as all horizons can be told. -/
  lost : (∀ a ∈ e.desk.alerts, ¬ s.rule.Overflows a) → ∀ x ∈ l, x.2.isLost = false
  total : e.desk.statistics.snapshot.alerts = e.desk.outcomes.length

theorem Books.accounted {s : Settings α} {e : Engine α} {l : Ledger α} (h : Books e l)
    (hrule : e.rule = s.rule) (hcapacity : e.desk.queue.capacity = max s.queueCapacity 1) :
    Accounted s e l where
  alerts := h.alerts
  full := h.dropped
  pending := h.waiting
  scored := h.outcomes
  inOrder := by
    rw [← h.outcomes, ← h.alerts]
    exact l.outcomes_sublist
  completed := h.completed
  count hrun := by
    have hheld := e.worker.length_held_le
    have hroom := h.room
    have hsize := e.desk.queue.items.size_eq_length
    have henqueued := h.enqueued hrun
    rw [Engine.waiting, List.length_append] at henqueued
    unfold BoundedQueue.pending
    omega
  final := h.final
  gone hrun := h.waiting.trans (h.gone hrun)
  lost hno x hx := by
    by_contra hlost
    obtain ⟨a, ha, hover⟩ := h.lost ⟨x, hx, by simpa using hlost⟩
    exact hno a ha (hrule ▸ hover)
  total := by
    rw [h.statistics, Statistics.alerts_recordAll, List.length_map]
    exact Nat.zero_add _

/-- Whatever happens to an engine and in whatever order, every alert is accounted for once. -/
theorem alerts_accounted {s : Settings α} {audience : Audience α} {e : Engine α}
    (he : ofSettings? s audience = some e) (hs : s.fault? = none) :
    (∀ ts : List (Turn α), Accounted s (e.turns ts) (e.ledger ts)) ∧
      ∀ actions : List (Action α), ∃ ts, feed ts = actions.filterMap Action.bar? ∧
        e.turns ts = e.run actions := by
  refine ⟨fun ts => ?_, exists_turns he hs⟩
  have hterms := SameTerms.turns e ts
  refine ((Books.initial he).turns ts).accounted ?_ ?_
  · rw [hterms.rule, eq_initial he]
    rfl
  · rw [hterms.capacity, eq_initial he]
    rfl

/-- There is room for one alert. -/
def crowdedSettings : Settings Float :=
  { Settings.standard with queueCapacity := 1, maturity := .marketTime }

def crowdedEngine : Engine Float := initial crowdedSettings (.content true)

/-- Two options have a burst each, and the worker comes to the first one at the end of its
stretch. -/
def crowded : List (Turn Float) :=
  (burst ++ burst.tail.map (fun b : Bar Float => { b with contract := ⟨4600⟩ }) ++
    [flatBar 4500 50 1, flatBar 0 1900 1]).map .submit ++ [.step]

/-- There is an alert of each option. The first one is scored, and the second one is dropped. -/
theorem alerts_accounted_crowded :
    ofSettings? crowdedSettings (.content true) = some crowdedEngine ∧
    crowdedSettings.fault? = none ∧
    (∀ ts, Accounted crowdedSettings (crowdedEngine.turns ts) (crowdedEngine.ledger ts)) ∧
    (∀ actions, ∃ ts, feed ts = actions.filterMap Action.bar? ∧
      crowdedEngine.turns ts = crowdedEngine.run actions) ∧
    (crowdedEngine.ledger crowded).length = 2 ∧
    (crowdedEngine.ledger crowded).outcomes.length = 1 ∧
    (crowdedEngine.ledger crowded).countP (·.2.isFull) = 1 := by
  have hs : crowdedSettings.fault? = none := Option.isNone_iff_eq_none.mp (by decide +kernel)
  obtain ⟨hruns, hactions⟩ := alerts_accounted (s := crowdedSettings) (e := crowdedEngine) rfl hs
  have haccounted := hruns crowded
  have halerts : (crowdedEngine.turns crowded).desk.alerts.length = 2 := by decide +kernel
  have houtcomes : (crowdedEngine.turns crowded).desk.outcomes.length = 1 := by decide +kernel
  have hdropped : (crowdedEngine.turns crowded).desk.queue.dropped = 1 := by decide +kernel
  refine ⟨rfl, hs, hruns, hactions, ?_, ?_, ?_⟩
  · rw [← halerts, ← haccounted.alerts, List.length_map]
  · rw [haccounted.scored, houtcomes]
  · rw [haccounted.full, hdropped]

end Engine

end VolumeWatch
