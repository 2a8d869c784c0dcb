import VolumeWatch.Desk
import VolumeWatch.Proofs.Ledger
import VolumeWatch.Proofs.Market.Feeds
import VolumeWatch.Proofs.Queue.Histories

/-!
Publishing: what a bar changes at a desk. Its alerts are noted in the journal, and the queue takes
as many of them as there is room for (`BoundedQueue.takes_pushAll`, `Desk.ingest_fst`).
-/

namespace VolumeWatch

variable {α : Type}

namespace BoundedQueue

def pushAll (q : BoundedQueue (Alert α)) (as : List (Alert α)) : BoundedQueue (Alert α) :=
  as.foldl (fun q a => (q.push a : _ × Except (Fault α) Unit).1) q

/-- What becomes of alerts that are put into a queue one after the other. -/
def entries (q : BoundedQueue (Alert α)) : List (Alert α) → Ledger α
  | [] => []
  | a :: rest =>
    let (q, result) := (q.push a : _ × Except (Fault α) Unit)
    (a, .ofPush result) :: entries q rest

/-- What alerts that are put into a queue change, told from their entries in the ledger. -/
structure Takes (q q' : BoundedQueue (Alert α)) (as : List (Alert α)) (l : Ledger α) : Prop where
  alerts : l.map (·.1) = as
  items : q'.items.toList = q.items.toList ++ l.pending
  capacity : q'.capacity = q.capacity
  hasReceiver : q'.hasReceiver = q.hasReceiver
  enqueued : q'.enqueued = q.enqueued + l.pending.length
  dropped : q'.dropped = q.dropped + l.countP (·.2.isFull)
  completed : q'.completed = q.completed
  room : q.items.size ≤ q.capacity → q'.items.size ≤ q.capacity
  result : ∀ x ∈ l, x.2.result? = none
  lost : ∀ x ∈ l, x.2.isLost = false
  /-- While there is a receiver no alert is refused for good, and after that all are. -/
  final : ∀ x ∈ l, x.2.isFinal = !q.hasReceiver

namespace Takes

variable {q q' q'' : BoundedQueue (Alert α)} {as bs : List (Alert α)} {l r : Ledger α}

theorem nil (q : BoundedQueue (Alert α)) : Takes q q [] [] := by
  constructor <;> simp [Ledger.pending]

theorem append (h : Takes q q' as l) (h' : Takes q' q'' bs r) : Takes q q'' (as ++ bs) (l ++ r) where
  alerts := by rw [List.map_append, h.alerts, h'.alerts]
  items := by rw [h'.items, h.items, Ledger.pending_append, List.append_assoc]
  capacity := h'.capacity.trans h.capacity
  hasReceiver := h'.hasReceiver.trans h.hasReceiver
  enqueued := by rw [h'.enqueued, h.enqueued, Ledger.pending_append, List.length_append, Nat.add_assoc]
  dropped := by rw [h'.dropped, h.dropped, List.countP_append, Nat.add_assoc]
  completed := h'.completed.trans h.completed
  room hq := h.capacity ▸ h'.room (h.capacity ▸ h.room hq)
  result x hx := (List.mem_append.mp hx).elim (h.result x) (h'.result x)
  lost x hx := (List.mem_append.mp hx).elim (h.lost x) (h'.lost x)
  final x hx := (List.mem_append.mp hx).elim (h.final x) fun hx => h.hasReceiver ▸ h'.final x hx

end Takes

/-- An alert is refused if there is no receiver or no room, and goes last otherwise. -/
theorem takes_push (q : BoundedQueue (Alert α)) (a : Alert α) :
    Takes q (q.push a : _ × Except (Fault α) Unit).1 [a]
      [(a, .ofPush (q.push a : _ × Except (Fault α) Unit).2)] := by
  rcases q.push_cases (α := α) a with ⟨hr, heq⟩ | ⟨hr, -, heq⟩ | ⟨hr, hroom, heq⟩
  · rw [heq]
    constructor <;> simp [Ledger.pending, Fate.ofPush, Fate.isPending, Fate.isFull, Fate.result?,
      Fate.isLost, Fate.isFinal, hr]
  · rw [heq]
    constructor <;> simp [Ledger.pending, Fate.ofPush, Fate.isPending, Fate.isFull, Fate.result?,
      Fate.isLost, Fate.isFinal, hr]
  · have hsize : (q.items.push a).size ≤ q.capacity := by
      rw [Fifo.size_eq_length, Fifo.toList_push, List.length_append]
      exact hroom
    rw [heq]
    constructor <;> simp [Ledger.pending, Fate.ofPush, Fate.isPending, Fate.isFull, Fate.result?,
      Fate.isLost, Fate.isFinal, hr, hsize]

theorem takes_pushAll (q : BoundedQueue (Alert α)) (as : List (Alert α)) :
    Takes q (q.pushAll as) as (q.entries as) := by
  induction as generalizing q with
  | nil => exact Takes.nil q
  | cons a rest ih => exact (q.takes_push a).append (ih _)

end BoundedQueue

def Notice.alert? : Notice α → Option (Alert α)
  | .alert a => some a
  | _ => none

def Notice.outcome? : Notice α → Option (Alert α × Outcome α)
  | .outcome a o _ => some (a, o)
  | _ => none

def Desk.alerts (d : Desk α) : List (Alert α) := d.journal.toList.filterMap Notice.alert?

def Desk.outcomes (d : Desk α) : List (Alert α × Outcome α) :=
  d.journal.toList.filterMap Notice.outcome?

theorem Audience.faults_append (audience : Audience α) (before : Nat) (ns ms : List (Notice α)) :
    audience.faults before (ns ++ ms) =
      audience.faults before ns ++ audience.faults (before + ns.length) ms := by
  induction ns generalizing before with
  | nil => rfl
  | cons n ns ih =>
    rw [List.cons_append, faults, faults, ih, List.append_assoc, List.length_cons,
      Nat.add_assoc, Nat.add_comm 1]

namespace Desk

theorem note_append (d : Desk α) (ns ms : List (Notice α)) :
    d.note (ns ++ ms) = (d.note ns).note ms := by
  have hjournal : d.journal ++ (ns ++ ms) = d.journal ++ ns ++ ms := by
    apply Array.ext'
    simp
  have hsize : (d.journal ++ ns).size = d.journal.size + ns.length := by
    rw [← Array.length_toList, Array.toList_appendList, List.length_append, Array.length_toList]
  have hwarnings (n : Nat) : d.warnings ++ d.audience.faults n (ns ++ ms) =
      d.warnings ++ d.audience.faults n ns ++ d.audience.faults (n + ns.length) ms := by
    apply Array.ext'
    simp [Audience.faults_append]
  unfold note
  simp only [hjournal, hsize, hwarnings]

theorem publishAll_fst (d : Desk α) (as : List (Alert α)) :
    (d.publishAll as).1 = { d.note (as.map .alert) with queue := d.queue.pushAll as } := by
  induction as generalizing d with
  | nil => simp [publishAll, note, BoundedQueue.pushAll, Audience.faults]
  | cons a rest ih =>
    show ((d.publish a).1.publishAll rest).1 = _
    rw [ih, List.map_cons, ← List.singleton_append, note_append]
    rfl

/-- The alerts that are listed as taken are those that wait in the queue from then on. -/
theorem publishAll_snd (d : Desk α) (as : List (Alert α)) :
    (d.publishAll as).2 = (d.queue.entries as).pending := by
  induction as generalizing d with
  | nil => rfl
  | cons a rest ih =>
    have htaken (result : Except (Fault α) Unit) : (Fate.ofPush result).isPending = result.isOk := by
      rcases result with fault | _
      · cases fault <;> rfl
      · rfl
    show (if (d.publish a).2 then a :: ((d.publish a).1.publishAll rest).2
      else ((d.publish a).1.publishAll rest).2) = _
    rw [ih, BoundedQueue.entries, Ledger.pending_cons, htaken]
    rfl

theorem alerts_note (d : Desk α) (ns : List (Notice α)) :
    (d.note ns).alerts = d.alerts ++ ns.filterMap Notice.alert? := by
  simp [alerts, note]

theorem outcomes_note (d : Desk α) (ns : List (Notice α)) :
    (d.note ns).outcomes = d.outcomes ++ ns.filterMap Notice.outcome? := by
  simp [outcomes, note]

theorem filterMap_alert?_noticesOf (listening : Bool) (emitted : List (Emitted α)) :
    (noticesOf listening emitted).filterMap Notice.alert? = [] := by
  cases listening <;> simp [noticesOf, List.filterMap_map, Function.comp_def, Notice.alert?]

theorem filterMap_outcome?_noticesOf (listening : Bool) (emitted : List (Emitted α)) :
    (noticesOf listening emitted).filterMap Notice.outcome? = [] := by
  cases listening <;> simp [noticesOf, List.filterMap_map, Function.comp_def, Notice.outcome?]

variable [Scalar α]

theorem ingest_fst (d : Desk α) (now : Nat) (b : Bar α) :
    (d.ingest now b).1 =
      { d.note (noticesOf d.audience.listening (d.market.ingest d.classifier.underlying b).2 ++
          (d.market.raised d.classifier now b).map .alert) with
        market := (d.market.ingest d.classifier.underlying b).1
        queue := d.queue.pushAll (d.market.raised d.classifier now b) } := by
  unfold ingest
  rw [publishAll_fst, note_append]
  rfl

theorem ingest_snd (d : Desk α) (now : Nat) (b : Bar α) :
    (d.ingest now b).2 = (d.queue.entries (d.market.raised d.classifier now b)).pending :=
  publishAll_snd _ _

theorem alerts_ingest (d : Desk α) (now : Nat) (b : Bar α) :
    (d.ingest now b).1.alerts = d.alerts ++ d.market.raised d.classifier now b := by
  rw [ingest_fst]
  refine (alerts_note d _).trans ?_
  rw [List.filterMap_append, filterMap_alert?_noticesOf, List.nil_append, List.filterMap_map]
  simp [Function.comp_def, Notice.alert?]

theorem outcomes_ingest (d : Desk α) (now : Nat) (b : Bar α) :
    (d.ingest now b).1.outcomes = d.outcomes := by
  rw [ingest_fst]
  refine (outcomes_note d _).trans ?_
  rw [List.filterMap_append, filterMap_outcome?_noticesOf, List.nil_append, List.filterMap_map]
  simp [Function.comp_def, Notice.outcome?]

theorem alerts_record (d : Desk α) (a : Alert α) (o : Outcome α) :
    (d.record a o).alerts = d.alerts := by
  simp [record, tally, note, alerts, Notice.alert?]

theorem outcomes_record (d : Desk α) (a : Alert α) (o : Outcome α) :
    (d.record a o).outcomes = d.outcomes ++ [(a, o)] := by
  simp [record, tally, note, outcomes, Notice.outcome?]

end Desk

end VolumeWatch
