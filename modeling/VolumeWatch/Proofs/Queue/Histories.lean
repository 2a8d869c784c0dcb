import VolumeWatch.Queue.Bounded

/-!
Histories of a bounded queue: what its senders and its receiver do, in any order, and what that
answers. The items that were taken are those that were received, those that still wait, and those
that went with the receiver, in this order (`BoundedQueue.Holds`).

Main statement: `BoundedQueue.fifo_history`.
-/

namespace VolumeWatch

variable {α β : Type}

namespace BoundedQueue

/-- What a sender or the receiver does. -/
inductive Move (β : Type) where
  | addSender
  | dropSender
  | push (b : β)
  | receive
  | complete
  | dropReceiver

/-- A move that was made, and its answer. -/
inductive Event (α β : Type) where
  | addedSender
  | droppedSender
  | pushed (b : β) (result : Except (Fault α) Unit)
  | received (answer : Received β)
  | completed
  | droppedReceiver

def step (q : BoundedQueue β) : Move β → BoundedQueue β × Event α β
  | .addSender => (q.addSender, .addedSender)
  | .dropSender => (q.dropSender, .droppedSender)
  | .push b => ((q.push (α := α) b).1, .pushed b (q.push b).2)
  | .receive => (q.receive.1, .received q.receive.2)
  | .complete => (q.complete, .completed)
  | .dropReceiver => (q.dropReceiver, .droppedReceiver)

def run (q : BoundedQueue β) : List (Move β) → BoundedQueue β × List (Event α β)
  | [] => (q, [])
  | m :: rest =>
    let (next, event) := (q.step (α := α) m)
    let (last, events) := (next.run rest : _ × List (Event α β))
    (last, event :: events)

namespace Event

def accepted? : Event α β → Option β
  | .pushed b (.ok _) => some b
  | _ => none

def received? : Event α β → Option β
  | .received (.item b) => some b
  | _ => none

def isFull : Event α β → Bool
  | .pushed _ (.error (.queueFull _)) => true
  | _ => false

def isCompleted : Event α β → Bool
  | .completed => true
  | _ => false

end Event

/-- The items that were taken, in the order of their pushes. -/
def accepted (events : List (Event α β)) : List β := events.filterMap Event.accepted?

/-- The items that were received, in the order in which they came. -/
def received (events : List (Event α β)) : List β := events.filterMap Event.received?

theorem accepted_concat (events : List (Event α β)) (e : Event α β) :
    accepted (events ++ [e]) = accepted events ++ e.accepted?.toList := by
  cases h : e.accepted? <;> simp [accepted, h]

theorem received_concat (events : List (Event α β)) (e : Event α β) :
    received (events ++ [e]) = received events ++ e.received?.toList := by
  cases h : e.received? <;> simp [received, h]

/-- The counters of a queue, told from what has happened. -/
structure Counts (q : BoundedQueue β) (events : List (Event α β)) : Prop where
  enqueued : q.enqueued = (accepted events).length
  dropped : q.dropped = events.countP Event.isFull
  completed : q.completed = events.countP Event.isCompleted

/-- What a queue has of the items it took. The `lost` ones were waiting when the receiver went. -/
structure Holds (q : BoundedQueue β) (events : List (Event α β)) (lost : List β) : Prop where
  items : accepted events = received events ++ q.items.toList ++ lost
  room : q.items.toList.length + lost.length ≤ q.capacity
  /-- A receiver loses nothing while it is there, and leaves nothing to wait for. -/
  alive : q.hasReceiver = true → lost = []
  gone : q.hasReceiver = false → q.items.toList = []

variable {q : BoundedQueue β} {events : List (Event α β)} {lost : List β}

section Steps

theorem push_cases (q : BoundedQueue β) (b : β) :
    (q.hasReceiver = false ∧
      q.push (α := α) b = (q, .error .queueClosed)) ∨
    (q.hasReceiver = true ∧ q.capacity ≤ q.items.toList.length ∧
      q.push (α := α) b =
        ({ q with dropped := q.dropped + 1 }, .error (.queueFull q.capacity))) ∨
    (q.hasReceiver = true ∧ q.items.toList.length < q.capacity ∧
      q.push (α := α) b =
        ({ q with items := q.items.push b, enqueued := q.enqueued + 1 }, .ok ())) := by
  unfold push
  cases hr : q.hasReceiver with
  | false => exact Or.inl ⟨rfl, rfl⟩
  | true =>
    rcases Nat.lt_or_ge q.items.toList.length q.capacity with hroom | hfull
    · simp [isFull, q.items.size_eq_length, hroom]
    · simp [isFull, q.items.size_eq_length, hfull]

theorem receive_cases (q : BoundedQueue β) :
    (∃ b items, q.items.toList = b :: items.toList ∧
      q.receive = ({ q with items }, .item b)) ∨
    (q.items.toList = [] ∧ (q.receive = (q, .ended) ∨ q.receive = (q, .empty))) := by
  unfold receive
  cases hpop : q.items.pop? with
  | none =>
    refine Or.inr ⟨Fifo.pop?_eq_none_iff.mp hpop, ?_⟩
    by_cases hsenders : q.senders = 0 <;> simp [hsenders]
  | some popped =>
    obtain ⟨b, items⟩ := popped
    exact Or.inl ⟨b, items, Fifo.toList_pop? hpop, rfl⟩

theorem capacity_step (q : BoundedQueue β) (m : Move β) :
    (q.step (α := α) m).1.capacity = q.capacity := by
  cases m with
  | push b =>
    show (q.push (α := α) b).1.capacity = q.capacity
    rcases q.push_cases (α := α) b with ⟨-, heq⟩ | ⟨-, -, heq⟩ | ⟨-, -, heq⟩ <;> rw [heq]
  | receive =>
    show q.receive.1.capacity = q.capacity
    rcases q.receive_cases with ⟨b, items, -, heq⟩ | ⟨-, heq | heq⟩ <;> rw [heq]
  | _ => rfl

/-- Only the receiver itself can go. -/
theorem hasReceiver_step (q : BoundedQueue β) (m : Move β) :
    (q.step (α := α) m).1.hasReceiver = true ↔ q.hasReceiver = true ∧ m ≠ .dropReceiver := by
  cases m with
  | push b =>
    show (q.push (α := α) b).1.hasReceiver = true ↔ _
    rcases q.push_cases (α := α) b with ⟨hr, heq⟩ | ⟨hr, -, heq⟩ | ⟨hr, -, heq⟩ <;>
      rw [heq] <;> simp [hr]
  | receive =>
    show q.receive.1.hasReceiver = true ↔ _
    rcases q.receive_cases with ⟨b, items, -, heq⟩ | ⟨-, heq | heq⟩ <;> rw [heq] <;> simp
  | _ => simp [BoundedQueue.step, addSender, dropSender, complete, dropReceiver]

theorem Counts.step (h : Counts q events) (m : Move β) :
    Counts (q.step (α := α) m).1 (events ++ [(q.step m).2]) := by
  obtain ⟨henqueued, hdropped, hcompleted⟩ := h
  cases m with
  | push b =>
    rcases q.push_cases (α := α) b with ⟨-, heq⟩ | ⟨-, -, heq⟩ | ⟨-, -, heq⟩ <;>
      constructor <;> simp [BoundedQueue.step, accepted_concat, Event.accepted?, Event.isFull,
        Event.isCompleted, *]
  | receive =>
    rcases q.receive_cases with ⟨b, items, -, heq⟩ | ⟨-, heq | heq⟩ <;>
      constructor <;> simp [BoundedQueue.step, accepted_concat, Event.accepted?, Event.isFull,
        Event.isCompleted, *]
  | _ =>
    constructor <;> simp [BoundedQueue.step, addSender, dropSender, complete, dropReceiver,
      accepted_concat, Event.accepted?, Event.isFull, Event.isCompleted, *]

/-- An event by which no item is taken, received or lost. -/
theorem Holds.quiet (h : Holds q events lost) {q' : BoundedQueue β} {e : Event α β}
    (hitems : q'.items = q.items) (hcapacity : q'.capacity = q.capacity)
    (hreceiver : q'.hasReceiver = q.hasReceiver) (hacc : e.accepted? = none)
    (hrec : e.received? = none) : Holds q' (events ++ [e]) lost where
  items := by simpa [accepted_concat, received_concat, hacc, hrec, hitems] using h.items
  room := by simpa [hitems, hcapacity] using h.room
  alive := by simpa [hreceiver] using h.alive
  gone := by simpa [hreceiver, hitems] using h.gone

/-- An item goes last if there is room for it. -/
theorem Holds.push (h : Holds q events lost) (b : β) :
    Holds (q.push (α := α) b).1 (events ++ [.pushed b (q.push b).2]) lost := by
  rcases q.push_cases (α := α) b with ⟨-, heq⟩ | ⟨-, -, heq⟩ | ⟨hr, hroom, heq⟩
  · rw [heq]
    exact h.quiet rfl rfl rfl rfl rfl
  · rw [heq]
    exact h.quiet rfl rfl rfl rfl rfl
  · obtain rfl := h.alive hr
    rw [heq]
    constructor
    case items =>
      simp [accepted_concat, received_concat, Event.accepted?, Event.received?, h.items]
    case room => simpa [Nat.succ_le_iff] using hroom
    case alive => simp
    case gone => simp [hr]

/-- The oldest item that waits is received. -/
theorem Holds.receive (h : Holds q events lost) :
    Holds q.receive.1 (events ++ [(.received q.receive.2 : Event α β)]) lost := by
  rcases q.receive_cases with ⟨b, items, hitems, heq⟩ | ⟨-, heq | heq⟩
  · rw [heq]
    constructor
    case items =>
      simp [accepted_concat, received_concat, Event.accepted?, Event.received?, h.items, hitems]
    case room =>
      have hroom := h.room
      rw [hitems, List.length_cons] at hroom
      show items.toList.length + lost.length ≤ q.capacity
      omega
    case alive => exact h.alive
    case gone =>
      intro hr
      have := h.gone hr
      simp [hitems] at this
  all_goals
    rw [heq]
    exact h.quiet rfl rfl rfl rfl rfl

/-- The items that still wait are lost with the receiver. -/
theorem Holds.dropReceiver (h : Holds q events lost) :
    Holds q.dropReceiver (events ++ [(.droppedReceiver : Event α β)]) (q.items.toList ++ lost) where
  items := by
    simpa [accepted_concat, received_concat, Event.accepted?, Event.received?,
      BoundedQueue.dropReceiver] using h.items
  room := by simpa [BoundedQueue.dropReceiver] using h.room
  alive := by simp [BoundedQueue.dropReceiver]
  gone := by simp [BoundedQueue.dropReceiver]

theorem Holds.step (h : Holds q events lost) (m : Move β) :
    ∃ lost, Holds (q.step (α := α) m).1 (events ++ [(q.step m).2]) lost := by
  cases m with
  | addSender => exact ⟨lost, h.quiet rfl rfl rfl rfl rfl⟩
  | dropSender => exact ⟨lost, h.quiet rfl rfl rfl rfl rfl⟩
  | push b => exact ⟨lost, h.push b⟩
  | receive => exact ⟨lost, h.receive⟩
  | complete => exact ⟨lost, h.quiet rfl rfl rfl rfl rfl⟩
  | dropReceiver => exact ⟨_, h.dropReceiver⟩

end Steps

section Runs

theorem run_cons (q : BoundedQueue β) (m : Move β) (rest : List (Move β)) :
    q.run (α := α) (m :: rest) =
      (((q.step (α := α) m).1.run (α := α) rest).1,
        (q.step m).2 :: ((q.step (α := α) m).1.run rest).2) :=
  rfl

theorem capacity_run (q : BoundedQueue β) (moves : List (Move β)) :
    (q.run (α := α) moves).1.capacity = q.capacity := by
  induction moves generalizing q with
  | nil => rfl
  | cons m rest ih => rw [run_cons, ih, capacity_step]

theorem hasReceiver_run (q : BoundedQueue β) (moves : List (Move β)) :
    (q.run (α := α) moves).1.hasReceiver = true ↔
      q.hasReceiver = true ∧ .dropReceiver ∉ moves := by
  induction moves generalizing q with
  | nil => simp [BoundedQueue.run]
  | cons m rest ih =>
    rw [run_cons, ih, hasReceiver_step, List.mem_cons, not_or, and_assoc, ne_comm]

theorem Counts.run (h : Counts q events) (moves : List (Move β)) :
    Counts (q.run (α := α) moves).1 (events ++ (q.run moves).2) := by
  induction moves generalizing q events with
  | nil => simpa [BoundedQueue.run] using h
  | cons m rest ih => simpa [run_cons] using ih (h.step m)

theorem Holds.run (h : Holds q events lost) (moves : List (Move β)) :
    ∃ lost, Holds (q.run (α := α) moves).1 (events ++ (q.run moves).2) lost := by
  induction moves generalizing q events lost with
  | nil => exact ⟨lost, by simpa [BoundedQueue.run] using h⟩
  | cons m rest ih =>
    obtain ⟨lost, hstep⟩ := h.step m
    simpa [run_cons] using ih hstep

theorem counts_ofCapacity (capacity : Nat) :
    Counts (ofCapacity capacity : BoundedQueue β) ([] : List (Event α β)) := by
  constructor <;> simp [ofCapacity, accepted]

theorem holds_ofCapacity (capacity : Nat) :
    Holds (ofCapacity capacity : BoundedQueue β) ([] : List (Event α β)) [] := by
  constructor <;> simp [ofCapacity, accepted, received]

/-- While there is a receiver, the items that were not received wait. -/
theorem Holds.length_accepted (h : Holds q events lost) (hr : q.hasReceiver = true) :
    (accepted events).length = (received events).length + q.items.toList.length := by
  rw [h.items, h.alive hr, List.append_nil, List.length_append]

/-- A push is refused where there is no receiver, or as many items wait as there is room for. -/
theorem Holds.push_snd (h : Holds q events lost) (b : β) :
    (q.push (α := α) b).2 =
      if q.hasReceiver = true then
        if (accepted events).length < (received events).length + q.capacity then .ok ()
        else .error (.queueFull q.capacity)
      else .error .queueClosed := by
  rcases q.push_cases (α := α) b with ⟨hr, heq⟩ | ⟨hr, hfull, heq⟩ | ⟨hr, hroom, heq⟩
  · simp [heq, hr]
  · simp [heq, hr, h.length_accepted hr, hfull]
  · simp [heq, hr, h.length_accepted hr, hroom]

/-- Whatever its senders and its receiver do, a queue gives its items out in the order in which it
took them, and never keeps more of them than there is room for. A push is refused once the receiver
is gone, and before that if as many items wait as there is room for. The counters count the pushes
that were taken, those that there was no room for, and the items that the receiver is done with. -/
theorem fifo_history (capacity : Nat) (moves : List (Move β)) {q : BoundedQueue β}
    {events : List (Event α β)} (h : (ofCapacity capacity).run moves = (q, events)) :
    received events <+: accepted events ∧
    (accepted events).length ≤ (received events).length + max capacity 1 ∧
    (∀ b, ((q.push (α := α) b).2 = .error (.queueFull (max capacity 1)) ↔
        .dropReceiver ∉ moves ∧
          (accepted events).length = (received events).length + max capacity 1) ∧
      ((q.push (α := α) b).2 = .error .queueClosed ↔ .dropReceiver ∈ moves) ∧
      ((q.push (α := α) b).2 = .ok () ↔
        .dropReceiver ∉ moves ∧
          (accepted events).length < (received events).length + max capacity 1) ∧
      (.dropReceiver ∈ moves → (q.push (α := α) b).1 = q)) ∧
    q.enqueued = (accepted events).length ∧
    q.dropped = events.countP Event.isFull ∧
    q.completed = events.countP Event.isCompleted ∧
    (events.countP Event.isCompleted ≤ (received events).length →
      q.pending + q.completed = q.enqueued) := by
  have hcapacity : _ = max capacity 1 := capacity_run (α := α) (ofCapacity capacity) moves
  have halive := hasReceiver_run (α := α) (ofCapacity capacity) moves
  have hcounts := (counts_ofCapacity (α := α) capacity).run moves
  obtain ⟨lost, hholds⟩ := (holds_ofCapacity (α := α) capacity).run moves
  rw [h] at hcapacity halive hcounts hholds
  dsimp only [List.nil_append] at hcapacity halive hcounts hholds
  have hitems := hholds.items
  rw [List.append_assoc] at hitems
  have hbounded : (accepted events).length ≤ (received events).length + max capacity 1 := by
    rw [hitems, List.length_append, List.length_append, ← hcapacity]
    exact Nat.add_le_add_left hholds.room _
  refine ⟨⟨_, hitems.symm⟩, hbounded, fun b => ?pushes, hcounts.enqueued, hcounts.dropped,
    hcounts.completed, fun hdone => ?pending⟩
  case pushes =>
    have hpush := hholds.push_snd b
    by_cases hgone : .dropReceiver ∈ moves
    · have hr : q.hasReceiver = false := by simpa [hgone] using halive
      simp [push, hr, hgone]
    · have hr : q.hasReceiver = true := halive.mpr ⟨rfl, hgone⟩
      rcases Nat.lt_or_eq_of_le hbounded with hlt | heq
      · simp [hpush, hr, hgone, hcapacity, hlt, Nat.ne_of_lt hlt]
      · simp [hpush, hr, hgone, hcapacity, heq]
  case pending =>
    have henqueued := hcounts.enqueued
    have hcompleted := hcounts.completed
    have hreceived : (received events).length ≤ (accepted events).length := by
      rw [hitems, List.length_append]
      exact Nat.le_add_right _ _
    unfold pending
    omega

/-- Three pushes by two senders where there is room for two, and one item that the receiver is done
with. -/
def threeForTwo : List (Move Nat) :=
  [.addSender, .push 0, .push 1, .push 2, .receive, .complete]

theorem fifo_history_threeForTwo :
    (((ofCapacity 2).run (α := Float) threeForTwo).1.push (α := Float) 3).2 = .ok () ∧
      ((ofCapacity 2).run (α := Float) threeForTwo).1.pending = 1 := by
  obtain ⟨-, -, hpush, henqueued, -, hcompleted, hpending⟩ :=
    fifo_history (α := Float) 2 threeForTwo rfl
  refine ⟨(hpush 3).2.2.1.mpr ⟨by simp [threeForTwo], by decide⟩, ?_⟩
  have hsum := hpending (by decide)
  rw [henqueued, hcompleted] at hsum
  exact Nat.add_right_cancel hsum

end Runs

end BoundedQueue

end VolumeWatch
