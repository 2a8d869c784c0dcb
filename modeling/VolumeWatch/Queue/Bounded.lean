import VolumeWatch.Fault.Basic
import VolumeWatch.Queue.Fifo

/-!
Bounded queues between senders and one receiver.

A push never waits: it is refused when the queue is full, and when the receiver is gone. The queue
counts the items that it took, the ones that it refused because it was full, and the ones that the
receiver is done with.
-/

namespace VolumeWatch

structure BoundedQueue (β : Type) where
  capacity : Nat
  /-- Items that were taken and not yet received. -/
  items : Fifo β
  senders : Nat
  hasReceiver : Bool
  enqueued : Nat
  dropped : Nat
  completed : Nat

/-- What a receiver finds: an item, nothing so far, or that nothing will come any more. -/
inductive Received (β : Type) where
  | item (b : β)
  | empty
  | ended

namespace BoundedQueue

variable {α β : Type}

/-- The most items that a queue can have room for. -/
def capacityBound : Nat := Nat.pow 2 61 - 1

/-- An empty queue with one sender. There is always room for one item. -/
def ofCapacity (capacity : Nat) : BoundedQueue β where
  capacity := max capacity 1
  items := ∅
  senders := 1
  hasReceiver := true
  enqueued := 0
  dropped := 0
  completed := 0

/-- An empty queue with one sender, if there can be as much room. -/
def ofCapacity? (capacity : Nat) : Option (BoundedQueue β) :=
  if max capacity 1 ≤ capacityBound then some (ofCapacity capacity) else none

def isFull (q : BoundedQueue β) : Bool := q.capacity ≤ q.items.size

/-- The item goes in and is counted in one step: nobody sees the one without the other. -/
def push (q : BoundedQueue β) (b : β) : BoundedQueue β × Except (Fault α) Unit :=
  if !q.hasReceiver then (q, .error .queueClosed)
  else if q.isFull then ({ q with dropped := q.dropped + 1 }, .error (.queueFull q.capacity))
  else ({ q with items := q.items.push b, enqueued := q.enqueued + 1 }, .ok ())

def receive (q : BoundedQueue β) : BoundedQueue β × Received β :=
  match q.items.pop? with
  | some (b, items) => ({ q with items }, .item b)
  | none => (q, if q.senders = 0 then .ended else .empty)

/-- The receiver is done with an item. -/
def complete (q : BoundedQueue β) : BoundedQueue β := { q with completed := q.completed + 1 }

/-- Items that were taken and that the receiver is not done with, both counts as of one moment. -/
def pending (q : BoundedQueue β) : Nat := q.enqueued - q.completed

def addSender (q : BoundedQueue β) : BoundedQueue β := { q with senders := q.senders + 1 }

def dropSender (q : BoundedQueue β) : BoundedQueue β := { q with senders := q.senders - 1 }

/-- The receiver goes, and with it the items that it did not receive. -/
def dropReceiver (q : BoundedQueue β) : BoundedQueue β :=
  { q with items := ∅, hasReceiver := false }

end BoundedQueue

end VolumeWatch
