/-!
First-in first-out queues, kept as two lists so that both ends are at hand.

The view is `toList`, from the oldest item to the newest: `toList_push` and `toList_pop?` say
what the operations do to it.
-/

namespace VolumeWatch

structure Fifo (β : Type) where
  /-- The oldest items, the oldest first. -/
  front : List β
  /-- The newest items, the newest first. -/
  back : List β
  size : Nat
  size_eq : size = front.length + back.length

namespace Fifo

variable {β : Type}

def empty : Fifo β := ⟨[], [], 0, rfl⟩

instance : EmptyCollection (Fifo β) := ⟨empty⟩

instance : Inhabited (Fifo β) := ⟨∅⟩

def toList (q : Fifo β) : List β := q.front ++ q.back.reverse

def push (q : Fifo β) (b : β) : Fifo β where
  front := q.front
  back := b :: q.back
  size := q.size + 1
  size_eq := by simp [q.size_eq]; omega

/-- The oldest item and the queue without it. -/
def pop? (q : Fifo β) : Option (β × Fifo β) :=
  match hf : q.front with
  | b :: front => some (b, ⟨front, q.back, q.size - 1, by
      have := q.size_eq
      rw [hf] at this
      simp only [List.length_cons] at this
      omega⟩)
  | [] =>
    match hb : q.back.reverse with
    | [] => none
    | b :: front => some (b, ⟨front, [], q.size - 1, by
        have hl := congrArg List.length hb
        have := q.size_eq
        simp only [hf, List.length_nil, List.length_reverse, List.length_cons] at *
        omega⟩)

theorem size_eq_length (q : Fifo β) : q.size = q.toList.length := by
  simp [toList, q.size_eq]

@[simp] theorem toList_empty : (∅ : Fifo β).toList = [] := rfl

@[simp] theorem toList_push (q : Fifo β) (b : β) : (q.push b).toList = q.toList ++ [b] := by
  simp [toList, push]

theorem toList_pop? {q r : Fifo β} {b : β} (h : q.pop? = some (b, r)) :
    q.toList = b :: r.toList := by
  unfold pop? at h
  split at h
  · rename_i front hf
    obtain ⟨rfl, rfl⟩ := Prod.mk.inj (Option.some.inj h)
    simp [toList, hf]
  · rename_i hf
    split at h
    · simp at h
    · rename_i front hb
      obtain ⟨rfl, rfl⟩ := Prod.mk.inj (Option.some.inj h)
      simp [toList, hf, hb]

theorem pop?_eq_none_iff {q : Fifo β} : q.pop? = none ↔ q.toList = [] := by
  unfold pop?
  split
  · rename_i hf
    simp [toList, hf]
  · rename_i hf
    split
    · rename_i hb
      simp [toList, hf, hb]
    · rename_i hb
      simp [toList, hf, hb]

end Fifo

end VolumeWatch
