import Mathlib.Algebra.BigOperators.Group.List.Basic
import VolumeWatch.Statistics.Basic

/-!
Totals over the entries of a map, and what an update adds to them. Main statement: recorded
outcomes are counted once among the combinations (`Statistics.alerts_recordAll`).
-/

namespace VolumeWatch

namespace SortedMap

variable {κ β M : Type} [Ranked κ] [AddCommMonoid M]

/-- What the entries of a map add up to. -/
def total (g : κ → β → M) (m : SortedMap κ β) : M := (m.toList.map fun x => g x.1 x.2).sum

/-- A new value of a key takes the place of the old one in a sum. -/
theorem total_insert (g : κ → β → M) (m : SortedMap κ β) (k : κ) (b : β) :
    (m.insert k b).total g + ((m.get? k).map (g k)).getD 0 = m.total g + g k b := by
  obtain ⟨l, hl⟩ := m
  simp only [total, insert, upsert, get?]
  induction l with
  | nil => simp [upsertList, lookup]
  | cons x rest ih =>
    obtain ⟨j, a⟩ := x
    obtain ⟨hx, hr⟩ := List.pairwise_cons.mp hl
    simp only [upsertList]
    split
    · rename_i hk
      -- the key is new, as all keys of the list are larger
      have hnone : lookup k ((j, a) :: rest) = none := by
        refine lookup_eq_none fun y hy => ?_
        rcases List.mem_cons.mp hy with rfl | hy
        · exact Nat.ne_of_lt hk
        · exact Nat.ne_of_lt (Nat.lt_trans hk (hx y hy))
      simp [hnone, add_comm]
    · split
      · rename_i hk
        obtain rfl := Ranked.rank_inj hk
        simp [lookup, add_comm, add_left_comm]
      · rename_i hk
        have := ih hr
        simp only [lookup, if_neg hk, List.map_cons, List.sum_cons, add_assoc]
        rw [this]

end SortedMap

namespace Statistics

variable {α : Type} [Scalar α]

/-- A recorded outcome adds to a sum what it adds to the entry of its key. -/
theorem total_recordAt {κ M : Type} [Ranked κ] [AddCommMonoid M] [IsRightCancelAdd M]
    {g : κ → Entry α → M} {w : κ → Outcome α → M} (hempty : ∀ k, g k ∅ = 0)
    (hrecord : ∀ k e o, g k (e.record o) = g k e + w k o) (m : SortedMap κ (Entry α)) (k : κ)
    (o : Outcome α) : (recordAt m k o).1.total g = m.total g + w k o := by
  have h : (recordAt m k o).1.total g + _ = _ := m.total_insert g k ((entryAt m k).record o)
  have hold : ((m.get? k).map (g k)).getD 0 = g k (entryAt m k) := by
    unfold entryAt
    cases m.get? k with
    | none => exact (hempty k).symm
    | some e => rfl
  rw [hold, hrecord, ← add_assoc, add_right_comm] at h
  exact add_right_cancel h

theorem alerts_record (s : Statistics α) (t : Tags) (o : Outcome α) :
    (s.record t o).snapshot.alerts = s.snapshot.alerts + 1 :=
  total_recordAt (g := fun _ e => e.alerts) (w := fun _ _ => 1) (fun _ => rfl) (fun _ _ _ => rfl)
    s.combinations t o

theorem alerts_recordAll (s : Statistics α) (os : List (Tags × Outcome α)) :
    (s.recordAll os).snapshot.alerts = s.snapshot.alerts + os.length := by
  induction os generalizing s with
  | nil => rfl
  | cons o os ih =>
    have hstep : s.recordAll (o :: os) = (s.record o.1 o.2).recordAll os := rfl
    rw [hstep, ih, alerts_record, List.length_cons]
    omega

end Statistics

end VolumeWatch
