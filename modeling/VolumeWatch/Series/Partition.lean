/-!
Search in an array that starts with the entries that satisfy a test.

Main statement: where the test holds exactly for the first `n` entries, the search finds `n`
(`partitionPoint_eq`).
-/

namespace VolumeWatch

variable {β : Type}

/-- The test holds for the entry at an index. -/
def holdsAt (p : β → Bool) (xs : Array β) (i : Nat) : Bool := xs[i]?.any p

/-- Halve the stretch of `size` entries from `base` on until one entry is left. -/
def narrow (p : β → Bool) (xs : Array β) (base size : Nat) : Nat :=
  if size ≤ 1 then base
  else if holdsAt p xs (base + size / 2) then narrow p xs (base + size / 2) (size - size / 2)
  else narrow p xs base (size - size / 2)
termination_by size

/-- Number of entries at the start of the array that satisfy the test. -/
def partitionPoint (p : β → Bool) (xs : Array β) : Nat :=
  let base := narrow p xs 0 xs.size
  if holdsAt p xs base then base + 1 else base

theorem narrow_bounds {p : β → Bool} {xs : Array β} {n : Nat}
    (h : ∀ i < xs.size, holdsAt p xs i ↔ i < n) (base size : Nat) (hs : 0 < size)
    (hsize : base + size ≤ xs.size) (hlow : base = 0 ∨ base < n) (hhigh : n ≤ base + size) :
    narrow p xs base size < xs.size ∧ (narrow p xs base size = 0 ∨ narrow p xs base size < n) ∧
      n ≤ narrow p xs base size + 1 := by
  fun_induction narrow p xs base size with
  | case1 base size hle => exact ⟨by omega, hlow, by omega⟩
  | case2 base size hle hp ih =>
    have hmid := (h (base + size / 2) (by omega)).mp hp
    exact ih (by omega) (by omega) (Or.inr hmid) (by omega)
  | case3 base size hle hp ih =>
    have hmid := mt (h (base + size / 2) (by omega)).mpr hp
    exact ih (by omega) (by omega) hlow (by omega)

/-- The search finds the boundary that the test draws. -/
theorem partitionPoint_eq {p : β → Bool} {xs : Array β} {n : Nat} (hn : n ≤ xs.size)
    (h : ∀ i < xs.size, holdsAt p xs i ↔ i < n) : partitionPoint p xs = n := by
  unfold partitionPoint
  by_cases hs : xs.size = 0
  · have hz : narrow p xs 0 xs.size = 0 := by rw [narrow, if_pos (by omega)]
    have hf : holdsAt p xs 0 = false := by simp [holdsAt, hs]
    simp only [hz, hf]
    simp
    omega
  · obtain ⟨hlt, hlow, hhigh⟩ :=
      narrow_bounds h 0 xs.size (by omega) (by omega) (Or.inl rfl) (by omega)
    have := h _ hlt
    by_cases hp : holdsAt p xs (narrow p xs 0 xs.size)
    · have := this.mp hp
      simp only [hp, if_true]
      omega
    · have := mt this.mpr hp
      simp only [hp]
      simp
      omega

end VolumeWatch
