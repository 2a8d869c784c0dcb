import VolumeWatch.Calendar.Instant

/-!
Lengths of time: whole seconds, and nanoseconds below one second.

Main statements: adding whole seconds is `Instant.addSeconds` (`Instant.add_of_whole`), and a part
of a second leads beyond what its whole seconds reach (`Instant.addSeconds_lt_add`).
-/

namespace VolumeWatch.Calendar

structure Duration where
  seconds : Nat
  nanos : Nat
  nanos_lt : nanos < 1000000000
  deriving DecidableEq

namespace Duration

def ofSeconds (n : Nat) : Duration := ⟨n, 0, by decide⟩

def ofMillis (n : Nat) : Duration := ⟨n / 1000, n % 1000 * 1000000, by omega⟩

instance : Inhabited Duration := ⟨ofSeconds 0⟩

def inNanos (d : Duration) : Nat := d.seconds * 1000000000 + d.nanos

instance : LE Duration := ⟨fun d k => d.inNanos ≤ k.inNanos⟩
instance : DecidableLE Duration := fun d k => inferInstanceAs (Decidable (d.inNanos ≤ k.inNanos))

/-- There is no part of a second in it. -/
def IsWhole (d : Duration) : Prop := d.nanos = 0

instance (d : Duration) : Decidable d.IsWhole := inferInstanceAs (Decidable (d.nanos = 0))

theorem le_iff {d k : Duration} : d ≤ k ↔ d.inNanos ≤ k.inNanos := Iff.rfl

@[simp] theorem seconds_ofSeconds (n : Nat) : (ofSeconds n).seconds = n := rfl

theorem isWhole_ofSeconds (n : Nat) : (ofSeconds n).IsWhole := rfl

theorem IsWhole.eq_ofSeconds {d : Duration} (h : d.IsWhole) : d = ofSeconds d.seconds := by
  obtain ⟨s, n, hn⟩ := d
  obtain rfl : n = 0 := h
  rfl

theorem seconds_le {d k : Duration} (h : d ≤ k) : d.seconds ≤ k.seconds := by
  have := k.nanos_lt
  rw [le_iff, inNanos, inNanos] at h
  omega

theorem ne_zero_iff {d : Duration} : d ≠ ofSeconds 0 ↔ 0 < d.inNanos := by
  obtain ⟨s, n, hn⟩ := d
  simp only [ofSeconds, inNanos, ne_eq, Duration.mk.injEq]
  omega

end Duration

namespace Instant

/-- The instant a length of time later. A leap second is left once its end is reached. -/
def add (t : Instant) (d : Duration) : Instant :=
  if h : d.seconds = 0 ∧ 1000000000 ≤ t.nanos ∧ t.nanos + d.nanos < 2000000000 then
    { t with nanos := t.nanos + d.nanos, nanos_lt := h.2.2 }
  else
    let nanos := t.nanos % 1000000000 + d.nanos
    ⟨t.seconds + d.seconds + (nanos / 1000000000 : Nat), nanos % 1000000000, by omega⟩

variable {t : Instant} {d k : Duration}

theorem add_of_whole (h : d.IsWhole) : t.add d = t.addSeconds d.seconds := by
  have := t.nanos_lt
  apply key_inj
  unfold Duration.IsWhole at h
  unfold add addSeconds
  split <;> split <;> simp only [key] <;> omega

/-- Later by a part of a second at least. -/
theorem addSeconds_lt_add (h : ¬ d.IsWhole) : t.addSeconds d.seconds < t.add d := by
  have := t.nanos_lt
  have := d.nanos_lt
  unfold Duration.IsWhole at h
  rw [lt_iff, add, addSeconds]
  by_cases hstays : d.seconds = 0 ∧ 1000000000 ≤ t.nanos ∧ t.nanos + d.nanos < 2000000000
  · rw [dif_pos hstays, dif_neg (by omega)]
    simp only [key]
    omega
  · rw [dif_neg hstays]
    split <;> simp only [key] <;> omega

theorem addSeconds_le_add (t : Instant) (d : Duration) : t.addSeconds d.seconds ≤ t.add d := by
  by_cases h : d.IsWhole
  · rw [add_of_whole h]
    exact le_refl _
  · exact Int.le_of_lt (addSeconds_lt_add h)

theorem le_add (t : Instant) (d : Duration) : t ≤ t.add d :=
  le_trans (t.le_addSeconds (Int.natCast_nonneg _)) (t.addSeconds_le_add d)

/-- The whole seconds of a length of time reach as far as all of it if there is nothing else. -/
theorem addSeconds_eq_add_iff : t.addSeconds d.seconds = t.add d ↔ d.IsWhole := by
  refine ⟨fun heq => Decidable.byContradiction fun h => ?_, fun h => (add_of_whole h).symm⟩
  exact Int.ne_of_lt (addSeconds_lt_add h) (congrArg key heq)

end Instant

end VolumeWatch.Calendar
