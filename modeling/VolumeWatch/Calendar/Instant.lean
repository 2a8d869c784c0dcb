import VolumeWatch.Calendar.ClockTime
import VolumeWatch.Calendar.Date

/-!
Instants: seconds from the start of 1970 in universal time, and nanoseconds past the second, a
leap second being a second with more than a thousand million of them.

Main statements: instants are ordered linearly (`le_antisymm`, `le_total`), and adding whole
seconds to an instant outside leap seconds is addition of seconds (`addSeconds_of_lt`).
-/

namespace VolumeWatch.Calendar

structure Instant where
  seconds : Int
  nanos : Nat
  nanos_lt : nanos < 2000000000
  deriving DecidableEq

namespace Instant

instance : Inhabited Instant := ⟨⟨0, 0, by decide⟩⟩

/-- Instants in order, with room for a leap second after each second. -/
def key (t : Instant) : Int := t.seconds * 2000000000 + t.nanos

instance : LE Instant := ⟨fun a b => a.key ≤ b.key⟩
instance : LT Instant := ⟨fun a b => a.key < b.key⟩
instance : DecidableLE Instant := fun a b => inferInstanceAs (Decidable (a.key ≤ b.key))
instance : DecidableLT Instant := fun a b => inferInstanceAs (Decidable (a.key < b.key))

theorem le_iff {a b : Instant} : a ≤ b ↔ a.key ≤ b.key := Iff.rfl

theorem lt_iff {a b : Instant} : a < b ↔ a.key < b.key := Iff.rfl

theorem key_inj {a b : Instant} (h : a.key = b.key) : a = b := by
  obtain ⟨s, n, hn⟩ := a
  obtain ⟨t, m, hm⟩ := b
  simp only [key] at h hn hm
  obtain rfl : s = t := by omega
  obtain rfl : n = m := by omega
  rfl

theorem le_refl (a : Instant) : a ≤ a := Int.le_refl _

theorem le_trans {a b c : Instant} (h : a ≤ b) (k : b ≤ c) : a ≤ c := Int.le_trans h k

theorem le_antisymm {a b : Instant} (h : a ≤ b) (k : b ≤ a) : a = b :=
  key_inj (Int.le_antisymm h k)

theorem le_total (a b : Instant) : a ≤ b ∨ b ≤ a := Int.le_total _ _

theorem not_le {a b : Instant} : ¬ a ≤ b ↔ b < a := Int.not_le

theorem not_lt {a b : Instant} : ¬ a < b ↔ b ≤ a := Int.not_lt

def latest (a b : Instant) : Instant := if b < a then a else b

def ofMillis (ms : Int) : Instant :=
  ⟨ms / 1000, (ms % 1000).toNat * 1000000, by
    have := Int.emod_lt_of_pos ms (by decide : (0 : Int) < 1000)
    omega⟩

/-- Milliseconds from the start of 1970, rounded down. -/
def toMillis (t : Instant) : Int := t.seconds * 1000 + t.nanos / 1000000

/-- The instant some whole seconds later. Any whole number of seconds other than zero leaves a
leap second: forward from the second it follows, backward from the second it precedes. -/
def addSeconds (t : Instant) (d : Int) : Instant :=
  if h : 1000000000 ≤ t.nanos ∧ d ≠ 0 then
    { seconds := t.seconds + d + (if d < 0 then 1 else 0)
      nanos := t.nanos - 1000000000
      nanos_lt := by have := t.nanos_lt; omega }
  else { t with seconds := t.seconds + d }

theorem addSeconds_of_lt {t : Instant} (h : t.nanos < 1000000000) (d : Int) :
    t.addSeconds d = ⟨t.seconds + d, t.nanos, t.nanos_lt⟩ := by
  rw [addSeconds, dif_neg (by omega)]

/-- Adding a positive number of seconds gives a later instant. -/
theorem lt_addSeconds (t : Instant) {d : Int} (h : 0 < d) : t < t.addSeconds d := by
  have := t.nanos_lt
  rw [lt_iff, addSeconds]
  split <;> simp only [key] at * <;> omega

@[simp] theorem addSeconds_zero (t : Instant) : t.addSeconds 0 = t := by
  rw [addSeconds, dif_neg (by simp), Int.add_zero]

/-- More seconds lead to a later instant, also out of a leap second. -/
theorem addSeconds_mono (t : Instant) {d k : Int} (hd : 0 ≤ d) (h : d ≤ k) :
    t.addSeconds d ≤ t.addSeconds k := by
  rcases Int.lt_or_eq_of_le hd with hpos | rfl
  · rw [le_iff, addSeconds, addSeconds]
    by_cases hleap : 1000000000 ≤ t.nanos
    · rw [dif_pos ⟨hleap, by omega⟩, dif_pos ⟨hleap, by omega⟩]
      simp only [key]
      omega
    · rw [dif_neg (by omega), dif_neg (by omega)]
      simp only [key]
      omega
  · rw [addSeconds_zero]
    rcases Int.lt_or_eq_of_le h with hpos | rfl
    · exact Int.le_of_lt (t.lt_addSeconds hpos)
    · rw [addSeconds_zero]
      exact le_refl t

theorem le_addSeconds (t : Instant) {d : Int} (h : 0 ≤ d) : t ≤ t.addSeconds d := by
  have hmono := t.addSeconds_mono (Int.le_refl 0) h
  rwa [addSeconds_zero] at hmono

/-- The first instant that can be written, the start of the year -262143. -/
def first : Instant := ⟨-8334601228800, 0, by decide⟩

/-- The last instant that can be written, the end of the year 262142. -/
def last : Instant := ⟨8210266876799, 999999999, by decide⟩

/-- The seconds of the instant are those of an instant that can be written. -/
def inRange (t : Instant) : Bool := first.seconds ≤ t.seconds && t.seconds ≤ last.seconds

/-- The instant some whole seconds later, if it can be written. -/
def addSeconds? (t : Instant) (d : Int) : Option Instant :=
  let later := t.addSeconds d
  if later.inRange then some later else none

def date (t : Instant) : Date := Date.ofDays (t.seconds / 86400)

def clockTime (t : Instant) : ClockTime := ⟨(t.seconds % 86400).toNat, t.nanos⟩

end Instant

end VolumeWatch.Calendar
