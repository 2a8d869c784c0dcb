import VolumeWatch.Session

/-!
Hours of sessions. A time of day has the slot whose hour it falls into, if it lies within the
session and the hour is one that has a slot (`Session.slotAt?_eq_some_iff`). The number of hours is
taken from whole seconds, so that a session with more than whole seconds can last up to a second
longer than its slots do. Otherwise all of it has slots (`Session.Fits`).
-/

namespace VolumeWatch

open Calendar (ClockTime Instant Zone Zones)

theorem bind_eq_ok_iff {ε β γ : Type} {x : Except ε β} {f : β → Except ε γ} {c : γ} :
    (x >>= f) = .ok c ↔ ∃ b, x = .ok b ∧ f b = .ok c := by
  cases x with
  | error e => simp [bind, Except.bind]
  | ok b => simp [bind, Except.bind]

theorem mapError_eq_ok_iff {ε ε' β : Type} {f : ε → ε'} {x : Except ε β} {b : β} :
    x.mapError f = .ok b ↔ x = .ok b := by
  cases x with
  | error e => exact iff_of_false nofun nofun
  | ok b' =>
    exact ⟨fun h => congrArg Except.ok (Except.ok.inj h),
      fun h => congrArg Except.ok (Except.ok.inj h)⟩

namespace Calendar.ClockTime

/-- The time is not in a leap second. -/
def IsPlain (c : ClockTime) : Prop := c.nanos < 1000000000

instance (c : ClockTime) : Decidable c.IsPlain := inferInstanceAs (Decidable (c.nanos < 1000000000))

/-- Nanoseconds from midnight. -/
def sinceMidnight (c : ClockTime) : Nat := c.second * 1000000000 + c.nanos

variable {a b : ClockTime}

theorem lt_iff_sinceMidnight (ha : a.IsPlain) (hb : b.IsPlain) :
    a < b ↔ a.sinceMidnight < b.sinceMidnight := by
  unfold IsPlain at ha hb
  simp only [lt_iff, key, sinceMidnight]
  omega

theorem le_iff_sinceMidnight (ha : a.IsPlain) (hb : b.IsPlain) :
    a ≤ b ↔ a.sinceMidnight ≤ b.sinceMidnight := by
  unfold IsPlain at ha hb
  simp only [le_iff, key, sinceMidnight]
  omega

theorem secondsSince_eq (a b : ClockTime) :
    a.secondsSince b = (a.sinceMidnight - b.sinceMidnight) / 1000000000 := rfl

end Calendar.ClockTime

namespace Session

def slotNanos : Nat := slotSeconds * 1000000000

/-- Nanoseconds that the slots of a session take together. -/
def slotsNanos : Nat := Category.cardinality SessionSlot * slotNanos

/-- The time is in an hour of the session, counted from zero. -/
structure InHour (s : Session) (hour : Nat) (c : ClockTime) : Prop where
  begun : s.opening.sinceMidnight + hour * slotNanos ≤ c.sinceMidnight
  lasting : c.sinceMidnight < s.opening.sinceMidnight + (hour + 1) * slotNanos

/-- The session does not last longer than its slots. -/
def Fits (s : Session) : Prop := s.closing.sinceMidnight ≤ s.opening.sinceMidnight + slotsNanos

variable {zones : Zones} {zone : Zone} {opening closing c : ClockTime} {s : Session} {slot : SessionSlot}

theorem ofHours_eq_ok_iff : ofHours zone opening closing = .ok s ↔
    s = ⟨zone, opening, closing⟩ ∧ opening < closing ∧
      slots opening closing ≤ Category.cardinality SessionSlot := by
  unfold ofHours
  split
  · rename_i hle
    refine iff_of_false nofun ?_
    rintro ⟨-, hlt, -⟩
    exact absurd hle (Nat.not_le.mpr hlt)
  · rename_i hlt
    split
    · rename_i hslots
      refine iff_of_false nofun ?_
      rintro ⟨-, -, hle⟩
      exact absurd hslots (Nat.not_lt.mpr hle)
    · rename_i hslots
      rw [Except.ok.injEq]
      exact ⟨fun h => ⟨h.symm, Nat.not_le.mp hlt, Nat.not_lt.mp hslots⟩, fun h => h.1.symm⟩

theorem slotNanos_eq : slotNanos = 3600000000000 := rfl

theorem slotsNanos_eq : slotsNanos = 25200000000000 := rfl

theorem containsClock_iff (ho : s.opening.IsPlain) (hs : s.closing.IsPlain) (hc : c.IsPlain) :
    s.containsClock c ↔ s.opening.sinceMidnight ≤ c.sinceMidnight ∧
      c.sinceMidnight < s.closing.sinceMidnight := by
  rw [containsClock, Bool.and_eq_true, decide_eq_true_iff, decide_eq_true_iff,
    ClockTime.le_iff_sinceMidnight ho hc, ClockTime.lt_iff_sinceMidnight hc hs]

/-- The hour of a time is the number of whole hours since the opening. -/
theorem hour_eq_iff (h : s.opening.sinceMidnight ≤ c.sinceMidnight) {hour : Nat} :
    c.secondsSince s.opening / slotSeconds = hour ↔ s.InHour hour c := by
  rw [ClockTime.secondsSince_eq, show slotSeconds = 3600 from rfl]
  constructor
  · intro heq
    constructor <;> rw [slotNanos_eq] <;> omega
  · rintro ⟨hbegun, hlasting⟩
    rw [slotNanos_eq] at hbegun hlasting
    omega

theorem slotAt?_of_containsClock (h : s.containsClock c) :
    s.slotAt? c = Category.ofOrdinal? (c.secondsSince s.opening / slotSeconds) := by
  simp only [containsClock, Bool.and_eq_true, decide_eq_true_eq] at h
  exact if_neg (not_or.mpr ⟨Nat.not_lt.mpr h.1, Nat.not_le.mpr h.2⟩)

theorem containsClock_of_slotAt? (h : s.slotAt? c = some slot) : s.containsClock c := by
  unfold slotAt? at h
  split at h
  · cases h
  · rename_i hhours
    rw [not_or] at hhours
    simp only [containsClock, Bool.and_eq_true, decide_eq_true_eq]
    exact ⟨Nat.not_lt.mp hhours.1, Nat.not_le.mp hhours.2⟩

/-- A time within the session has the slot of its hour. -/
theorem slotAt?_eq_some_iff (ho : s.opening.IsPlain) (hs : s.closing.IsPlain) (hc : c.IsPlain) :
    s.slotAt? c = some slot ↔ s.containsClock c ∧ s.InHour (Category.ordinal slot) c := by
  constructor
  · intro h
    have hcontains := containsClock_of_slotAt? h
    rw [slotAt?_of_containsClock hcontains, Category.ofOrdinal?_eq_some_iff] at h
    exact ⟨hcontains, (hour_eq_iff ((containsClock_iff ho hs hc).mp hcontains).1).mp h.symm⟩
  · rintro ⟨hcontains, hhour⟩
    rw [slotAt?_of_containsClock hcontains, Category.ofOrdinal?_eq_some_iff]
    exact ((hour_eq_iff ((containsClock_iff ho hs hc).mp hcontains).1).mpr hhour).symm

/-- The times that have a slot are those of the session in the hours that have one. -/
theorem isSome_slotAt?_iff (ho : s.opening.IsPlain) (hs : s.closing.IsPlain) (hc : c.IsPlain) :
    (s.slotAt? c).isSome ↔ s.containsClock c ∧
      c.sinceMidnight < s.opening.sinceMidnight + slotsNanos := by
  constructor
  · intro h
    obtain ⟨slot, hslot⟩ := Option.isSome_iff_exists.mp h
    obtain ⟨hcontains, -, hlasting⟩ := (slotAt?_eq_some_iff ho hs hc).mp hslot
    have hordinal : Category.ordinal slot < 7 := Category.ordinal_lt slot
    rw [slotNanos_eq] at hlasting
    rw [slotsNanos_eq]
    exact ⟨hcontains, by omega⟩
  · rintro ⟨hcontains, hlt⟩
    have hopen := ((containsClock_iff ho hs hc).mp hcontains).1
    have hhour := (hour_eq_iff hopen).mp rfl
    have hbegun := hhour.begun
    rw [slotNanos_eq] at hbegun
    rw [slotsNanos_eq] at hlt
    rw [slotAt?_of_containsClock hcontains, Option.isSome_iff_ne_none, ne_eq,
      Category.ofOrdinal?_eq_none_iff, Nat.not_le]
    have hseven : Category.cardinality SessionSlot = 7 := rfl
    omega

/-- All of a session that fits has slots. -/
theorem Fits.isSome_slotAt?_iff (h : s.Fits) (ho : s.opening.IsPlain) (hs : s.closing.IsPlain)
    (hc : c.IsPlain) : (s.slotAt? c).isSome ↔ s.containsClock c := by
  rw [Session.isSome_slotAt?_iff ho hs hc, and_iff_left_iff_imp]
  intro hcontains
  exact Nat.lt_of_lt_of_le ((containsClock_iff ho hs hc).mp hcontains).2 h

/-- A session that does not fit has no slot for the time at which its slots are over. -/
theorem fits_of_forall (ho : s.opening.IsPlain) (hs : s.closing.IsPlain)
    (h : ∀ c : ClockTime, c.IsPlain → s.containsClock c → (s.slotAt? c).isSome) : s.Fits := by
  apply Classical.byContradiction
  intro hlong
  have hover : (⟨s.opening.second + 25200, s.opening.nanos⟩ : ClockTime).sinceMidnight =
      s.opening.sinceMidnight + slotsNanos := by
    simp only [ClockTime.sinceMidnight, slotsNanos_eq]
    omega
  have hplain : (⟨s.opening.second + 25200, s.opening.nanos⟩ : ClockTime).IsPlain := ho
  have hcontains := (containsClock_iff ho hs hplain).mpr
    ⟨by omega, by rw [hover]; exact Nat.not_le.mp hlong⟩
  have hlt := ((Session.isSome_slotAt?_iff ho hs hplain).mp (h _ hplain hcontains)).2
  omega

/-- The slots are counted from whole seconds. -/
theorem slots_le_iff : slots opening closing ≤ Category.cardinality SessionSlot ↔
    closing.sinceMidnight < opening.sinceMidnight + slotsNanos + 1000000000 := by
  have hslots : slots opening closing = (closing.secondsSince opening + 3599) / 3600 := rfl
  have hseven : Category.cardinality SessionSlot = 7 := rfl
  rw [hslots, hseven, slotsNanos_eq, ClockTime.secondsSince_eq]
  omega

/-- A session that is accepted fits if it lasts for whole seconds. -/
theorem fits_of_ofHours (h : ofHours zone opening closing = .ok s)
    (hnanos : opening.nanos = closing.nanos) : s.Fits := by
  obtain ⟨rfl, -, hslots⟩ := ofHours_eq_ok_iff.mp h
  rw [slots_le_iff] at hslots
  simp only [Fits, ClockTime.sinceMidnight, slotsNanos_eq] at hslots ⊢
  omega

theorem nanos_of_readTime {text : String} (h : readTime text = .ok c) : c.nanos = 0 := by
  have hread : ClockTime.ofHourMinute text = .ok c := mapError_eq_ok_iff.mp h
  simp only [ClockTime.ofHourMinute, bind_eq_ok_iff] at hread
  obtain ⟨_, -, _, -, _, -, hfinish⟩ := hread
  unfold Calendar.Scan.finish at hfinish
  split at hfinish
  · rw [← Except.ok.inj hfinish]
    rfl
  · cases hfinish

/-- A session is given as text by the name of its zone and the texts of its hours. -/
theorem ofText_eq_ok_iff {zoneName openingText closingText : String} :
    ofText zones zoneName openingText closingText = .ok s ↔
      zones zoneName = some s.zone ∧ readTime openingText = .ok s.opening ∧
        readTime closingText = .ok s.closing ∧ s.opening < s.closing ∧
        slots s.opening s.closing ≤ Category.cardinality SessionSlot := by
  simp only [ofText, bind_eq_ok_iff, ofHours_eq_ok_iff]
  constructor
  · rintro ⟨zone, hzone, opening, hopening, closing, hclosing, rfl, hlt, hslots⟩
    refine ⟨?_, hopening, hclosing, hlt, hslots⟩
    cases hname : zones zoneName with
    | none => simp [hname, throw, throwThe, MonadExceptOf.throw] at hzone
    | some zone' => simpa [hname, pure, Except.pure] using hzone
  · rintro ⟨hzone, hopening, hclosing, hlt, hslots⟩
    refine ⟨s.zone, ?_, s.opening, hopening, s.closing, hclosing, rfl, hlt, hslots⟩
    rw [hzone]
    rfl

/-- A session that is given as text fits, and so do the regular hours. -/
theorem fits_of_ofText {zoneName openingText closingText : String}
    (h : ofText zones zoneName openingText closingText = .ok s) : s.Fits := by
  obtain ⟨-, hopening, hclosing, hlt, hslots⟩ := ofText_eq_ok_iff.mp h
  exact fits_of_ofHours (ofHours_eq_ok_iff.mpr ⟨rfl, hlt, hslots⟩ : ofHours s.zone _ _ = _)
    ((nanos_of_readTime hopening).trans (nanos_of_readTime hclosing).symm)

end Session

end VolumeWatch
