import Mathlib.Data.List.Chain
import VolumeWatch.Outcome
import VolumeWatch.Proofs.Market.Feeds

/-!
Pace: where the bars of a contract follow each other without a gap, an alert on any timeframe has
the end of the bar that raised it as its reference time (`Market.Flagged.reference_eq_ends`), and an
earlier reference time has an earlier horizon (`OutcomeRule.horizon?_mono`).
-/

namespace VolumeWatch

open Calendar (Instant)

namespace Calendar.Instant

theorem nanos_addSeconds_lt (t : Instant) {d : Int} (h : 0 < d) :
    (t.addSeconds d).nanos < 1000000000 := by
  have := t.nanos_lt
  unfold addSeconds
  split
  · show t.nanos - 1000000000 < 1000000000
    omega
  · show t.nanos < 1000000000
    omega

theorem addSeconds_addSeconds (t : Instant) {d k : Int} (hd : 0 < d) (hk : 0 < k) :
    (t.addSeconds d).addSeconds k = t.addSeconds (d + k) := by
  rw [addSeconds_of_lt (t.nanos_addSeconds_lt hd)]
  apply key_inj
  unfold addSeconds
  by_cases hleap : 1000000000 ≤ t.nanos
  · rw [dif_pos (by omega), dif_pos (by omega)]
    simp only [key]
    omega
  · rw [dif_neg (by omega), dif_neg (by omega)]
    simp only [key]
    omega

/-- Outside leap seconds the order is kept by whole seconds. -/
theorem addSeconds_le_addSeconds {t u : Instant} (ht : t.nanos < 1000000000)
    (hu : u.nanos < 1000000000) (h : t ≤ u) (d : Int) : t.addSeconds d ≤ u.addSeconds d := by
  rw [addSeconds_of_lt ht, addSeconds_of_lt hu]
  simp only [le_iff, key] at h ⊢
  omega

end Calendar.Instant

variable {α : Type}

/-- An earlier reference time has an earlier horizon. -/
theorem OutcomeRule.horizon?_mono [Scalar α] {r : OutcomeRule α} {t u horizon later : Instant}
    (ht : t.nanos < 1000000000) (hu : u.nanos < 1000000000) (h : t ≤ u)
    (hhorizon : r.horizon? t = some horizon) (hlater : r.horizon? u = some later) :
    horizon ≤ later := by
  obtain ⟨d, hd, ht'⟩ := Option.bind_eq_some_iff.mp hhorizon
  obtain ⟨k, hk, hu'⟩ := Option.bind_eq_some_iff.mp hlater
  obtain rfl : d = k := Option.some.inj (hd.symm.trans hk)
  have sum {v w : Instant} (h : v.addSeconds? d = some w) : w = v.addSeconds d := by
    unfold Instant.addSeconds? at h
    simp only at h
    split at h
    · exact (Option.some.inj h).symm
    · simp at h
  rw [sum ht', sum hu']
  exact Instant.addSeconds_le_addSeconds ht hu h d

/-- The end of a bar of five seconds. -/
def Bar.ends (b : Bar α) : Instant := b.timestamp.addSeconds 5

/-- Every bar starts where the one before it ends. -/
def Gapless (bars : List (Bar α)) : Prop := bars.IsChain fun a b => b.timestamp = a.ends

instance (bars : List (Bar α)) : Decidable (Gapless bars) :=
  inferInstanceAs (Decidable (List.IsChain _ _))

/-- Bars come in the order in which they end. -/
def EndsInOrder (bars : List (Bar α)) : Prop := bars.Pairwise fun a b => a.ends ≤ b.ends

instance (bars : List (Bar α)) : Decidable (EndsInOrder bars) :=
  inferInstanceAs (Decidable (List.Pairwise _ _))

/-- Bars without a gap take five seconds each. -/
theorem Gapless.ends_last {bars : List (Bar α)} (h : Gapless bars) {first last : Bar α}
    (hfirst : bars.head? = some first) (hlast : bars.getLast? = some last) :
    last.ends = first.timestamp.addSeconds (5 * bars.length : Nat) := by
  induction bars generalizing first with
  | nil => simp at hfirst
  | cons a rest ih =>
    obtain rfl : a = first := Option.some.inj hfirst
    cases rest with
    | nil =>
      obtain rfl : a = last := Option.some.inj hlast
      rfl
    | cons b rest =>
      obtain ⟨hstep, hrest⟩ := List.isChain_cons_cons.mp h
      have hends := ih hrest rfl (by rwa [List.getLast?_cons_cons] at hlast)
      have hpos : (0 : Int) < (5 * (b :: rest).length : Nat) := by
        rw [List.length_cons]
        omega
      rw [hends, hstep, Bar.ends, Instant.addSeconds_addSeconds _ (by decide) hpos]
      congr 1
      simp only [List.length_cons]
      omega

theorem Timeframe.seconds_eq_parts (t : Timeframe) : t.seconds = 5 * t.parts := by
  cases t <;> rfl

namespace Market.Flagged

variable [Scalar α] {c : ContractId} {feed : List (Bar α)} {a : Alert α}

theorem nanos_reference_lt (h : Flagged c feed a) : a.reference.nanos < 1000000000 := by
  obtain ⟨bar, strike, tags, -, ha⟩ := h.made
  rw [ha]
  apply Instant.nanos_addSeconds_lt
  exact Int.natCast_pos.mpr a.timeframe.seconds_pos

/-- Where no bar of the contract is missing, the reference time is the end of the last one. -/
theorem reference_eq_ends (h : Flagged c feed a) (hfeed : Gapless (own c feed)) {last : Bar α}
    (hlast : (own c feed).getLast? = some last) : a.reference = last.ends := by
  obtain ⟨bar, strike, tags, hmade, ha⟩ := h.made
  obtain ⟨first, hfirst, -, htime, -⟩ := hmade.spans.first
  have hle : a.timeframe.parts ≤ (own c feed).length := by
    refine Nat.le_of_dvd ?_ h.whole
    exact List.length_pos_of_mem (List.mem_of_getLast? hlast)
  have hlength : ((own c feed).drop ((own c feed).length - a.timeframe.parts)).length =
      a.timeframe.parts := by
    rw [List.length_drop]
    omega
  have hpos := a.timeframe.parts_pos
  have hlast' : ((own c feed).drop ((own c feed).length - a.timeframe.parts)).getLast? =
      some last := by
    rw [List.getLast?_drop, if_neg (by omega), hlast]
  have hends := Gapless.ends_last (hfeed.drop _) hfirst hlast'
  rw [hends, hlength, ← Timeframe.seconds_eq_parts, ha, ← htime]
  rfl

end Market.Flagged

end VolumeWatch
