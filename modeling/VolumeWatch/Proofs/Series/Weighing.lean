import VolumeWatch.Proofs.Series.Flags

/-!
Weighing: the volume of a bar is looked at when the bar is put on its timeframe, while longer bars
may still have to be made (`Series.Puts`). What comes after that leaves the statistics of the
timeframe as they are, so that a volume that is looked at again when all bars are made has the same
deviation (`Series.Puts.deviations_ingest`).
-/

namespace VolumeWatch

variable {α : Type} [Scalar α]

theorem Timeframe.above_of_previous? {t u : Timeframe} (h : u.previous? = some t) :
    t.above = u :: u.above := by
  cases u <;> cases t <;> simp_all [previous?, above]

namespace Series

/-- While it takes the bar `b`, the series `s` puts a bar on a timeframe. The series is given as it
is just before. -/
inductive Puts (s : Series α) (b : Bar α) : Series α → Timeframe → Bar α → Prop where
  | taken : Puts s b s .s5 b
  | made {s' : Series α} {t u : Timeframe} {b' b'' : Bar α} : Puts s b s' t b' →
      u.previous? = some t → ((s'.emit t b').1.bars t).size % u.ratio = 0 →
      (s'.emit t b').1.derive u = .ok b'' → Puts s b (s'.emit t b').1 u b''

/-- Deviation of the volume of a bar that is put on a timeframe, its own volume included. -/
def weigh (s : Series α) (t : Timeframe) (b : Bar α) : α :=
  ((s.tier t).push b).volumes.deviations b.volume

/-- A bar is flagged by its deviation, if there are enough bars. -/
theorem anomalous_emit_iff (s : Series α) (t : Timeframe) (b : Bar α) :
    (s.emit t b).2.anomalous = true ↔ s.isUnderlying = false ∧
      (t.anomalyRule : AnomalyRule α).minSamples < (s.tier t).volumes.count + 1 ∧
      t.anomalyRule.threshold ≤ s.weigh t b := by
  rw [anomalous_emit, Tier.isUnusual, Bool.and_eq_true, AnomalyRule.eligible, decide_eq_true_eq,
    RunningStat.exceeds, decide_eq_true_eq]
  rfl

/-- Bars above a timeframe do not change it. -/
theorem tier_cascade (s : Series α) (below : Timeframe) {above : List Timeframe} {t : Timeframe}
    (h : t ∉ above) : (s.cascade below above).1.tier t = s.tier t := by
  induction above generalizing s below with
  | nil => rfl
  | cons u above ih =>
    obtain ⟨htu, habove⟩ := List.ne_and_not_mem_of_not_mem_cons h
    unfold cascade
    split
    · cases s.derive u with
      | error fault => rfl
      | ok b =>
        dsimp only
        rw [ih _ _ habove, tier_emit, if_neg htu]
    · rfl

namespace Puts

variable {s s' : Series α} {b b' : Bar α} {t : Timeframe}

/-- What is still to be done when a bar has been put on its timeframe. -/
theorem rest (h : Puts s b s' t b') :
    (s.ingest b).1 = ((s'.emit t b').1.cascade t t.above).1 ∧
    (s'.emit t b').2 :: ((s'.emit t b').1.cascade t t.above).2 <:+ (s.ingest b).2 := by
  induction h with
  | taken => exact ⟨rfl, List.suffix_rfl⟩
  | @made s' t u b' b'' _ hu hwhole hmade ih =>
    rw [Timeframe.above_of_previous? hu, cascade, if_pos hwhole, hmade] at ih
    obtain ⟨hseries, hemitted⟩ := ih
    exact ⟨hseries, (List.suffix_cons _ _).trans hemitted⟩

theorem of_mem_cascade (h : Puts s b s' t b') {e : Emitted α}
    (he : e ∈ ((s'.emit t b').1.cascade t t.above).2) :
    ∃ s'' u b'', Puts s b s'' u b'' ∧ (s''.emit u b'').2 = e := by
  generalize habove : t.above = above at he
  induction above generalizing s' t b' with
  | nil => cases he
  | cons u above ih =>
    obtain ⟨hu, rfl, -⟩ := Timeframe.above_eq_cons habove
    unfold cascade at he
    split at he
    · rename_i hwhole
      cases hmade : (s'.emit t b').1.derive u with
      | error fault =>
        rw [hmade] at he
        cases he
      | ok b'' =>
        rw [hmade] at he
        have hputs := h.made hu hwhole hmade
        rcases List.mem_cons.mp he with rfl | he
        · exact ⟨_, u, b'', hputs, rfl⟩
        · exact ih hputs rfl he
    · cases he

/-- The bars that are emitted are those that are put on timeframes. -/
theorem mem_ingest_iff {e : Emitted α} :
    e ∈ (s.ingest b).2 ↔ ∃ s' t b', Puts s b s' t b' ∧ (s'.emit t b').2 = e := by
  constructor
  · intro he
    rcases List.mem_cons.mp he with rfl | he
    · exact ⟨s, .s5, b, .taken, rfl⟩
    · exact of_mem_cascade .taken he
  · rintro ⟨s', t, b', h, rfl⟩
    exact h.rest.2.subset List.mem_cons_self

/-- A timeframe stays as it is once its bar has been put there. -/
theorem tier_ingest (h : Puts s b s' t b') : (s.ingest b).1.tier t = (s'.tier t).push b' := by
  have hnot : t ∉ t.above := by cases t <;> decide
  rw [h.rest.1, tier_cascade _ _ hnot, tier_emit, if_pos rfl]

/-- The deviation of a volume is the same when all bars are made. -/
theorem deviations_ingest (h : Puts s b s' t b') :
    ((s.ingest b).1.tier t).volumes.deviations b'.volume = s'.weigh t b' := by
  rw [h.tier_ingest, weigh]

end Puts

end Series

end VolumeWatch
