import VolumeWatch.Proofs.Series.Folding

/-!
Flags: which bars of a feed are found to be unusual. Each timeframe decides from the volumes of its
own bars so far, and nothing else enters (`Series.flags_from_volumes`).

The statistics of a timeframe are those of its bars in order, the last one included before its own
volume is looked at (`Series.Recorded`).
-/

namespace VolumeWatch

variable {α : Type} [Scalar α]

/-- The volumes at which the bars so far make the last one unusual. -/
def Timeframe.Unusual (t : Timeframe) (volumes : List α) (volume : α) : Prop :=
  (t.anomalyRule : AnomalyRule α).minSamples < volumes.length ∧
    (RunningStat.ofList volumes).exceeds volume t.anomalyRule.threshold

instance (t : Timeframe) (volumes : List α) (volume : α) : Decidable (t.Unusual volumes volume) :=
  inferInstanceAs (Decidable (_ ∧ _))

/-- What was emitted on a timeframe, in order. -/
def emittedOn (t : Timeframe) (es : List (Emitted α)) : List (Emitted α) :=
  es.filter (·.timeframe = t)

namespace Series

/-- What a feed makes a series emit. -/
def emissions (s : Series α) : List (Bar α) → List (Emitted α)
  | [] => []
  | b :: rest => (s.ingest b).2 ++ emissions (s.ingest b).1 rest

def volumes (s : Series α) (t : Timeframe) : List α := (s.bars t).toList.map (·.volume)

def ranges (s : Series α) (t : Timeframe) : List α := (s.bars t).toList.map (·.range)

/-- A series that holds what it has emitted, with the statistics of it. -/
structure Recorded (isUnderlying : Bool) (s : Series α) (es : List (Emitted α)) : Prop where
  kind : s.isUnderlying = isUnderlying
  bars : ∀ t, (s.bars t).toList = (emittedOn t es).map (·.bar)
  volumes : ∀ t, (s.tier t).volumes = RunningStat.ofList (s.volumes t)
  ranges : ∀ t, (s.tier t).ranges = RunningStat.ofList (s.ranges t)
  flags : ∀ t j e, (emittedOn t es)[j]? = some e →
    (e.anomalous = true ↔
      isUnderlying = false ∧ t.Unusual ((s.volumes t).take (j + 1)) e.bar.volume)

theorem recorded_empty (c : ContractId) (isUnderlying : Bool) :
    Recorded isUnderlying (empty c isUnderlying : Series α) [] := by
  constructor
  case kind => rfl
  case bars => simp [emittedOn]
  case volumes => intro t; cases t <;> rfl
  case ranges => intro t; cases t <;> rfl
  case flags => simp [emittedOn]

theorem isUnderlying_emit (s : Series α) (t : Timeframe) (b : Bar α) :
    (s.emit t b).1.isUnderlying = s.isUnderlying := by
  have hmodify : (s.modifyTier t (·.push b)).isUnderlying = s.isUnderlying := by cases t <;> rfl
  have haccount (s : Series α) : (s.account t b).isUnderlying = s.isUnderlying := by
    cases t with
    | m5 =>
      unfold account extendLocal
      dsimp only
      split <;> rfl
    | _ => rfl
  exact (haccount _).trans hmodify

/-- The new bar is among the bars that its volume is compared with. -/
theorem anomalous_emit (s : Series α) (t : Timeframe) (b : Bar α) :
    (s.emit t b).2.anomalous = true ↔
      s.isUnderlying = false ∧ ((s.tier t).push b).isUnusual t.anomalyRule b = true := by
  have hmodify : (s.modifyTier t (·.push b)).isUnderlying = s.isUnderlying := by cases t <;> rfl
  show (!(s.modifyTier t (·.push b)).isUnderlying &&
    ((s.modifyTier t (·.push b)).tier t).isUnusual t.anomalyRule b) = true ↔ _
  rw [hmodify, tier_modifyTier, if_pos rfl]
  simp

theorem volumes_emit (s : Series α) (t u : Timeframe) (b : Bar α) :
    (s.emit t b).1.volumes u = if u = t then s.volumes u ++ [b.volume] else s.volumes u := by
  unfold volumes
  rw [bars_emit]
  split <;> simp

theorem ranges_emit (s : Series α) (t u : Timeframe) (b : Bar α) :
    (s.emit t b).1.ranges u = if u = t then s.ranges u ++ [b.range] else s.ranges u := by
  unfold ranges
  rw [bars_emit]
  split <;> simp

omit [Scalar α] in
theorem emittedOn_concat (t : Timeframe) (es : List (Emitted α)) (e : Emitted α) :
    emittedOn t (es ++ [e]) =
      if t = e.timeframe then emittedOn t es ++ [e] else emittedOn t es := by
  unfold emittedOn
  rw [List.filter_append]
  split
  · simp [*]
  · simp [Ne.symm, *]

namespace Recorded

variable {isUnderlying : Bool} {s s' : Series α} {es es' : List (Emitted α)}

theorem length_emittedOn (h : Recorded isUnderlying s es) (t : Timeframe) :
    (emittedOn t es).length = (s.volumes t).length := by
  rw [Series.volumes, h.bars]
  simp

/-- The statistics of a timeframe with one more bar are those of its bars. -/
theorem push_volumes (h : Recorded isUnderlying s es) (t : Timeframe) (b : Bar α) :
    ((s.tier t).push b).volumes = RunningStat.ofList (s.volumes t ++ [b.volume]) := by
  rw [RunningStat.ofList_append_singleton, ← h.volumes]
  rfl

theorem push_ranges (h : Recorded isUnderlying s es) (t : Timeframe) (b : Bar α) :
    ((s.tier t).push b).ranges = RunningStat.ofList (s.ranges t ++ [b.range]) := by
  rw [RunningStat.ofList_append_singleton, ← h.ranges]
  rfl

/-- The last bar of a timeframe is unusual if the volumes so far make it so. -/
theorem anomalous_emit (h : Recorded isUnderlying s es) (t : Timeframe) (b : Bar α) :
    (s.emit t b).2.anomalous = true ↔
      isUnderlying = false ∧ t.Unusual (s.volumes t ++ [b.volume]) b.volume := by
  rw [Series.anomalous_emit, h.kind, Tier.isUnusual, h.push_volumes, RunningStat.count_ofList]
  simp [AnomalyRule.eligible, Timeframe.Unusual]

theorem emit (h : Recorded isUnderlying s es) (t : Timeframe) (b : Bar α) :
    Recorded isUnderlying (s.emit t b).1 (es ++ [(s.emit t b).2]) := by
  constructor
  case kind => rw [isUnderlying_emit, h.kind]
  case bars =>
    intro u
    rw [bars_emit, emittedOn_concat, emit_timeframe]
    split
    · simp [h.bars u]
    · exact h.bars u
  case volumes =>
    intro u
    rw [tier_emit, volumes_emit]
    split
    · exact h.push_volumes u b
    · exact h.volumes u
  case ranges =>
    intro u
    rw [tier_emit, ranges_emit]
    split
    · exact h.push_ranges u b
    · exact h.ranges u
  case flags =>
    intro u j e he
    rw [volumes_emit]
    rw [emittedOn_concat, emit_timeframe] at he
    by_cases hu : u = t
    · subst hu
      rw [if_pos rfl] at he ⊢
      rcases Nat.lt_or_ge j (emittedOn u es).length with hlt | hge
      · -- the flags of the bars so far stay as they are
        rw [List.getElem?_append_left hlt] at he
        rw [List.take_append_of_le_length (h.length_emittedOn u ▸ hlt)]
        exact h.flags u j e he
      · rw [List.getElem?_append_right hge, List.getElem?_singleton] at he
        obtain ⟨hj, rfl⟩ := Option.ite_some_none_eq_some.mp he
        have hlength := h.length_emittedOn u
        rw [List.take_of_length_le (by simp; omega)]
        exact h.anomalous_emit u b
    · rw [if_neg hu] at he ⊢
      exact h.flags u j e he

theorem cascade (h : Recorded isUnderlying s es) (below : Timeframe) (above : List Timeframe) :
    Recorded isUnderlying (s.cascade below above).1 (es ++ (s.cascade below above).2) := by
  induction above generalizing s es below with
  | nil => simpa [Series.cascade] using h
  | cons t above ih =>
    unfold Series.cascade
    split
    · cases s.derive t with
      | error fault => simpa using h
      | ok b => simpa using ih (h.emit t b) t
    · simpa using h

theorem ingest (h : Recorded isUnderlying s es) (b : Bar α) :
    Recorded isUnderlying (s.ingest b).1 (es ++ (s.ingest b).2) := by
  simpa [Series.ingest] using (h.emit .s5 b).cascade .s5 [.s30, .m1, .m5]

theorem ingestAll (h : Recorded isUnderlying s es) (feed : List (Bar α)) :
    Recorded isUnderlying (s.ingestAll feed) (es ++ s.emissions feed) := by
  induction feed generalizing s es with
  | nil => simpa [Series.ingestAll, emissions] using h
  | cons b feed ih =>
    have hstep : s.ingestAll (b :: feed) = (s.ingest b).1.ingestAll feed := rfl
    rw [hstep, emissions, ← List.append_assoc]
    exact ih (h.ingest b)

theorem getElem?_volumes (h : Recorded isUnderlying s es) (t : Timeframe) (j : Nat) :
    (s.volumes t)[j]? = (emittedOn t es)[j]?.map (·.bar.volume) := by
  rw [Series.volumes, h.bars, List.map_map, List.getElem?_map]
  rfl

/-- Timeframes with the same volumes have the same flags. -/
theorem flags_congr (h : Recorded isUnderlying s es) (h' : Recorded isUnderlying s' es')
    {t : Timeframe} (hvolumes : s.volumes t = s'.volumes t) :
    (emittedOn t es).map (·.anomalous) = (emittedOn t es').map (·.anomalous) := by
  apply List.ext_getElem?
  intro j
  have hvolume := (h.getElem?_volumes t j).symm.trans (hvolumes ▸ h'.getElem?_volumes t j)
  rw [List.getElem?_map, List.getElem?_map]
  cases he : (emittedOn t es)[j]? with
  | none =>
    rw [he] at hvolume
    rw [Option.map_eq_none_iff.mp hvolume.symm]
  | some e =>
    rw [he] at hvolume
    obtain ⟨e', he', hsame⟩ := Option.map_eq_some_iff.mp hvolume.symm
    have hflag : e.anomalous = e'.anomalous := by
      rw [Bool.eq_iff_iff, h.flags t j e he, h'.flags t j e' he', hvolumes, hsame]
    rw [he', Option.map_some, Option.map_some, hflag]

end Recorded

/-- The volumes of the bars of five seconds decide on all others. -/
theorem Aligned.volumes_congr {s s' : Series α} (h : s.Aligned) (h' : s'.Aligned)
    (h5 : s.volumes .s5 = s'.volumes .s5) (t : Timeframe) : s.volumes t = s'.volumes t := by
  have step {t u : Timeframe} (ht : t.previous? = some u) (hu : s.volumes u = s'.volumes u) :
      s.volumes t = s'.volumes t := by
    refine (h.folded ht).map_congr (fun {a a' b b'} ha hb => ?_) (h'.folded ht) hu
    show a.volume + b.volume = a'.volume + b'.volume
    rw [ha, hb]
  have h30 := step (t := .s30) rfl h5
  have h1 := step (t := .m1) rfl h30
  cases t with
  | s5 => exact h5
  | s30 => exact h30
  | m1 => exact h1
  | m5 => exact step rfl h1

theorem volumes_ofFeed (c : ContractId) (isUnderlying : Bool) (feed : List (Bar α)) :
    ((empty c isUnderlying).ingestAll feed).volumes .s5 = feed.map (·.volume) := by
  rw [volumes, toList_bars_ofFeed]

/-- After any feed each timeframe has the statistics of its own bars, one sample for each of them.
Its bar number `j + 1` was unusual exactly if more volumes than the rule asks for had come up to it,
its own included, and it deviates enough among these; the underlying has no such bars. Feeds with
the same volumes have the same unusual bars. -/
theorem flags_from_volumes (c : ContractId) (isUnderlying : Bool) (feed : List (Bar α))
    (t : Timeframe) :
    let s := (empty c isUnderlying).ingestAll feed
    let es := emittedOn t ((empty c isUnderlying).emissions feed)
    (s.bars t).toList = es.map (·.bar) ∧
    (s.tier t).volumes = RunningStat.ofList (s.volumes t) ∧
    (s.tier t).ranges = RunningStat.ofList (s.ranges t) ∧
    (s.tier t).volumes.count = (s.bars t).size ∧
    (s.tier t).ranges.count = (s.bars t).size ∧
    (∀ j e, es[j]? = some e → (e.anomalous = true ↔
      isUnderlying = false ∧ (t.anomalyRule : AnomalyRule α).minSamples < j + 1 ∧
        (RunningStat.ofList ((s.volumes t).take (j + 1))).exceeds e.bar.volume
          t.anomalyRule.threshold)) ∧
    ∀ (c' : ContractId) (feed' : List (Bar α)), feed'.map (·.volume) = feed.map (·.volume) →
      (emittedOn t ((empty c' isUnderlying).emissions feed')).map (·.anomalous) =
        es.map (·.anomalous) := by
  intro s es
  have h : Recorded isUnderlying s ((empty c isUnderlying).emissions feed) :=
    (recorded_empty c isUnderlying).ingestAll feed
  refine ⟨h.bars t, h.volumes t, h.ranges t, ?volumes, ?ranges, fun j e he => ?flags,
    fun c' feed' hvolumes => ?same⟩
  case volumes =>
    rw [h.volumes, RunningStat.count_ofList]
    simp [Series.volumes]
  case ranges =>
    rw [h.ranges, RunningStat.count_ofList]
    simp [Series.ranges]
  case flags =>
    have hlt : j < (s.volumes t).length := by
      rw [← h.length_emittedOn]
      exact (List.getElem?_eq_some_iff.mp he).1
    have hlength : ((s.volumes t).take (j + 1)).length = j + 1 := by
      rw [List.length_take]
      omega
    rw [h.flags t j e he, Timeframe.Unusual, hlength]
  case same =>
    have h' := (recorded_empty c' isUnderlying).ingestAll feed'
    apply h'.flags_congr h
    apply (aligned_ofFeed c' isUnderlying feed').volumes_congr (aligned_ofFeed c isUnderlying feed)
    rw [volumes_ofFeed, volumes_ofFeed, hvolumes]

end Series

end VolumeWatch
