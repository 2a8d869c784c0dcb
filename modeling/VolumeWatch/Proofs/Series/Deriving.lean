import VolumeWatch.Proofs.Series.Nesting
import VolumeWatch.Proofs.Series.Weighing

/-!
Deriving the next bar of a timeframe. Between two bars of five seconds it always fails, as all whole
stretches are folded already (`Series.Aligned.derive_eq_error`). While a bar is taken it never fails,
as it is only asked for where a stretch has just become whole (`Series.Puts.derive`). What the cascade
does where a bar cannot be derived does not matter therefore (`Series.AlignedBut.cascadeOr`).
-/

namespace VolumeWatch

variable {α : Type} [Scalar α]

namespace Series

theorem derive_s5 (s : Series α) :
    s.derive .s5 = .error (.incompleteWindow .s5 Timeframe.s5.ratio 0) := rfl

/-- The bars that are not folded yet are fewer than make a bar, and the fault tells their number. -/
theorem Aligned.derive_eq_error {s : Series α} (h : s.Aligned) {t u : Timeframe}
    (ht : t.previous? = some u) :
    s.derive t = .error (.incompleteWindow t t.ratio ((s.bars u).size % t.ratio)) := by
  have hrest : (s.bars u).size - (s.bars t).size * t.ratio = (s.bars u).size % t.ratio := by
    rw [(h.folded ht).size_eq, Nat.mul_comm, ← Nat.mod_eq_sub_mul_div]
  have hlt := Nat.mod_lt (s.bars u).size t.ratio_pos
  unfold derive
  simp only [ht]
  rw [hrest, if_pos hlt]

/-- Where a bar is put on its timeframe, this timeframe is ahead of the one above by that bar. -/
theorem Puts.alignedBut {s s' : Series α} {b b' : Bar α} {t : Timeframe} (hs : s.Aligned)
    (h : Puts s b s' t b') : (s'.emit t b').1.AlignedBut (some t) := by
  induction h with
  | taken => exact hs.emit b
  | @made s' t u b' b'' _ hu hwhole hmade ih =>
    obtain ⟨m, hm, hmerge⟩ := ih.derive hu hwhole
    obtain rfl : m = b'' := Except.ok.inj (hm.symm.trans hmade)
    exact ih.emit hu hwhole hmerge

/-- While a bar is taken, the next bar of a timeframe is derived from the last whole stretch. -/
theorem Puts.derive {s s' : Series α} {b b' : Bar α} {t u : Timeframe} (hs : s.Aligned)
    (h : Puts s b s' t b') (hu : u.previous? = some t)
    (hwhole : ((s'.emit t b').1.bars t).size % u.ratio = 0) :
    (((s'.emit t b').1.bars u).size + 1) * u.ratio = ((s'.emit t b').1.bars t).size ∧
    ∃ m, (s'.emit t b').1.derive u = .ok m ∧
      Bar.merge? (stretch ((s'.emit t b').1.bars t).toList u.ratio
        ((s'.emit t b').1.bars u).size) = some m :=
  ⟨(h.alignedBut hs).whole hu hwhole, (h.alignedBut hs).derive hu hwhole⟩

/-- The cascade, with something else to do where a bar cannot be derived. -/
def cascadeOr (skip : Series α → Timeframe → Fault α → Series α × List (Emitted α)) (s : Series α)
    (below : Timeframe) : List Timeframe → Series α × List (Emitted α)
  | [] => (s, [])
  | t :: above =>
    if (s.bars below).size % t.ratio = 0 then
      match s.derive t with
      | .error fault => skip s t fault
      | .ok b =>
        let (s, e) := s.emit t b
        let (s, rest) := s.cascadeOr skip t above
        (s, e :: rest)
    else (s, [])

/-- Take a bar of five seconds, with something else to do where a bar cannot be derived. -/
def ingestOr (skip : Series α → Timeframe → Fault α → Series α × List (Emitted α)) (s : Series α)
    (b : Bar α) : Series α × List (Emitted α) :=
  let (s, e) := s.emit .s5 b
  let (s, rest) := s.cascadeOr skip .s5 [.s30, .m1, .m5]
  (s, e :: rest)

/-- Where the cascade stops at a bar that cannot be derived, it is the cascade. -/
theorem cascadeOr_stop (s : Series α) (below : Timeframe) (above : List Timeframe) :
    s.cascadeOr (fun s _ _ => (s, [])) below above = s.cascade below above := by
  induction above generalizing s below with
  | nil => rfl
  | cons t above ih =>
    unfold cascadeOr cascade
    cases s.derive t with
    | error fault => rfl
    | ok b => simp only [ih]

theorem ingestOr_stop (s : Series α) (b : Bar α) :
    s.ingestOr (fun s _ _ => (s, [])) b = s.ingest b := by
  unfold ingestOr ingest
  simp only [cascadeOr_stop]

/-- What is done where a bar cannot be derived does not matter. -/
theorem AlignedBut.cascadeOr {s : Series α} {below : Timeframe} (h : s.AlignedBut (some below))
    (skip : Series α → Timeframe → Fault α → Series α × List (Emitted α)) :
    s.cascadeOr skip below below.above = s.cascade below below.above := by
  generalize hts : below.above = ts
  induction ts generalizing s below with
  | nil => rfl
  | cons t rest ih =>
    obtain ⟨ht, hrest, -, -⟩ := Timeframe.above_eq_cons hts
    unfold Series.cascadeOr Series.cascade
    split
    · rename_i hwhole
      obtain ⟨b, hd, hb⟩ := h.derive ht hwhole
      rw [hd]
      simp only [ih (h.emit ht hwhole hb) hrest]
    · rfl

theorem Aligned.ingestOr {s : Series α} (h : s.Aligned)
    (skip : Series α → Timeframe → Fault α → Series α × List (Emitted α)) (b : Bar α) :
    s.ingestOr skip b = s.ingest b := by
  have hcascade : (s.emit .s5 b).1.cascadeOr skip .s5 [.s30, .m1, .m5] =
      (s.emit .s5 b).1.cascade .s5 [.s30, .m1, .m5] := (h.emit b).cascadeOr skip
  unfold Series.ingestOr Series.ingest
  simp only [hcascade]

theorem Reachable.aligned {s : Series α} (h : s.Reachable) : s.Aligned := by
  obtain ⟨c, isUnderlying, feed, rfl⟩ := h
  exact aligned_ofFeed c isUnderlying feed

/-- Between two bars no timeframe has a whole stretch left to be folded, and deriving fails with the
number of bars that are left over, none on the shortest timeframe. While a bar is taken, deriving
never fails: where it is asked for, the stretch from the first bar that is not folded on goes exactly
up to the last bar below. So it makes no difference what is done after a failure. -/
theorem derived_when_whole {s : Series α} (h : s.Reachable) :
    (∀ t, t ≠ .s5 → ∃ u, t.previous? = some u ∧
      s.derive t = .error (.incompleteWindow t t.ratio ((s.bars u).size % t.ratio)) ∧
      (s.bars u).size < ((s.bars t).size + 1) * t.ratio) ∧
    s.derive .s5 = .error (.incompleteWindow .s5 Timeframe.s5.ratio 0) ∧
    ∀ b : Bar α,
      (∀ s' t b' u, Puts s b s' t b' → u.previous? = some t →
        ((s'.emit t b').1.bars t).size % u.ratio = 0 →
        (((s'.emit t b').1.bars u).size + 1) * u.ratio = ((s'.emit t b').1.bars t).size ∧
        ∃ m, (s'.emit t b').1.derive u = .ok m ∧
          Bar.merge? (stretch ((s'.emit t b').1.bars t).toList u.ratio
            ((s'.emit t b').1.bars u).size) = some m) ∧
      s.ingestOr (fun s _ _ => (s, [])) b = s.ingest b ∧
      ∀ skip, s.ingestOr skip b = s.ingest b := by
  have hs := h.aligned
  refine ⟨fun t ht => ?_, s.derive_s5, fun b => ⟨fun s' t b' u hputs hu hwhole =>
    hputs.derive hs hu hwhole, s.ingestOr_stop b, fun skip => hs.ingestOr skip b⟩⟩
  obtain ⟨u, hu⟩ : ∃ u, t.previous? = some u := by
    cases t with
    | s5 => exact absurd rfl ht
    | s30 => exact ⟨_, rfl⟩
    | m1 => exact ⟨_, rfl⟩
    | m5 => exact ⟨_, rfl⟩
  refine ⟨u, hu, hs.derive_eq_error hu, ?_⟩
  rw [(hs.folded hu).size_eq]
  exact Nat.lt_mul_of_div_lt (Nat.lt_succ_self _) t.ratio_pos

/-- Eleven bars: five of them are left over, and one bar of thirty seconds is. The next bar completes
both stretches. -/
theorem derived_when_whole_eleven :
    let s := (empty ⟨4500⟩ false).ingestAll (List.replicate 11 (levelBar 1))
    s.Reachable ∧
      s.derive .s30 = .error (.incompleteWindow .s30 6 5) ∧
      s.derive .m1 = .error (.incompleteWindow .m1 2 1) ∧
      s.ingestOr (fun s t _ => (s.emit t (levelBar 2)).1.ingest (levelBar 3)) (levelBar 1) =
        s.ingest (levelBar 1) := by
  intro s
  have hs : s.Reachable := ⟨⟨4500⟩, false, _, rfl⟩
  obtain ⟨hderived, -, htaken⟩ := derived_when_whole hs
  have hsize (t : Timeframe) : (s.bars t).size = 11 / t.parts := by
    rw [hs.aligned.size_bars, ← Array.length_toList, toList_bars_ofFeed, List.length_replicate]
  obtain ⟨u, hu, h30, -⟩ := hderived .s30 (by decide)
  obtain rfl : Timeframe.s5 = u := Option.some.inj hu
  obtain ⟨u, hu, h1, -⟩ := hderived .m1 (by decide)
  obtain rfl : Timeframe.s30 = u := Option.some.inj hu
  rw [hsize] at h30 h1
  exact ⟨hs, h30, h1, (htaken (levelBar 1)).2.2 _⟩

end Series

end VolumeWatch
