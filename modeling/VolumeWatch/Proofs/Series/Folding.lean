import VolumeWatch.Series.Basic

/-!
How the bars of a series hang together: each timeframe above the shortest holds exactly the whole
stretches of the timeframe below, merged one by one.

Main statements: taking a bar keeps this (`Series.Aligned.ingest`), every bar that is emitted is
the last of its timeframe afterwards (`Extended`), and after any feed the shortest timeframe holds
the feed itself (`Series.toList_bars_ofFeed`).
-/

namespace VolumeWatch

/-- Stretch number `i` of a list that is cut into stretches of one length. -/
def stretch {β : Type} (l : List β) (length i : Nat) : List β := (l.drop (i * length)).take length

theorem stretch_append {β : Type} (l r : List β) {n i : Nat} (h : (i + 1) * n ≤ l.length) :
    stretch (l ++ r) n i = stretch l n i := by
  have hsum : i * n + n ≤ l.length := by rwa [Nat.succ_mul] at h
  unfold stretch
  rw [List.drop_append_of_le_length (by omega), List.take_append_of_le_length]
  simp only [List.length_drop]
  omega

theorem length_stretch {β : Type} {l : List β} {n i : Nat} (h : (i + 1) * n ≤ l.length) :
    (stretch l n i).length = n := by
  have hsum : i * n + n ≤ l.length := by rwa [Nat.succ_mul] at h
  simp only [stretch, List.length_take, List.length_drop]
  omega

theorem succ_mul_le_of_lt_div {i n r : Nat} (h : i < n / r) : (i + 1) * r ≤ n :=
  Nat.le_trans (Nat.mul_le_mul_right r h) (Nat.div_mul_le_self n r)

variable {α : Type} [Scalar α]

/-- The upper bars are the whole stretches of `r` lower bars, merged. -/
structure Folded (r : Nat) (lower upper : Array (Bar α)) : Prop where
  size_eq : upper.size = lower.size / r
  merged : ∀ i (h : i < upper.size), Bar.merge? (stretch lower.toList r i) = some upper[i]

namespace Folded

variable {r : Nat} {lower upper : Array (Bar α)}

theorem empty (r : Nat) : Folded r (#[] : Array (Bar α)) #[] where
  size_eq := by simp
  merged i h := absurd h (Nat.not_lt_zero i)

theorem stretch_push (h : Folded r lower upper) (b : Bar α) {i : Nat} (hi : i < upper.size) :
    stretch (lower.push b).toList r i = stretch lower.toList r i := by
  rw [Array.toList_push]
  apply stretch_append
  rw [h.size_eq] at hi
  simpa using succ_mul_le_of_lt_div hi

/-- A lower bar that does not complete a stretch leaves the upper bars as they are. -/
theorem push_lower (h : Folded r lower upper) (b : Bar α)
    (hr : (lower.push b).size % r ≠ 0) : Folded r (lower.push b) upper where
  size_eq := by
    rw [Array.size_push] at hr ⊢
    rw [Nat.succ_div_of_mod_ne_zero hr, h.size_eq]
  merged i hi := by rw [h.stretch_push b hi, h.merged i hi]

/-- A lower bar that completes a stretch goes with the merged stretch above. -/
theorem push_both (h : Folded r lower upper) (b m : Bar α) (hr : (lower.push b).size % r = 0)
    (hm : Bar.merge? (stretch (lower.push b).toList r upper.size) = some m) :
    Folded r (lower.push b) (upper.push m) where
  size_eq := by
    rw [Array.size_push] at hr
    rw [Array.size_push, Array.size_push, Nat.succ_div_of_mod_eq_zero hr, h.size_eq]
  merged i hi := by
    rw [Array.getElem_push]
    split
    · rename_i hlt
      rw [h.stretch_push b hlt, h.merged i hlt]
    · rename_i hge
      have hi' : i = upper.size := by
        rw [Array.size_push] at hi
        omega
      rw [hi', hm]

/-- Where a lower bar has just completed a stretch, exactly that stretch is not folded yet. -/
theorem remainder (h : Folded r lower upper) (b : Bar α) (hr : (lower.push b).size % r = 0) :
    (upper.size + 1) * r = (lower.push b).size := by
  rw [Array.size_push] at hr ⊢
  rw [h.size_eq, ← Nat.succ_div_of_mod_eq_zero hr]
  exact Nat.div_mul_cancel (Nat.dvd_of_mod_eq_zero hr)

/-- Where the lower bars agree in what extending keeps, the upper bars do. -/
theorem map_congr {β : Type} {f : Bar α → β}
    (hf : ∀ {a a' b b' : Bar α}, f a = f a' → f b = f b' → f (a.extend b) = f (a'.extend b'))
    {lower' upper' : Array (Bar α)} (h : Folded r lower upper) (h' : Folded r lower' upper')
    (hlower : lower.toList.map f = lower'.toList.map f) :
    upper.toList.map f = upper'.toList.map f := by
  have hlength : lower.size = lower'.size := by simpa using congrArg List.length hlower
  have hsize : upper.size = upper'.size := by rw [h.size_eq, h'.size_eq, hlength]
  apply List.ext_getElem
  · simpa using hsize
  · intro i hi hi'
    simp only [List.length_map, Array.length_toList] at hi hi'
    have hstretch : (stretch lower.toList r i).map f = (stretch lower'.toList r i).map f := by
      simp only [stretch, List.map_take, List.map_drop, hlower]
    have hmerged := Bar.map_merge?_congr hf hstretch
    rw [h.merged i hi, h'.merged i hi'] at hmerged
    simpa using hmerged

end Folded

namespace Timeframe

def above : Timeframe → List Timeframe
  | .s5 => [.s30, .m1, .m5]
  | .s30 => [.m1, .m5]
  | .m1 => [.m5]
  | .m5 => []

theorem above_eq_cons {below t : Timeframe} {rest : List Timeframe} (h : below.above = t :: rest) :
    t.previous? = some below ∧ t.above = rest ∧ t ∉ rest ∧ below ∉ t :: rest := by
  cases below <;> simp only [above, List.cons.injEq, reduceCtorEq] at h <;>
    obtain ⟨rfl, rfl⟩ := h <;> decide

theorem ratio_pos (t : Timeframe) : 0 < t.ratio := by cases t <;> decide

theorem previous?_inj {t u v : Timeframe} (ht : t.previous? = some v) (hu : u.previous? = some v) :
    t = u := by
  cases v <;> cases t <;> cases u <;> simp_all [previous?]

end Timeframe

namespace Series

@[simp] theorem tier_account (s : Series α) (t u : Timeframe) (b : Bar α) :
    (s.account t b).tier u = s.tier u := by
  cases t with
  | s5 => cases u <;> rfl
  | s30 => rfl
  | m1 => cases u <;> rfl
  | m5 =>
    simp only [account, extendLocal]
    split <;> cases u <;> rfl

omit [Scalar α] in
@[simp] theorem tier_modifyTier (s : Series α) (t u : Timeframe) (f : Tier α → Tier α) :
    (s.modifyTier t f).tier u = if u = t then f (s.tier u) else s.tier u := by
  cases t <;> cases u <;> rfl

theorem tier_emit (s : Series α) (t u : Timeframe) (b : Bar α) :
    (s.emit t b).1.tier u = if u = t then (s.tier u).push b else s.tier u := by
  simp only [emit, record, tier_account, tier_modifyTier]

/-- A bar is put at the end of its own timeframe, and the other timeframes keep their bars. -/
theorem bars_emit (s : Series α) (t u : Timeframe) (b : Bar α) :
    (s.emit t b).1.bars u = if u = t then (s.bars u).push b else s.bars u := by
  rw [bars, tier_emit]
  split <;> rfl

@[simp] theorem emit_timeframe (s : Series α) (t : Timeframe) (b : Bar α) :
    (s.emit t b).2.timeframe = t := rfl

@[simp] theorem emit_bar (s : Series α) (t : Timeframe) (b : Bar α) : (s.emit t b).2.bar = b := rfl

/-- Each timeframe is folded from the one below, except that the bars of one timeframe may be
ahead by a single bar that is not folded yet. -/
def AlignedBut (s : Series α) (ahead : Option Timeframe) : Prop :=
  ∀ t u, t.previous? = some u →
    if some u = ahead then ∃ lower b, s.bars u = lower.push b ∧ Folded t.ratio lower (s.bars t)
    else Folded t.ratio (s.bars u) (s.bars t)

/-- Each timeframe is folded from the one below. -/
def Aligned (s : Series α) : Prop := s.AlignedBut none

theorem Aligned.folded {s : Series α} (h : s.Aligned) {t u : Timeframe}
    (ht : t.previous? = some u) : Folded t.ratio (s.bars u) (s.bars t) := by
  have := h t u ht
  rwa [if_neg (by simp)] at this

@[simp] theorem bars_empty (c : ContractId) (isUnderlying : Bool) (t : Timeframe) :
    (empty c isUnderlying : Series α).bars t = #[] := by
  cases t <;> rfl

theorem aligned_empty (c : ContractId) (isUnderlying : Bool) :
    (empty c isUnderlying : Series α).Aligned := by
  intro t u _
  rw [if_neg (by simp), bars_empty, bars_empty]
  exact Folded.empty _

theorem AlignedBut.ahead {s : Series α} {t u : Timeframe} (h : s.AlignedBut (some u))
    (ht : t.previous? = some u) :
    ∃ lower b, s.bars u = lower.push b ∧ Folded t.ratio lower (s.bars t) := by
  have := h t u ht
  rwa [if_pos rfl] at this

theorem Aligned.emit {s : Series α} (h : s.Aligned) (b : Bar α) :
    (s.emit .s5 b).1.AlignedBut (some .s5) := by
  intro t u ht
  have hf := h.folded ht
  have hts : t ≠ .s5 := by rintro rfl; simp [Timeframe.previous?] at ht
  split
  · rename_i hu
    obtain rfl := Option.some.inj hu
    refine ⟨s.bars .s5, b, ?_, ?_⟩
    · rw [bars_emit, if_pos rfl]
    · rwa [bars_emit, if_neg hts]
  · rename_i hu
    have hu' : u ≠ .s5 := fun h => hu (congrArg some h)
    rwa [bars_emit, bars_emit, if_neg hts, if_neg hu']

/-- A timeframe that is ahead by a bar that completes nothing is not ahead. -/
theorem AlignedBut.settle {s : Series α} {t below : Timeframe} (h : s.AlignedBut (some below))
    (ht : t.previous? = some below) (hr : (s.bars below).size % t.ratio ≠ 0) : s.Aligned := by
  intro t' u hu
  rw [if_neg (by simp)]
  by_cases hb : u = below
  · subst hb
    obtain rfl := Timeframe.previous?_inj hu ht
    obtain ⟨lower, b, hl, hf⟩ := h.ahead ht
    rw [hl] at hr ⊢
    exact hf.push_lower b hr
  · have := h t' u hu
    rwa [if_neg (by simpa using hb)] at this

/-- With no timeframe above it, a timeframe is never ahead. -/
theorem AlignedBut.top {s : Series α} {below : Timeframe} (h : s.AlignedBut (some below))
    (hb : below.above = []) : s.Aligned := by
  intro t u hu
  have := h t u hu
  rw [if_neg (by simp)]
  have hne : u ≠ below := by
    rintro rfl
    cases u <;> cases t <;> simp_all [Timeframe.previous?, Timeframe.above]
  rwa [if_neg (by simpa using hne)] at this

/-- A completed stretch is the last one of the timeframe below, and the only one not folded yet. -/
theorem AlignedBut.whole {s : Series α} {t below : Timeframe} (h : s.AlignedBut (some below))
    (ht : t.previous? = some below) (hr : (s.bars below).size % t.ratio = 0) :
    ((s.bars t).size + 1) * t.ratio = (s.bars below).size := by
  obtain ⟨lower, new, hl, hf⟩ := h.ahead ht
  rw [hl] at hr ⊢
  exact hf.remainder new hr

/-- A completed stretch can be derived, and it is the one that follows the last folded one. -/
theorem AlignedBut.derive {s : Series α} {t below : Timeframe} (h : s.AlignedBut (some below))
    (ht : t.previous? = some below) (hr : (s.bars below).size % t.ratio = 0) :
    ∃ b, s.derive t = .ok b ∧
      Bar.merge? (stretch (s.bars below).toList t.ratio (s.bars t).size) = some b := by
  have hsize := h.whole ht hr
  have hlen : (stretch (s.bars below).toList t.ratio (s.bars t).size).length = t.ratio :=
    length_stretch (by simp [hsize])
  have hparts : ((s.bars below).extract ((s.bars t).size * t.ratio)
      ((s.bars t).size * t.ratio + t.ratio)).toList =
        stretch (s.bars below).toList t.ratio (s.bars t).size := by
    simp [stretch]
  cases hm : Bar.merge? (stretch (s.bars below).toList t.ratio (s.bars t).size) with
  | none =>
    have hpos := t.ratio_pos
    cases hs : stretch (s.bars below).toList t.ratio (s.bars t).size with
    | nil => simp [hs] at hlen; omega
    | cons => simp [hs, Bar.merge?] at hm
  | some b =>
    refine ⟨b, ?_, rfl⟩
    rw [Nat.succ_mul] at hsize
    unfold Series.derive
    simp only [ht]
    rw [if_neg (by omega), hparts, hm]

/-- The derived bar settles the timeframe below it and puts its own one ahead. -/
theorem AlignedBut.emit {s : Series α} {t below : Timeframe} {b : Bar α}
    (h : s.AlignedBut (some below)) (ht : t.previous? = some below)
    (hr : (s.bars below).size % t.ratio = 0)
    (hb : Bar.merge? (stretch (s.bars below).toList t.ratio (s.bars t).size) = some b) :
    (s.emit t b).1.AlignedBut (some t) := by
  have hne : below ≠ t := by rintro rfl; cases below <;> simp [Timeframe.previous?] at ht
  intro t' u hu
  rw [bars_emit, bars_emit]
  by_cases hut : u = t
  · subst hut
    have hne' : t' ≠ u := by rintro rfl; cases t' <;> simp [Timeframe.previous?] at hu
    have hf := h t' u hu
    rw [if_neg (by simpa using hne.symm)] at hf
    rw [if_pos rfl, if_pos rfl, if_neg hne']
    exact ⟨s.bars u, b, rfl, hf⟩
  · rw [if_neg (by simpa using hut), if_neg hut]
    by_cases hub : u = below
    · subst hub
      obtain rfl := Timeframe.previous?_inj hu ht
      obtain ⟨lower, new, hl, hf⟩ := h.ahead ht
      rw [if_pos rfl, hl]
      rw [hl] at hr hb
      exact hf.push_both new b hr hb
    · have hne' : t' ≠ t := by
        rintro rfl
        rw [hu] at ht
        exact hub (Option.some.inj ht)
      have hf := h t' u hu
      rw [if_neg (by simpa using hub)] at hf
      rwa [if_neg hne']

end Series

/-- What taking bars one above the other does: they come on successive timeframes, each at the end
of its own. -/
structure Extended (s s' : Series α) (above : List Timeframe) (es : List (Emitted α)) : Prop where
  timeframes : es.map (·.timeframe) <+: above
  grown : ∀ t, (s'.bars t).toList = (s.bars t).toList ++ (es.filter (·.timeframe = t)).map (·.bar)
  last : ∀ e ∈ es, (s'.bars e.timeframe).back? = some e.bar

namespace Extended

omit [Scalar α] in
theorem nil (s : Series α) (above : List Timeframe) : Extended s s above [] where
  timeframes := List.nil_prefix
  grown t := by simp
  last e he := absurd he List.not_mem_nil

omit [Scalar α] in
theorem mem_above {s s' : Series α} {above : List Timeframe} {es : List (Emitted α)}
    (h : Extended s s' above es) {e : Emitted α} (he : e ∈ es) : e.timeframe ∈ above :=
  h.timeframes.subset (List.mem_map_of_mem he)

omit [Scalar α] in
theorem kept {s s' : Series α} {above : List Timeframe} {es : List (Emitted α)}
    (h : Extended s s' above es) {t : Timeframe} (ht : t ∉ above) : s'.bars t = s.bars t := by
  have hf : es.filter (·.timeframe = t) = [] := by
    rw [List.filter_eq_nil_iff]
    intro e he het
    exact ht (of_decide_eq_true het ▸ h.mem_above he)
  rw [← Array.toList_inj, h.grown t, hf]
  simp

theorem cons {s s' : Series α} {t : Timeframe} {b : Bar α} {rest : List Timeframe}
    {es : List (Emitted α)} (h : Extended (s.emit t b).1 s' rest es) (ht : t ∉ rest) :
    Extended s s' (t :: rest) ((s.emit t b).2 :: es) where
  timeframes := by
    rw [List.map_cons, Series.emit_timeframe, List.cons_prefix_cons]
    exact ⟨rfl, h.timeframes⟩
  grown u := by
    rw [h.grown u, Series.bars_emit, List.filter_cons, Series.emit_timeframe]
    by_cases hu : u = t
    · subst hu
      simp
    · simp [hu, Ne.symm hu]
  last e he := by
    rcases List.mem_cons.mp he with rfl | he
    · rw [Series.emit_timeframe, h.kept ht, Series.bars_emit, if_pos rfl]
      simp
    · exact h.last e he

end Extended

namespace Series

/-- The bars above are made until one of them is not complete, and then all is folded. -/
theorem AlignedBut.cascade {s : Series α} {below : Timeframe} (h : s.AlignedBut (some below)) :
    (s.cascade below below.above).1.Aligned ∧
      Extended s (s.cascade below below.above).1 below.above (s.cascade below below.above).2 := by
  generalize hts : below.above = ts
  induction ts generalizing s below with
  | nil => exact ⟨h.top hts, Extended.nil s []⟩
  | cons t rest ih =>
    obtain ⟨ht, hrest, hmem, -⟩ := Timeframe.above_eq_cons hts
    unfold Series.cascade
    by_cases hr : (s.bars below).size % t.ratio = 0
    · obtain ⟨b, hd, hb⟩ := h.derive ht hr
      obtain ⟨ha, he⟩ := ih (h.emit ht hr hb) hrest
      rw [if_pos hr, hd]
      exact ⟨ha, he.cons hmem⟩
    · rw [if_neg hr]
      exact ⟨h.settle ht hr, Extended.nil s _⟩

/-- Taking a bar of five seconds: the series stays folded, and what is emitted starts with that
bar and goes on with longer and longer ones. -/
theorem Aligned.ingest {s : Series α} (h : s.Aligned) (b : Bar α) :
    (s.ingest b).1.Aligned ∧
      Extended s (s.ingest b).1 (.s5 :: Timeframe.s5.above) (s.ingest b).2 := by
  obtain ⟨ha, he⟩ := (h.emit b).cascade
  exact ⟨ha, he.cons (by decide)⟩

theorem bars_ingest {s : Series α} (h : s.Aligned) (b : Bar α) :
    (s.ingest b).1.bars .s5 = (s.bars .s5).push b := by
  obtain ⟨-, he⟩ := (h.emit b).cascade
  have := he.kept (t := .s5) (by decide)
  rw [bars_emit, if_pos rfl] at this
  exact this

/-- What every emitted bar keeps is kept over any feed. -/
theorem ingestAll_induction {P : Series α → Prop}
    (hemit : ∀ (s : Series α) (t : Timeframe) (b : Bar α), P s → P (s.emit t b).1)
    {s : Series α} (h : P s) (feed : List (Bar α)) : P (s.ingestAll feed) := by
  have hcascade (above : List Timeframe) : ∀ {s : Series α} (below : Timeframe), P s →
      P (s.cascade below above).1 := by
    induction above with
    | nil => exact fun _ h => h
    | cons t above ih =>
      intro s below h
      unfold cascade
      split
      · cases s.derive t with
        | error fault => exact h
        | ok b => exact ih t (hemit s t b h)
      · exact h
  unfold ingestAll
  induction feed generalizing s with
  | nil => exact h
  | cons b feed ih => exact ih (hcascade [.s30, .m1, .m5] .s5 (hemit s .s5 b h))

theorem ingestAll_append (s : Series α) (feed rest : List (Bar α)) :
    s.ingestAll (feed ++ rest) = (s.ingestAll feed).ingestAll rest := List.foldl_append ..

theorem Aligned.ingestAll {s : Series α} (h : s.Aligned) (feed : List (Bar α)) :
    (s.ingestAll feed).Aligned := by
  unfold Series.ingestAll
  induction feed generalizing s with
  | nil => exact h
  | cons b feed ih => exact ih (h.ingest b).1

/-- After a feed the shortest timeframe holds the bars of the feed behind its own. -/
theorem toList_bars_ingestAll {s : Series α} (h : s.Aligned) (feed : List (Bar α)) :
    ((s.ingestAll feed).bars .s5).toList = (s.bars .s5).toList ++ feed := by
  induction feed generalizing s with
  | nil => simp [Series.ingestAll]
  | cons b feed ih =>
    have hstep : s.ingestAll (b :: feed) = ((s.ingest b).1).ingestAll feed := rfl
    rw [hstep, ih (h.ingest b).1, bars_ingest h b]
    simp

theorem aligned_ofFeed (c : ContractId) (isUnderlying : Bool) (feed : List (Bar α)) :
    ((empty c isUnderlying).ingestAll feed).Aligned :=
  (aligned_empty c isUnderlying).ingestAll feed

theorem toList_bars_ofFeed (c : ContractId) (isUnderlying : Bool) (feed : List (Bar α)) :
    (((empty c isUnderlying).ingestAll feed).bars .s5).toList = feed := by
  rw [toList_bars_ingestAll (aligned_empty c isUnderlying), bars_empty]
  rfl

/-- The price after a feed is the close of the last bar. -/
theorem price?_ofFeed (c : ContractId) (isUnderlying : Bool) (feed : List (Bar α)) :
    ((empty c isUnderlying).ingestAll feed).price? = feed.getLast?.map (·.close) := by
  have hlast : ((empty c isUnderlying).ingestAll feed).last? .s5 = feed.getLast? := by
    rw [last?, Tier.last?, ← Array.getLast?_toList]
    exact congrArg List.getLast? (toList_bars_ofFeed c isUnderlying feed)
  rw [price?, hlast]

end Series

end VolumeWatch
