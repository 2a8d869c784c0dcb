import VolumeWatch.Proofs.Series.Folding

/-!
Bars and the bars of five seconds that they are made of.

A relation between a bar and a stretch of bars that is kept when bars and stretches are put
together holds between every bar of a series and its own stretch of bars of five seconds
(`Series.Aligned.covers`). `Bar.Spans` is such a relation.
-/

namespace VolumeWatch

/-- Number of bars of five seconds in a bar. -/
def Timeframe.parts : Timeframe → Nat
  | .s5 => 1
  | .s30 => 6
  | .m1 => 12
  | .m5 => 60

theorem Timeframe.parts_eq {t u : Timeframe} (h : t.previous? = some u) :
    t.parts = t.ratio * u.parts := by
  cases t <;> simp_all [previous?] <;> subst h <;> rfl

theorem Timeframe.parts_pos (t : Timeframe) : 0 < t.parts := by cases t <;> decide

theorem stretch_one {β : Type} {l : List β} {i : Nat} (h : i < l.length) :
    stretch l 1 i = [l[i]] := by
  unfold stretch
  rw [Nat.mul_one, List.drop_eq_getElem_cons h, List.take_succ_cons, List.take_zero]

theorem head?_stretch {β : Type} {l : List β} {n i : Nat} (hn : 0 < n) :
    (stretch l n i).head? = l[i * n]? := by
  rw [stretch, List.head?_take, if_neg (by omega), List.head?_drop]

theorem getLast?_stretch {β : Type} {l : List β} {n i : Nat} (hn : 0 < n)
    (h : (i + 1) * n ≤ l.length) : (stretch l n i).getLast? = l[(i + 1) * n - 1]? := by
  rw [List.getLast?_eq_getElem?, length_stretch h, stretch,
    List.getElem?_take_of_lt (by omega), List.getElem?_drop, Nat.succ_mul,
    Nat.add_sub_assoc hn]

variable {α : Type} [Scalar α]

namespace Bar

theorem merge?_append_singleton (bars : List (Bar α)) (b : Bar α) :
    merge? (bars ++ [b]) = some ((merge? bars).elim b (·.extend b)) := by
  cases bars <;> simp [merge?]

/-- A bar is folded from a stretch of bars, in whatever stages. -/
inductive MadeOf : Bar α → List (Bar α) → Prop where
  | single (b : Bar α) : MadeOf b [b]
  | extend {a b : Bar α} {u v : List (Bar α)} : MadeOf a u → MadeOf b v → MadeOf (a.extend b) (u ++ v)

/-- If each of some bars is made of its own stretch of a list, their merge is made of what these
stretches make up together. -/
theorem MadeOf.merge? {bars base : List (Bar α)} {k : Nat}
    (hb : ∀ j (hj : j < bars.length), MadeOf bars[j] (stretch base k j)) (a : Nat) {m : Nat}
    (hm : 0 < m) (ham : a + m ≤ bars.length) {b : Bar α}
    (h : Bar.merge? ((bars.drop a).take m) = some b) :
    MadeOf b ((base.drop (a * k)).take (m * k)) := by
  induction m generalizing b with
  | zero => omega
  | succ m ih =>
    have hlt : a + m < bars.length := by omega
    have hlast : (bars.drop a)[m]? = some bars[a + m] := by
      rw [List.getElem?_drop, List.getElem?_eq_getElem hlt]
    rw [List.take_add_one, hlast, Option.toList_some, merge?_append_singleton] at h
    have hnew := hb (a + m) hlt
    cases hprev : Bar.merge? ((bars.drop a).take m) with
    | none =>
      -- only the empty stretch has no merge, so this is the first bar
      have hm0 : m = 0 := by
        cases hs : (bars.drop a).take m with
        | nil =>
          have := congrArg List.length hs
          simp only [List.length_take, List.length_drop, List.length_nil] at this
          omega
        | cons => simp [hs, Bar.merge?] at hprev
      subst hm0
      rw [hprev] at h
      obtain rfl := Option.some.inj h
      simpa [stretch] using hnew
    | some c =>
      have hm0 : 0 < m := by
        rcases Nat.eq_zero_or_pos m with rfl | hpos
        · simp [Bar.merge?] at hprev
        · exact hpos
      rw [hprev] at h
      obtain rfl := Option.some.inj h
      have hprefix := ih hm0 (by omega) hprev
      rw [Nat.succ_mul, List.take_add, List.drop_drop, ← Nat.add_mul]
      exact hprefix.extend hnew

/-- A bar starts with the first bar of a stretch and closes with the last. -/
structure Spans (b : Bar α) (parts : List (Bar α)) : Prop where
  first : ∃ f, parts.head? = some f ∧ b.contract = f.contract ∧ b.timestamp = f.timestamp ∧
    b.opening = f.opening
  last : ∃ l, parts.getLast? = some l ∧ b.close = l.close

theorem MadeOf.spans {b : Bar α} {parts : List (Bar α)} (h : MadeOf b parts) : Spans b parts := by
  induction h with
  | single b => exact ⟨⟨b, rfl, rfl, rfl, rfl⟩, ⟨b, rfl, rfl⟩⟩
  | extend _ _ ihu ihv =>
    obtain ⟨f, hf, hfirst⟩ := ihu.first
    obtain ⟨l, hl, hlast⟩ := ihv.last
    refine ⟨⟨f, ?_, hfirst⟩, ⟨l, ?_, hlast⟩⟩
    · rw [List.head?_append, hf]
      rfl
    · rw [List.getLast?_append, hl]
      rfl

end Bar

namespace Series

/-- Numbers of bars are whole quotients of the number of bars of five seconds. -/
theorem Aligned.size_bars {s : Series α} (h : s.Aligned) (t : Timeframe) :
    (s.bars t).size = (s.bars .s5).size / t.parts := by
  have step {t u : Timeframe} (ht : t.previous? = some u)
      (hu : (s.bars u).size = (s.bars .s5).size / u.parts) :
      (s.bars t).size = (s.bars .s5).size / t.parts := by
    rw [(h.folded ht).size_eq, hu, Nat.div_div_eq_div_mul, Timeframe.parts_eq ht, Nat.mul_comm]
  have h5 : (s.bars .s5).size = (s.bars .s5).size / Timeframe.s5.parts := (Nat.div_one _).symm
  have h30 := step (t := .s30) rfl h5
  have h1 := step (t := .m1) rfl h30
  cases t with
  | s5 => exact h5
  | s30 => exact h30
  | m1 => exact h1
  | m5 => exact step rfl h1

/-- Every bar of a series is made of its stretch of the bars of five seconds. -/
theorem Aligned.covers {s : Series α} (h : s.Aligned) (t : Timeframe) {i : Nat}
    (hi : i < (s.bars t).size) :
    Bar.MadeOf (s.bars t)[i] (stretch (s.bars .s5).toList t.parts i) := by
  have step {t u : Timeframe} (ht : t.previous? = some u)
      (hu : ∀ j (hj : j < (s.bars u).size),
        Bar.MadeOf (s.bars u)[j] (stretch (s.bars .s5).toList u.parts j))
      (i : Nat) (hi : i < (s.bars t).size) :
      Bar.MadeOf (s.bars t)[i] (stretch (s.bars .s5).toList t.parts i) := by
    have hf := h.folded ht
    have hle : (i + 1) * t.ratio ≤ (s.bars u).size := by
      rw [hf.size_eq] at hi
      exact succ_mul_le_of_lt_div hi
    rw [Nat.succ_mul] at hle
    have hparts : ∀ j (hj : j < (s.bars u).toList.length),
        Bar.MadeOf (s.bars u).toList[j] (stretch (s.bars .s5).toList u.parts j) := hu
    have := Bar.MadeOf.merge? hparts (i * t.ratio) t.ratio_pos hle (hf.merged i hi)
    unfold stretch
    rwa [Timeframe.parts_eq ht, ← Nat.mul_assoc]
  have h5 : ∀ j (hj : j < (s.bars .s5).size),
      Bar.MadeOf (s.bars .s5)[j] (stretch (s.bars .s5).toList Timeframe.s5.parts j) := by
    intro j hj
    rw [Timeframe.parts, stretch_one (by exact hj)]
    exact .single _
  have h30 := step (t := .s30) rfl h5
  have h1 := step (t := .m1) rfl h30
  cases t with
  | s5 => exact h5 i hi
  | s30 => exact h30 i hi
  | m1 => exact h1 i hi
  | m5 => exact step rfl h1 i hi

/-- A bar is emitted when its stretch is complete, so that it is made of the last bars of five
seconds, the new one included. -/
theorem Aligned.emitted {s : Series α} (h : s.Aligned) {own : List (Bar α)} {b : Bar α}
    (hown : (s.bars .s5).toList ++ [b] = own) {e : Emitted α} (he : e ∈ (s.ingest b).2) :
    e.timeframe.parts ∣ own.length ∧
      Bar.MadeOf e.bar (own.drop (own.length - e.timeframe.parts)) := by
  obtain ⟨ha, hext⟩ := h.ingest b
  have hbase : ((s.ingest b).1.bars .s5).toList = own := by
    rw [bars_ingest h, Array.toList_push, hown]
  have hlen : ((s.ingest b).1.bars .s5).size = own.length := by rw [← hbase, Array.length_toList]
  have hbefore : own.length = (s.bars .s5).size + 1 := by simp [← hown]
  -- the timeframe has grown, so that the new bar has brought the quotient up by one
  have hgrown : (s.bars e.timeframe).size < ((s.ingest b).1.bars e.timeframe).size := by
    have hmem : e ∈ (s.ingest b).2.filter (·.timeframe = e.timeframe) := by simp [he]
    have := congrArg List.length (hext.grown e.timeframe)
    simp only [Array.length_toList, List.length_append, List.length_map] at this
    have := List.length_pos_of_mem hmem
    omega
  rw [h.size_bars, ha.size_bars, hlen, hbefore] at hgrown
  have hdvd : e.timeframe.parts ∣ own.length := by
    rw [hbefore]
    refine Classical.byContradiction fun hn => ?_
    rw [Nat.succ_div_of_not_dvd hn] at hgrown
    exact Nat.lt_irrefl _ hgrown
  refine ⟨hdvd, ?_⟩
  have hlast := hext.last e he
  rw [Array.back?_eq_getElem?, Array.getElem?_eq_some_iff] at hlast
  obtain ⟨hi, hbar⟩ := hlast
  have hcover := ha.covers e.timeframe hi
  rw [hbar, hbase] at hcover
  have hmul : ((s.ingest b).1.bars e.timeframe).size * e.timeframe.parts = own.length := by
    rw [ha.size_bars, hlen, Nat.div_mul_cancel hdvd]
  have hstretch : stretch own e.timeframe.parts (((s.ingest b).1.bars e.timeframe).size - 1) =
      own.drop (own.length - e.timeframe.parts) := by
    rw [stretch, Nat.sub_mul, Nat.one_mul, hmul]
    apply List.take_of_length_le
    simp only [List.length_drop]
    omega
  rwa [hstretch] at hcover

/-- A timeframe emits a bar whenever the bars of five seconds, the new one included, come out even. -/
theorem Aligned.mem_timeframes_iff {s : Series α} (h : s.Aligned) (b : Bar α) (t : Timeframe) :
    t ∈ (s.ingest b).2.map (·.timeframe) ↔ t.parts ∣ (s.bars .s5).size + 1 := by
  constructor
  · intro ht
    obtain ⟨e, he, rfl⟩ := List.mem_map.mp ht
    have hdvd := (h.emitted rfl he).1
    rwa [List.length_append, Array.length_toList, List.length_singleton] at hdvd
  · intro hdvd
    obtain ⟨ha, hext⟩ := h.ingest b
    have hsize : ((s.ingest b).1.bars t).size = (s.bars t).size + 1 := by
      rw [ha.size_bars, bars_ingest h, Array.size_push, Nat.succ_div_of_dvd hdvd, ← h.size_bars]
    have hgrown := congrArg List.length (hext.grown t)
    simp only [Array.length_toList, List.length_append, List.length_map, hsize] at hgrown
    obtain ⟨e, he⟩ := List.exists_mem_of_length_pos
      (show 0 < ((s.ingest b).2.filter (·.timeframe = t)).length by omega)
    obtain ⟨hmem, ht⟩ := List.mem_filter.mp he
    exact List.mem_map.mpr ⟨e, hmem, of_decide_eq_true ht⟩

end Series

end VolumeWatch
