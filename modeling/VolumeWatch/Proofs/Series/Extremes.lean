import Mathlib.Order.Bounds.Defs
import VolumeWatch.Proofs.Scalar.Ordered
import VolumeWatch.Proofs.Series.Covering

/-!
Extremes of the day and of the last completed local window. The day has those of all bars of five
seconds, and the window those of its own bars of five seconds and no others, although it is closed
three timeframes above them (`Series.extremes_cover`).

A series keeps the extremes of its bars window by window (`Series.Ranged`), and the extremes of
merged bars are those of the bars that they are made of (`Extremes.covers_ofBars?`).
-/

namespace VolumeWatch

open Scalar (Ordered bounded isNaN)

variable {α : Type} [Scalar α]

/-- The high and the low of a bar are taken from bars, and bound all of theirs that are numbers. -/
structure Bar.Ranges (b : Bar α) (parts : List (Bar α)) : Prop where
  high_mem : ∃ p ∈ parts, p.high = b.high
  le_high : ∀ p ∈ parts, isNaN p.high = false → p.high ≤ b.high
  low_mem : ∃ p ∈ parts, p.low = b.low
  low_le : ∀ p ∈ parts, isNaN p.low = false → b.low ≤ p.low

/-- Extremes are taken from zero and from bars, and bound all that they are taken from. -/
structure Extremes.Covers (e : Extremes α) (bars : List (Bar α)) : Prop where
  high_mem : e.high = 0 ∨ ∃ b ∈ bars, b.high = e.high
  zero_le_high : 0 ≤ e.high
  le_high : ∀ b ∈ bars, isNaN b.high = false → b.high ≤ e.high
  low_mem : ∃ b ∈ bars, bounded b.low = e.low
  low_le : ∀ b ∈ bars, e.low ≤ bounded b.low

/-- Extremes are the greatest among zero and the highs of bars, and the least of their lows. -/
structure Extremes.Bounds (e : Extremes α) (bars : List (Bar α)) : Prop where
  high : IsGreatest {x | x = 0 ∨ ∃ b ∈ bars, b.high = x} e.high
  low : IsLeast {x | ∃ b ∈ bars, b.low = x} e.low

/-- What extending takes from one of two bars is taken from one of the parts. -/
theorem Bar.MadeOf.exists_mem {f : Bar α → α}
    (hf : ∀ a b : Bar α, f (a.extend b) = f a ∨ f (a.extend b) = f b) {b : Bar α}
    {parts : List (Bar α)} (h : b.MadeOf parts) : ∃ p ∈ parts, f p = f b := by
  induction h with
  | single b => exact ⟨b, List.mem_singleton_self b, rfl⟩
  | @extend a b u v _ _ ihu ihv =>
    rcases hf a b with heq | heq
    · obtain ⟨p, hp, hpart⟩ := ihu
      exact ⟨p, List.mem_append_left v hp, hpart.trans heq.symm⟩
    · obtain ⟨p, hp, hpart⟩ := ihv
      exact ⟨p, List.mem_append_right u hp, hpart.trans heq.symm⟩

/-- What bounds the numbers of both bars after extending bounds those of all parts. -/
theorem Bar.MadeOf.forall_mem {f : Bar α → α} {R : α → α → Prop}
    (hrefl : ∀ {x}, isNaN x = false → R x x) (htrans : ∀ {x y z}, R x y → R y z → R x z)
    (hnum : ∀ {x y}, R x y → isNaN y = false)
    (hleft : ∀ a b : Bar α, isNaN (f a) = false → R (f a) (f (a.extend b)))
    (hright : ∀ a b : Bar α, isNaN (f b) = false → R (f b) (f (a.extend b))) {b : Bar α}
    {parts : List (Bar α)} (h : b.MadeOf parts) :
    ∀ p ∈ parts, isNaN (f p) = false → R (f p) (f b) := by
  induction h with
  | single b =>
    intro p hp hn
    obtain rfl := List.mem_singleton.mp hp
    exact hrefl hn
  | @extend a b u v _ _ ihu ihv =>
    intro p hp hn
    rcases List.mem_append.mp hp with hp | hp
    · have hpart := ihu p hp hn
      exact htrans hpart (hleft a b (hnum hpart))
    · have hpart := ihv p hp hn
      exact htrans hpart (hright a b (hnum hpart))

section Ordered

variable [Ordered α]

theorem Bar.MadeOf.ranges {b : Bar α} {parts : List (Bar α)} (h : b.MadeOf parts) :
    b.Ranges parts where
  high_mem := h.exists_mem fun a b => Scalar.max_eq_or a.high b.high
  le_high := h.forall_mem (R := (· ≤ ·)) Scalar.le_self Ordered.le_trans
    (fun hle => (Ordered.isNaN_of_le hle).2) (fun _ _ => Scalar.le_max_left)
    fun _ _ => Scalar.le_max_right
  low_mem := h.exists_mem fun a b => Scalar.min_eq_or a.low b.low
  low_le := h.forall_mem (R := fun x y => y ≤ x) Scalar.le_self
    (fun hle hle' => Ordered.le_trans hle' hle) (fun hle => (Ordered.isNaN_of_le hle).1)
    (fun _ _ => Scalar.min_le_left) fun _ _ => Scalar.min_le_right

namespace Extremes

/-- The extremes of bars whose highs and lows are numbers. -/
theorem Covers.bounds {e : Extremes α} {bars : List (Bar α)} (h : e.Covers bars)
    (hbars : ∀ b ∈ bars, isNaN b.high = false ∧ isNaN b.low = false) : e.Bounds bars where
  high := by
    refine ⟨h.high_mem, ?_⟩
    rintro x (rfl | ⟨b, hb, rfl⟩)
    · exact h.zero_le_high
    · exact h.le_high b hb (hbars b hb).1
  low := by
    obtain ⟨b, hb, hlow⟩ := h.low_mem
    refine ⟨⟨b, hb, (Ordered.bounded_eq (hbars b hb).2).symm.trans hlow⟩, ?_⟩
    rintro x ⟨b, hb, rfl⟩
    exact (h.low_le b hb).trans_eq (Ordered.bounded_eq (hbars b hb).2)

theorem covers_ofBar {b : Bar α} {parts : List (Bar α)} (h : b.Ranges parts) :
    (ofBar b).Covers parts where
  high_mem := by
    obtain ⟨p, hp, hhigh⟩ := h.high_mem
    exact (Scalar.max_eq_or 0 b.high).imp id fun heq => ⟨p, hp, hhigh.trans heq.symm⟩
  zero_le_high := Scalar.le_max_left Ordered.isNaN_zero
  le_high p hp hnum := by
    have hle := h.le_high p hp hnum
    exact Ordered.le_trans hle (Scalar.le_max_right (Ordered.isNaN_of_le hle).2)
  low_mem := by
    obtain ⟨p, hp, hlow⟩ := h.low_mem
    exact ⟨p, hp, congrArg bounded hlow⟩
  low_le p hp := by
    show bounded b.low ≤ bounded p.low
    cases hnum : isNaN p.low with
    | true => exact Ordered.le_bounded hnum (Ordered.isNaN_bounded b.low)
    | false =>
      have hle := h.low_le p hp hnum
      rwa [Ordered.bounded_eq hnum, Ordered.bounded_eq (Ordered.isNaN_of_le hle).1]

/-- Extremes that are widened by a bar are those of its parts as well. -/
theorem Covers.widen {e : Extremes α} {bars parts : List (Bar α)} {b : Bar α} (he : e.Covers bars)
    (hb : b.Ranges parts) : (widen (some e) b).Covers (bars ++ parts) := by
  have hhigh : isNaN e.high = false := (Ordered.isNaN_of_le he.zero_le_high).2
  have hlow : isNaN e.low = false := by
    obtain ⟨p, -, heq⟩ := he.low_mem
    exact heq ▸ Ordered.isNaN_bounded p.low
  have hfell : Scalar.min e.low b.low ≤ e.low := Scalar.min_le_left hlow
  constructor
  case high_mem =>
    rcases Scalar.max_eq_or e.high b.high with heq | heq
    · rcases he.high_mem with hzero | ⟨p, hp, hmem⟩
      · exact Or.inl (heq.trans hzero)
      · exact Or.inr ⟨p, List.mem_append_left parts hp, hmem.trans heq.symm⟩
    · obtain ⟨p, hp, hmem⟩ := hb.high_mem
      exact Or.inr ⟨p, List.mem_append_right bars hp, hmem.trans heq.symm⟩
  case zero_le_high => exact Ordered.le_trans he.zero_le_high (Scalar.le_max_left hhigh)
  case le_high =>
    intro p hp hnum
    rcases List.mem_append.mp hp with hp | hp
    · exact Ordered.le_trans (he.le_high p hp hnum) (Scalar.le_max_left hhigh)
    · have hle := hb.le_high p hp hnum
      exact Ordered.le_trans hle (Scalar.le_max_right (Ordered.isNaN_of_le hle).2)
  case low_mem =>
    rcases Scalar.min_cases hlow (y := b.low) with heq | ⟨heq, hnum⟩
    · obtain ⟨p, hp, hmem⟩ := he.low_mem
      exact ⟨p, List.mem_append_left parts hp, hmem.trans heq.symm⟩
    · obtain ⟨p, hp, hmem⟩ := hb.low_mem
      refine ⟨p, List.mem_append_right bars hp, ?_⟩
      rw [hmem, Ordered.bounded_eq hnum]
      exact heq.symm
  case low_le =>
    intro p hp
    rcases List.mem_append.mp hp with hp | hp
    · exact Ordered.le_trans hfell (he.low_le p hp)
    · cases hnum : isNaN p.low with
      | true => exact Ordered.le_bounded hnum (Ordered.isNaN_of_le hfell).1
      | false =>
        have hle := hb.low_le p hp hnum
        rw [Ordered.bounded_eq hnum]
        exact Ordered.le_trans (Scalar.min_le_right (Ordered.isNaN_of_le hle).1) hle

end Extremes

end Ordered

namespace Extremes

theorem ofBars?_concat (bars : List (Bar α)) (b : Bar α) :
    ofBars? (bars ++ [b]) = some (widen (ofBars? bars) b) := by
  simp [ofBars?]

theorem ofBars?_eq_none_iff {bars : List (Bar α)} : ofBars? bars = none ↔ bars = [] := by
  rcases List.eq_nil_or_concat bars with rfl | ⟨init, b, rfl⟩
  · simp [ofBars?]
  · rw [List.concat_eq_append, ofBars?_concat]
    simp

/-- If each of some bars is made of its own stretch of a list, their extremes are those of what
these stretches make up together. -/
theorem covers_ofBars? [Ordered α] {bars base : List (Bar α)} {k : Nat}
    (hb : ∀ j (hj : j < bars.length), bars[j].MadeOf (stretch base k j)) (a : Nat) {m : Nat}
    (ham : a + m ≤ bars.length) {e : Extremes α}
    (h : ofBars? ((bars.drop a).take m) = some e) :
    e.Covers ((base.drop (a * k)).take (m * k)) := by
  induction m generalizing e with
  | zero => cases h
  | succ m ih =>
    have hlt : a + m < bars.length := by omega
    have hlast : (bars.drop a)[m]? = some bars[a + m] := by
      rw [List.getElem?_drop, List.getElem?_eq_getElem hlt]
    have hnew := (hb (a + m) hlt).ranges
    rw [List.take_add_one, hlast, Option.toList_some, ofBars?_concat] at h
    obtain rfl := Option.some.inj h
    cases hprev : ofBars? ((bars.drop a).take m) with
    | none =>
      -- only where there are no bars there are no extremes, so this is the first bar
      have hm : m = 0 := by
        have := congrArg List.length (ofBars?_eq_none_iff.mp hprev)
        simp only [List.length_take, List.length_drop, List.length_nil] at this
        omega
      subst hm
      rw [Nat.zero_add, Nat.one_mul]
      exact covers_ofBar hnew
    | some d =>
      have hbefore := ih (by omega) hprev
      rw [Nat.succ_mul, List.take_add, List.drop_drop, ← Nat.add_mul]
      exact hbefore.widen hnew

end Extremes

namespace Series

/-- Number of local windows that are complete. -/
def windows (s : Series α) : Nat := (s.bars .m5).size / localWindow

/-- The extremes that a series keeps are those of the bars of five seconds, of the five-minute bars
of the last complete window, and of the five-minute bars behind it. -/
structure Ranged (s : Series α) : Prop where
  daily : s.daily = Extremes.ofBars? (s.bars .s5).toList
  local? : s.local? = if s.windows = 0 then none
    else Extremes.ofBars? (stretch (s.bars .m5).toList localWindow (s.windows - 1))
  pending : s.pending = Extremes.ofBars? ((s.bars .m5).toList.drop (s.windows * localWindow))

@[simp] theorem windows_empty (c : ContractId) (isUnderlying : Bool) :
    (empty c isUnderlying : Series α).windows = 0 := by
  simp [windows]

theorem ranged_empty (c : ContractId) (isUnderlying : Bool) :
    (empty c isUnderlying : Series α).Ranged where
  daily := by
    rw [bars_empty]
    rfl
  local? := by
    rw [windows_empty, if_pos rfl]
    rfl
  pending := by
    rw [bars_empty, List.drop_nil]
    rfl

theorem daily_emit (s : Series α) (t : Timeframe) (b : Bar α) :
    (s.emit t b).1.daily = if t = .s5 then some (Extremes.widen s.daily b) else s.daily := by
  cases t with
  | m5 =>
    show (extendLocal _ b).daily = s.daily
    unfold extendLocal
    dsimp only
    split <;> rfl
  | _ => rfl

/-- Only a five-minute bar changes the extremes of the windows. -/
theorem local_emit_of_ne (s : Series α) {t : Timeframe} (ht : t ≠ .m5) (b : Bar α) :
    (s.emit t b).1.local? = s.local? ∧ (s.emit t b).1.pending = s.pending := by
  cases t with
  | m5 => exact absurd rfl ht
  | _ => exact ⟨rfl, rfl⟩

/-- A five-minute bar widens the window that is not complete, or completes it. -/
theorem local_emit (s : Series α) (b : Bar α) :
    ((s.emit .m5 b).1.local?, (s.emit .m5 b).1.pending) =
      if ((s.bars .m5).size + 1) % localWindow = 0 then
        (some (Extremes.widen s.pending b), none)
      else (s.local?, some (Extremes.widen s.pending b)) := by
  have hsize : ((s.bars .m5).push b).size = (s.bars .m5).size + 1 := Array.size_push b
  rw [← hsize]
  show ((extendLocal (s.modifyTier .m5 (·.push b)) b).local?,
    (extendLocal (s.modifyTier .m5 (·.push b)) b).pending) =
      if ((s.bars .m5).push b).size % localWindow = 0 then _ else _
  unfold extendLocal
  dsimp only
  split
  · rw [if_pos ‹_›]
    rfl
  · rw [if_neg ‹_›]
    rfl

theorem windows_emit (s : Series α) (b : Bar α) :
    (s.emit .m5 b).1.windows =
      if ((s.bars .m5).size + 1) % localWindow = 0 then s.windows + 1 else s.windows := by
  unfold windows
  rw [bars_emit, if_pos rfl, Array.size_push]
  split
  · exact Nat.succ_div_of_mod_eq_zero ‹_›
  · exact Nat.succ_div_of_mod_ne_zero ‹_›

omit [Scalar α] in
theorem windows_mul_le (s : Series α) : s.windows * localWindow ≤ (s.bars .m5).toList.length := by
  rw [Array.length_toList]
  exact Nat.div_mul_le_self _ _

omit [Scalar α] in
/-- The bars behind the last complete window, with one more of them. -/
theorem drop_windows_concat (s : Series α) (b : Bar α) :
    ((s.bars .m5).toList ++ [b]).drop (s.windows * localWindow) =
      (s.bars .m5).toList.drop (s.windows * localWindow) ++ [b] :=
  List.drop_append_of_le_length s.windows_mul_le

theorem Ranged.emit_window {s : Series α} (h : s.Ranged) (b : Bar α) :
    (s.emit .m5 b).1.Ranged := by
  have hbars : ((s.emit .m5 b).1.bars .m5).toList = (s.bars .m5).toList ++ [b] := by
    rw [bars_emit, if_pos rfl, Array.toList_push]
  have hwidened : some (Extremes.widen s.pending b) =
      Extremes.ofBars? ((s.bars .m5).toList.drop (s.windows * localWindow) ++ [b]) := by
    rw [Extremes.ofBars?_concat, h.pending]
  have hlocal := s.local_emit b
  have hwindows := s.windows_emit b
  have hdaily : (s.emit .m5 b).1.daily = Extremes.ofBars? ((s.emit .m5 b).1.bars .s5).toList := by
    rw [daily_emit, if_neg (by decide), bars_emit, if_neg (by decide), h.daily]
  by_cases hr : ((s.bars .m5).size + 1) % localWindow = 0
  · rw [if_pos hr, Prod.mk.injEq] at hlocal
    rw [if_pos hr] at hwindows
    -- the bar is the last of its window
    have hfull : (s.windows + 1) * localWindow = ((s.bars .m5).toList ++ [b]).length := by
      rw [← hwindows, windows, bars_emit, if_pos rfl, Array.size_push,
        Nat.div_mul_cancel (Nat.dvd_of_mod_eq_zero hr)]
      simp
    constructor
    case daily => exact hdaily
    case local? =>
      rw [hlocal.1, hwindows, if_neg (by omega), Nat.add_sub_cancel, hbars, hwidened, stretch,
        ← drop_windows_concat, List.take_of_length_le]
      rw [List.length_drop, ← hfull, Nat.succ_mul]
      omega
    case pending =>
      rw [hlocal.2, hwindows, hbars, hfull, List.drop_length]
      rfl
  · rw [if_neg hr, Prod.mk.injEq] at hlocal
    rw [if_neg hr] at hwindows
    constructor
    case daily => exact hdaily
    case local? =>
      rw [hlocal.1, hwindows, hbars, h.local?]
      split
      · rfl
      · rw [stretch_append]
        rw [Nat.sub_add_cancel (by omega)]
        exact s.windows_mul_le
    case pending => rw [hlocal.2, hwindows, hbars, drop_windows_concat, hwidened]

theorem Ranged.emit {s : Series α} (h : s.Ranged) (t : Timeframe) (b : Bar α) :
    (s.emit t b).1.Ranged := by
  by_cases ht : t = .m5
  · subst ht
    exact h.emit_window b
  · have hm5 : (s.emit t b).1.bars .m5 = s.bars .m5 := by rw [bars_emit, if_neg (Ne.symm ht)]
    have hwindows : (s.emit t b).1.windows = s.windows := by rw [windows, hm5, windows]
    obtain ⟨hlocal, hpending⟩ := s.local_emit_of_ne ht b
    constructor
    case daily =>
      rw [daily_emit, bars_emit]
      by_cases h5 : t = .s5
      · rw [if_pos h5, if_pos h5.symm, Array.toList_push, Extremes.ofBars?_concat, h.daily]
      · rw [if_neg h5, if_neg (Ne.symm h5), h.daily]
    case local? => rw [hlocal, hwindows, hm5, h.local?]
    case pending => rw [hpending, hwindows, hm5, h.pending]

section Feed

variable (c : ContractId) (isUnderlying : Bool) (feed : List (Bar α))

theorem ranged_ofFeed : ((empty c isUnderlying).ingestAll feed).Ranged :=
  @ingestAll_induction α _ Ranged (fun _ t b h => h.emit t b) _ (ranged_empty c isUnderlying) feed

theorem daily_ofFeed :
    ((empty c isUnderlying).ingestAll feed).daily = Extremes.ofBars? feed := by
  rw [(ranged_ofFeed c isUnderlying feed).daily, toList_bars_ofFeed]

theorem windows_ofFeed :
    ((empty c isUnderlying).ingestAll feed).windows = feed.length / 360 := by
  have h := aligned_ofFeed c isUnderlying feed
  rw [windows, h.size_bars, ← Array.length_toList, toList_bars_ofFeed, Nat.div_div_eq_div_mul]
  rfl

theorem local?_eq_none_iff :
    ((empty c isUnderlying).ingestAll feed).local? = none ↔ feed.length < 360 := by
  have h := ranged_ofFeed c isUnderlying feed
  have hle := windows_mul_le ((empty c isUnderlying).ingestAll feed)
  have hn := windows_ofFeed c isUnderlying feed
  rw [h.local?, hn]
  rw [hn] at hle
  split
  · simpa using Nat.lt_of_div_eq_zero (by decide) ‹_›
  · rename_i hw
    have hfull : 360 ≤ feed.length := Nat.le_of_not_lt fun hlt => hw (Nat.div_eq_of_lt hlt)
    rw [Extremes.ofBars?_eq_none_iff, ← List.length_eq_zero_iff,
      length_stretch (by rwa [Nat.sub_add_cancel (Nat.pos_of_ne_zero hw)])]
    exact iff_of_false (by decide) (Nat.not_lt.mpr hfull)

variable [Ordered α] {c isUnderlying feed}

theorem covers_daily {e : Extremes α}
    (h : ((empty c isUnderlying).ingestAll feed).daily = some e) : e.Covers feed := by
  have hb : ∀ j (hj : j < feed.length), feed[j].MadeOf (stretch feed 1 j) := by
    intro j hj
    rw [stretch_one hj]
    exact .single _
  rw [daily_ofFeed] at h
  have hall := Extremes.covers_ofBars? hb 0 (m := feed.length) (by omega) (e := e) (by simpa using h)
  simpa using hall

/-- The bars of five minutes of a window are made of the bars of five seconds of the window. -/
theorem covers_local {e : Extremes α}
    (h : ((empty c isUnderlying).ingestAll feed).local? = some e) :
    e.Covers (stretch feed 360 (feed.length / 360 - 1)) := by
  have hbars := aligned_ofFeed c isUnderlying feed
  have hranged := ranged_ofFeed c isUnderlying feed
  have hle := windows_mul_le ((empty c isUnderlying).ingestAll feed)
  have hn := windows_ofFeed c isUnderlying feed
  have hparts : ∀ j (hj : j < (((empty c isUnderlying).ingestAll feed).bars .m5).toList.length),
      (((empty c isUnderlying).ingestAll feed).bars .m5).toList[j].MadeOf
        (stretch feed Timeframe.m5.parts j) := by
    intro j hj
    have := hbars.covers .m5 hj
    rwa [toList_bars_ofFeed] at this
  rw [hranged.local?] at h
  split at h
  · cases h
  · rename_i hw
    have hcovers := Extremes.covers_ofBars? hparts _ (m := localWindow)
      (by rwa [← Nat.succ_mul, Nat.succ_eq_add_one, Nat.sub_add_cancel (Nat.pos_of_ne_zero hw)]) h
    rwa [Nat.mul_assoc, hn] at hcovers

/-- In a feed whose highs and lows are numbers, the extremes of the day are there as soon as there
is a bar, and those of all bars; the extremes of the local window are there as soon as there are
360 bars, and those of the last whole 360 bars, counted from the first bar. -/
theorem extremes_cover (c : ContractId) (isUnderlying : Bool) (feed : List (Bar α))
    (hfeed : ∀ b ∈ feed, isNaN b.high = false ∧ isNaN b.low = false) :
    let s := (empty c isUnderlying).ingestAll feed
    (s.daily = none ↔ feed.length = 0) ∧
    (∀ e, s.daily = some e → e.Bounds feed) ∧
    (s.local? = none ↔ feed.length < 360) ∧
    ∀ e, s.local? = some e → e.Bounds (stretch feed 360 (feed.length / 360 - 1)) := by
  intro s
  have hstretch : ∀ b ∈ stretch feed 360 (feed.length / 360 - 1),
      isNaN b.high = false ∧ isNaN b.low = false :=
    fun b hb => hfeed b (List.mem_of_mem_drop (List.mem_of_mem_take hb))
  refine ⟨?daily, fun e he => (covers_daily he).bounds hfeed, local?_eq_none_iff _ _ _,
    fun e he => (covers_local he).bounds hstretch⟩
  case daily => rw [daily_ofFeed, Extremes.ofBars?_eq_none_iff, List.length_eq_zero_iff]

/-- A bar of five seconds with one price. -/
def levelBar (price : Float) : Bar Float where
  contract := ⟨0⟩
  timestamp := .ofMillis 0
  opening := price
  high := price
  low := price
  close := price
  volume := 1

/-- Three levels of prices: two whole windows, and one that is not complete. -/
def levels : List (Bar Float) :=
  List.replicate 360 (levelBar 2) ++ List.replicate 360 (levelBar 3) ++
    List.replicate 40 (levelBar 1)

theorem extremes_cover_levels :
    (∀ b ∈ levels, isNaN b.high = false ∧ isNaN b.low = false) ∧
      (∃ e, ((empty ⟨0⟩ true).ingestAll levels).daily = some e ∧ e.Bounds levels) ∧
      ∃ e, ((empty ⟨0⟩ true).ingestAll levels).local? = some e ∧
        e.Bounds (List.replicate 360 (levelBar 3)) := by
  have hnum : ∀ b ∈ levels, isNaN b.high = false ∧ isNaN b.low = false := by
    intro b hb
    simp only [levels, List.mem_append, List.mem_replicate] at hb
    rcases hb with (⟨-, rfl⟩ | ⟨-, rfl⟩) | ⟨-, rfl⟩ <;> decide
  have hlength : levels.length = 760 := by
    simp only [levels, List.length_append, List.length_replicate]
  have hwindow : stretch levels 360 (760 / 360 - 1) = List.replicate 360 (levelBar 3) := by
    rw [stretch, levels, List.append_assoc, List.drop_left' (List.length_replicate ..),
      List.take_left' (List.length_replicate ..)]
  obtain ⟨hnoday, hdaily, hnone, hlocal⟩ := extremes_cover ⟨0⟩ true levels hnum
  rw [hlength] at hnoday hnone
  rw [hlength, hwindow] at hlocal
  obtain ⟨d, hd⟩ := Option.ne_none_iff_exists'.mp (mt hnoday.mp (by decide))
  obtain ⟨e, he⟩ := Option.ne_none_iff_exists'.mp (mt hnone.mp (by decide))
  exact ⟨hnum, ⟨d, hd, hdaily d hd⟩, e, he, hlocal e he⟩

end Feed

end Series

end VolumeWatch
