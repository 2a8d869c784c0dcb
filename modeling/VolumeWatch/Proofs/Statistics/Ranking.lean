import Mathlib.Data.Prod.Lex
import VolumeWatch.Proofs.Scalar.TotalOrder
import VolumeWatch.Statistics.Snapshot

/-!
The first combinations of a snapshot by rank (`Snapshot.top_selects`). Entries compare by a pair of
their rate and their number of alerts (`Entry.standing`), so that their ranks are in a total order.
Entries of one rank are level in both, and the sort keeps those in their order
(`Snapshot.filter_mergeSort`).
-/

namespace VolumeWatch

open Scalar (compareTotal floatRank)

namespace Entry

/-- An entry stands above another one: its rate is higher in the total order, or both have the same
rate and it has more alerts. -/
def Outranks (a b : Entry Float) : Prop :=
  compareTotal b.rate a.rate = .lt ∨ b.rate = a.rate ∧ b.alerts < a.alerts

/-- Two entries have the same rate and as many alerts. -/
def Level (a b : Entry Float) : Prop := a.rate = b.rate ∧ a.alerts = b.alerts

instance (a b : Entry Float) : Decidable (a.Level b) := inferInstanceAs (Decidable (_ ∧ _))

/-- What entries are ranked by. -/
def standing (e : Entry Float) : ℤ ×ₗ ℕ := toLex (floatRank e.rate, e.alerts)

theorem outranks_iff {a b : Entry Float} : a.Outranks b ↔ b.standing < a.standing := by
  simp [Outranks, standing, Prod.Lex.toLex_lt_toLex, Scalar.compareTotal_lt_iff]

theorem level_iff {a b : Entry Float} : a.Level b ↔ a.standing = b.standing := by
  simp [Level, standing]

theorem outranks_or_level {a b : Entry Float} (h : ¬ b.Outranks a) : a.Outranks b ∨ a.Level b := by
  rw [outranks_iff, not_lt] at h
  rw [outranks_iff, level_iff, eq_comm]
  exact h.lt_or_eq

theorem compareRank_eq (a b : Entry Float) :
    Snapshot.compareRank a b = compare b.standing a.standing := by
  rw [Prod.Lex.compare_def]
  rfl

theorem compareRank_ne_gt_iff {a b : Entry Float} :
    (Snapshot.compareRank a b != .gt) = true ↔ b.standing ≤ a.standing := by
  rw [compareRank_eq, bne_iff_ne, compare_le_iff_le]

end Entry

namespace Snapshot

/-- A stable sort keeps the order of elements that are level with each other. -/
theorem filter_mergeSort {β : Type} {le : β → β → Bool}
    (trans : ∀ a b c, le a b → le b c → le a c) (total : ∀ a b, le a b || le b a)
    {p : β → Bool} (hp : ∀ a b, p a → p b → le a b) (xs : List β) :
    (xs.mergeSort le).filter p = xs.filter p := by
  have hlevel : (xs.filter p).Pairwise fun a b => le a b := by
    apply List.pairwise_of_forall_mem_list
    exact fun a ha b hb => hp a b (List.mem_filter.mp ha).2 (List.mem_filter.mp hb).2
  have hsublist : (xs.filter p).Sublist ((xs.mergeSort le).filter p) := by
    simpa using (List.sublist_mergeSort trans total hlevel List.filter_sublist).filter p
  exact (hsublist.eq_of_length ((List.mergeSort_perm xs le).filter p).length_eq.symm).symm

/-- The order that combinations are sorted by. -/
def rankLE (a b : Tags × Entry Float) : Bool := compareRank a.2 b.2 != .gt

theorem rankLE_iff {a b : Tags × Entry Float} : rankLE a b ↔ b.2.standing ≤ a.2.standing :=
  Entry.compareRank_ne_gt_iff

theorem rankLE_trans (a b c : Tags × Entry Float) (hab : rankLE a b) (hbc : rankLE b c) :
    rankLE a c := by
  rw [rankLE_iff] at *
  exact hbc.trans hab

theorem rankLE_total (a b : Tags × Entry Float) : rankLE a b || rankLE b a := by
  simpa [rankLE_iff] using le_total b.2.standing a.2.standing

/-- The combinations with enough alerts. -/
def eligible (s : Snapshot Float) (minAlerts : Nat) : List (Tags × Entry Float) :=
  s.combinations.filter fun c => minAlerts ≤ c.2.alerts

/-- The combinations with enough alerts, in the order of their rank. -/
def ranked (s : Snapshot Float) (minAlerts : Nat) : List (Tags × Entry Float) :=
  (s.eligible minAlerts).mergeSort rankLE

variable (s : Snapshot Float) (minAlerts limit : Nat)

theorem top_eq_take : s.top minAlerts limit = (s.ranked minAlerts).take limit := rfl

theorem ranked_perm : (s.ranked minAlerts).Perm (s.eligible minAlerts) := List.mergeSort_perm _ _

theorem pairwise_ranked : (s.ranked minAlerts).Pairwise fun a b => ¬ b.2.Outranks a.2 := by
  refine (List.pairwise_mergeSort rankLE_trans rankLE_total _).imp fun {a b} hle => ?_
  rw [Entry.outranks_iff, not_lt]
  exact rankLE_iff.mp hle

theorem filter_level_ranked (e : Entry Float) :
    (s.ranked minAlerts).filter (fun c => e.Level c.2) =
      (s.eligible minAlerts).filter fun c => e.Level c.2 := by
  apply filter_mergeSort rankLE_trans rankLE_total
  intro a b ha hb
  simp only [decide_eq_true_eq, Entry.level_iff] at ha hb
  rw [rankLE_iff, ← ha, ← hb]

/-- The first combinations by rank are taken from those with enough alerts, as many as the limit
allows, and no other of them stands above one that is taken. They come in the order of their rank,
and so of their rate. Those of one rank are taken in their order, from the first one on. A larger
limit adds combinations at the end. -/
theorem top_selects :
    let top := s.top minAlerts limit
    (∃ others, (s.eligible minAlerts).Perm (top ++ others) ∧
      ∀ a ∈ top, ∀ b ∈ others, ¬ b.2.Outranks a.2) ∧
    top.length = min limit (s.eligible minAlerts).length ∧
    top.Pairwise (fun a b => (a.2.Outranks b.2 ∨ a.2.Level b.2) ∧ ¬ a.2.rate < b.2.rate) ∧
    (∀ e : Entry Float, top.filter (fun c => e.Level c.2) <+:
      (s.eligible minAlerts).filter fun c => e.Level c.2) ∧
    ∀ more, top <+: s.top minAlerts (limit + more) := by
  intro top
  have htop : top = (s.ranked minAlerts).take limit := s.top_eq_take minAlerts limit
  have hordered := s.pairwise_ranked minAlerts
  refine ⟨⟨(s.ranked minAlerts).drop limit, ?others, ?above⟩, ?length, ?ordered, fun e => ?level,
    fun more => ?more⟩
  case others =>
    rw [htop, List.take_append_drop]
    exact (s.ranked_perm minAlerts).symm
  case above =>
    rw [← List.take_append_drop limit (s.ranked minAlerts), ← htop] at hordered
    exact (List.pairwise_append.mp hordered).2.2
  case length => simp [htop, (s.ranked_perm minAlerts).length_eq]
  case ordered =>
    rw [htop]
    refine (hordered.sublist (List.take_sublist _ _)).imp fun {a b} hnot => ⟨?_, ?_⟩
    · exact Entry.outranks_or_level hnot
    · exact fun hlt => hnot (Or.inl (Scalar.compareTotal_of_lt hlt))
  case level =>
    rw [htop, ← filter_level_ranked]
    exact (List.take_prefix limit _).filter _
  case more => simp [htop, top_eq_take, List.take_add]

end Snapshot

end VolumeWatch
