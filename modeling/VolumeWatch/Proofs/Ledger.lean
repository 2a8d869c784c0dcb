import Mathlib.Data.List.Basic
import VolumeWatch.Alert
import VolumeWatch.Outcome

/-!
Ledgers: what has become of every alert of a run, in the order in which the alerts were noted.

Alerts are evaluated one after the other. The first alert that is pending is the next to meet its
fate (`Ledger.resolve`), until all that are still pending meet theirs together (`Ledger.close`).
-/

namespace VolumeWatch

variable {α : Type}

inductive Fate (α : Type) where
  /-- Dropped, as the queue was full. -/
  | full
  /-- Refused, as the queue had no receiver any more. -/
  | closed
  /-- In the queue or held by the worker. -/
  | pending
  | scored (outcome : Outcome α)
  /-- Looked at when it was ripe, and discarded. -/
  | unscored (fault : Fault α)
  /-- Pending when the run ended. -/
  | discarded
  /-- Pending when the worker was lost. -/
  | lost

namespace Fate

def isPending : Fate α → Bool
  | .pending => true
  | _ => false

def isFull : Fate α → Bool
  | .full => true
  | _ => false

/-- Only the end of the run or the loss of the worker leaves an alert so. -/
def isFinal : Fate α → Bool
  | .closed | .discarded | .lost => true
  | _ => false

def isLost : Fate α → Bool
  | .lost => true
  | _ => false

def outcome? : Fate α → Option (Outcome α)
  | .scored o => some o
  | _ => none

def result? : Fate α → Option (Except (Fault α) (Outcome α))
  | .scored o => some (.ok o)
  | .unscored fault => some (.error fault)
  | _ => none

/-- What becomes of an alert that is put into the queue. -/
def ofPush : Except (Fault α) Unit → Fate α
  | .ok _ => .pending
  | .error (.queueFull _) => .full
  | .error _ => .closed

theorem eq_pending {f : Fate α} (h : f.isPending) : f = .pending := by
  cases f <;> first | rfl | cases h

theorem isPending_eq_false {f : Fate α} (h : f.isFinal) : f.isPending = false := by
  cases f <;> first | rfl | cases h

theorem isFull_eq_false {f : Fate α} (h : f.isFinal) : f.isFull = false := by
  cases f <;> first | rfl | cases h

theorem result?_eq_none {f : Fate α} (h : f.isFinal) : f.result? = none := by
  cases f <;> first | rfl | cases h

theorem outcome?_eq_none {f : Fate α} (h : f.result? = none) : f.outcome? = none := by
  cases f <;> first | rfl | cases h

theorem result?_of_outcome? {f : Fate α} {o : Outcome α} (h : f.outcome? = some o) :
    f.result? = some (.ok o) := by
  cases f with
  | scored o' =>
    obtain rfl := Option.some.inj h
    rfl
  | _ => cases h

theorem evaluated_or_full {f : Fate α} (hp : f.isPending = false) (hf : f.isFinal = false) :
    f.result?.isSome ∨ f.isFull := by
  cases f with
  | full => exact Or.inr rfl
  | scored o => exact Or.inl rfl
  | unscored fault => exact Or.inl rfl
  | pending => cases hp
  | closed | discarded | lost => cases hf

end Fate

abbrev Ledger (α : Type) := List (Alert α × Fate α)

namespace Ledger

def pending (l : Ledger α) : List (Alert α) := (l.filter (·.2.isPending)).map (·.1)

def outcomes (l : Ledger α) : List (Alert α × Outcome α) :=
  l.filterMap fun x => x.2.outcome?.map (x.1, ·)

/-- The alerts that were evaluated, with what the evaluation has given, in order. -/
def evaluations (l : Ledger α) : List (Alert α × Except (Fault α) (Outcome α)) :=
  l.filterMap fun x => x.2.result?.map (x.1, ·)

def resolve (f : Fate α) : Ledger α → Ledger α
  | [] => []
  | x :: rest => if x.2.isPending then (x.1, f) :: rest else x :: resolve f rest

def close (f : Fate α) (l : Ledger α) : Ledger α :=
  l.map fun x => if x.2.isPending then (x.1, f) else x

/-- The first alert that is pending meets what the worker has found, and with the loss of the worker
all of them do. -/
def meet (f : Fate α) (l : Ledger α) : Ledger α :=
  match f with
  | .pending => l
  | .lost => l.close .lost
  | f => l.resolve f

/-- Alerts are evaluated in order, leaving out none but those that were dropped. -/
def InOrder (l : Ledger α) : Prop :=
  l.Pairwise fun x y => y.2.result?.isSome → x.2.result?.isSome ∨ x.2.isFull

theorem resolve_eq {f : Fate α} {l : Ledger α} {a : Alert α} {rest : List (Alert α)}
    (h : l.pending = a :: rest) :
    ∃ before after, l = before ++ (a, .pending) :: after ∧
      l.resolve f = before ++ (a, f) :: after ∧ pending before = [] ∧ pending after = rest := by
  induction l with
  | nil => simp [pending] at h
  | cons x l ih =>
    obtain ⟨b, fate⟩ := x
    by_cases hp : fate.isPending
    · obtain rfl := Fate.eq_pending hp
      simp only [pending, List.filter_cons, hp, if_true, List.map_cons, List.cons.injEq] at h
      obtain ⟨rfl, h⟩ := h
      exact ⟨[], l, rfl, by simp [resolve, hp], rfl, h⟩
    · have hl : pending l = a :: rest := by simpa [pending, List.filter_cons, hp] using h
      obtain ⟨before, after, rfl, hr, hb, ha⟩ := ih hl
      refine ⟨(b, fate) :: before, after, rfl, ?_, ?_, ha⟩
      · simp [resolve, hp, hr]
      · simpa [pending, List.filter_cons, hp] using hb

theorem pending_append (l r : Ledger α) : pending (l ++ r) = pending l ++ pending r := by
  simp [pending]

theorem pending_cons (a : Alert α) (f : Fate α) (l : Ledger α) :
    pending ((a, f) :: l) = if f.isPending then a :: pending l else pending l := by
  unfold pending
  rw [List.filter_cons]
  split <;> rfl

theorem pending_sublist (l : Ledger α) : l.pending.Sublist (l.map (·.1)) :=
  List.filter_sublist.map _

theorem pending_eq_nil {l : Ledger α} (h : ∀ x ∈ l, x.2.isPending = false) : pending l = [] := by
  unfold pending
  rw [List.map_eq_nil_iff, List.filter_eq_nil_iff]
  intro x hx
  simp [h x hx]

theorem outcomes_append (l r : Ledger α) : outcomes (l ++ r) = outcomes l ++ outcomes r := by
  simp [outcomes]

theorem outcomes_cons (a : Alert α) (f : Fate α) (l : Ledger α) :
    outcomes ((a, f) :: l) = (f.outcome?.map (a, ·)).toList ++ outcomes l := by
  unfold outcomes
  rw [List.filterMap_cons]
  cases f.outcome? <;> rfl

theorem outcomes_eq_nil {l : Ledger α} (h : ∀ x ∈ l, x.2.result? = none) : outcomes l = [] := by
  unfold outcomes
  rw [List.filterMap_eq_nil_iff]
  intro x hx
  rw [Fate.outcome?_eq_none (h x hx), Option.map_none]

theorem InOrder.append {l r : Ledger α} (h : l.InOrder) (hr : ∀ x ∈ r, x.2.result? = none) :
    InOrder (l ++ r) := by
  refine List.pairwise_append.mpr ⟨h, ?_, fun x _ y hy hs => by simp [hr y hy] at hs⟩
  exact List.pairwise_of_forall_mem_list fun x _ y hy hs => by simp [hr y hy] at hs

theorem outcomes_sublist (l : Ledger α) : (outcomes l).map (·.1) |>.Sublist (l.map (·.1)) := by
  induction l with
  | nil => exact List.Sublist.slnil
  | cons x l ih =>
    obtain ⟨a, f⟩ := x
    rw [outcomes_cons]
    cases f.outcome? with
    | none => exact ih.cons a
    | some o => exact ih.cons_cons a

theorem outcomes_eq_filterMap (l : Ledger α) :
    outcomes l = (evaluations l).filterMap fun x => x.2.toOption.map (x.1, ·) := by
  unfold outcomes evaluations
  rw [List.filterMap_filterMap]
  apply List.filterMap_congr
  rintro ⟨a, f⟩ _
  cases f <;> rfl

/-- Where no alert was dropped, the first ones are those that were evaluated. -/
theorem InOrder.evaluations_eq_take {l : Ledger α} (h : l.InOrder)
    (hfull : l.countP (·.2.isFull) = 0) :
    (evaluations l).map (·.1) = (l.map (·.1)).take (l.countP (·.2.result?.isSome)) := by
  induction l with
  | nil => rfl
  | cons x l ih =>
    obtain ⟨a, f⟩ := x
    obtain ⟨hx, hl⟩ := List.pairwise_cons.mp h
    rw [List.countP_eq_zero] at hfull
    cases hr : f.result? with
    | none =>
      -- nothing behind the first alert that is not evaluated is
      have hnone : ∀ y ∈ l, y.2.result? = none := fun y hy => by
        cases hy' : y.2.result? with
        | none => rfl
        | some result =>
          rcases hx y hy (by simp [hy']) with h | h
          · simp [hr] at h
          · exact absurd h (hfull _ (List.mem_cons_self ..))
      have hcount : List.countP (·.2.result?.isSome) ((a, f) :: l) = 0 := by
        refine List.countP_eq_zero.mpr fun y hy => ?_
        rcases List.mem_cons.mp hy with rfl | hy
        · simp [hr]
        · simp [hnone y hy]
      have hempty : evaluations ((a, f) :: l) = [] := by
        refine List.filterMap_eq_nil_iff.mpr fun y hy => ?_
        rcases List.mem_cons.mp hy with rfl | hy
        · simp [hr]
        · simp [hnone y hy]
      rw [hcount, hempty]
      rfl
    | some result =>
      have hcount : List.countP (·.2.result?.isSome) ((a, f) :: l) =
          List.countP (·.2.result?.isSome) l + 1 := List.countP_cons_of_pos (by simp [hr])
      have hcons : evaluations ((a, f) :: l) = (a, result) :: evaluations l := by
        unfold evaluations
        rw [List.filterMap_cons, hr]
        rfl
      rw [hcount, hcons, List.map_cons, List.map_cons, List.take_succ_cons,
        ih hl (List.countP_eq_zero.mpr fun y hy => hfull y (List.mem_cons_of_mem _ hy))]

section Resolve

variable {f : Fate α} {l : Ledger α} {a : Alert α} {rest : List (Alert α)}

theorem map_resolve (h : l.pending = a :: rest) : (l.resolve f).map (·.1) = l.map (·.1) := by
  obtain ⟨before, after, rfl, hr, -, -⟩ := resolve_eq (f := f) h
  simp [hr]

theorem pending_resolve (hf : f.isPending = false) (h : l.pending = a :: rest) :
    (l.resolve f).pending = rest := by
  obtain ⟨before, after, rfl, hr, hb, ha⟩ := resolve_eq (f := f) h
  rw [hr, pending_append, pending_cons, hf, hb, ha]
  rfl

/-- Resolving changes a count by what the new fate counts for, as nothing that is pending did. -/
theorem countP_resolve {p : Fate α → Bool} (hp : p .pending = false) (h : l.pending = a :: rest) :
    (l.resolve f).countP (p ·.2) = l.countP (p ·.2) + if p f then 1 else 0 := by
  obtain ⟨before, after, rfl, hr, -, -⟩ := resolve_eq (f := f) h
  rw [hr, List.countP_append, List.countP_append, List.countP_cons, List.countP_cons]
  simp only [hp, Bool.false_eq_true, if_false]
  omega

theorem mem_resolve {y : Alert α × Fate α} (h : l.pending = a :: rest) (hy : y ∈ l.resolve f) :
    y = (a, f) ∨ y ∈ l := by
  obtain ⟨before, after, rfl, hr, -, -⟩ := resolve_eq (f := f) h
  rw [hr] at hy
  rcases List.mem_append.mp hy with hy | hy
  · exact Or.inr (List.mem_append_left _ hy)
  · rcases List.mem_cons.mp hy with rfl | hy
    · exact Or.inl rfl
    · exact Or.inr (List.mem_append_right _ (List.mem_cons_of_mem _ hy))

theorem InOrder.not_evaluated {before after : Ledger α}
    (h : InOrder (before ++ (a, .pending) :: after)) {y : Alert α × Fate α} (hy : y ∈ after) :
    y.2.result? = none := by
  have hcons := (List.pairwise_append.mp h).2.1
  have hx := (List.pairwise_cons.mp hcons).1 y hy
  cases hr : y.2.result? with
  | none => rfl
  | some r =>
    rcases hx (by simp [hr]) with h | h
    · simp [Fate.result?] at h
    · simp [Fate.isFull] at h

/-- The outcome of the first alert that is pending comes after all others. -/
theorem outcomes_resolve (h : l.pending = a :: rest) (ho : l.InOrder) :
    (l.resolve f).outcomes = l.outcomes ++ (f.outcome?.map (a, ·)).toList := by
  obtain ⟨before, after, rfl, hr, -, -⟩ := resolve_eq (f := f) h
  have hafter := outcomes_eq_nil fun y hy => ho.not_evaluated hy
  rw [hr, outcomes_append, outcomes_append, outcomes_cons, outcomes_cons, hafter]
  simp [Fate.outcome?]

/-- The first alert that is pending is the next to be evaluated, as long as nothing is final. -/
theorem InOrder.resolve (h : l.pending = a :: rest) (hl : ∀ x ∈ l, x.2.isFinal = false)
    (ho : l.InOrder) : (l.resolve f).InOrder := by
  obtain ⟨before, after, rfl, hr, hb, -⟩ := resolve_eq (f := f) h
  rw [hr]
  obtain ⟨hbefore, hcons, hcross⟩ := List.pairwise_append.mp ho
  refine List.pairwise_append.mpr ⟨hbefore, List.pairwise_cons.mpr ⟨?_, ?_⟩, ?_⟩
  · intro y hy hs
    simp [ho.not_evaluated hy] at hs
  · exact (List.pairwise_cons.mp hcons).2
  · intro x hx y hy hs
    rcases List.mem_cons.mp hy with rfl | hy
    · have hp : x.2.isPending = false := by
        unfold pending at hb
        rw [List.map_eq_nil_iff, List.filter_eq_nil_iff] at hb
        simpa using hb x hx
      exact Fate.evaluated_or_full hp (hl x (List.mem_append_left _ hx))
    · exact hcross x hx y (List.mem_cons_of_mem _ hy) hs

end Resolve

section Close

variable {f : Fate α}

theorem map_close (l : Ledger α) : (l.close f).map (·.1) = l.map (·.1) := by
  unfold close
  rw [List.map_map]
  apply List.map_congr_left
  intro x _
  simp only [Function.comp_apply]
  split <;> rfl

theorem mem_close {l : Ledger α} {y : Alert α × Fate α} (h : y ∈ l.close f) :
    y.2 = f ∨ y ∈ l ∧ y.2.isPending = false := by
  obtain ⟨x, hx, rfl⟩ := List.mem_map.mp h
  by_cases hp : x.2.isPending
  · exact Or.inl (by simp [hp])
  · exact Or.inr (by simp [hp, hx])

theorem pending_close (hf : f.isFinal) (l : Ledger α) : pending (l.close f) = [] := by
  apply pending_eq_nil
  intro y hy
  rcases mem_close hy with h | ⟨-, h⟩
  · rw [h, Fate.isPending_eq_false hf]
  · exact h

theorem countP_close (hf : f.isFinal) (l : Ledger α) :
    (l.close f).countP (·.2.isFull) = l.countP (·.2.isFull) := by
  unfold close
  rw [List.countP_map]
  apply List.countP_congr
  rintro ⟨a, g⟩ _
  by_cases hp : g.isPending
  · obtain rfl := Fate.eq_pending hp
    have hfull : f.isFull = (.pending : Fate α).isFull := Fate.isFull_eq_false hf
    simp [hp, hfull]
  · simp [hp]

theorem outcomes_close (hf : f.isFinal) (l : Ledger α) : outcomes (l.close f) = outcomes l := by
  unfold outcomes close
  rw [List.filterMap_map]
  apply List.filterMap_congr
  rintro ⟨a, g⟩ _
  by_cases hp : g.isPending
  · obtain rfl := Fate.eq_pending hp
    have hnone : f.outcome? = (.pending : Fate α).outcome? :=
      Fate.outcome?_eq_none (Fate.result?_eq_none hf)
    simp [hp, hnone]
  · simp [hp]

theorem InOrder.close (hf : f.isFinal) {l : Ledger α} (h : l.InOrder) : (l.close f).InOrder := by
  refine List.Pairwise.map _ ?_ h
  rintro ⟨a, g⟩ ⟨b, g'⟩ hxy
  by_cases hp' : g'.isPending
  · simp [hp', Fate.result?_eq_none hf]
  · intro hs
    simp only [hp'] at hs
    -- what comes before an alert that was evaluated was not pending either
    have hg := hxy hs
    by_cases hp : g.isPending
    · obtain rfl := Fate.eq_pending hp
      simp [Fate.result?, Fate.isFull] at hg
    · simpa [hp] using hg

end Close

end Ledger

end VolumeWatch
