import VolumeWatch.Proofs.Desk.Returned
import VolumeWatch.Proofs.Engine.Punctual

/-!
Arrivals: alerts come into the queue in the order of their moments, since each is noted with the
moment of the run and the clock of the run never goes back (`Engine.Arrived.turns`). On this clock
all have the same lookahead, so that no alert is ripe behind one that is not
(`Engine.arrivals_in_order`).
-/

namespace VolumeWatch.Engine

variable {α : Type}

/-- Alerts in the order of their moments. -/
def InMoments (as : List (Alert α)) : Prop := as.Pairwise fun a b => a.createdAt ≤ b.createdAt

variable [Scalar α]

/-- The alerts that come into the queue with a turn. -/
def entering (e : Engine α) : Turn α → List (Alert α)
  | .submit b => (e.submit b).2
  | _ => []

/-- The alerts that come into the queue with turns, in order. -/
def entered (e : Engine α) : List (Turn α) → List (Alert α)
  | [] => []
  | t :: ts => e.entering t ++ (e.turn t).entered ts

section Queue

variable {e r e' : Engine α} {a : Alert α}

theorem items_submit (e : Engine α) (b : Bar α) :
    (e.turn (.submit b)).desk.queue.items.toList =
      e.desk.queue.items.toList ++ e.entering (.submit b) := by
  have hentering : e.entering (.submit b) = (e.desk.ingest e.now b).2 := rfl
  have hdesk : (e.turn (.submit b)).desk = (e.desk.ingest e.now b).1 := rfl
  rw [hentering, hdesk, Desk.ingest_snd, Desk.ingest_fst]
  exact (e.desk.queue.takes_pushAll _).items

omit [Scalar α] in
/-- The worker takes its alerts from the front of the queue. -/
theorem Ready.items_suffix (h : Ready e r a) :
    r.desk.queue.items.toList <:+ e.desk.queue.items.toList := by
  have hfront : r.desk.queue.items.toList <:+ e.waiting := by
    rw [h.waiting]
    exact List.suffix_cons ..
  refine List.suffix_of_suffix_length_le hfront (List.suffix_append ..) ?_
  rw [← Fifo.size_eq_length, ← Fifo.size_eq_length]
  exact h.fewer

theorem Considered.items_suffix {f : Fate α} (h : Considered e a f e') :
    e'.desk.queue.items.toList <:+ e.desk.queue.items.toList := by
  cases h with
  | kept => exact List.suffix_rfl
  | lost status hover => exact List.nil_suffix
  | unscored fault hripe hscore => exact List.suffix_rfl
  | scored o hripe hscore => exact List.suffix_rfl

/-- Alerts come in at the back of the queue, and leave from its front. -/
theorem items_turn (e : Engine α) (t : Turn α) :
    (e.turn t).desk.queue.items.toList <:+ e.desk.queue.items.toList ++ e.entering t := by
  cases t with
  | submit b => exact e.items_submit b ▸ List.suffix_rfl
  | step =>
    show (e.turn .step).desk.queue.items.toList <:+ e.desk.queue.items.toList ++ []
    rw [List.append_nil]
    rcases e.turn_step_cases with hnone | ⟨r, a, hr, hlook⟩
    · exact hnone.symm ▸ List.suffix_rfl
    · rw [hlook]
      exact (r.considered a).items_suffix.trans hr.items_suffix
  | shutdown => exact List.nil_suffix
  | pass | beginReports | report => exact (List.append_nil _).symm ▸ List.suffix_rfl

/-- All that comes into the queue was raised with the turn. -/
theorem entering_sublist (e : Engine α) (t : Turn α) : (e.entering t).Sublist
    (t.bar?.toList.flatMap (e.desk.market.raised e.desk.classifier e.now)) := by
  cases t with
  | submit b =>
    show (e.desk.ingest e.now b).2.Sublist (List.flatMap _ [b])
    rw [List.flatMap_singleton]
    exact e.desk.ingest_snd_sublist e.now b
  | step | pass | beginReports | report | shutdown => exact List.nil_sublist _

end Queue

/-- The alerts that have come into the queue of an engine so far were noted in the same order, the
order of their moments, and those that still wait there came last. -/
structure Arrived (e : Engine α) (l : List (Alert α)) : Prop where
  items : e.desk.queue.items.toList <:+ l
  noted : l.Sublist e.desk.alerts
  sorted : InMoments e.desk.alerts
  past : ∀ a ∈ e.desk.alerts, a.createdAt ≤ e.now

namespace Arrived

variable {e : Engine α} {l : List (Alert α)}

omit [Scalar α] in
theorem initial {s : Settings α} {audience : Audience α} (he : ofSettings? s audience = some e) :
    Arrived e [] := by
  rw [eq_initial he]
  exact ⟨List.nil_suffix, List.nil_sublist _, .nil, by
    simp [Engine.initial, Desk.empty, Desk.alerts]⟩

theorem turn (h : Arrived e l) (t : Turn α) : Arrived (e.turn t) (l ++ e.entering t) := by
  have hlater := e.le_now_turn t
  -- what a turn raises has the moment of the turn
  have hnow : ∀ a ∈ t.bar?.toList.flatMap (e.desk.market.raised e.desk.classifier e.now),
      a.createdAt = e.now := by
    intro a ha
    obtain ⟨b, -, ha⟩ := List.mem_flatMap.mp ha
    exact Market.createdAt_of_mem_raised ha
  obtain ⟨-, halerts⟩ := e.turn_bar t
  constructor
  case items =>
    obtain ⟨front, rfl⟩ := h.items
    apply (e.items_turn t).trans
    rw [List.append_assoc]
    exact List.suffix_append ..
  case noted =>
    rw [halerts]
    exact h.noted.append (e.entering_sublist t)
  case sorted =>
    rw [halerts]
    refine List.pairwise_append.mpr ⟨h.sorted, ?_, fun a ha b hb => ?_⟩
    · refine List.pairwise_of_forall_mem_list fun a ha b hb => ?_
      rw [hnow a ha, hnow b hb]
    · rw [hnow b hb]
      exact h.past a ha
  case past =>
    rw [halerts]
    intro a ha
    apply Nat.le_trans ?_ hlater
    rcases List.mem_append.mp ha with ha | ha
    · exact h.past a ha
    · exact Nat.le_of_eq (hnow a ha)

theorem turns (h : Arrived e l) (ts : List (Turn α)) :
    Arrived (e.turns ts) (l ++ e.entered ts) := by
  induction ts generalizing e l with
  | nil =>
    show Arrived e (l ++ [])
    rw [List.append_nil]
    exact h
  | cons t ts ih =>
    rw [entered, ← List.append_assoc]
    exact ih (h.turn t)

end Arrived

omit [Scalar α] in
/-- On the clock of the run an alert that came later ripens later. -/
theorem isRipe?_eq_false_of_createdAt_le {e : Engine α} {a b : Alert α}
    (hm : e.maturity = .wallClock) (hle : a.createdAt ≤ b.createdAt)
    (h : e.isRipe? a = some false) : e.isRipe? b = some false := by
  rw [isRipe?_wallClock_iff hm, decide_eq_false_iff_not] at h ⊢
  refine ⟨h.1, ?_⟩
  omega

/-- Alerts come into the queue in the order of their moments. On the clock of the run, whenever the
alert that the worker holds is not ripe, and so whenever the worker has just found it to be so, none
of those in the queue behind it is ripe. -/
theorem arrivals_in_order {s : Settings α} {audience : Audience α} {e : Engine α}
    (he : ofSettings? s audience = some e) (hs : s.fault? = none) (hm : s.maturity = .wallClock) :
    (∀ ts : List (Turn α), InMoments (e.entered ts) ∧
      (e.turns ts).desk.queue.items.toList <:+ e.entered ts ∧
      ∀ b, (e.turns (ts ++ [.submit b])).desk.queue.items.toList =
        (e.turns ts).desk.queue.items.toList ++ (e.turns ts).entering (.submit b)) ∧
    (∀ (ts : List (Turn α)) a due, (e.turns ts).worker = .waiting a due →
      (e.turns ts).isRipe? a = some false →
      ∀ b ∈ (e.turns ts).desk.queue.items.toList, (e.turns ts).isRipe? b = some false) ∧
    (∀ (ts : List (Turn α)) e', (e.turns ts).step? = some e' →
      ∀ a due, e'.worker = .waiting a due → e'.isRipe? a = some false ∧
        ∀ b ∈ e'.desk.queue.items.toList, e'.isRipe? b = some false) ∧
    ∀ actions : List (Action α), ∃ ts, feed ts = actions.filterMap Action.bar? ∧
      e.turns ts = e.run actions := by
  have harrived (ts : List (Turn α)) : Arrived (e.turns ts) (e.entered ts) :=
    (Arrived.initial he).turns ts
  have hbehind (ts : List (Turn α)) (a : Alert α) (due : Nat)
      (hw : (e.turns ts).worker = .waiting a due) (h : (e.turns ts).isRipe? a = some false) :
      ∀ b ∈ (e.turns ts).desk.queue.items.toList, (e.turns ts).isRipe? b = some false := by
    intro b hb
    have hwaiting := ((Books.initial he).turns ts).waiting_sublist
    have hsorted := (harrived ts).sorted.sublist hwaiting
    rw [waiting, hw] at hsorted
    have hle := (List.pairwise_cons.mp hsorted).1 b hb
    exact isRipe?_eq_false_of_createdAt_le ((SameTerms.of_initial he ts).maturity.trans hm) hle h
  refine ⟨fun ts => ⟨?sorted, (harrived ts).items, fun b => ?submit⟩, hbehind, ?found,
    exists_turns he hs⟩
  case sorted => exact (harrived ts).sorted.sublist (harrived ts).noted
  case submit =>
    rw [turns_append]
    exact (e.turns ts).items_submit b
  case found =>
    intro ts e' hstep a due hw
    have hturn : e.turns (ts ++ [.step]) = e' := by
      rw [turns_append]
      show ((e.turns ts).step?).getD _ = e'
      rw [hstep]
      rfl
    have hinformed : e'.isRipe? a = some false := Informed.of_step? hstep a due hw
    rw [← hturn] at hw hinformed ⊢
    exact ⟨hinformed, hbehind _ a due hw hinformed⟩

def standardEngine : Engine Float := initial Settings.standard (.content false)

theorem fault?_standard : (Settings.standard : Settings Float).fault? = none :=
  Option.isNone_iff_eq_none.mp (by decide +kernel)

/-- The burst of one option, and a second later that of another. -/
def twoBursts : List (Turn Float) :=
  burst.map .submit ++ .pass 1000 :: (List.range 10).map fun i =>
    .submit (flatBar 4600 (50 + 5 * i) (if i = 9 then 100 else 1))

/-- The worker finds that the alert of the first option is not ripe, and the alert of the second
one, which waits behind it, is not ripe either. -/
theorem arrivals_in_order_twoBursts : ∃ e' a due b,
    (standardEngine.turns twoBursts).step? = some e' ∧ e'.worker = .waiting a due ∧
      e'.desk.queue.items.toList = [b] ∧ e'.isRipe? a = some false ∧
      e'.isRipe? b = some false := by
  have hall := (arrivals_in_order ofSettings?_standard fault?_standard rfl).2.2.1 twoBursts
  have hlook : (standardEngine.turns twoBursts).step?.any fun e' =>
      e'.worker.held.length = 1 ∧ e'.desk.queue.items.toList.length = 1 := by
    decide +kernel
  obtain ⟨e', hstep, hlook⟩ := (Option.any_eq_true _ _).mp hlook
  obtain ⟨hheld, hone⟩ := of_decide_eq_true hlook
  obtain ⟨b, hb⟩ := List.length_eq_one_iff.mp hone
  cases hw : e'.worker with
  | waiting a due =>
    obtain ⟨hnot, hbehind⟩ := hall e' hstep a due hw
    exact ⟨e', a, due, b, hstep, hw, hb, hnot, hbehind b (hb ▸ List.mem_singleton_self b)⟩
  | idle | failed | stopped => simp [hw, Worker.held] at hheld

end VolumeWatch.Engine
