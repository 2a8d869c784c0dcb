import VolumeWatch.Proofs.Engine.Rest

/-!
Engines that are alike: at most their reports have begun at one of them and not at the other. Nothing
that happens to both tells them apart (`Engine.Alike.submit`, `Engine.Alike.settle`,
`Engine.Alike.drain`), and a turn of a worker that has nothing to do leaves an engine alike
(`Engine.alike_settle`).
-/

namespace VolumeWatch.Engine

variable {α : Type} {e e' e'' : Engine α}

/-- Engines that are the same as soon as their reports have begun. -/
def Alike (e e' : Engine α) : Prop := e.beginReports = e'.beginReports

namespace Alike

theorem symm (h : Alike e e') : Alike e' e := Eq.symm h

theorem trans (h : Alike e e') (h' : Alike e' e'') : Alike e e'' := Eq.trans h h'

/-- What does not depend on the reports is the same. -/
theorem congr {β : Type} (h : Alike e e') (f : Engine α → β) (hf : ∀ e, f e.beginReports = f e) :
    f e = f e' := by
  rw [← hf e, ← hf e', h]

theorem desk (h : Alike e e') : e.desk = e'.desk := h.congr Engine.desk fun _ => rfl

theorem now (h : Alike e e') : e.now = e'.now := h.congr Engine.now fun _ => rfl

theorem worker (h : Alike e e') : e.worker = e'.worker := h.congr Engine.worker fun _ => rfl

theorem isStopped (h : Alike e e') : e.isStopped = e'.isStopped :=
  h.congr Engine.isStopped fun _ => rfl

/-- There are no reports any more after the end of a run. -/
theorem shutdown (h : Alike e e') : e.shutdown = e'.shutdown :=
  h.congr Engine.shutdown fun _ => rfl

variable [Scalar α]

theorem submit (h : Alike e e') (b : Bar α) : Alike (e.submit b).1 (e'.submit b).1 :=
  congrArg (fun e => (Engine.submit e b).1) h

theorem settle_eq (h : Alike e e') (hrun : e.isStopped = false) : e.settle = e'.settle := by
  have hrun' : e'.isStopped = false := h.isStopped ▸ hrun
  simp only [Engine.settle, hrun, hrun', Bool.false_eq_true, if_false]
  exact congrArg Engine.work h

theorem settle (h : Alike e e') : Alike e.settle e'.settle := by
  cases hstop : e.isStopped with
  | false => exact congrArg Engine.beginReports (h.settle_eq hstop)
  | true =>
    have hstop' : e'.isStopped = true := h.isStopped ▸ hstop
    simp only [Engine.settle, hstop, hstop', if_true]
    exact h

/-- A drain goes on until a moment that is the same for both. -/
theorem drain (h : Alike e e') : Alike e.drain e'.drain := by
  unfold Engine.drain
  rw [h.desk, h.worker]
  split
  · exact h
  · split
    · rename_i a due hw
      have hrun : e.isStopped = false := by rw [h.isStopped, Engine.isStopped, hw]
      rw [h.now, Engine.sleep, Engine.sleep, h.now, h.settle_eq hrun]
      rfl
    · exact h.settle

end Alike

section Rest

variable [Scalar α]

omit [Scalar α] in
theorem ready?_beginReports (e : Engine α) :
    e.beginReports.ready? = e.ready?.map fun r => (r.1.beginReports, r.2) := by
  have hworker : e.beginReports.worker = e.worker := rfl
  unfold ready?
  rw [hworker]
  cases e.worker with
  | idle =>
    have hqueue : e.beginReports.desk.queue = e.desk.queue := rfl
    simp only [hqueue]
    rcases e.desk.queue.receive with ⟨queue, received⟩
    cases received <;> rfl
  | waiting a due =>
    have hnow : e.beginReports.now = e.now := rfl
    simp only [hnow]
    split <;> rfl
  | failed | stopped => rfl

theorem step?_beginReports (h : e.step? = none) : e.beginReports.step? = none := by
  rw [step?, Option.map_eq_none_iff] at h ⊢
  rw [ready?_beginReports, h]
  rfl

/-- A turn changes nothing where the worker has nothing to do. -/
theorem alike_settle (h : e.step? = none) : Alike e.settle e := by
  unfold settle
  split
  · exact rfl
  · rw [work, steps_of_step?_eq_none (step?_beginReports h)]
    rfl

/-- The worker has nothing more to do after its turn. -/
theorem step?_settle (hpoll : 0 < e.poll) : e.settle.step? = none := by
  unfold settle
  split
  · rename_i hstop
    apply step?_eq_none_of_not_running
    cases hw : e.worker <;> simp_all [isStopped, Worker.isRunning]
  · exact step?_work (e := e.beginReports) hpoll

end Rest

end VolumeWatch.Engine
