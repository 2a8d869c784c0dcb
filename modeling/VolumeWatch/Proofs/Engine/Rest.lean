import VolumeWatch.Proofs.Engine.Accounts

/-!
Rest: what the worker has done once it does nothing more. It has looked at alerts until none was
left or one was not ripe, and by market time that alert stays so until the next bar comes.

Main statements: the fuel of the worker is enough (`Engine.step?_work`), what it knows of the alert
that it holds is kept by all turns without a bar (`Engine.Informed.follows`), and after a drain both
its idleness and its waiting have a reason (`Engine.Timely.rested_drain`).
-/

namespace VolumeWatch.Engine

variable {α : Type} [Scalar α]

section Fuel

variable {e : Engine α}

theorem step?_eq_none_of_waiting (h : e.waiting = []) : e.step? = none := by
  rw [step?]
  cases hr : e.ready? with
  | none => rfl
  | some next =>
    have hw := (Ready.of_ready? hr).waiting
    rw [h] at hw
    simp at hw

theorem step?_eq_none_of_not_running (h : e.worker.isRunning = false) : e.step? = none := by
  rw [step?, ready?]
  cases hw : e.worker <;> simp_all [Worker.isRunning]

theorem steps_of_step?_eq_none (h : e.step? = none) (n : Nat) : steps n e = e := by
  cases n with
  | zero => rfl
  | succ n => rw [steps, h]

/-- A step leaves nothing more to do, or one alert fewer to look at. -/
theorem progress_of_step? {e' : Engine α} (hpoll : 0 < e.poll) (h : e.step? = some e') :
    e'.step? = none ∨ 0 < e'.poll ∧ e'.waiting.length < e.waiting.length := by
  rw [step?, Option.map_eq_some_iff] at h
  obtain ⟨⟨r, a⟩, hready, rfl⟩ := h
  have hr := Ready.of_ready? hready
  have hrpoll : 0 < r.poll := (sameClock_ready? hready).poll ▸ hpoll
  have hfewer : r.desk.queue.items.toList.length < e.waiting.length := by
    rw [hr.waiting]
    exact Nat.lt_succ_self _
  show (r.consider a).step? = none ∨ 0 < (r.consider a).poll ∧ _
  generalize hv : r.verdict a = f, hc : r.consider a = e'
  cases hv ▸ hc ▸ r.considered a with
  | kept =>
    left
    simp only [step?, ready?]
    rw [if_neg (by omega)]
    rfl
  | lost status hover => exact Or.inl rfl
  | unscored fault hripe hscore => exact Or.inr ⟨hrpoll, hfewer⟩
  | scored o hripe hscore => exact Or.inr ⟨hrpoll, hfewer⟩

/-- As many steps as alerts wait are enough. -/
theorem step?_steps (hpoll : 0 < e.poll) {n : Nat} (h : e.waiting.length ≤ n) :
    (steps n e).step? = none := by
  induction n generalizing e with
  | zero => exact step?_eq_none_of_waiting (List.eq_nil_of_length_eq_zero (Nat.le_zero.mp h))
  | succ n ih =>
    unfold steps
    cases hs : e.step? with
    | none => exact hs
    | some e' =>
      rcases progress_of_step? hpoll hs with hnone | ⟨hpoll', hfewer⟩
      · simp only [steps_of_step?_eq_none hnone, hnone]
      · exact ih hpoll' (by omega)

/-- The worker goes on until there is nothing more to do. -/
theorem step?_work (hpoll : 0 < e.poll) : e.work.step? = none := by
  apply step?_steps hpoll
  have := e.worker.length_held_le
  rw [waiting, List.length_append, Fifo.size_eq_length]
  omega

end Fuel

/-- An idle worker has left no alert in the queue. -/
def Rested (e : Engine α) : Prop := e.worker = .idle → e.desk.queue.items.toList = []

/-- An alert that the worker holds is not ripe. -/
def Informed (e : Engine α) : Prop :=
  ∀ a due, e.worker = .waiting a due → e.isRipe? a = some false

theorem Rested.of_step?_eq_none {e : Engine α} (h : e.step? = none) : e.Rested := by
  intro hw
  rw [← Fifo.pop?_eq_none_iff]
  cases hp : e.desk.queue.items.pop? with
  | none => rfl
  | some popped => simp [step?, ready?, hw, BoundedQueue.receive, hp] at h

section Looks

variable {e e' : Engine α}

theorem informed_consider (e : Engine α) (a : Alert α) : (e.consider a).Informed := by
  intro b due hw
  unfold consider at hw ⊢
  cases hr : e.isRipe? a with
  | none => simp [hr, fail] at hw
  | some ripe =>
    cases ripe with
    | false =>
      simp only [hr] at hw ⊢
      obtain ⟨rfl, -⟩ := Worker.waiting.inj hw
      exact hr
    | true =>
      simp only [hr] at hw
      split at hw <;> simp [fail] at hw

theorem Informed.of_step? (h : e.step? = some e') : e'.Informed := by
  rw [step?, Option.map_eq_some_iff] at h
  obtain ⟨⟨r, a⟩, -, rfl⟩ := h
  exact informed_consider r a

theorem Informed.steps (h : e.Informed) (n : Nat) : (steps n e).Informed := by
  induction n generalizing e with
  | zero => exact h
  | succ n ih =>
    unfold Engine.steps
    cases hs : e.step? with
    | none => exact h
    | some e' => exact ih (.of_step? hs)

theorem Informed.work_of_step? (h : e.step? = some e') : e.work.Informed := by
  unfold Engine.work Engine.steps
  rw [h]
  exact (Informed.of_step? h).steps _

omit [Scalar α] in
/-- By market time an alert ripens with the clock of the bars. -/
theorem isRipe?_congr (e e' : Engine α) (hm : e.maturity = .marketTime) (hm' : e'.maturity = .marketTime)
    (hrule : e'.rule = e.rule) (hmarket : e'.desk.market = e.desk.market) (a : Alert α) :
    e'.isRipe? a = e.isRipe? a := by
  simp only [isRipe?, hm, hm', hrule, hmarket]

theorem Informed.turn (h : e.Informed) (hm : e.maturity = .marketTime) {t : Turn α}
    (ht : t.bar? = none) : (e.turn t).Informed := by
  cases t with
  | submit b => simp [Turn.bar?] at ht
  | step =>
    unfold Engine.turn
    cases hs : e.step? with
    | none => exact h
    | some e' => exact .of_step? hs
  | pass millis =>
    intro a due hw
    rw [isRipe?_congr e (e.turn (.pass millis)) hm hm rfl rfl]
    exact h a due hw
  | beginReports => exact h
  | report =>
    intro a due hw
    rw [isRipe?_congr e (e.turn .report) hm hm rfl rfl]
    exact h a due hw
  | shutdown =>
    intro a due hw
    simp [Engine.turn, shutdown] at hw

/-- Without a bar no alert ripens by market time. -/
theorem Informed.follows (h : e.Informed) (hm : e.maturity = .marketTime) (hf : Follows e e') :
    e'.Informed := by
  obtain ⟨ts, hts, rfl⟩ := hf
  induction ts generalizing e with
  | nil => exact h
  | cons t ts ih =>
    rw [feed_cons, List.append_eq_nil_iff] at hts
    have ht : t.bar? = none := Option.toList_eq_nil_iff.mp hts.1
    exact ih (h.turn hm ht) ((SameTerms.turn e t).maturity.trans hm) hts.2

end Looks

theorem SameTerms.follows {e e' : Engine α} (h : Follows e e') : SameTerms e e' := by
  obtain ⟨ts, -, rfl⟩ := h
  exact SameTerms.turns e ts

section Waiting

variable {e : Engine α} {a : Alert α} {due : Nat}

theorem step?_eq_none_of_due (hw : e.worker = .waiting a due) (h : e.now < due) :
    e.step? = none := by
  simp only [step?, ready?, hw, if_neg (Nat.not_le.mpr h), Option.map_none]

theorem step?_of_due (hw : e.worker = .waiting a due) (h : due ≤ e.now) :
    e.step? = some (e.consider a) := by
  simp only [step?, ready?, hw, if_pos h, Option.map_some]

/-- A moment comes, perhaps with a report, and then the worker goes on. -/
theorem wake_eq_work (e : Engine α) (t : Nat) :
    ∃ r : Engine α, e.wake t = r.work ∧ r.worker = e.worker ∧ r.now = t ∧ r.poll = e.poll := by
  by_cases h : e.nextReport = some t
  · refine ⟨{ e with now := t, desk := e.desk.report, nextReport := some (t + e.reportEvery) }, ?_,
      rfl, rfl, rfl⟩
    exact if_pos h
  · refine ⟨{ e with now := t }, ?_, rfl, rfl, rfl⟩
    exact if_neg h

theorem rested_wake (hpoll : 0 < e.poll) (t : Nat) : (e.wake t).Rested := by
  obtain ⟨r, hwake, -, -, hrpoll⟩ := e.wake_eq_work t
  rw [hwake]
  exact .of_step?_eq_none (step?_work (hrpoll ▸ hpoll))

/-- An alert is looked at when its time has come. -/
theorem informed_wake (hw : e.worker = .waiting a due) : (e.wake due).Informed := by
  obtain ⟨r, hwake, hrw, hnow, -⟩ := e.wake_eq_work due
  rw [hwake]
  exact .work_of_step? (step?_of_due (hrw.trans hw) (Nat.le_of_eq hnow.symm))

/-- Before that only reports are due. -/
theorem worker_wake (hw : e.worker = .waiting a due) {t : Nat} (ht : t < due) :
    (e.wake t).worker = .waiting a due := by
  obtain ⟨r, hwake, hrw, hnow, -⟩ := e.wake_eq_work t
  have hnone := step?_eq_none_of_due (hrw.trans hw) (by omega)
  rw [hwake, work, steps_of_step?_eq_none hnone, hrw, hw]

theorem Timely.rested_passTime (h : e.Timely) (hpoll : 0 < e.poll) (hevery : 0 < e.reportEvery)
    (hrested : e.Rested) (n stop : Nat) : (Engine.passTime n stop e).Rested := by
  induction n generalizing e with
  | zero => exact hrested
  | succ n ih =>
    unfold Engine.passTime
    cases ht : e.nextTimer? with
    | none => exact hrested
    | some t =>
      simp only
      split
      · obtain ⟨hwake, -⟩ := h.wake hpoll hevery ht
        exact ih hwake.timely (hwake.poll ▸ hpoll) (hwake.reportEvery ▸ hevery) (rested_wake hpoll t)
      · exact hrested

/-- Once its time has passed, the worker has looked at the alert that it held. -/
theorem Timely.informed_passTime (h : e.Timely) (hpoll : 0 < e.poll) (hevery : 0 < e.reportEvery)
    (hm : e.maturity = .marketTime) (hw : e.worker = .waiting a due) {n stop : Nat}
    (hstop : e.now ≤ stop) (hn : stop < e.now + n) (hdue : due ≤ stop) :
    (Engine.passTime n stop e).Informed := by
  induction n generalizing e with
  | zero => omega
  | succ n ih =>
    unfold Engine.passTime
    cases ht : e.nextTimer? with
    | none =>
      unfold nextTimer? at ht
      rw [hw] at ht
      cases hr : e.nextReport <;> simp [hr] at ht
    | some t =>
      have hle : t ≤ due := (nextTimer?_le ht).1 a due hw
      have hlt := h.lt_nextTimer? ht
      obtain ⟨hwake, hnow⟩ := h.wake hpoll hevery ht
      have hpoll' : 0 < (e.wake t).poll := hwake.poll ▸ hpoll
      have hevery' : 0 < (e.wake t).reportEvery := hwake.reportEvery ▸ hevery
      have hm' := (SameTerms.follows hwake.follows).maturity.trans hm
      simp only [if_pos (Nat.le_trans hle hdue)]
      by_cases hd : t = due
      · subst hd
        have hrest : Advances (e.wake t) (Engine.passTime n stop (e.wake t)) :=
          hwake.timely.passTime hpoll' hevery' (by omega) (by omega)
        exact (informed_wake hw).follows hm' hrest.follows
      · have hlater : t < due := Nat.lt_of_le_of_ne hle hd
        exact ih hwake.timely hpoll' hevery' hm' (worker_wake hw hlater) (by omega) (by omega)

/-- A worker that has nothing to do at the present moment stays as it is. -/
theorem worker_settle (h : e.beginReports.step? = none) : e.settle.worker = e.worker := by
  unfold settle
  split
  · rfl
  · rw [work, steps_of_step?_eq_none h]
    rfl

/-- A worker that is gone has nothing to explain. -/
theorem rested_settle_of_not_running (h : e.worker.isRunning = false) :
    e.settle.Rested ∧ e.settle.Informed := by
  have hsame := worker_settle (e := e) (step?_eq_none_of_not_running h)
  constructor
  · intro hidle
    rw [← hsame, hidle] at h
    simp [Worker.isRunning] at h
  · intro a due hheld
    rw [← hsame, hheld] at h
    simp [Worker.isRunning] at h

/-- After a drain the worker is idle only if no alert waits, and holds no alert that is ripe. -/
theorem Timely.rested_drain (h : e.Timely) (hpoll : 0 < e.poll) (hevery : 0 < e.reportEvery)
    (hm : e.maturity = .marketTime) (hcount : e.desk.queue.pending = 0 → e.waiting = []) :
    e.drain.Rested ∧ e.drain.Informed := by
  unfold Engine.drain
  split
  · rename_i hzero
    have hnone := hcount hzero
    rw [waiting, List.append_eq_nil_iff] at hnone
    refine ⟨fun _ => hnone.2, fun a due hw => ?_⟩
    rw [hw] at hnone
    simp [Worker.held] at hnone
  · cases hw : e.worker with
    | waiting a due =>
      have hlt := h.worker a due hw
      obtain ⟨hsettle, hnow⟩ := h.settle hpoll hevery
      have hpoll' : 0 < e.settle.poll := hsettle.poll ▸ hpoll
      have hevery' : 0 < e.settle.reportEvery := hsettle.reportEvery ▸ hevery
      have hheld : e.settle.worker = .waiting a due := by
        rw [worker_settle (step?_eq_none_of_due (e := e.beginReports) hw hlt), hw]
      have hm' := (SameTerms.follows hsettle.follows).maturity.trans hm
      constructor
      · refine hsettle.timely.rested_passTime hpoll' hevery' (fun hidle => ?_) _ _
        rw [hheld] at hidle
        simp at hidle
      · exact hsettle.timely.informed_passTime hpoll' hevery' hm' hheld (by omega) (by omega)
          (by omega)
    | idle =>
      have hrun : e.isStopped = false := by rw [isStopped, hw]
      have hidle : e.beginReports.worker = .idle := hw
      simp only [Engine.settle, hrun]
      refine ⟨.of_step?_eq_none (step?_work (e := e.beginReports) hpoll), ?_⟩
      refine Informed.steps (fun a due hheld => ?_) _
      rw [hidle] at hheld
      simp at hheld
    | failed status => exact rested_settle_of_not_running (by rw [hw]; rfl)
    | stopped => exact rested_settle_of_not_running (by rw [hw]; rfl)

end Waiting

end VolumeWatch.Engine
