import VolumeWatch.Proofs.Engine.Turns
import VolumeWatch.Proofs.Desk.Publishing
import VolumeWatch.Tasks

/-!
Turns as steps: every turn of an engine is a run of steps with the same bars
(`Tasks.exists_steps`), those of one task with nothing in between. So the runs of an engine are
among those of its tasks.
-/

namespace VolumeWatch.Tasks

open Engine

variable {α : Type} [Scalar α]

/-- The bars that steps take in. -/
def feed (steps : List (Step α)) : List (Bar α) := steps.filterMap Step.bar?

theorem run?_append (t : Tasks α) (xs ys : List (Step α)) :
    t.run? (xs ++ ys) = (t.run? xs).bind fun t => t.run? ys := List.foldlM_append ..

theorem run?_singleton (t : Tasks α) (x : Step α) : t.run? [x] = t.step? x := by
  simp [run?]

section Saying

theorem run?_say (t : Tasks α) (ns : List (Notice α)) :
    { t with unsaid := ns }.run? (List.replicate ns.length .say) =
      some { ns.foldl say t with unsaid := [] } := by
  induction ns generalizing t with
  | nil => rfl
  | cons n ns ih => exact ih (t.say n)

omit [Scalar α] in
theorem foldl_say_note (t : Tasks α) {ns : List (Notice α)}
    (h : ∀ n ∈ ns, n.alert? = none) : ns.foldl say t = t.withDesk (t.engine.desk.note ns) := by
  induction ns generalizing t with
  | nil => simp [withDesk, Desk.note, Audience.faults]
  | cons n ns ih =>
    obtain ⟨hn, hns⟩ := List.forall_mem_cons.mp h
    have hsay : t.say n = t.withDesk (t.engine.desk.note [n]) := by
      cases n with
      | alert a => simp [Notice.alert?] at hn
      | anomaly | bar | outcome | snapshot => rfl
    rw [List.foldl_cons, ih _ hns, hsay]
    exact congrArg t.withDesk (t.engine.desk.note_append [n] ns).symm

omit [Scalar α] in
theorem foldl_say_alerts (t : Tasks α) (as : List (Alert α)) :
    (as.map .alert).foldl say t = t.withDesk (t.engine.desk.publishAll as).1 := by
  induction as generalizing t with
  | nil => rfl
  | cons a as ih => exact ih (t.say (.alert a))

end Saying

section Turn

variable (e : Engine α)

/-- Steps lead from an engine to an engine, with no task in the middle of something at either end. -/
def Whole (e e' : Engine α) (xs : List (Step α)) : Prop :=
  (ofEngine e).run? xs = some (ofEngine e')

/-- A bar is taken in, and everything that there is to note of it is noted. -/
theorem exists_steps_submit (b : Bar α) : ∃ xs, feed xs = [b] ∧ Whole e (e.submit b).1 xs := by
  let d := e.desk
  let emitted := (d.market.ingest d.classifier.underlying b).2
  let raised := d.market.raised d.classifier e.now b
  let ns := Desk.noticesOf d.audience.listening emitted ++ raised.map .alert
  let t := (ofEngine e).withDesk { d with market := (d.market.ingest d.classifier.underlying b).1 }
  have hquiet : ∀ n ∈ Desk.noticesOf d.audience.listening emitted, n.alert? = none :=
    List.filterMap_eq_nil_iff.mp (Desk.filterMap_alert?_noticesOf _ _)
  have hsaid : ns.foldl say t = ofEngine (e.submit b).1 := by
    rw [List.foldl_append, foldl_say_note t hquiet, foldl_say_alerts]
    rfl
  refine ⟨.take b :: List.replicate ns.length .say, ?_, ?_⟩
  · have hsays : (List.replicate ns.length (Step.say : Step α)).filterMap Step.bar? = [] :=
      List.filterMap_eq_nil_iff.mpr fun x hx => List.eq_of_mem_replicate hx ▸ rfl
    exact congrArg (b :: ·) hsays
  · show { t with unsaid := ns }.run? (List.replicate ns.length .say) = _
    rw [run?_say, hsaid]
    rfl

/-- A look, and the outcome that it leads to if there is one. -/
theorem look_consider {r : Engine α} (a : Alert α) :
    (ofEngine e).look r a = ofEngine (r.consider a) ∨
      ((ofEngine e).look r a).step? .tell = some (ofEngine (r.consider a)) := by
  unfold look consider
  cases r.isRipe? a with
  | none => exact .inl rfl
  | some ripe =>
    cases ripe with
    | false => exact .inl rfl
    | true =>
      unfold Desk.evaluate?
      cases r.desk.score? r.rule a with
      | none => exact .inl rfl
      | some result =>
        cases result with
        | error fault => exact .inl rfl
        | ok o => exact .inr rfl

theorem exists_steps_look : ∃ xs, feed xs = [] ∧ Whole e (e.turn .step) xs := by
  unfold Engine.turn Engine.step?
  cases hready : e.ready? with
  | none => exact ⟨[], rfl, rfl⟩
  | some next =>
    obtain ⟨r, a⟩ := next
    have hlook : (ofEngine e).step? .look = some ((ofEngine e).look r a) := by
      show e.ready?.map _ = _
      rw [hready]
      rfl
    rcases look_consider e (r := r) a with hdone | htell
    · rw [hdone] at hlook
      exact ⟨[.look], rfl, (run?_singleton ..).trans hlook⟩
    · refine ⟨[.look, .tell], rfl, ?_⟩
      show (ofEngine e).run? ([.look] ++ [.tell]) = _
      rw [run?_append, run?_singleton, hlook, Option.bind_some, run?_singleton, htell]
      rfl

theorem exists_steps_turn (t : Turn α) :
    ∃ xs, feed xs = t.bar?.toList ∧ Whole e (e.turn t) xs := by
  cases t with
  | submit b => exact exists_steps_submit e b
  | step => exact exists_steps_look e
  | pass millis => exact ⟨[.pass millis], rfl, rfl⟩
  | beginReports => exact ⟨[.beginReports], rfl, rfl⟩
  | report => exact ⟨[.snap, .report], rfl, rfl⟩
  | shutdown => exact ⟨[.stop], rfl, rfl⟩

end Turn

/-- The turns of an engine are steps of its tasks, with the same bars. -/
theorem exists_steps (e : Engine α) (ts : List (Turn α)) :
    ∃ xs, feed xs = Engine.feed ts ∧ (ofEngine e).run? xs = some (ofEngine (e.turns ts)) := by
  induction ts generalizing e with
  | nil => exact ⟨[], rfl, rfl⟩
  | cons t ts ih =>
    obtain ⟨xs, hxs, hturn⟩ := exists_steps_turn e t
    obtain ⟨ys, hys, hturns⟩ := ih (e.turn t)
    refine ⟨xs ++ ys, ?_, ?_⟩
    · rw [feed, List.filterMap_append, Engine.feed_cons]
      exact congr (congrArg _ hxs) hys
    · rw [run?_append, hturn, Option.bind_some, hturns]
      rfl

end VolumeWatch.Tasks
