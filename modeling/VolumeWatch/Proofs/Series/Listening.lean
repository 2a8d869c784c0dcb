import Mathlib.Data.List.Basic
import Mathlib.Data.List.Induction
import VolumeWatch.Proofs.Series.Covering
import VolumeWatch.Proofs.Series.Flags
import VolumeWatch.Series.Watch

/-!
Listening: bars are stored, returned and told to the listener at different points of a loop that
may stop early, and yet the three agree over every run (`Watch.run_history`).

Telling leaves the series alone (`Watch.Heard`), so that a watched series emits what it emits
unwatched. Who listens when a bar comes in is told from the moves so far (`Watch.latest?`).
-/

namespace VolumeWatch

variable {α β : Type}

namespace Watch

/-- A listener takes the place of the one before, or a bar of five seconds comes in. -/
inductive Move (α β : Type) where
  | register (listener : β)
  | take (bar : Bar α)

def Move.listener? : Move α β → Option β
  | .register l => some l
  | .take _ => none

def Move.bar? : Move α β → Option (Bar α)
  | .register _ => none
  | .take b => some b

/-- The bars that come in. -/
def taken (moves : List (Move α β)) : List (Bar α) := moves.filterMap Move.bar?

/-- Whoever is registered last. -/
def latest? (moves : List (Move α β)) : Option β := (moves.filterMap Move.listener?).getLast?

theorem taken_append (moves moves' : List (Move α β)) :
    taken (moves ++ moves') = taken moves ++ taken moves' := List.filterMap_append ..

theorem taken_register (l : β) : taken ([.register l] : List (Move α β)) = [] := rfl

theorem taken_take (b : Bar α) : taken ([.take b] : List (Move α β)) = [b] := rfl

theorem latest?_concat (moves : List (Move α β)) (m : Move α β) :
    latest? (moves ++ [m]) = m.listener?.or (latest? moves) := by
  cases m <;> simp [latest?, Move.listener?, List.filterMap_cons]

/-- A listener is called once for each unusual bar, in the order of the bars. -/
def callsFor (listener : Option β) (es : List (Emitted α)) : List (Call α β) :=
  match listener with
  | none => []
  | some l => (es.filter (·.anomalous)).map fun e => ⟨l, e.timeframe, e.bar⟩

/-- The calls of a run in which each move emits its own bars: those of one move go to whoever was
registered last before it. -/
def callsOf (moves : List (Move α β)) (emitted : List (List (Emitted α))) : List (Call α β) :=
  (List.range moves.length).flatMap fun k =>
    callsFor (latest? (moves.take k)) (emitted[k]?.getD [])

theorem callsFor_nil (listener : Option β) : callsFor listener ([] : List (Emitted α)) = [] := by
  cases listener <;> rfl

theorem callsFor_append (listener : Option β) (es es' : List (Emitted α)) :
    callsFor listener (es ++ es') = callsFor listener es ++ callsFor listener es' := by
  cases listener <;> simp [callsFor]

theorem callsFor_of_quiet (listener : Option β) {es : List (Emitted α)}
    (h : ∀ e ∈ es, ¬ e.anomalous) : callsFor listener es = [] := by
  cases listener with
  | none => rfl
  | some l =>
    have hnone : es.filter (·.anomalous) = [] := List.filter_eq_nil_iff.mpr h
    simp [callsFor, hnone]

/-- The calls of earlier moves stay as they are when a move is added. -/
theorem callsOf_concat (moves : List (Move α β)) (m : Move α β) (emitted : List (List (Emitted α)))
    (es : List (Emitted α)) (h : emitted.length = moves.length) :
    callsOf (moves ++ [m]) (emitted ++ [es]) =
      callsOf moves emitted ++ callsFor (latest? moves) es := by
  unfold callsOf
  rw [List.length_append, List.length_singleton, List.range_succ, List.flatMap_append,
    List.flatMap_singleton]
  congr 1
  · apply List.flatMap_congr
    intro k hk
    have hlt : k < moves.length := List.mem_range.mp hk
    rw [List.take_append_of_le_length (by omega), List.getElem?_append_left (by omega)]
  · rw [List.take_left, List.getElem?_append_right (by omega), h]
    simp

/-- What watching a series does while bars are emitted: the calls are those of the bars, and the
series goes on by itself. -/
structure Heard (w w' : Watch α β) (s' : Series α) (es : List (Emitted α)) : Prop where
  series : w'.series = s'
  listener : w'.listener = w.listener
  calls : w'.calls.toList = w.calls.toList ++ callsFor w.listener es

theorem Heard.refl (w : Watch α β) : Heard w w w.series [] where
  series := rfl
  listener := rfl
  calls := by rw [callsFor_nil, List.append_nil]

theorem Heard.trans {w w' w'' : Watch α β} {s' s'' : Series α} {es es' : List (Emitted α)}
    (h : Heard w w' s' es) (h' : Heard w' w'' s'' es') : Heard w w'' s'' (es ++ es') where
  series := h'.series
  listener := h'.listener.trans h.listener
  calls := by rw [h'.calls, h.calls, h.listener, callsFor_append, List.append_assoc]

theorem heard_tell (w : Watch α β) (e : Emitted α) : Heard w (w.tell e) w.series [e] := by
  unfold tell
  cases hl : w.listener with
  | none => constructor <;> simp [hl, callsFor]
  | some l =>
    cases he : e.anomalous with
    | false => constructor <;> simp [hl, he, callsFor]
    | true => constructor <;> simp [hl, he, callsFor]

variable [Scalar α]

theorem heard_emit (w : Watch α β) (t : Timeframe) (b : Bar α) :
    (w.emit t b).2 = (w.series.emit t b).2 ∧
      Heard w (w.emit t b).1 (w.series.emit t b).1 [(w.series.emit t b).2] := by
  refine ⟨rfl, ?_⟩
  have h := heard_tell { w with series := (w.series.emit t b).1 } (w.series.emit t b).2
  exact ⟨h.series, h.listener, h.calls⟩

theorem heard_cascade (w : Watch α β) (below : Timeframe) (above : List Timeframe) :
    (w.cascade below above).2 = (w.series.cascade below above).2 ∧
      Heard w (w.cascade below above).1 (w.series.cascade below above).1
        (w.series.cascade below above).2 := by
  induction above generalizing w below with
  | nil => exact ⟨rfl, .refl w⟩
  | cons t above ih =>
    unfold cascade Series.cascade
    split
    · cases w.series.derive t with
      | error fault => exact ⟨rfl, .refl w⟩
      | ok b =>
        obtain ⟨he, hemit⟩ := w.heard_emit t b
        obtain ⟨hes, hcascade⟩ := ih (w.emit t b).1 t
        rw [hemit.series] at hes hcascade
        exact ⟨congrArg₂ List.cons he hes, hemit.trans hcascade⟩
    · exact ⟨rfl, .refl w⟩

/-- A watched series emits the same bars as an unwatched one, and each unusual one of them is told
to the listener of the moment. -/
theorem heard_ingest (w : Watch α β) (b : Bar α) :
    (w.ingest b).2 = (w.series.ingest b).2 ∧
      Heard w (w.ingest b).1 (w.series.ingest b).1 (w.series.ingest b).2 := by
  obtain ⟨he, hemit⟩ := w.heard_emit .s5 b
  obtain ⟨hes, hcascade⟩ := (w.emit .s5 b).1.heard_cascade .s5 [.s30, .m1, .m5]
  rw [hemit.series] at hes hcascade
  exact ⟨congrArg₂ List.cons he hes, hemit.trans hcascade⟩

def step (w : Watch α β) : Move α β → Watch α β × List (Emitted α)
  | .register l => (w.register l, [])
  | .take b => w.ingest b

/-- Make moves one after the other, and list what each of them emits. -/
def run (w : Watch α β) (moves : List (Move α β)) : Watch α β × List (List (Emitted α)) :=
  moves.foldl (fun r m => ((r.1.step m).1, r.2 ++ [(r.1.step m).2])) (w, [])

theorem run_concat (w : Watch α β) (moves : List (Move α β)) (m : Move α β) :
    w.run (moves ++ [m]) =
      (((w.run moves).1.step m).1, (w.run moves).2 ++ [((w.run moves).1.step m).2]) := by
  simp [run]

theorem length_run (w : Watch α β) (moves : List (Move α β)) :
    (w.run moves).2.length = moves.length := by
  induction moves using List.reverseRecOn with
  | nil => rfl
  | append_singleton moves m ih => simp [run_concat, ih]

/-- What a move emits depends on the moves before it. -/
theorem getElem?_run (w : Watch α β) (moves : List (Move α β)) (k : Nat) :
    (w.run moves).2[k]? = moves[k]?.map fun m => ((w.run (moves.take k)).1.step m).2 := by
  induction moves using List.reverseRecOn with
  | nil => rfl
  | append_singleton moves m ih =>
    have hlength := w.length_run moves
    rw [run_concat]
    rcases Nat.lt_trichotomy k moves.length with hlt | rfl | hgt
    · rw [List.getElem?_append_left (by omega), List.getElem?_append_left hlt,
        List.take_append_of_le_length (by omega), ih]
    · rw [← hlength, List.getElem?_concat_length, hlength, List.getElem?_concat_length,
        List.take_left, Option.map_some]
    · rw [List.getElem?_eq_none (by simp; omega), List.getElem?_eq_none (by simp; omega)]
      rfl

/-- A watch after some moves: the series has taken the bars, and the calls are those of what was
emitted. -/
structure Told (c : ContractId) (isUnderlying : Bool) (moves : List (Move α β)) (w : Watch α β)
    (emitted : List (List (Emitted α))) : Prop where
  series : w.series = (Series.empty c isUnderlying).ingestAll (taken moves)
  recorded : Series.Recorded isUnderlying w.series emitted.flatten
  listener : w.listener = latest? moves
  calls : w.calls.toList = callsOf moves emitted

theorem told_run (c : ContractId) (isUnderlying : Bool) (moves : List (Move α β)) :
    Told c isUnderlying moves ((ofSeries (.empty c isUnderlying)).run moves).1
      ((ofSeries (.empty c isUnderlying)).run moves).2 := by
  induction moves using List.reverseRecOn with
  | nil => exact ⟨rfl, Series.recorded_empty c isUnderlying, rfl, rfl⟩
  | append_singleton moves m ih =>
    have hlength := (ofSeries (.empty c isUnderlying) : Watch α β).length_run moves
    rw [run_concat]
    generalize (ofSeries (.empty c isUnderlying) : Watch α β).run moves = r at ih hlength
    cases m with
    | register l =>
      constructor
      case series =>
        show r.1.series = _
        rw [ih.series, taken_append, taken_register, List.append_nil]
      case recorded => simpa [step, register] using ih.recorded
      case listener =>
        rw [latest?_concat]
        rfl
      case calls =>
        rw [callsOf_concat moves _ _ _ hlength]
        simpa [step, register, callsFor_nil] using ih.calls
    | take b =>
      obtain ⟨hes, hheard⟩ := r.1.heard_ingest b
      constructor
      case series =>
        show (r.1.ingest b).1.series = _
        rw [hheard.series, ih.series, taken_append, taken_take, Series.ingestAll_append]
        rfl
      case recorded =>
        show Series.Recorded isUnderlying (r.1.ingest b).1.series (r.2 ++ [(r.1.ingest b).2]).flatten
        rw [hheard.series, hes, List.flatten_append, List.flatten_singleton]
        exact ih.recorded.ingest b
      case listener =>
        show (r.1.ingest b).1.listener = _
        rw [hheard.listener, ih.listener, latest?_concat]
        rfl
      case calls =>
        show (r.1.ingest b).1.calls.toList = callsOf _ (r.2 ++ [(r.1.ingest b).2])
        rw [hheard.calls, hes, callsOf_concat moves _ _ _ hlength, ih.calls, ih.listener]

namespace Told

variable {c : ContractId} {isUnderlying : Bool} {moves : List (Move α β)} {w : Watch α β}
  {emitted : List (List (Emitted α))}

theorem aligned (h : Told c isUnderlying moves w emitted) : w.series.Aligned := by
  rw [h.series]
  exact Series.aligned_ofFeed c isUnderlying _

theorem size_bars (h : Told c isUnderlying moves w emitted) :
    (w.series.bars .s5).size = (taken moves).length := by
  have hbars := Series.toList_bars_ofFeed c isUnderlying (taken moves)
  rw [← h.series] at hbars
  rw [← hbars, Array.length_toList]

/-- The underlying has no unusual bars. -/
theorem calls_eq_nil (h : Told c true moves w emitted) : w.calls.toList = [] := by
  rw [h.calls, callsOf, List.flatMap_eq_nil_iff]
  intro k _
  apply callsFor_of_quiet
  intro e he hunusual
  have hmem : e ∈ emittedOn e.timeframe emitted.flatten := by
    cases hk : emitted[k]? with
    | none => simp [hk] at he
    | some es =>
      rw [hk] at he
      have : e ∈ emitted.flatten := List.mem_flatten.mpr ⟨es, List.mem_of_getElem? hk, he⟩
      simpa [emittedOn] using this
  obtain ⟨j, hj, hej⟩ := List.getElem_of_mem hmem
  have hflag := h.recorded.flags e.timeframe j e (by rw [List.getElem?_eq_getElem hj, hej])
  exact absurd (hflag.mp hunusual).1 (by decide)

end Told

/-- In every run each bar that comes in is emitted first, with longer bars behind it, one after the
other: those of the timeframes that divide the number of bars so far. Each is the last bar of its
timeframe at that moment. What a timeframe has emitted over the run are all its bars, and the calls
of the run are those of its unusual bars, in the order in which they are emitted, each to whoever
was registered last before its move. The underlying makes no calls. -/
theorem run_history (c : ContractId) (isUnderlying : Bool) (moves : List (Move α β)) :
    let start : Watch α β := ofSeries (.empty c isUnderlying)
    let w := (start.run moves).1
    let emitted := (start.run moves).2
    emitted.length = moves.length ∧
    (∀ (k : Nat) l, moves[k]? = some (Move.register l) → emitted[k]? = some []) ∧
    (∀ (k : Nat) b, moves[k]? = some (Move.take b) → ∃ es, emitted[k]? = some es ∧
      (∃ anomalous rest, es = ⟨.s5, b, anomalous⟩ :: rest) ∧
      es.map (·.timeframe) <+: Category.values ∧
      (∀ t, t ∈ es.map (·.timeframe) ↔ t.parts ∣ (taken (moves.take (k + 1))).length) ∧
      ∀ e ∈ es,
        ((start.run (moves.take (k + 1))).1.series.bars e.timeframe).back? = some e.bar) ∧
    (∀ t, (w.series.bars t).toList = (emittedOn t emitted.flatten).map (·.bar)) ∧
    w.calls.toList = callsOf moves emitted ∧
    (isUnderlying → w.calls = #[]) := by
  intro start w emitted
  have h : Told c isUnderlying moves w emitted := told_run c isUnderlying moves
  refine ⟨start.length_run moves, fun k l hk => ?registered, fun k b hk => ?taken,
    h.recorded.bars, h.calls, fun hu => ?underlying⟩
  case registered =>
    show (start.run moves).2[k]? = some []
    rw [start.getElem?_run, hk]
    rfl
  case taken =>
    have hbefore : Told c isUnderlying (moves.take k) (start.run (moves.take k)).1
        (start.run (moves.take k)).2 := told_run c isUnderlying (moves.take k)
    have htake : moves.take (k + 1) = moves.take k ++ [.take b] := by
      rw [List.take_add_one, hk, Option.toList_some]
    have hnumber : (taken (moves.take (k + 1))).length =
        ((start.run (moves.take k)).1.series.bars .s5).size + 1 := by
      rw [htake, taken_append, taken_take, hbefore.size_bars, List.length_append,
        List.length_singleton]
    obtain ⟨hes, hheard⟩ := (start.run (moves.take k)).1.heard_ingest b
    obtain ⟨-, hext⟩ := hbefore.aligned.ingest b
    refine ⟨((start.run (moves.take k)).1.series.ingest b).2, ?_, ⟨_, _, rfl⟩, hext.timeframes,
      fun t => ?_, fun e he => ?_⟩
    · show (start.run moves).2[k]? = _
      rw [start.getElem?_run, hk, Option.map_some, ← hes]
      rfl
    · rw [hbefore.aligned.mem_timeframes_iff, hnumber]
    · have hafter : (start.run (moves.take (k + 1))).1.series =
          ((start.run (moves.take k)).1.series.ingest b).1 := by
        rw [htake, run_concat]
        exact hheard.series
      rw [hafter]
      exact hext.last e he
  case underlying =>
    subst hu
    exact Array.toList_eq_nil_iff.mp h.calls_eq_nil

end Watch

end VolumeWatch
