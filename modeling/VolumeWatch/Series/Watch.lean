import VolumeWatch.Series.Basic

/-!
Series with a listener: whoever is registered last is told about every unusual bar, as it is
emitted.
-/

namespace VolumeWatch

structure Call (α β : Type) where
  listener : β
  timeframe : Timeframe
  bar : Bar α

/-- A series, its listener if it has one, and the calls made so far. -/
structure Watch (α β : Type) where
  series : Series α
  listener : Option β
  calls : Array (Call α β)

namespace Watch

variable {α β : Type}

def ofSeries (s : Series α) : Watch α β := ⟨s, none, #[]⟩

def register (w : Watch α β) (listener : β) : Watch α β := { w with listener := some listener }

/-- Tell the listener about an emitted bar, if it is unusual. -/
def tell (w : Watch α β) (e : Emitted α) : Watch α β :=
  match w.listener with
  | none => w
  | some l =>
    if e.anomalous then { w with calls := w.calls.push ⟨l, e.timeframe, e.bar⟩ } else w

variable [Scalar α]

/-- Put a bar on its timeframe. The listener is told before any longer bar is made. -/
def emit (w : Watch α β) (t : Timeframe) (b : Bar α) : Watch α β × Emitted α :=
  let (s, e) := w.series.emit t b
  ({ w with series := s }.tell e, e)

/-- Make the bars that the last bar below has completed, timeframe after timeframe. -/
def cascade (w : Watch α β) (below : Timeframe) : List Timeframe → Watch α β × List (Emitted α)
  | [] => (w, [])
  | t :: above =>
    if (w.series.bars below).size % t.ratio = 0 then
      match w.series.derive t with
      | .error _ => (w, [])
      | .ok b =>
        let (w, e) := w.emit t b
        let (w, rest) := w.cascade t above
        (w, e :: rest)
    else (w, [])

/-- Take a bar of five seconds. It comes first among the bars that it completes. -/
def ingest (w : Watch α β) (b : Bar α) : Watch α β × List (Emitted α) :=
  let (w, e) := w.emit .s5 b
  let (w, rest) := w.cascade .s5 [.s30, .m1, .m5]
  (w, e :: rest)

end Watch

end VolumeWatch
