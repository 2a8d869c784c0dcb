import VolumeWatch.Alert
import VolumeWatch.Classifier

/-!
Markets: the series of all contracts and the clock that their bars drive.
-/

namespace VolumeWatch

open Calendar (Instant)

structure Market (α : Type) where
  series : SortedMap ContractId (Series α)
  /-- The latest start of a bar. -/
  clock : Option Instant

namespace Market

variable {α : Type} [Scalar α]

def empty : Market α := ⟨∅, none⟩

instance : EmptyCollection (Market α) := ⟨empty⟩

/-- The series of a contract, empty before its first bar. -/
def seriesOf (m : Market α) (underlying c : ContractId) : Series α :=
  (m.series.get? c).getD (.empty c (c = underlying))

/-- Move the clock forward to an instant, never back. -/
def advance (clock : Option Instant) (t : Instant) : Instant :=
  (clock.map fun c => c.latest t).getD t

/-- Take a bar of five seconds of any contract. -/
def ingest (m : Market α) (underlying : ContractId) (b : Bar α) : Market α × List (Emitted α) :=
  let (s, emitted) := (m.seriesOf underlying b.contract).ingest b
  (⟨m.series.insert b.contract s, some (advance m.clock b.timestamp)⟩, emitted)

def ingestAll (m : Market α) (underlying : ContractId) (bars : List (Bar α)) : Market α :=
  bars.foldl (fun m b => (m.ingest underlying b).1) m

/-- The bars of five seconds of a contract from `start` on, up to `stop`. -/
def window (m : Market α) (c : ContractId) (start stop : Instant) :
    Except (Fault α) (List (Bar α)) :=
  match m.series.get? c with
  | none => .error (.unknownContract c)
  | some s => .ok (s.between .s5 start stop)

/-- The alert that an unusual bar of an option raises, unless it cannot be classified. -/
def alertOf? (m : Market α) (classifier : Classifier α) (strike : α) (now : Nat) (e : Emitted α) :
    Option (Alert α) := do
  let underlying ← m.series.get? classifier.underlying
  let option := m.seriesOf classifier.underlying e.bar.contract
  let tags ← (classifier.classify e.timeframe e.bar option underlying).toOption
  return .ofBar e.timeframe e.bar strike tags now

/-- The alerts that emitted bars of one contract raise. -/
def alerts (m : Market α) (classifier : Classifier α) (c : ContractId) (now : Nat)
    (emitted : List (Emitted α)) : List (Alert α) :=
  match c.kind classifier.underlying with
  | .underlying => []
  | .option _ strike => (emitted.filter (·.anomalous)).filterMap (m.alertOf? classifier strike now)

end Market

end VolumeWatch
