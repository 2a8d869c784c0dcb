import VolumeWatch.Outcome

/-!
Entries: what is known about the alerts of one kind.
-/

namespace VolumeWatch

structure Entry (α : Type) where
  alerts : Nat
  units : α
  /-- Alerts that did not end in a loss. -/
  wins : Nat
  /-- The mean move of the alerts that did not end in a loss. -/
  average : α
  /-- Units by alert. -/
  rate : α

namespace Entry

variable {α : Type} [Scalar α]

def empty : Entry α := ⟨0, 0, 0, 0, 0⟩

instance : EmptyCollection (Entry α) := ⟨empty⟩

instance : Inhabited (Entry α) := ⟨∅⟩

/-- The average after one more win. -/
def averageWith (e : Entry α) (o : Outcome α) : α :=
  if o.winClass.isWin then e.average + (o.move - e.average) / ((e.wins + 1 : Nat) : α)
  else e.average

def record (e : Entry α) (o : Outcome α) : Entry α :=
  let alerts := e.alerts + 1
  let units := e.units + o.winClass.units
  { alerts, units
    wins := if o.winClass.isWin then e.wins + 1 else e.wins
    average := e.averageWith o
    rate := units / (alerts : α) }

def ofList (os : List (Outcome α)) : Entry α := os.foldl record ∅

theorem ofList_append_singleton (os : List (Outcome α)) (o : Outcome α) :
    ofList (os ++ [o]) = (ofList os).record o := by
  simp [ofList]

theorem alerts_foldl (os : List (Outcome α)) (e : Entry α) :
    (os.foldl record e).alerts = e.alerts + os.length := by
  induction os generalizing e with
  | nil => rfl
  | cons o os ih =>
    simp only [List.foldl_cons, ih, List.length_cons, record]
    omega

theorem alerts_ofList (os : List (Outcome α)) : (ofList os).alerts = os.length := by
  rw [ofList, alerts_foldl]
  exact Nat.zero_add _

end Entry

end VolumeWatch
