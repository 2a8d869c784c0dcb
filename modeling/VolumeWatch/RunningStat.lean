import VolumeWatch.Scalar

/-!
Running statistics: count, mean and spread of the samples seen so far, updated sample by sample.
-/

namespace VolumeWatch

structure RunningStat (α : Type) where
  count : Nat
  mean : α
  /-- Sum of the squared distances to the mean. -/
  squares : α

namespace RunningStat

variable {α : Type} [Scalar α]

def empty : RunningStat α := ⟨0, 0, 0⟩

instance : EmptyCollection (RunningStat α) := ⟨empty⟩

instance : Inhabited (RunningStat α) := ⟨∅⟩

def add (s : RunningStat α) (x : α) : RunningStat α :=
  let count := s.count + 1
  let delta := x - s.mean
  let mean := s.mean + delta / (count : α)
  ⟨count, mean, s.squares + delta * (x - mean)⟩

def ofList (xs : List α) : RunningStat α := xs.foldl add ∅

def variance (s : RunningStat α) : α := if s.count = 0 then 0 else s.squares / (s.count : α)

def deviation (s : RunningStat α) : α := Scalar.sqrt s.variance

/-- Distance of a value from the mean in standard deviations; zero where there are fewer than two
samples or no spread to speak of. -/
def deviations (s : RunningStat α) (x : α) : α :=
  if s.count < 2 then 0
  else if s.deviation ≤ Scalar.epsilon then 0
  else Scalar.abs (x - s.mean) / s.deviation

/-- A value lies at least so many standard deviations from the mean. -/
def exceeds (s : RunningStat α) (x threshold : α) : Bool := threshold ≤ s.deviations x

theorem ofList_append_singleton (xs : List α) (x : α) : ofList (xs ++ [x]) = (ofList xs).add x := by
  simp [ofList]

theorem count_ofList (xs : List α) : (ofList xs).count = xs.length := by
  suffices ∀ s : RunningStat α, (xs.foldl add s).count = s.count + xs.length by
    simpa [ofList, EmptyCollection.emptyCollection, empty] using this ∅
  induction xs with
  | nil => simp
  | cons x xs ih => intro s; simp [ih, add]; omega

end RunningStat

end VolumeWatch
