import VolumeWatch.Calendar.Instant
import VolumeWatch.Contract

/-!
Bars: the prices and the volume of one contract over a stretch of time.
-/

namespace VolumeWatch

open Calendar (Instant)

structure Bar (α : Type) where
  contract : ContractId
  timestamp : Instant
  opening : α
  high : α
  low : α
  close : α
  volume : α
  deriving Inhabited

namespace Bar

variable {α : Type} [Scalar α]

def range (b : Bar α) : α := b.high - b.low

/-- Widen a bar by the one that follows it. -/
def extend (a b : Bar α) : Bar α :=
  { a with
    high := Scalar.max a.high b.high
    low := Scalar.min a.low b.low
    close := b.close
    volume := a.volume + b.volume }

/-- One bar for bars that follow each other: it starts with the first and closes with the last. -/
def merge? : List (Bar α) → Option (Bar α)
  | [] => none
  | b :: rest => some (rest.foldl extend b)

section Congr

variable {β : Type} {f : Bar α → β}
  (hf : ∀ {a a' b b' : Bar α}, f a = f a' → f b = f b' → f (a.extend b) = f (a'.extend b'))

include hf

theorem foldl_extend_congr {rest rest' : List (Bar α)} (hrest : rest.map f = rest'.map f)
    {b b' : Bar α} (hb : f b = f b') : f (rest.foldl extend b) = f (rest'.foldl extend b') := by
  induction rest generalizing rest' b b' with
  | nil =>
    obtain rfl := List.map_eq_nil_iff.mp hrest.symm
    exact hb
  | cons a rest ih =>
    obtain ⟨a', rest', rfl, ha, hr⟩ := List.map_eq_cons_iff.mp hrest.symm
    exact ih hr.symm (hf hb ha.symm)

/-- Bars that agree part by part in what extending keeps agree in it when they are merged. -/
theorem map_merge?_congr {bars bars' : List (Bar α)} (h : bars.map f = bars'.map f) :
    (merge? bars).map f = (merge? bars').map f := by
  cases bars with
  | nil =>
    obtain rfl := List.map_eq_nil_iff.mp h.symm
    rfl
  | cons b rest =>
    obtain ⟨b', rest', rfl, hb, hr⟩ := List.map_eq_cons_iff.mp h.symm
    exact congrArg some (foldl_extend_congr hf hr.symm hb.symm)

end Congr

end Bar

end VolumeWatch
