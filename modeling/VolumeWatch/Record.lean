import VolumeWatch.Desk

/-!
Records: what is kept of a run, so that its statistics can be built again.

Tags are kept in two ways, as the ids of their tag values and as one number.
-/

namespace VolumeWatch

open Calendar (Instant)

structure AlertRecord (α : Type) where
  contract : ContractId
  optionType : OptionType
  strike : α
  timeframe : Timeframe
  price : α
  reference : Instant
  tagIds : List Nat
  packedTags : Nat

structure OutcomeRecord (α : Type) where
  contract : ContractId
  reference : Instant
  packedTags : Nat
  outcome : Outcome α
  /-- The entry of the combination of tags after the outcome. -/
  entry : Entry α

inductive Record (α : Type) where
  | tagIds (entries : List (Nat × TagValue))
  | bar (timeframe : Timeframe) (bar : Bar α)
  | alert (alert : AlertRecord α)
  | outcome (outcome : OutcomeRecord α)
  | snapshot (snapshot : Snapshot α)

/-- The ids of the tag values, in the order of the dimensions. -/
def Tags.ids (t : Tags) : List Nat := t.values.map (·.id)

/-- The tags that a number is written for. A number that no tags have is refused. -/
def Tags.unpack {α : Type} (packed : Nat) : Except (Fault α) Tags :=
  (unpack? packed).elim (.error (.ofPacked packed)) .ok

namespace Record

variable {α : Type}

/-- All tag values with their ids. -/
def tagTable : Record α := .tagIds (TagValue.all.map fun v => (v.id, v))

def ofAlert (a : Alert α) : AlertRecord α where
  contract := a.contract
  optionType := a.optionType
  strike := a.strike
  timeframe := a.timeframe
  price := a.price
  reference := a.reference
  tagIds := a.tags.ids
  packedTags := a.tags.pack

def ofOutcome (a : Alert α) (o : Outcome α) (e : Entry α) : OutcomeRecord α :=
  ⟨a.contract, a.reference, a.tags.pack, o, e⟩

/-- What is kept of a notice: bars only where that is asked for, and never the calls of a
listener. -/
def ofNotice? (withBars : Bool) : Notice α → Option (Record α)
  | .anomaly .. => none
  | .bar t b => if withBars then some (.bar t b) else none
  | .alert a => some (.alert (ofAlert a))
  | .outcome a o e => some (.outcome (ofOutcome a o e))
  | .snapshot s => some (.snapshot s)

/-- The records of a journal, after the table of tag values. -/
def ofJournal (withBars : Bool) (journal : List (Notice α)) : List (Record α) :=
  tagTable :: journal.filterMap (ofNotice? withBars)

end Record

end VolumeWatch
