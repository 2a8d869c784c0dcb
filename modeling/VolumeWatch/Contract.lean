import VolumeWatch.Scalar
import VolumeWatch.SortedMap
import VolumeWatch.Tag.Bucket

/-!
Contracts: 32-bit ids, one of which stands for the underlying index.

Every other id is an option: a call has its strike as id, a put the number after it, so that
strikes are even.
-/

namespace VolumeWatch

structure ContractId where
  id : UInt32
  deriving DecidableEq, Inhabited

instance : Ranked ContractId where
  rank c := c.id.toNat
  rank_inj := by
    intro a b h
    obtain ⟨a⟩ := a
    obtain ⟨b⟩ := b
    exact congrArg ContractId.mk (UInt32.toNat_inj.mp h)

inductive ContractKind (α : Type) where
  | underlying
  | option (optionType : OptionType) (strike : α)

namespace ContractId

def text (c : ContractId) : String := toString c.id.toNat

/-- A call has an even id and a put an odd one. -/
def optionType (c : ContractId) : OptionType := if c.id.toNat % 2 = 0 then .call else .put

/-- The even number at or before the id. -/
def strike (c : ContractId) : Nat := c.id.toNat - c.id.toNat % 2

def kind {α : Type} [Scalar α] (c underlying : ContractId) : ContractKind α :=
  if c = underlying then .underlying else .option c.optionType (c.strike : α)

/-- The id of an option, if it is one of the 32-bit words. -/
def ofOption? (optionType : OptionType) (strike : UInt32) : Option ContractId :=
  match optionType with
  | .call => some ⟨strike⟩
  | .put => if strike.toNat + 1 < Nat.pow 2 32 then some ⟨strike + 1⟩ else none

end ContractId

end VolumeWatch
