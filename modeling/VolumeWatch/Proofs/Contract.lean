import VolumeWatch.Proofs.Classification
import VolumeWatch.Proofs.Scalar.Words

/-!
Ids and options. The id of an option is the one whose type and strike it has
(`ofOption?_eq_some_iff`), over the whole range of ids, so that ids and options with even strikes
determine each other, whichever id is reserved for the underlying index.
-/

namespace VolumeWatch.ContractId

open Scalar (KeepsWords)

variable {c d underlying : ContractId} {optionType : OptionType} {strike : UInt32}

theorem even_strike (c : ContractId) : Even c.strike := by
  rw [strike, Nat.even_iff]
  omega

theorem strike_lt (c : ContractId) : c.strike < 2 ^ 32 :=
  Nat.lt_of_le_of_lt (Nat.sub_le _ _) c.id.toNat_lt

/-- An id is the strike of its option, or the number after it if this is a put. -/
theorem toNat_id (c : ContractId) :
    c.optionType = .call ∧ c.id.toNat = c.strike ∨
      c.optionType = .put ∧ c.id.toNat = c.strike + 1 := by
  unfold optionType strike
  rcases Nat.mod_two_eq_zero_or_one c.id.toNat with h | h
  · exact Or.inl ⟨if_pos h, by omega⟩
  · exact Or.inr ⟨if_neg (by omega), by omega⟩

/-- Ids of one type and strike are the same. -/
theorem ext_of_option (hkind : c.optionType = d.optionType) (hstrike : c.strike = d.strike) :
    c = d := by
  have hid : c.id.toNat = d.id.toNat := by
    rcases c.toNat_id with ⟨hc, hid⟩ | ⟨hc, hid⟩ <;>
      rcases d.toNat_id with ⟨hd, hid'⟩ | ⟨hd, hid'⟩
    case inl.inl | inr.inr => omega
    case inl.inr | inr.inl => cases hc.symm.trans (hkind.trans hd)
  obtain ⟨i⟩ := c
  obtain ⟨j⟩ := d
  exact congrArg ContractId.mk (UInt32.toNat_inj.mp hid)

/-- An even strike has an id of either type. -/
theorem exists_ofOption? (h : Even strike.toNat) (optionType : OptionType) :
    ∃ c, ofOption? optionType strike = some c ∧ c.optionType = optionType ∧
      c.strike = strike.toNat := by
  have heven := Nat.even_iff.mp h
  have hlt := strike.toNat_lt
  cases optionType with
  | call =>
    refine ⟨⟨strike⟩, rfl, if_pos heven, ?_⟩
    show strike.toNat - strike.toNat % 2 = _
    omega
  | put =>
    -- the last word is odd, so there is room for the number after the strike
    have hroom : strike.toNat + 1 < 2 ^ 32 := by omega
    have hnext : (strike + 1).toNat = strike.toNat + 1 := by
      rw [UInt32.toNat_add]
      exact Nat.mod_eq_of_lt hroom
    refine ⟨⟨strike + 1⟩, if_pos hroom, if_neg ?_, ?_⟩
    · show ¬ (strike + 1).toNat % 2 = 0
      omega
    · show (strike + 1).toNat - (strike + 1).toNat % 2 = _
      omega

/-- The id of an option is the one that has its type and its strike. -/
theorem ofOption?_eq_some_iff (h : Even strike.toNat) :
    ofOption? optionType strike = some c ↔
      c.optionType = optionType ∧ c.strike = strike.toNat := by
  obtain ⟨d, hd, hkind, hstrike⟩ := exists_ofOption? h optionType
  rw [hd, Option.some_inj]
  constructor
  · rintro rfl
    exact ⟨hkind, hstrike⟩
  · rintro ⟨hkind', hstrike'⟩
    exact ext_of_option (hkind.trans hkind'.symm) (hstrike.trans hstrike'.symm)

/-- The strike of an option as a word. -/
def strikeWord (c : ContractId) : UInt32 := .ofNatLT c.strike c.strike_lt

/-- Every id is the id of its own option. -/
theorem ofOption?_self (c : ContractId) : ofOption? c.optionType c.strikeWord = some c := by
  have heven : Even c.strikeWord.toNat := c.even_strike
  exact (ofOption?_eq_some_iff heven).mpr ⟨rfl, rfl⟩

/-- Ids that denote options of the same type and strike are the same. -/
theorem eq_of_kind_eq {α : Type} [Scalar α] [KeepsWords α] {underlying' : ContractId}
    (hc : c ≠ underlying) (hd : d ≠ underlying')
    (h : (c.kind underlying : ContractKind α) = d.kind underlying') : c = d := by
  rw [kind_of_ne hc, kind_of_ne hd] at h
  injection h with hkind hstrike
  exact ext_of_option hkind (KeepsWords.natCast_inj c.strike_lt d.strike_lt hstrike)

/-- A strike that is a binary number is read as the word that it was made of. -/
theorem toUInt32_strike (c : ContractId) : (c.strike : Float).toUInt32 = c.strikeWord :=
  UInt32.toNat_inj.mp (Scalar.toUInt32_natCast c.strike_lt)

/-- Ids other than the underlying one and options with an even strike determine each other, for
every choice of the underlying id. With binary numbers, the strike that an id denotes is a whole
number that is read back as a word. -/
theorem options_iff_ids :
    (∀ {α : Type} [Scalar α] [KeepsWords α],
      (∀ c underlying : ContractId, c ≠ underlying → ∃ (optionType : OptionType) (strike : UInt32),
        Even strike.toNat ∧
        (c.kind underlying : ContractKind α) = .option optionType (strike.toNat : α) ∧
        ofOption? optionType strike = some c) ∧
      (∀ (optionType : OptionType) (strike : UInt32), Even strike.toNat →
        ∃ c, ofOption? optionType strike = some c ∧ ∀ underlying, c ≠ underlying →
          (c.kind underlying : ContractKind α) = .option optionType (strike.toNat : α)) ∧
      ∀ c d underlying underlying' : ContractId, c ≠ underlying → d ≠ underlying' →
        (c.kind underlying : ContractKind α) = d.kind underlying' → c = d) ∧
    ∀ (c underlying : ContractId) (optionType : OptionType) (x : Float),
      c.kind underlying = .option optionType x →
        x = (x.toUInt32.toNat : Float) ∧ Even x.toUInt32.toNat ∧
          ofOption? optionType x.toUInt32 = some c := by
  refine ⟨fun {α} _ _ => ⟨fun c underlying hne => ?ids, fun optionType strike heven => ?options,
    fun c d underlying underlying' => eq_of_kind_eq⟩, fun c underlying optionType x h => ?words⟩
  case ids => exact ⟨c.optionType, c.strikeWord, c.even_strike, kind_of_ne hne, c.ofOption?_self⟩
  case options =>
    obtain ⟨c, hc, hkind, hstrike⟩ := exists_ofOption? heven optionType
    refine ⟨c, hc, fun underlying hne => ?_⟩
    rw [kind_of_ne hne, hkind, hstrike]
  case words =>
    have hne : c ≠ underlying := by
      rintro rfl
      rw [kind, if_pos rfl] at h
      cases h
    rw [kind_of_ne hne] at h
    injection h with hkind hstrike
    subst hkind hstrike
    rw [toUInt32_strike]
    exact ⟨rfl, c.even_strike, c.ofOption?_self⟩

/-- The last id is a put, and its strike has a call that may be the underlying. -/
theorem options_iff_ids_last :
    (∃ c, ofOption? .put 4294967294 = some c ∧
      c.kind ⟨4294967294⟩ = .option .put ((4294967294 : ℕ) : Float)) ∧
    ofOption? .put ((4294967294 : ℕ) : Float).toUInt32 = some ⟨4294967295⟩ := by
  obtain ⟨c, hc, hkind⟩ := (options_iff_ids.1 (α := Float)).2.1 .put 4294967294 (by decide)
  have hlast : ofOption? .put 4294967294 = some ⟨4294967295⟩ := by decide
  obtain rfl : c = ⟨4294967295⟩ := Option.some_inj.mp (hc.symm.trans hlast)
  have hdenoted := hkind ⟨4294967294⟩ (by decide)
  exact ⟨⟨_, hc, hdenoted⟩, (options_iff_ids.2 _ _ _ _ hdenoted).2.2⟩

end VolumeWatch.ContractId
