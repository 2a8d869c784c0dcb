/-!
Numbers written in groups of four bits, the lowest group first.

Main statements: a number below `Nat.pow 16 n` is the value of its first `n` groups
(`value_nibbles`), and the groups of a value are the digits it was made of (`nibble_value`).
-/

namespace VolumeWatch.Nibbles

/-- The `i`-th group of four bits. -/
def nibble (w i : Nat) : Nat := w / Nat.pow 16 i % 16

/-- The first `n` groups of four bits. -/
def nibbles (w n : Nat) : List Nat := (List.range n).map (nibble w)

/-- The number whose groups are the given digits. -/
def value : List Nat → Nat
  | [] => 0
  | d :: ds => d + 16 * value ds

theorem pow_succ (n : Nat) : Nat.pow 16 (n + 1) = Nat.pow 16 n * 16 := rfl

theorem value_lt {ds : List Nat} (h : ∀ d ∈ ds, d < 16) : value ds < Nat.pow 16 ds.length := by
  induction ds with
  | nil => decide
  | cons d ds ih =>
    have hd := h d List.mem_cons_self
    have := ih fun e he => h e (List.mem_cons_of_mem _ he)
    rw [value, List.length_cons, pow_succ]
    omega

theorem nibble_zero (w : Nat) : nibble w 0 = w % 16 := by simp [nibble]

theorem nibble_succ (w i : Nat) : nibble w (i + 1) = nibble (w / 16) i := by
  rw [nibble, nibble, pow_succ, Nat.mul_comm, Nat.div_div_eq_div_mul]

theorem nibble_value {ds : List Nat} (h : ∀ d ∈ ds, d < 16) {i d : Nat} (hi : ds[i]? = some d) :
    nibble (value ds) i = d := by
  induction ds generalizing i with
  | nil => simp at hi
  | cons e ds ih =>
    have he := h e List.mem_cons_self
    cases i with
    | zero =>
      rw [List.getElem?_cons_zero, Option.some.injEq] at hi
      rw [nibble_zero, value]
      omega
    | succ i =>
      rw [List.getElem?_cons_succ] at hi
      rw [nibble_succ, value, show (e + 16 * value ds) / 16 = value ds by omega]
      exact ih (fun x hx => h x (List.mem_cons_of_mem _ hx)) hi

theorem value_nibbles {w n : Nat} (h : w < Nat.pow 16 n) : value (nibbles w n) = w := by
  induction n generalizing w with
  | zero =>
    have hw : w < 1 := h
    simp [nibbles, value]
    omega
  | succ n ih =>
    rw [pow_succ] at h
    have := @ih (w / 16) (by omega)
    rw [nibbles] at this
    rw [nibbles, List.range_succ_eq_map, List.map_cons, List.map_map, value, nibble_zero,
      show (nibble w ∘ Nat.succ) = nibble (w / 16) from funext fun i => nibble_succ w i, this]
    omega

theorem value_inj {ds es : List Nat} (hd : ∀ d ∈ ds, d < 16) (he : ∀ e ∈ es, e < 16)
    (hl : ds.length = es.length) (h : value ds = value es) : ds = es := by
  induction ds generalizing es with
  | nil => exact (List.length_eq_zero_iff.mp hl.symm).symm
  | cons d ds ih =>
    match es, hl with
    | e :: es, hl =>
      have h1 := hd d List.mem_cons_self
      have h2 := he e List.mem_cons_self
      rw [value, value] at h
      have := ih (fun x hx => hd x (List.mem_cons_of_mem _ hx))
        (fun x hx => he x (List.mem_cons_of_mem _ hx)) (by simpa using hl) (by omega)
      rw [this, show d = e by omega]

end VolumeWatch.Nibbles
