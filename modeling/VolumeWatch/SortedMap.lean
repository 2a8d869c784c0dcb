/-!
Finite maps kept as lists in strictly increasing key order.

Main statements: `get?_upsert` says what an update does to look-ups, `mem_toList_iff` that the
list shows exactly what look-ups find, and `ext_get?` that look-ups determine the list.
-/

namespace VolumeWatch

/-- Keys ordered by a number of their own. -/
class Ranked (κ : Type) where
  rank : κ → Nat
  rank_inj : ∀ {a b : κ}, rank a = rank b → a = b

open Ranked (rank rank_inj)

/-- A finite map, listed by increasing key. -/
structure SortedMap (κ α : Type) [Ranked κ] where
  toList : List (κ × α)
  sorted : toList.Pairwise fun a b => rank a.1 < rank b.1

namespace SortedMap

variable {κ α : Type} [Ranked κ]

def empty : SortedMap κ α := ⟨[], .nil⟩

instance : EmptyCollection (SortedMap κ α) := ⟨empty⟩

instance : Inhabited (SortedMap κ α) := ⟨∅⟩

def size (m : SortedMap κ α) : Nat := m.toList.length

def keys (m : SortedMap κ α) : List κ := m.toList.map (·.1)

def lookup (k : κ) : List (κ × α) → Option α
  | [] => none
  | (l, a) :: rest => if rank k = rank l then some a else lookup k rest

def get? (m : SortedMap κ α) (k : κ) : Option α := lookup k m.toList

/-- Replace the value of a key by a function of what was there, or put the function's value for
a missing key where the order wants it. -/
def upsertList (k : κ) (f : Option α → α) : List (κ × α) → List (κ × α)
  | [] => [(k, f none)]
  | (l, a) :: rest =>
    if rank k < rank l then (k, f none) :: (l, a) :: rest
    else if rank k = rank l then (l, f (some a)) :: rest
    else (l, a) :: upsertList k f rest

theorem mem_upsertList {k : κ} {f : Option α → α} {l : List (κ × α)} {x : κ × α}
    (h : x ∈ upsertList k f l) : rank x.1 = rank k ∨ x ∈ l := by
  induction l with
  | nil => simp_all [upsertList]
  | cons y rest ih =>
    obtain ⟨l, a⟩ := y
    simp only [upsertList] at h
    split at h
    · rcases List.mem_cons.mp h with rfl | h
      · exact Or.inl rfl
      · exact Or.inr h
    · split at h
      · rename_i hk
        rcases List.mem_cons.mp h with rfl | h
        · exact Or.inl hk.symm
        · exact Or.inr (List.mem_cons_of_mem _ h)
      · rcases List.mem_cons.mp h with rfl | h
        · exact Or.inr List.mem_cons_self
        · exact (ih h).imp_right (List.mem_cons_of_mem _)

theorem sorted_upsertList (k : κ) (f : Option α → α) {l : List (κ × α)}
    (h : l.Pairwise fun a b => rank a.1 < rank b.1) :
    (upsertList k f l).Pairwise fun a b => rank a.1 < rank b.1 := by
  induction l with
  | nil => simp [upsertList]
  | cons y rest ih =>
    obtain ⟨l, a⟩ := y
    obtain ⟨hl, hr⟩ := List.pairwise_cons.mp h
    simp only [upsertList]
    split
    · rename_i hk
      refine List.pairwise_cons.mpr ⟨fun x hx => ?_, h⟩
      rcases List.mem_cons.mp hx with rfl | hx
      · exact hk
      · exact Nat.lt_trans hk (hl x hx)
    · split
      · exact List.pairwise_cons.mpr ⟨hl, hr⟩
      · refine List.pairwise_cons.mpr ⟨fun x hx => ?_, ih hr⟩
        rcases mem_upsertList hx with hx | hx
        · show rank l < rank x.1
          omega
        · exact hl x hx

def upsert (m : SortedMap κ α) (k : κ) (f : Option α → α) : SortedMap κ α :=
  ⟨upsertList k f m.toList, sorted_upsertList k f m.sorted⟩

def insert (m : SortedMap κ α) (k : κ) (a : α) : SortedMap κ α := m.upsert k fun _ => a

theorem lookup_eq_none {k : κ} {l : List (κ × α)} (h : ∀ x ∈ l, rank k ≠ rank x.1) :
    lookup k l = none := by
  induction l with
  | nil => rfl
  | cons y rest ih =>
    rw [lookup, if_neg (h y List.mem_cons_self)]
    exact ih fun x hx => h x (List.mem_cons_of_mem _ hx)

@[simp] theorem get?_empty (k : κ) : (∅ : SortedMap κ α).get? k = none := rfl

/-- An update changes the value of its own key alone. -/
theorem get?_upsert (m : SortedMap κ α) (k : κ) (f : Option α → α) (j : κ) :
    (m.upsert k f).get? j = if rank j = rank k then some (f (m.get? k)) else m.get? j := by
  obtain ⟨l, hl⟩ := m
  simp only [get?, upsert]
  induction l with
  | nil => simp [upsertList, lookup]
  | cons y rest ih =>
    obtain ⟨l, a⟩ := y
    obtain ⟨hy, hr⟩ := List.pairwise_cons.mp hl
    simp only [upsertList]
    split
    · rename_i hk
      have hnone : lookup k ((l, a) :: rest) = none := by
        refine lookup_eq_none fun x hx => ?_
        rcases List.mem_cons.mp hx with rfl | hx
        · exact Nat.ne_of_lt hk
        · exact Nat.ne_of_lt (Nat.lt_trans hk (hy x hx))
      rw [hnone]
      simp only [lookup]
    · split
      · rename_i hk
        simp only [lookup, hk, if_true]
        split <;> rfl
      · rename_i hk
        simp only [lookup, ih hr, if_neg hk]
        by_cases hjl : rank j = rank l
        · simp [hjl, Ne.symm hk]
        · simp [hjl]

theorem get?_insert (m : SortedMap κ α) (k : κ) (a : α) (j : κ) :
    (m.insert k a).get? j = if rank j = rank k then some a else m.get? j :=
  m.get?_upsert k _ j

/-- The list shows exactly what look-ups find. -/
theorem mem_toList_iff (m : SortedMap κ α) {k : κ} {a : α} :
    (k, a) ∈ m.toList ↔ m.get? k = some a := by
  obtain ⟨l, hl⟩ := m
  simp only [get?]
  induction l with
  | nil => simp [lookup]
  | cons y rest ih =>
    obtain ⟨l, b⟩ := y
    obtain ⟨hy, hr⟩ := List.pairwise_cons.mp hl
    rw [List.mem_cons, lookup]
    split
    · rename_i hk
      refine ⟨?_, fun h => Or.inl ?_⟩
      · rintro (h | h)
        · simp_all
        · have := hy _ h
          simp only at this
          omega
      · simp_all [rank_inj hk]
    · rename_i hk
      rw [ih hr]
      refine ⟨?_, Or.inr⟩
      rintro (h | h)
      · exact absurd (congrArg (fun x => rank x.1) h) hk
      · exact h

theorem mem_keys_iff (m : SortedMap κ α) {k : κ} : k ∈ m.keys ↔ (m.get? k).isSome := by
  rw [Option.isSome_iff_exists]
  constructor
  · intro h
    obtain ⟨⟨j, a⟩, hx, rfl⟩ := List.mem_map.mp h
    exact ⟨a, m.mem_toList_iff.mp hx⟩
  · rintro ⟨a, h⟩
    exact List.mem_map_of_mem (m.mem_toList_iff.mpr h)

/-- Maps with the same look-ups are the same list. -/
theorem ext_get? {m n : SortedMap κ α} (h : ∀ k, m.get? k = n.get? k) : m = n := by
  have hmem (x : κ × α) : x ∈ m.toList ↔ x ∈ n.toList := by
    rw [show x = (x.1, x.2) from rfl, mem_toList_iff, mem_toList_iff, h]
  obtain ⟨l, hl⟩ := m
  obtain ⟨r, hr⟩ := n
  simp only at hmem
  suffices l = r by subst this; rfl
  clear h
  induction l generalizing r with
  | nil =>
    match r, hmem with
    | [], _ => rfl
    | y :: _, hmem => exact absurd ((hmem y).mpr List.mem_cons_self) List.not_mem_nil
  | cons x l ih =>
    match r, hr, hmem with
    | [], _, hmem => exact absurd ((hmem x).mp List.mem_cons_self) List.not_mem_nil
    | y :: r, hr, hmem =>
      obtain ⟨hx, hl⟩ := List.pairwise_cons.mp hl
      obtain ⟨hy, hr'⟩ := List.pairwise_cons.mp hr
      have hxy : x = y := by
        rcases List.mem_cons.mp ((hmem x).mp List.mem_cons_self) with h | h
        · exact h
        · rcases List.mem_cons.mp ((hmem y).mpr List.mem_cons_self) with h' | h'
          · exact h'.symm
          · have := hy x h
            have := hx y h'
            omega
      subst hxy
      congr 1
      refine ih hl r hr' fun z => ⟨fun hz => ?_, fun hz => ?_⟩
      · rcases List.mem_cons.mp ((hmem z).mp (List.mem_cons_of_mem _ hz)) with rfl | h
        · exact absurd (hx z hz) (Nat.lt_irrefl _)
        · exact h
      · rcases List.mem_cons.mp ((hmem z).mpr (List.mem_cons_of_mem _ hz)) with rfl | h
        · exact absurd (hy z hz) (Nat.lt_irrefl _)
        · exact h

end SortedMap

end VolumeWatch
