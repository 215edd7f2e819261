import Mathlib.Data.List.Basic
import Mathlib.Order.Lattice

namespace SortedMap

variable {κ ν : Type*} [LinearOrder κ] {k : κ} {v : ν} {m : List (κ × ν)}

/-- A finite map as the list of its entries in the order of their keys. -/
def Sorted (m : List (κ × ν)) : Prop := m.Pairwise fun a b => a.1 < b.1

def insert (k : κ) (v : ν) : List (κ × ν) → List (κ × ν)
  | [] => [(k, v)]
  | e :: m => if k < e.1 then (k, v) :: e :: m else if k = e.1 then (k, v) :: m else e :: insert k v m

def lookup (m : List (κ × ν)) (k : κ) : Option ν := (m.find? (·.1 = k)).map (·.2)

/-- The entries put into a map one after the other. -/
def insertAll (m : List (κ × ν)) (es : List (κ × ν)) : List (κ × ν) :=
  es.foldl (fun m e => insert e.1 e.2 m) m

theorem mem_insert {e : κ × ν} (h : e ∈ insert k v m) : e = (k, v) ∨ e ∈ m := by
  induction m with
  | nil => simpa [insert] using h
  | cons a m ih =>
    rw [insert] at h
    split_ifs at h with h₁ h₂
    · simpa using h
    · rcases List.mem_cons.mp h with rfl | h
      · exact .inl rfl
      · exact .inr (by simp [h])
    · rcases List.mem_cons.mp h with rfl | h
      · exact .inr (by simp)
      · rcases ih h with h | h
        · exact .inl h
        · exact .inr (by simp [h])

theorem Sorted.insert (h : Sorted m) (k : κ) (v : ν) : Sorted (insert k v m) := by
  induction m with
  | nil => simp [SortedMap.insert, Sorted]
  | cons a m ih =>
    obtain ⟨ha, hm⟩ := List.pairwise_cons.mp h
    rw [SortedMap.insert]
    split_ifs with h₁ h₂
    · refine List.pairwise_cons.mpr ⟨fun e he => ?_, h⟩
      rcases List.mem_cons.mp he with rfl | he
      · exact h₁
      · exact lt_trans h₁ (ha e he)
    · exact List.pairwise_cons.mpr ⟨fun e he => h₂ ▸ ha e he, hm⟩
    · refine List.pairwise_cons.mpr ⟨fun e he => ?_, ih hm⟩
      rcases mem_insert he with rfl | he
      · exact lt_of_le_of_ne (not_lt.mp h₁) (Ne.symm h₂)
      · exact ha e he

theorem Sorted.insertAll (h : Sorted m) (es : List (κ × ν)) : Sorted (insertAll m es) := by
  induction es generalizing m with
  | nil => exact h
  | cons e es ih => exact ih (h.insert e.1 e.2)

theorem mem_insertAll {e : κ × ν} {es : List (κ × ν)} (h : e ∈ insertAll m es) :
    e ∈ es ∨ e ∈ m := by
  induction es generalizing m with
  | nil => exact .inr h
  | cons a es ih =>
    rcases ih h with h | h
    · exact .inl (by simp [h])
    · rcases mem_insert h with rfl | h
      · exact .inl (by simp)
      · exact .inr h

theorem insert_last (h : ∀ e ∈ m, e.1 < k) : insert k v m = m ++ [(k, v)] := by
  induction m with
  | nil => rfl
  | cons a m ih =>
    have ha := h a (by simp)
    rw [insert, if_neg (lt_asymm ha), if_neg (ne_of_gt ha), ih fun e he => h e (by simp [he])]
    rfl

theorem lookup_insert_self (m : List (κ × ν)) (k : κ) (v : ν) :
    lookup (insert k v m) k = some v := by
  induction m with
  | nil => simp [insert, lookup]
  | cons e m ih =>
    rw [insert]
    split_ifs with hlt heq
    · simp [lookup]
    · simp [lookup]
    · rw [lookup, List.find?_cons_of_neg (by simpa using Ne.symm heq)]
      exact ih

theorem lookup_insert_of_ne {k' : κ} (h : k' ≠ k) (m : List (κ × ν)) (v : ν) :
    lookup (insert k v m) k' = lookup m k' := by
  induction m with
  | nil => simp [insert, lookup, Ne.symm h]
  | cons e m ih =>
    rw [insert]
    split_ifs with hlt heq
    · rw [lookup, List.find?_cons_of_neg (by simpa using Ne.symm h), lookup]
    · rw [lookup, lookup, List.find?_cons_of_neg (by simpa using Ne.symm h),
        List.find?_cons_of_neg (by simpa [← heq] using Ne.symm h)]
    · by_cases hk : e.1 = k'
      · simp [lookup, hk]
      · rw [lookup, lookup, List.find?_cons_of_neg (by simpa using hk),
          List.find?_cons_of_neg (by simpa using hk)]
        exact ih

theorem lookup_append (m m' : List (κ × ν)) (k : κ) :
    lookup (m ++ m') k = (lookup m k).or (lookup m' k) := by
  rw [lookup, lookup, lookup, List.find?_append]
  cases m.find? (·.1 = k) <;> simp

theorem lookup_eq_none (h : ∀ e ∈ m, e.1 ≠ k) : lookup m k = none := by
  rw [lookup, Option.map_eq_none_iff, List.find?_eq_none]
  exact fun e he => by simpa using h e he

theorem lookup_filterMap (ks : List κ) (f : κ → Option ν) (k : κ) :
    lookup (ks.filterMap fun k => (f k).map fun v => (k, v)) k = if k ∈ ks then f k else none := by
  induction ks with
  | nil => rfl
  | cons a ks ih =>
    rw [List.filterMap_cons]
    by_cases hk : a = k
    · subst hk
      cases hf : f a with
      | none => simpa [hf] using ih
      | some v => simp [lookup]
    · have hmem : k ∈ a :: ks ↔ k ∈ ks := by simp [Ne.symm hk]
      cases hf : f a with
      | none => simpa [hmem] using ih
      | some v =>
        simp only [Option.map_some, hmem]
        rw [lookup, List.find?_cons_of_neg (by simpa using hk)]
        exact ih

/-- What was put in last under a key is what is found there. -/
theorem lookup_insertAll (m es : List (κ × ν)) (k : κ) :
    lookup (insertAll m es) k = (lookup es.reverse k).or (lookup m k) := by
  induction es generalizing m with
  | nil => rfl
  | cons e es ih =>
    rw [insertAll, List.foldl_cons, ← insertAll, ih, List.reverse_cons, lookup_append, Option.or_assoc]
    by_cases hk : k = e.1
    · subst hk
      rw [lookup_insert_self]
      simp [lookup]
    · rw [lookup_insert_of_ne hk]
      simp [lookup, Ne.symm hk]

/-- Putting in the entries of a map, in order, gives the map. -/
theorem insertAll_sorted {acc : List (κ × ν)} (h : Sorted (acc ++ m)) :
    insertAll acc m = acc ++ m := by
  induction m generalizing acc with
  | nil => simp [insertAll]
  | cons a m ih =>
    have hlast : insert a.1 a.2 acc = acc ++ [a] :=
      insert_last fun e he => (List.pairwise_append.mp h).2.2 e he a (by simp)
    rw [insertAll, List.foldl_cons, ← insertAll, hlast, ih (by simpa using h)]
    simp

/-- The entries of a map are what is found in it. -/
theorem lookup_eq_some_iff (h : Sorted m) {e : κ × ν} : lookup m e.1 = some e.2 ↔ e ∈ m := by
  induction m with
  | nil => simp [lookup]
  | cons a m ih =>
    obtain ⟨ha, hm⟩ := List.pairwise_cons.mp h
    by_cases hk : a.1 = e.1
    · have hnot : e ∉ m := fun he => absurd (ha e he) (by simp [hk])
      simp [lookup, hk, hnot, Prod.ext_iff, eq_comm]
    · have hne : e ≠ a := fun he => hk (he ▸ rfl)
      rw [lookup, List.find?_cons_of_neg (by simpa using hk), List.mem_cons, or_iff_right hne]
      exact ih hm

theorem mem_insert_iff (h : Sorted m) {e : κ × ν} :
    e ∈ insert k v m ↔ e = (k, v) ∨ e ∈ m ∧ e.1 ≠ k := by
  rw [← lookup_eq_some_iff (h.insert k v), ← lookup_eq_some_iff h]
  by_cases he : e.1 = k
  · rw [he, lookup_insert_self, Option.some.injEq]
    constructor
    · intro hv
      exact .inl (Prod.ext he hv.symm)
    · rintro (rfl | ⟨-, hne⟩)
      · rfl
      · exact absurd rfl hne
  · rw [lookup_insert_of_ne he]
    constructor
    · intro hv
      exact .inr ⟨hv, he⟩
    · rintro (rfl | ⟨hv, -⟩)
      · exact absurd rfl he
      · exact hv

end SortedMap
