import Mathlib.Data.List.Nodup
import Mathlib.Data.List.Count

/-- A table of records by their key: no two records have the same key, and a record with a
new key goes behind the others. -/
structure Table {κ α : Type} (key : α → κ) where
  values : List α := []
  nodup : (values.map key).Nodup := by exact List.nodup_nil

namespace Table
variable {κ α : Type} [DecidableEq κ] {key : α → κ} {t : Table key} {k : κ} {v w : α}

def get (t : Table key) (k : κ) : Option α := t.values.find? (key · = k)

def count (t : Table key) (p : α → Bool) : Nat := t.values.countP p

/-- The records with `v` in the place of the one that has its key, or at the end. -/
def putValues (key : α → κ) (v : α) : List α → List α
  | [] => [v]
  | x :: xs => if key x = key v then v :: xs else x :: putValues key v xs

theorem mem_putValues {xs : List α} (h : w ∈ putValues key v xs) : w = v ∨ w ∈ xs := by
  induction xs with
  | nil => exact .inl (List.mem_singleton.mp h)
  | cons x xs ih =>
    rw [putValues] at h
    split at h
    · exact (List.mem_cons.mp h).imp_right (List.mem_cons_of_mem x)
    · rcases List.mem_cons.mp h with rfl | h
      · exact .inr (by simp)
      · exact (ih h).imp_right (List.mem_cons_of_mem x)

theorem nodup_putValues {xs : List α} (h : (xs.map key).Nodup) :
    ((putValues key v xs).map key).Nodup := by
  induction xs with
  | nil => simp [putValues]
  | cons x xs ih =>
    rw [List.map_cons, List.nodup_cons] at h
    rw [putValues]
    split
    · rename_i hx
      rw [List.map_cons, List.nodup_cons, ← hx]
      exact h
    · rename_i hx
      rw [List.map_cons, List.nodup_cons]
      refine ⟨fun hmem => ?_, ih h.2⟩
      obtain ⟨u, hu, hkey⟩ := List.mem_map.mp hmem
      rcases mem_putValues hu with rfl | hu
      · exact hx hkey.symm
      · exact h.1 (hkey ▸ List.mem_map_of_mem hu)

def put (t : Table key) (v : α) : Table key := ⟨putValues key v t.values, nodup_putValues t.nodup⟩

def erase (t : Table key) (k : κ) : Table key where
  values := t.values.filter (key · ≠ k)
  nodup := t.nodup.sublist (List.filter_sublist.map _)

/-- A change of the records that leaves their keys. -/
def map (t : Table key) (f : α → α) (hf : ∀ x, key (f x) = key x) : Table key where
  values := t.values.map f
  nodup := by
    rw [List.map_map, show key ∘ f = key from funext hf]
    exact t.nodup

@[simp] theorem get_empty (k : κ) : ({} : Table key).get k = none := rfl

theorem key_of_get (h : t.get k = some v) : key v = k := by
  simpa using List.find?_some h

theorem get_put (t : Table key) (v : α) (k : κ) :
    (t.put v).get k = if k = key v then some v else t.get k := by
  simp only [get, put]
  generalize t.values = xs
  induction xs with
  | nil =>
    simp only [putValues, List.find?_cons, List.find?_nil]
    split <;> simp_all [eq_comm]
  | cons x xs ih =>
    rw [putValues]
    split
    · rename_i hx
      by_cases hk : k = key v
      · simp [hk]
      · simp [hk, hx, Ne.symm hk]
    · rename_i hx
      rw [List.find?_cons, ih, List.find?_cons]
      by_cases hk : k = key v
      · simp [hk, hx]
      · simp [hk]

@[simp] theorem get_put_self (t : Table key) (v : α) : (t.put v).get (key v) = some v := by
  rw [get_put, if_pos rfl]

theorem get_put_of_ne (t : Table key) (h : k ≠ key v) : (t.put v).get k = t.get k := by
  rw [get_put, if_neg h]

theorem get_erase (t : Table key) (k l : κ) :
    (t.erase k).get l = if l = k then none else t.get l := by
  simp only [get, erase, List.find?_filter]
  split
  · rename_i h
    rw [List.find?_eq_none]
    simp [h]
  · rename_i h
    congr 1
    funext x
    by_cases hx : key x = l
    · simp [hx, h]
    · simp [hx]

theorem get_map (t : Table key) (f : α → α) (hf : ∀ x, key (f x) = key x) (k : κ) :
    (t.map f hf).get k = (t.get k).map f := by
  simp only [get, map, List.find?_map, Function.comp_def, hf]

theorem get_eq_some_iff : t.get k = some v ↔ v ∈ t.values ∧ key v = k := by
  constructor
  · intro h
    exact ⟨List.mem_of_find?_eq_some h, key_of_get h⟩
  · rintro ⟨hv, rfl⟩
    have hnodup := t.nodup
    rw [get]
    generalize t.values = xs at hv hnodup
    induction xs with
    | nil => cases hv
    | cons x xs ih =>
      rw [List.map_cons, List.nodup_cons] at hnodup
      rcases List.mem_cons.mp hv with rfl | hv
      · simp
      · have hx : key x ≠ key v := fun h => hnodup.1 (h ▸ List.mem_map_of_mem hv)
        rw [List.find?_cons_of_neg (by simpa using hx)]
        exact ih hv hnodup.2

theorem mem_values_iff : v ∈ t.values ↔ t.get (key v) = some v := by
  simp [get_eq_some_iff]

/-- How a count changes when a record is put. -/
theorem count_put (t : Table key) (v : α) (p : α → Bool) :
    (t.put v).count p + (t.get (key v)).toList.countP p = t.count p + [v].countP p := by
  simp only [count, put, get]
  generalize t.values = xs
  induction xs with
  | nil => simp [putValues, List.countP_cons]
  | cons x xs ih =>
    rw [putValues]
    split
    · rename_i hx
      rw [List.find?_cons_of_pos (by simpa using hx)]
      simp only [List.countP_cons, Option.toList_some, List.countP_nil]
      omega
    · rename_i hx
      rw [List.find?_cons_of_neg (by simpa using hx)]
      simp only [List.countP_cons] at ih ⊢
      omega

theorem count_put_new (h : t.get (key v) = none) (p : α → Bool) :
    (t.put v).count p = t.count p + if p v then 1 else 0 := by
  have := count_put t v p
  simpa [h, List.countP_cons] using this

theorem count_put_old (h : t.get (key v) = some w) (p : α → Bool) :
    (t.put v).count p + (if p w then 1 else 0) = t.count p + if p v then 1 else 0 := by
  have := count_put t v p
  simpa [h, List.countP_cons] using this

end Table
