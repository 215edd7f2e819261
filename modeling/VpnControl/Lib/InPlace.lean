import Mathlib.Data.List.Basic

/-! A slice filtered in its own array: `next := xs[:0]`, then `next = append(next, x)` for the
elements to keep, while the loop over `xs` goes on reading the array that `append` writes to. -/

namespace InPlace

variable {α : Type*} (keep : α → Bool)

/-- The loop: `next` elements are kept so far, `i` is the index to be read, `n` are left. -/
def filterLoop (array : List α) (next i : Nat) : Nat → List α × Nat
  | 0 => (array, next)
  | n + 1 =>
    match array[i]? with
    | none => (array, next)
    | some x =>
      if keep x then filterLoop (array.set next x) (next + 1) (i + 1) n
      else filterLoop array next (i + 1) n

/-- The slice that the loop builds. -/
def filter (xs : List α) : List α :=
  let (array, next) := filterLoop keep xs 0 0 xs.length
  array.take next

/-- The loop never overwrites what it has not read: `next` is not beyond `i`. -/
theorem filterLoop_spec {array : List α} {next i : Nat} {kept rest : List α}
    (hnext : next ≤ i) (hkept : array.take next = kept) (hrest : array.drop i = rest) :
    (filterLoop keep array next i rest.length).1.take
      (filterLoop keep array next i rest.length).2 = kept ++ rest.filter keep := by
  induction rest generalizing array next i kept with
  | nil => simp [filterLoop, hkept]
  | cons x rest ih =>
    have hlt : i < array.length := by
      rw [← Nat.not_le]
      intro hle
      rw [List.drop_of_length_le hle] at hrest
      cases hrest
    rw [List.drop_eq_getElem_cons hlt, List.cons.injEq] at hrest
    obtain ⟨hx, hrest⟩ := hrest
    rw [List.length_cons, filterLoop, List.getElem?_eq_getElem hlt, hx]
    by_cases hk : keep x = true
    · have hkept' : (array.set next x).take (next + 1) = kept ++ [x] := by
        rw [List.take_add_one, List.take_set_of_le (Nat.le_refl next), hkept,
          List.getElem?_set_self (by omega)]
        rfl
      have hrest' : (array.set next x).drop (i + 1) = rest := by
        rw [List.drop_set_of_lt (by omega), hrest]
      simp only [hk, if_true]
      rw [ih (by omega) hkept' hrest', List.filter_cons_of_pos hk]
      simp
    · simp only [hk, Bool.false_eq_true, if_false]
      rw [ih (by omega) hkept hrest, List.filter_cons_of_neg hk]

theorem filter_eq (xs : List α) : filter keep xs = xs.filter keep := by
  have h := filterLoop_spec keep (Nat.le_refl 0) ((List.take_zero : xs.take 0 = [])) ((List.drop_zero : xs.drop 0 = xs))
  simpa [filter] using h

end InPlace
