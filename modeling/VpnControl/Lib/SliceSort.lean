import Mathlib.Data.List.Sort

/-- A comparison that orders the elements of a list: of two different ones, exactly one comes
before the other. -/
structure StrictTotalOn {α : Type} (less : α → α → Bool) (xs : List α) : Prop where
  irrefl : ∀ x ∈ xs, less x x = false
  trans : ∀ x ∈ xs, ∀ y ∈ xs, ∀ z ∈ xs, less x y = true → less y z = true → less x z = true
  total : ∀ x ∈ xs, ∀ y ∈ xs, x ≠ y → less x y = true ∨ less y x = true

/-- The requirement on a comparison: elements of which neither comes before the other are
alike to every third one. -/
structure StrictWeakOn {α : Type} (less : α → α → Bool) (xs : List α) : Prop where
  irrefl : ∀ x ∈ xs, less x x = false
  trans : ∀ x ∈ xs, ∀ y ∈ xs, ∀ z ∈ xs, less x y = true → less y z = true → less x z = true
  between : ∀ x ∈ xs, ∀ y ∈ xs, ∀ z ∈ xs, less x z = true → less x y = true ∨ less y z = true

section
variable {α : Type} {less : α → α → Bool} {xs ys : List α}

theorem StrictTotalOn.weak (h : StrictTotalOn less xs) : StrictWeakOn less xs where
  irrefl := h.irrefl
  trans := h.trans
  between x hx y hy z hz hxz := by
    by_cases hxy : x = y
    · exact .inr (hxy ▸ hxz)
    · apply (h.total x hx y hy hxy).imp_right
      intro hyx
      exact h.trans y hy x hx z hz hyx hxz

theorem StrictTotalOn.perm (h : StrictTotalOn less xs) (hp : ys.Perm xs) :
    StrictTotalOn less ys where
  irrefl x hx := h.irrefl x (hp.subset hx)
  trans x hx y hy z hz := h.trans x (hp.subset hx) y (hp.subset hy) z (hp.subset hz)
  total x hx y hy := h.total x (hp.subset hx) y (hp.subset hy)

theorem StrictWeakOn.mono (h : StrictWeakOn less xs) (hsub : ys ⊆ xs) : StrictWeakOn less ys where
  irrefl x hx := h.irrefl x (hsub hx)
  trans x hx y hy z hz := h.trans x (hsub hx) y (hsub hy) z (hsub hz)
  between x hx y hy z hz := h.between x (hsub hx) y (hsub hy) z (hsub hz)

/-- A sort of slices by a comparison. It always returns the elements of the slice; their
order is only promised for a comparison that meets the requirement. -/
structure SliceSort where
  slice : {α : Type} → (α → α → Bool) → List α → List α
  perm : ∀ {α : Type} (less : α → α → Bool) (xs : List α), (slice less xs).Perm xs
  sorted : ∀ {α : Type} (less : α → α → Bool) (xs : List α), StrictWeakOn less xs →
    (slice less xs).Pairwise fun x y => less y x = false

namespace SliceSort
variable (sort : SliceSort)

theorem mem_slice {x : α} : x ∈ sort.slice less xs ↔ x ∈ xs := (sort.perm less xs).mem_iff

/-- With a total comparison of different elements the sorted slice increases strictly. -/
theorem slice_increasing (h : StrictTotalOn less xs) (hnd : xs.Nodup) :
    (sort.slice less xs).Pairwise fun x y => less x y = true := by
  have hsorted := sort.sorted less xs h.weak
  have hne : (sort.slice less xs).Pairwise (· ≠ ·) := (sort.perm less xs).nodup_iff.mpr hnd
  apply (hsorted.and hne).imp_of_mem
  intro x y hx hy hxy
  rcases h.total x (sort.mem_slice.mp hx) y (sort.mem_slice.mp hy) hxy.2 with hlt | hgt
  · exact hlt
  · exact absurd hgt (by simp [hxy.1])

/-- With a total comparison the order of the slice before the sort does not matter. -/
theorem slice_eq_of_perm (h : StrictTotalOn less xs) (hp : ys.Perm xs) :
    sort.slice less ys = sort.slice less xs := by
  apply List.Perm.eq_of_pairwise ?_ (sort.sorted less ys (h.perm hp).weak)
    (sort.sorted less xs h.weak) ((sort.perm less ys).trans (hp.trans (sort.perm less xs).symm))
  intro x y hx hy hyx hxy
  have hx' := hp.subset (sort.mem_slice.mp hx)
  have hy' := sort.mem_slice.mp hy
  by_contra hne
  rcases h.total x hx' y hy' hne with hlt | hgt
  · simp [hlt] at hxy
  · simp [hgt] at hyx

end SliceSort

/-! ### Sorting by insertion -/

/-- `x` moves in front of the last elements as long as it comes before them; the list is
written from its end. -/
def insertBack (less : α → α → Bool) (x : α) : List α → List α
  | [] => [x]
  | y :: ys => if less x y then y :: insertBack less x ys else x :: y :: ys

theorem insertBack_perm (x : α) : ∀ ys : List α, (insertBack less x ys).Perm (x :: ys)
  | [] => .refl _
  | y :: ys => by
    rw [insertBack]
    split
    · exact ((insertBack_perm x ys).cons y).trans (.swap x y ys)
    · exact .refl _

theorem insertBack_sorted {x : α} (h : StrictWeakOn less (x :: ys))
    (hs : ys.Pairwise fun a b => less a b = false) :
    (insertBack less x ys).Pairwise fun a b => less a b = false := by
  induction ys with
  | nil => exact List.pairwise_singleton _ _
  | cons y ys ih =>
    have hx : x ∈ x :: y :: ys := List.mem_cons_self
    have hy : y ∈ x :: y :: ys := by simp
    rw [List.pairwise_cons] at hs
    rw [insertBack]
    split
    · rename_i hxy
      have hsub : x :: ys ⊆ x :: y :: ys := by
        intro a ha
        rcases List.mem_cons.mp ha with rfl | ha
        · exact hx
        · exact List.mem_cons_of_mem _ (List.mem_cons_of_mem _ ha)
      refine List.pairwise_cons.mpr ⟨?_, ih (h.mono hsub) hs.2⟩
      intro w hw
      rcases List.mem_cons.mp ((insertBack_perm x ys).subset hw) with rfl | hw
      · rw [Bool.eq_false_iff]
        intro hyx
        have := h.trans y hy w hx y hy hyx hxy
        simp [h.irrefl y hy] at this
      · exact hs.1 w hw
    · rename_i hxy
      refine List.pairwise_cons.mpr ⟨?_, List.pairwise_cons.mpr hs⟩
      intro w hw
      rcases List.mem_cons.mp hw with rfl | hw
      · exact Bool.eq_false_iff.mpr hxy
      · rw [Bool.eq_false_iff]
        intro hxw
        have hw' : w ∈ x :: y :: ys := List.mem_cons_of_mem _ (List.mem_cons_of_mem _ hw)
        rcases h.between x hx y hy w hw' hxw with h' | h'
        · exact hxy h'
        · simp [hs.1 w hw] at h'

/-- The elements of `xs` inserted one after the other. -/
def insertBacks (less : α → α → Bool) (xs sorted : List α) : List α :=
  xs.foldl (fun sorted x => insertBack less x sorted) sorted

theorem insertBacks_perm : ∀ xs sorted : List α, (insertBacks less xs sorted).Perm (xs ++ sorted)
  | [], _ => .refl _
  | x :: xs, sorted =>
    (insertBacks_perm xs (insertBack less x sorted)).trans
      (((insertBack_perm x sorted).append_left xs).trans List.perm_middle)

theorem insertBacks_sorted {sorted : List α} (h : StrictWeakOn less (xs ++ sorted))
    (hs : sorted.Pairwise fun a b => less a b = false) :
    (insertBacks less xs sorted).Pairwise fun a b => less a b = false := by
  induction xs generalizing sorted with
  | nil => exact hs
  | cons x xs ih =>
    have hmiddle : (xs ++ x :: sorted).Perm (x :: xs ++ sorted) := List.perm_middle
    have hinsert : (xs ++ insertBack less x sorted).Perm (x :: xs ++ sorted) :=
      ((insertBack_perm x sorted).append_left xs).trans hmiddle
    have hlast : x :: sorted ⊆ x :: xs ++ sorted := fun a ha =>
      hmiddle.subset (List.mem_append_right xs ha)
    exact ih (h.mono hinsert.subset) (insertBack_sorted (h.mono hlast) hs)

/-- The sort that inserts the elements one after the other, from the first one on. -/
def SliceSort.insertion : SliceSort where
  slice less xs := (insertBacks less xs []).reverse
  perm less xs := by
    have h : (insertBacks less xs []).Perm (xs ++ []) := insertBacks_perm xs []
    rw [List.append_nil] at h
    exact (List.reverse_perm _).trans h
  sorted less xs h := by
    rw [List.pairwise_reverse]
    exact insertBacks_sorted (by simpa using h) .nil

end
