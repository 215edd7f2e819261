import Mathlib.Data.List.DropRight

namespace Trim

variable {α : Type*} {p : α → Bool} {a b l w : List α} {c : α}

/-- `l` without the elements satisfying `p` at its two ends. -/
def trim (p : α → Bool) (l : List α) : List α := (l.dropWhile p).rdropWhile p

/-- There is nothing to remove at either end. -/
def Trimmed (p : α → Bool) (l : List α) : Prop := trim p l = l

@[simp] theorem trim_nil : trim p [] = [] := by simp [trim]

theorem dropWhile_append_cons (hc : p c = false) :
    (a ++ c :: w).dropWhile p = a.dropWhile p ++ c :: w := by
  induction a with
  | nil => simp [hc]
  | cons x a ih =>
    by_cases hx : p x
    · simpa [hx] using ih
    · simp [hx]

theorem rdropWhile_append_cons (hc : p c = false) :
    (a ++ c :: w).rdropWhile p = a ++ c :: w.rdropWhile p := by
  simp only [List.rdropWhile, List.reverse_append, List.reverse_cons, List.append_assoc,
    List.singleton_append]
  rw [dropWhile_append_cons hc]
  simp

/-- Trimming does not reach past an element that is kept. -/
theorem trim_append_cons (hc : p c = false) :
    trim p (a ++ c :: w) = a.dropWhile p ++ c :: w.rdropWhile p := by
  rw [trim, dropWhile_append_cons hc, rdropWhile_append_cons hc]

theorem trim_eq_nil_of_all (h : ∀ x ∈ l, p x = true) : trim p l = [] := by
  have hd : l.dropWhile p = [] := by simpa using h
  rw [trim, hd, List.rdropWhile_nil]

/-- A list is removed altogether, or has a first element that is kept. -/
theorem all_or_split (p : α → Bool) (l : List α) :
    (∀ x ∈ l, p x = true) ∨ ∃ a c w, l = a ++ c :: w ∧ p c = false := by
  by_cases h : ∀ x ∈ l, p x = true
  · exact .inl h
  · push Not at h
    obtain ⟨c, hc, hp⟩ := h
    obtain ⟨a, w, rfl⟩ := List.append_of_mem hc
    exact .inr ⟨a, c, w, rfl, by simpa using hp⟩

theorem trim_dropWhile (p : α → Bool) (l : List α) : trim p (l.dropWhile p) = trim p l := by
  rw [trim, List.dropWhile_idempotent, trim]

theorem trim_rdropWhile (p : α → Bool) (l : List α) : trim p (l.rdropWhile p) = trim p l := by
  rcases all_or_split p l with h | ⟨a, c, w, rfl, hc⟩
  · have hr : l.rdropWhile p = [] := by simpa using h
    rw [hr, trim_nil, trim_eq_nil_of_all h]
  · rw [rdropWhile_append_cons hc, trim_append_cons hc, trim_append_cons hc,
      List.rdropWhile_idempotent]

theorem trimmed_trim (p : α → Bool) (l : List α) : Trimmed p (trim p l) := by
  change trim p ((l.dropWhile p).rdropWhile p) = trim p l
  rw [trim_rdropWhile, trim_dropWhile]

theorem mem_of_mem_trim (h : c ∈ trim p l) : c ∈ l :=
  (List.dropWhile_sublist p).mem ((List.rdropWhile_prefix p _).sublist.mem h)

theorem trimmed_of_forall (h : ∀ x ∈ l, p x = false) : Trimmed p l := by
  have hd : l.dropWhile p = l := by
    rw [List.dropWhile_eq_self_iff]
    exact fun hl => by simp [h _ (List.getElem_mem hl)]
  have hr : l.rdropWhile p = l := by
    rw [List.rdropWhile_eq_self_iff]
    exact fun hl => by simp [h _ (List.getLast_mem hl)]
  rw [Trimmed, trim, hd, hr]

theorem trimmed_of_ends (hhead : ∀ x ∈ l.head?, p x = false) (hlast : ∀ x ∈ l.getLast?, p x = false) :
    Trimmed p l := by
  have hd : l.dropWhile p = l := by
    cases l with
    | nil => rfl
    | cons x l => exact List.dropWhile_cons_of_neg (by simp [hhead x rfl])
  have hr : l.rdropWhile p = l := by
    rw [List.rdropWhile_eq_self_iff]
    exact fun hl => by simp [hlast _ (List.getLast?_eq_some_getLast hl)]
  rw [Trimmed, trim, hd, hr]

/-- A kept element at each end is all that trimmed means. -/
theorem trimmed_cons_concat (hc : p c = false) {d : α} (hd : p d = false) :
    Trimmed p (c :: w ++ [d]) := by
  have h := trim_append_cons (p := p) (a := []) (w := w ++ [d]) hc
  rw [List.rdropWhile_concat_neg _ _ _ (by simp [hd])] at h
  simpa [Trimmed] using h

theorem Trimmed.rdropWhile (h : Trimmed p l) : l.rdropWhile p = l := by
  rcases all_or_split p l with hall | ⟨a, c, w, rfl, hc⟩
  · have hl : l = [] := by rw [← h, trim_eq_nil_of_all hall]
    simp [hl]
  · rw [Trimmed, trim_append_cons hc] at h
    rw [rdropWhile_append_cons hc]
    have hlen := congrArg List.length h
    simp only [List.length_append, List.length_cons] at hlen
    have h₁ := (List.dropWhile_sublist (l := a) p).length_le
    have h₂ := (List.rdropWhile_prefix p w).length_le
    rw [(List.rdropWhile_prefix p w).eq_of_length (by omega)]

theorem Trimmed.dropWhile (h : Trimmed p l) : l.dropWhile p = l := by
  have hlen := congrArg List.length (h : trim p l = l)
  have h₁ := (List.dropWhile_sublist (l := l) p).length_le
  have h₂ := (List.rdropWhile_prefix p (l.dropWhile p)).length_le
  rw [trim] at hlen
  exact (List.dropWhile_sublist p).eq_of_length (by omega)

/-- A trimmed nonempty list stays as it is behind an element that is kept. -/
theorem trimmed_cons (hc : p c = false) (hne : l ≠ []) (hl : Trimmed p l) :
    Trimmed p (c :: a ++ l) := by
  obtain ⟨x, hx⟩ : ∃ x, l.getLast? = some x := by
    cases h : l.getLast? with
    | none => exact absurd (List.getLast?_eq_none_iff.mp h) hne
    | some x => exact ⟨x, rfl⟩
  obtain ⟨l', rfl⟩ := List.getLast?_eq_some_iff.mp hx
  have hpx : p x = false := by
    by_contra hp
    have h := hl.rdropWhile
    rw [List.rdropWhile_concat_pos _ _ _ (by simpa using hp)] at h
    have := congrArg List.length h
    have := (List.rdropWhile_prefix p l').length_le
    simp only [List.length_append, List.length_singleton] at *
    omega
  rw [← List.append_assoc]
  exact trimmed_cons_concat (w := a ++ l') hc hpx

/-- A smaller set of elements to remove leaves a trimmed list as it is, too. -/
theorem Trimmed.rdropWhile_of_imp {q : α → Bool} (h : Trimmed p l) (hq : ∀ x, q x → p x) :
    l.rdropWhile q = l := by
  induction l using List.reverseRecOn with
  | nil => rfl
  | append_singleton l x _ =>
    apply List.rdropWhile_concat_neg
    intro hx
    have hr := h.rdropWhile
    rw [List.rdropWhile_concat_pos _ _ _ (hq x hx)] at hr
    have hlen := congrArg List.length hr
    have := (List.rdropWhile_prefix p l).length_le
    simp only [List.length_append, List.length_singleton] at hlen
    omega

section Cut
variable [DecidableEq α]

/-- The part before the first `c` and the part after it. -/
def cut (c : α) : List α → Option (List α × List α)
  | [] => none
  | x :: xs => if x = c then some ([], xs) else (cut c xs).map fun r => (x :: r.1, r.2)

theorem cut_append_cons (h : c ∉ a) : cut c (a ++ c :: w) = some (a, w) := by
  induction a with
  | nil => simp [cut]
  | cons x a ih =>
    rw [List.mem_cons, not_or] at h
    simp [cut, Ne.symm h.1, ih h.2]

theorem cut_append (h : c ∉ a) (w : List α) :
    cut c (a ++ w) = (cut c w).map fun r => (a ++ r.1, r.2) := by
  induction a with
  | nil => simp
  | cons d a ih =>
    rw [List.mem_cons, not_or] at h
    rw [List.cons_append, cut, if_neg (Ne.symm h.1), ih h.2, Option.map_map]
    rfl

theorem cut_eq_none (h : c ∉ l) : cut c l = none := by
  induction l with
  | nil => rfl
  | cons x l ih =>
    rw [List.mem_cons, not_or] at h
    simp [cut, Ne.symm h.1, ih h.2]

theorem cut_eq_some {r : List α × List α} (h : cut c l = some r) :
    l = r.1 ++ c :: r.2 ∧ c ∉ r.1 := by
  by_cases hc : c ∈ l
  · obtain ⟨a, w, rfl, ha⟩ := List.eq_append_cons_of_mem hc
    rw [cut_append_cons ha, Option.some.injEq] at h
    subst h
    exact ⟨rfl, ha⟩
  · rw [cut_eq_none hc] at h
    cases h

end Cut

/-- Lines, each ended by `c`. -/
def unlines (c : α) (ls : List (List α)) : List α := ls.flatMap (· ++ [c])

@[simp] theorem unlines_nil : unlines c [] = [] := rfl

@[simp] theorem unlines_cons (ls : List (List α)) : unlines c (l :: ls) = l ++ c :: unlines c ls := by
  simp [unlines]

theorem unlines_append (ls ms : List (List α)) :
    unlines c (ls ++ ms) = unlines c ls ++ unlines c ms := by
  simp [unlines]

theorem splitOn_unlines [DecidableEq α] (ls : List (List α)) (h : ∀ l ∈ ls, c ∉ l) :
    (unlines c ls).splitOn c = ls ++ [[]] := by
  induction ls with
  | nil => simp
  | cons l ls ih =>
    rw [unlines_cons, List.splitOn_append_cons_self_of_not_mem (h l (by simp)),
      ih fun m hm => h m (by simp [hm])]
    rfl

/-- A piece is made of elements of the list other than the separator. -/
theorem mem_splitOn [DecidableEq α] {l m : List α} (h : m ∈ l.splitOn c) : c ∉ m ∧ m ⊆ l := by
  by_cases hc : c ∈ l
  · obtain ⟨a, w, rfl, ha⟩ := List.eq_append_cons_of_mem hc
    rw [List.splitOn_append_cons_self_of_not_mem ha, List.mem_cons] at h
    rcases h with rfl | h
    · exact ⟨ha, List.subset_append_left m (c :: w)⟩
    · obtain ⟨hm, hs⟩ := mem_splitOn h
      exact ⟨hm, fun x hx => by simp [hs hx]⟩
  · rw [List.splitOn_eq_singleton hc, List.mem_singleton] at h
    subst h
    exact ⟨hc, List.Subset.refl m⟩
termination_by l.length

end Trim
