import VpnControl.Lib.Table

/-! A table filled from lists of entries: each entry changes the record of its key, which is
made first when there is none. -/

namespace Table
variable {κ α β γ : Type} [DecidableEq κ] {key : α → κ} {new : κ → α} {keyOf : β → κ}
  {f : β → α → α} {t : Table key} {k l : κ}

def upsert (t : Table key) (new : κ → α) (k : κ) (change : α → α) : Table key :=
  t.put (change ((t.get k).getD (new k)))

def upsertAll (t : Table key) (new : κ → α) (keyOf : β → κ) (f : β → α → α) (es : List β) :
    Table key :=
  es.foldl (fun t e => t.upsert new (keyOf e) (f e)) t

/-- The entries with a key. -/
def entriesOf (keyOf : β → κ) (es : List β) (k : κ) : List β := es.filter (keyOf · = k)

theorem key_getD_get (hnew : ∀ k, key (new k) = k) : key ((t.get k).getD (new k)) = k := by
  cases h : t.get k with
  | none => exact hnew k
  | some v => exact key_of_get h

theorem get_upsert {change : α → α} (hnew : ∀ k, key (new k) = k)
    (hchange : ∀ v, key (change v) = key v) :
    (t.upsert new k change).get l =
      if l = k then some (change ((t.get k).getD (new k))) else t.get l := by
  rw [upsert, get_put, hchange, key_getD_get hnew]

/-- The record of a key after all entries: those with the key have changed it in order. -/
theorem getD_upsertAll (hnew : ∀ k, key (new k) = k) (hf : ∀ e v, key (f e v) = key v)
    (es : List β) :
    ((t.upsertAll new keyOf f es).get k).getD (new k) =
      (entriesOf keyOf es k).foldl (fun v e => f e v) ((t.get k).getD (new k)) := by
  induction es generalizing t with
  | nil => rfl
  | cons e es ih =>
    rw [upsertAll, List.foldl_cons, ← upsertAll, ih, get_upsert hnew (hf e), entriesOf,
      entriesOf]
    by_cases h : k = keyOf e
    · subst h
      simp
    · rw [if_neg h, List.filter_cons_of_neg (by simpa using Ne.symm h)]

theorem isSome_get_upsertAll (hnew : ∀ k, key (new k) = k) (hf : ∀ e v, key (f e v) = key v)
    (es : List β) :
    ((t.upsertAll new keyOf f es).get k).isSome = true ↔
      (t.get k).isSome = true ∨ k ∈ es.map keyOf := by
  induction es generalizing t with
  | nil => simp [upsertAll]
  | cons e es ih =>
    rw [upsertAll, List.foldl_cons, ← upsertAll, ih, get_upsert hnew (hf e), List.map_cons,
      List.mem_cons]
    by_cases h : k = keyOf e
    · simp [h]
    · simp [h]

theorem entriesOf_eq_nil_iff {es : List β} : entriesOf keyOf es k = [] ↔ k ∉ es.map keyOf := by
  simp [entriesOf]

end Table

/-- What every step overwrites is in the end what the last step wrote. -/
theorem List.foldl_overwrites {α β γ : Type} {f : α → β → α} {π : α → γ} {g : β → γ}
    (hf : ∀ v e, π (f v e) = g e) (es : List β) (v : α) :
    π (es.foldl f v) = (es.getLast?.map g).getD (π v) := by
  induction es generalizing v with
  | nil => rfl
  | cons e es ih =>
    rw [List.foldl_cons, ih, hf, List.getLast?_cons]
    cases es.getLast? <;> rfl

/-- What no step writes is in the end what it was. -/
theorem List.foldl_keeps {α β γ : Type} {f : α → β → α} {π : α → γ}
    (hf : ∀ v e, π (f v e) = π v) (es : List β) (v : α) : π (es.foldl f v) = π v := by
  induction es generalizing v with
  | nil => rfl
  | cons e es ih => rw [List.foldl_cons, ih, hf]

/-- What some steps write is in the end what the last of these wrote. -/
theorem List.foldl_sometimes {α β γ : Type} {f : α → β → α} {π : α → γ} {g : β → Option γ}
    (hf : ∀ v e, π (f v e) = (g e).getD (π v)) (es : List β) (v : α) :
    π (es.foldl f v) = ((es.filterMap g).getLast?).getD (π v) := by
  induction es generalizing v with
  | nil => rfl
  | cons e es ih =>
    rw [List.foldl_cons, ih, hf]
    cases h : g e with
    | none => rw [List.filterMap_cons_none h]; rfl
    | some y =>
      rw [List.filterMap_cons_some h, List.getLast?_cons]
      cases (es.filterMap g).getLast? <;> rfl
