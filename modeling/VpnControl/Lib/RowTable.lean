import VpnControl.Lib.Table
import Mathlib.Data.List.Perm.Basic
import Mathlib.Data.List.Sort

/-- A table of a relational database: rows in no particular order, of which no two have the same
primary key, or the same value in a unique column. -/
structure RowTable {κ ι ρ : Type} (key : ρ → κ) (unique : ρ → ι) where
  rows : List ρ := []
  nodup_key : (rows.map key).Nodup := by exact List.nodup_nil
  nodup_unique : (rows.map unique).Nodup := by exact List.nodup_nil

namespace RowTable
variable {κ ι ρ α : Type} {key : ρ → κ} {unique : ρ → ι}

/-- What a query that takes one row may take. -/
def First (rows : List ρ) : Option ρ → Prop
  | none => rows = []
  | some r => r ∈ rows

/-- The rows in an order; those that are equal in it are in any. -/
structure OrderedBy (le : ρ → ρ → Prop) (rows out : List ρ) : Prop where
  perm : out.Perm rows
  sorted : out.Pairwise le

/-- A row is inserted, or takes the place of the one with its primary key; not if another row has
its value in the unique column. -/
def merge [DecidableEq κ] [DecidableEq ι] (t : RowTable key unique) (r : ρ) : Option (RowTable key unique) :=
  if h : ∀ s ∈ t.rows, unique s = unique r → key s = key r then
    some
      { rows := r :: t.rows.filter (key · ≠ key r)
        nodup_key := by
          rw [List.map_cons, List.nodup_cons]
          refine ⟨fun hmem => ?_, t.nodup_key.sublist (List.filter_sublist.map _)⟩
          obtain ⟨s, hs, hkey⟩ := List.mem_map.mp hmem
          simp [hkey] at hs
        nodup_unique := by
          rw [List.map_cons, List.nodup_cons]
          refine ⟨fun hmem => ?_, t.nodup_unique.sublist (List.filter_sublist.map _)⟩
          obtain ⟨s, hs, hunique⟩ := List.mem_map.mp hmem
          rw [List.mem_filter] at hs
          simp [h s hs.1 hunique] at hs }
  else none

def delete (t : RowTable key unique) (p : ρ → Bool) : RowTable key unique where
  rows := t.rows.filter fun r => !p r
  nodup_key := t.nodup_key.sublist (List.filter_sublist.map _)
  nodup_unique := t.nodup_unique.sublist (List.filter_sublist.map _)

/-- The rows that match are changed, but for their primary key and the unique column. -/
def update (t : RowTable key unique) (p : ρ → Bool) (f : ρ → ρ)
    (hf : ∀ r, key (f r) = key r ∧ unique (f r) = unique r) : RowTable key unique where
  rows := t.rows.map fun r => if p r then f r else r
  nodup_key := by
    rw [List.map_map, show key ∘ (fun r => if p r then f r else r) = key from funext fun r => ?_]
    · exact t.nodup_key
    · rw [Function.comp_apply]
      split
      · exact (hf r).1
      · rfl
  nodup_unique := by
    rw [List.map_map, show unique ∘ (fun r => if p r then f r else r) = unique from funext fun r => ?_]
    · exact t.nodup_unique
    · rw [Function.comp_apply]
      split
      · exact (hf r).2
      · rfl

/-- A row of a new key, with a new value in the unique column, is inserted. -/
theorem merge_new [DecidableEq κ] [DecidableEq ι] {t : RowTable key unique} {r : ρ}
    (hkey : ∀ s ∈ t.rows, key s ≠ key r) (hunique : ∀ s ∈ t.rows, unique s ≠ unique r) :
    ∃ t', t.merge r = some t' ∧ t'.rows = r :: t.rows := by
  refine ⟨_, dif_pos fun s hs hsame => absurd hsame (hunique s hs), ?_⟩
  exact congrArg (r :: ·) (List.filter_eq_self.mpr fun s hs => decide_eq_true (hkey s hs))

/-- The rows of a table are those of some values. -/
def Encoded (encode : α → ρ) (values : List α) (rows : List ρ) : Prop :=
  rows.Perm (values.map encode)

section Encoded
variable {encode : α → ρ} {decode : ρ → Option α} {values : List α} {rows : List ρ} {p : α → Bool}
  {q : ρ → Bool}

theorem Encoded.select (h : Encoded encode values rows) (hq : ∀ v, q (encode v) = p v) :
    Encoded encode (values.filter p) (rows.filter q) := by
  have hfilter := h.filter q
  rwa [List.filter_map, show q ∘ encode = p from funext hq] at hfilter

theorem Encoded.countP (h : Encoded encode values rows) (hq : ∀ v, q (encode v) = p v) :
    rows.countP q = values.countP p := by
  rw [h.countP_eq, List.countP_map, show q ∘ encode = p from funext hq]

/-- Of rows one of which at most can match, a query takes that one. -/
theorem Encoded.first_iff (h : Encoded encode values rows) (hq : ∀ v, q (encode v) = p v)
    (hone : ∀ v ∈ values, ∀ w ∈ values, p v = true → p w = true → v = w) {r : Option ρ} :
    First (rows.filter q) r ↔ r = (values.find? p).map encode := by
  have hselect := h.select hq
  cases hfind : values.find? p with
  | none =>
    have hnil : values.filter p = [] := List.filter_eq_nil_iff.mpr (List.find?_eq_none.mp hfind)
    rw [Encoded, hnil, List.map_nil] at hselect
    rw [hselect.eq_nil]
    cases r with
    | none => exact ⟨fun _ => rfl, fun _ => rfl⟩
    | some r => exact ⟨fun hr => (List.not_mem_nil hr).elim, fun hr => by cases hr⟩
  | some v =>
    have hv : v ∈ values.filter p :=
      List.mem_filter.mpr ⟨List.mem_of_find?_eq_some hfind, List.find?_some hfind⟩
    cases r with
    | none =>
      refine ⟨fun hr => ?_, fun hr => by cases hr⟩
      rw [Encoded, show rows.filter q = [] from hr] at hselect
      rw [List.map_eq_nil_iff.mp hselect.symm.eq_nil] at hv
      exact (List.not_mem_nil hv).elim
    | some r =>
      have hmem : First (rows.filter q) (some r) ↔ ∃ w ∈ values.filter p, encode w = r := by
        rw [First, hselect.mem_iff, List.mem_map]
      rw [hmem, Option.map_some, Option.some_inj]
      constructor
      · rintro ⟨w, hw, rfl⟩
        rw [List.mem_filter] at hv hw
        rw [hone w hw.1 v hv.1 hw.2 hv.2]
      · rintro rfl
        exact ⟨v, hv, rfl⟩

/-- An order in which no two of the rows are equal leaves one list. -/
theorem Encoded.orderedBy_iff {le : ρ → ρ → Prop} {sorted : List α} {out : List ρ}
    (h : Encoded encode values rows) (hperm : sorted.Perm values)
    (hsorted : (sorted.map encode).Pairwise le)
    (hone : ∀ v ∈ values, ∀ w ∈ values, le (encode v) (encode w) → le (encode w) (encode v) → v = w) :
    OrderedBy le rows out ↔ out = sorted.map encode := by
  have hrows : (sorted.map encode).Perm rows := (hperm.map encode).trans h.symm
  constructor
  · intro hout
    refine (hout.perm.trans hrows.symm).eq_of_pairwise ?_ hout.sorted hsorted
    intro r s hr hs hrs hsr
    obtain ⟨v, hv, rfl⟩ := List.mem_map.mp ((hout.perm.trans hrows.symm).subset hr)
    obtain ⟨w, hw, rfl⟩ := List.mem_map.mp hs
    rw [hone v (hperm.subset hv) w (hperm.subset hw) hrs hsr]
  · rintro rfl
    exact ⟨hrows, hsorted⟩

/-- The rows are read back as the values. -/
theorem mapM_decode (hdecode : ∀ v ∈ values, decode (encode v) = some v) :
    (values.map encode).mapM decode = some values := by
  induction values with
  | nil => rfl
  | cons v values ih =>
    rw [List.map_cons, List.mapM_cons, hdecode v List.mem_cons_self,
      ih fun w hw => hdecode w (List.mem_cons_of_mem v hw)]
    rfl

theorem Encoded.delete {t : RowTable key unique} (h : Encoded encode values t.rows)
    (hq : ∀ v, q (encode v) = p v) :
    Encoded encode (values.filter fun v => !p v) (t.delete q).rows :=
  h.select fun v => congrArg not (hq v)

theorem Encoded.update {t : RowTable key unique} (h : Encoded encode values t.rows) {f : ρ → ρ}
    (hf : ∀ r, key (f r) = key r ∧ unique (f r) = unique r) {g : α → α}
    (hg : ∀ v ∈ values, encode (g v) = if q (encode v) then f (encode v) else encode v) :
    Encoded encode (values.map g) (t.update q f hf).rows := by
  have hmap := h.map fun r => if q r then f r else r
  rw [List.map_map] at hmap
  refine hmap.trans (List.Perm.of_eq ?_)
  rw [List.map_map]
  exact List.map_congr_left fun v hv => (hg v hv).symm

end Encoded

section Writes
variable {κ' : Type} [DecidableEq κ'] {encode : α → ρ} {values : List α} {t : RowTable key unique}
  {v : α} {key' : α → κ'}

/-- A value with a new place in a table of values: the others, and it. -/
theorem putValues_perm {values : List α} (h : (values.map key').Nodup) (v : α) :
    (Table.putValues key' v values).Perm (v :: values.filter (key' · ≠ key' v)) := by
  induction values with
  | nil => rfl
  | cons x xs ih =>
    rw [List.map_cons, List.nodup_cons] at h
    rw [Table.putValues]
    by_cases hx : key' x = key' v
    · have hothers : xs.filter (key' · ≠ key' v) = xs := by
        refine List.filter_eq_self.mpr fun y hy => decide_eq_true fun hkey => h.1 ?_
        rw [hx, ← hkey]
        exact List.mem_map_of_mem hy
      rw [if_pos hx, List.filter_cons_of_neg (by simpa using hx), hothers]
    · rw [if_neg hx, List.filter_cons_of_pos (by simpa using hx)]
      exact ((ih h.2).cons x).trans (.swap v x _)

/-- What a merge leaves when a value is put in the place of those with its key. -/
theorem Encoded.merge [DecidableEq κ] [DecidableEq ι] (h : Encoded encode values t.rows) (hnodup : (values.map key').Nodup)
    (hkey : ∀ w ∈ values, key (encode w) = key (encode v) ↔ key' w = key' v)
    (hunique : ∀ w ∈ values, unique (encode w) = unique (encode v) → key' w = key' v) :
    ∃ t', t.merge (encode v) = some t' ∧
      Encoded encode (Table.putValues key' v values) t'.rows := by
  have hfree : ∀ s ∈ t.rows, unique s = unique (encode v) → key s = key (encode v) := by
    intro s hs hsame
    obtain ⟨w, hw, rfl⟩ := List.mem_map.mp (h.subset hs)
    exact (hkey w hw).mpr (hunique w hw hsame)
  refine ⟨_, dif_pos hfree, ?_⟩
  have hothers : (t.rows.filter (key · ≠ key (encode v))).Perm
      ((values.filter (key' · ≠ key' v)).map encode) := by
    refine (h.filter _).trans (List.Perm.of_eq ?_)
    rw [List.filter_map]
    congr 1
    refine List.filter_congr fun w hw => ?_
    simp [hkey w hw]
  exact (hothers.cons (encode v)).trans ((putValues_perm hnodup v).map encode).symm

/-- A value in the place of the one with its key. -/
theorem putValues_eq_map {values : List α} {w : α} (h : (values.map key').Nodup) (hw : w ∈ values)
    (hkey : key' v = key' w) :
    Table.putValues key' v values = values.map fun x => if key' x = key' w then v else x := by
  induction values with
  | nil => cases hw
  | cons x xs ih =>
    rw [List.map_cons, List.nodup_cons] at h
    rw [Table.putValues, List.map_cons, hkey]
    by_cases hx : key' x = key' w
    · have hothers : xs.map (fun x => if key' x = key' w then v else x) = xs := by
        refine (List.map_congr_left fun y hy => if_neg fun hy' => h.1 ?_).trans (List.map_id' xs)
        rw [hx, ← hy']
        exact List.mem_map_of_mem hy
      rw [if_pos hx, if_pos hx, hothers]
    · rcases List.mem_cons.mp hw with rfl | hw
      · exact absurd rfl hx
      · rw [if_neg hx, if_neg hx, ih h.2 hw]

end Writes
end RowTable
