import VpnControl.Lib.Json

namespace Json

/-- A value without what is below it. -/
def Doc.surface : Doc → Doc
  | .arr xs => .arr (xs.map fun _ => .null)
  | .obj ms => .obj (ms.map fun m => (m.1, .null))
  | value => value

/-- The values directly below a value, with their keys in an object. -/
def Doc.children : Doc → List (Option (List Char) × Doc)
  | .arr xs => xs.map fun x => (none, x)
  | .obj ms => ms.map fun m => (some m.1, m.2)
  | _ => []

/-- The value at the end of a path of positions, with the keys that the path goes through. -/
def Doc.follow (x : Doc) : List Nat → Option (List (List Char) × Doc)
  | [] => some ([], x)
  | i :: p => do
    let (k, y) ← x.children[i]?
    let (ks, z) ← y.follow p
    some (k.toList ++ ks, z)

/-- Two values agree at every path that goes through no hidden key. -/
def SameAbove (hidden : List Char → Bool) (x y : Doc) : Prop :=
  ∀ p ks v, x.follow p = some (ks, v) → (∀ k ∈ ks, hidden k = false) →
    ∃ w, y.follow p = some (ks, w) ∧ w.surface = v.surface

variable {x y v w z : Doc} {i : Nat} {p q : List Nat} {k : Option (List Char)}
  {ks : List (List Char)} {hidden : List Char → Bool}

theorem Doc.induct_children {P : Doc → Prop} (h : ∀ x, (∀ c ∈ x.children, P c.2) → P x) (x : Doc) :
    P x := by
  apply Doc.induct
  case null => exact h _ (by simp [Doc.children])
  case bool => exact fun b => h _ (by simp [Doc.children])
  case num => exact fun l => h _ (by simp [Doc.children])
  case str => exact fun s => h _ (by simp [Doc.children])
  case arr =>
    intro xs hxs
    apply h
    intro c hc
    obtain ⟨x, hx, rfl⟩ := List.mem_map.mp hc
    exact hxs x hx
  case obj =>
    intro ms hms
    apply h
    intro c hc
    obtain ⟨m, hm, rfl⟩ := List.mem_map.mp hc
    exact hms m hm

/-- A value is its surface with what is directly below it. -/
theorem Doc.ext_children (hs : x.surface = y.surface) (hc : x.children = y.children) : x = y := by
  cases x <;> cases y <;> simp_all [Doc.surface, Doc.children]
  case arr.arr xs ys => exact List.map_injective_iff.mpr (fun a b h => (Prod.mk.inj h).2) hc
  case obj.obj ms ns =>
    apply List.map_injective_iff.mpr ?_ hc
    rintro ⟨a, b⟩ ⟨c, d⟩ h
    simpa using h

theorem keys_of_surface (hs : x.surface = y.surface) :
    x.children.map (·.1) = y.children.map (·.1) := by
  cases x <;> cases y <;> simp_all [Doc.surface, Doc.children, Function.comp_def]
  case obj.obj ms ns =>
    have hkeys := congrArg (List.map fun m => some m.1) hs
    simpa [Function.comp_def] using hkeys

/-- Values with the same surface have children at the same places under the same keys. -/
theorem child_of_surface (hs : x.surface = y.surface) (h : x.children[i]? = some (k, v)) :
    ∃ w, y.children[i]? = some (k, w) := by
  have hkeys := congrArg (·[i]?) (keys_of_surface hs)
  simp only [List.getElem?_map, h, Option.map_some] at hkeys
  obtain ⟨⟨l, w⟩, hw, hl⟩ := Option.map_eq_some_iff.mp hkeys.symm
  exact ⟨w, by rw [hw, ← hl]⟩

@[simp] theorem follow_nil (x : Doc) : x.follow [] = some ([], x) := rfl

theorem follow_cons_eq_some :
    x.follow (i :: p) = some (ks, z) ↔
      ∃ k y ls, x.children[i]? = some (k, y) ∧ y.follow p = some (ls, z) ∧ ks = k.toList ++ ls := by
  simp only [Doc.follow, Option.bind_eq_bind, Option.bind_eq_some_iff, Prod.exists,
    Option.some.injEq, Prod.mk.injEq]
  constructor
  · rintro ⟨k, y, hy, ls, z', hz, rfl, rfl⟩
    exact ⟨k, y, ls, hy, hz, rfl⟩
  · rintro ⟨k, y, ls, hy, hz, rfl⟩
    exact ⟨k, y, hy, ls, z, hz, rfl, rfl⟩

theorem follow_child (h : x.children[i]? = some (k, v)) : x.follow [i] = some (k.toList, v) :=
  follow_cons_eq_some.mpr ⟨k, v, [], h, rfl, by simp⟩

theorem follow_append_child (hp : x.follow p = some (ks, y)) (hv : y.children[i]? = some (k, v)) :
    x.follow (p ++ [i]) = some (ks ++ k.toList, v) := by
  induction p generalizing x ks with
  | nil =>
    cases hp
    simpa using follow_child hv
  | cons j p ih =>
    obtain ⟨l, u, ls, hu, hy, rfl⟩ := follow_cons_eq_some.mp hp
    exact follow_cons_eq_some.mpr ⟨l, u, ls ++ k.toList, hu, ih hy, List.append_assoc _ _ _⟩

/-- One step of the agreement. -/
theorem sameAbove_iff :
    SameAbove hidden x y ↔ y.surface = x.surface ∧
      ∀ (i : Nat) (k : Option (List Char)) (v : Doc), x.children[i]? = some (k, v) →
        (∀ l ∈ k, hidden l = false) → ∃ w, y.children[i]? = some (k, w) ∧ SameAbove hidden v w := by
  constructor
  -- from paths to one level: the empty path and paths that begin with one child
  · intro h
    have hs : y.surface = x.surface := by
      obtain ⟨w, hw, hs⟩ := h [] [] x rfl (by simp)
      cases hw
      exact hs
    refine ⟨hs, fun i k v hv hk => ?_⟩
    obtain ⟨w, hw⟩ := child_of_surface hs.symm hv
    refine ⟨w, hw, fun p ks z hz hks => ?_⟩
    have hclean : ∀ l ∈ k.toList ++ ks, hidden l = false := by
      intro l hl
      rcases List.mem_append.mp hl with hl | hl
      · exact hk l (Option.mem_toList.mp hl)
      · exact hks l hl
    obtain ⟨u, hu, hus⟩ := h (i :: p) _ z (follow_cons_eq_some.mpr ⟨k, v, ks, hv, hz, rfl⟩) hclean
    obtain ⟨k', w', ls, hw', hu, hkeys⟩ := follow_cons_eq_some.mp hu
    obtain ⟨rfl, rfl⟩ : k = k' ∧ w = w' := by simpa [hw] using hw'
    exact ⟨u, by rw [hu, List.append_cancel_left hkeys], hus⟩
  -- and back, by the first step of the path
  · rintro ⟨hs, hchildren⟩ p ks z hz hclean
    cases p with
    | nil =>
      cases hz
      exact ⟨y, rfl, hs⟩
    | cons i p =>
      obtain ⟨k, v, ls, hv, hvz, rfl⟩ := follow_cons_eq_some.mp hz
      obtain ⟨w, hw, hsame⟩ := hchildren i k v hv fun l hl =>
        hclean l (List.mem_append_left _ (Option.mem_toList.mpr hl))
      obtain ⟨u, hu, hus⟩ := hsame p ls z hvz fun l hl => hclean l (List.mem_append_right _ hl)
      exact ⟨u, follow_cons_eq_some.mpr ⟨k, w, ls, hw, hu, rfl⟩, hus⟩

/-! ### Masks -/

/-- `f` puts a mark in the place of every value under a hidden key and leaves the rest. -/
structure Masks (hidden : List Char → Bool) (mark : Doc) (f : Doc → Doc) : Prop where
  mark_leaf : mark.children = []
  surface : ∀ x, (f x).surface = x.surface
  children : ∀ x, (f x).children =
    x.children.map fun c => (c.1, if c.1.any hidden then mark else f c.2)

namespace Masks
variable {mark : Doc} {f : Doc → Doc} (hf : Masks hidden mark f)
include hf

theorem child_of_clean (h : x.children[i]? = some (k, v)) (hk : ∀ l ∈ k, hidden l = false) :
    (f x).children[i]? = some (k, f v) := by
  have hany : k.any hidden = false := by
    cases k with
    | none => rfl
    | some l => exact hk l rfl
  simp [hf.children, h, hany]

theorem child_of_hidden {l : List Char} (h : x.children[i]? = some (some l, v))
    (hl : hidden l = true) : (f x).children[i]? = some (some l, mark) := by
  simp [hf.children, h, hl]

/-- A value at a path without hidden keys is masked at the same path. -/
theorem follow (h : x.follow p = some (ks, v)) (hclean : ∀ k ∈ ks, hidden k = false) :
    (f x).follow p = some (ks, f v) := by
  induction p generalizing x ks with
  | nil =>
    cases h
    rfl
  | cons i p ih =>
    obtain ⟨k, y, ls, hy, hv, rfl⟩ := follow_cons_eq_some.mp h
    have hk : ∀ l ∈ k, hidden l = false := fun l hl =>
      hclean l (List.mem_append_left _ (Option.mem_toList.mpr hl))
    exact follow_cons_eq_some.mpr ⟨k, f y, ls, hf.child_of_clean hy hk,
      ih hv fun l hl => hclean l (List.mem_append_right _ hl), rfl⟩

theorem sameAbove (x : Doc) : SameAbove hidden x (f x) := fun _ _ v hv hclean =>
  ⟨f v, hf.follow hv hclean, hf.surface v⟩

/-- Wherever a masked value has a hidden key, the mark is under it. -/
theorem hidden_mark {l : List Char} (h : (f x).follow p = some (ks, y))
    (hc : (some l, v) ∈ y.children) (hl : hidden l = true) : v = mark := by
  induction p generalizing x ks with
  | nil =>
    cases h
    rw [hf.children] at hc
    obtain ⟨⟨k, u⟩, -, hu⟩ := List.mem_map.mp hc
    obtain ⟨rfl, rfl⟩ := Prod.mk.inj hu
    simp [hl]
  | cons i p ih =>
    obtain ⟨k, u, ls, hu, hy, -⟩ := follow_cons_eq_some.mp h
    simp only [hf.children, List.getElem?_map, Option.map_eq_some_iff, Prod.mk.injEq] at hu
    obtain ⟨⟨k', u'⟩, -, -, rfl⟩ := hu
    split at hy
    · -- nothing is below the mark
      cases p with
      | nil =>
        cases hy
        simp [hf.mark_leaf] at hc
      | cons j p =>
        obtain ⟨_, _, _, hj, _⟩ := follow_cons_eq_some.mp hy
        simp [hf.mark_leaf] at hj
    · exact ih hy

/-- Masked values are the same exactly when the values agree above the hidden keys. -/
theorem eq_iff (x y : Doc) : f x = f y ↔ SameAbove hidden x y := by
  induction x using Doc.induct_children generalizing y with
  | h x ih =>
    rw [sameAbove_iff]
    constructor
    · intro h
      have hs : y.surface = x.surface := by rw [← hf.surface, ← h, hf.surface]
      refine ⟨hs, fun i k v hv hk => ?_⟩
      obtain ⟨w, hw⟩ := child_of_surface hs.symm hv
      have hchild := hf.child_of_clean hv hk
      rw [h, hf.child_of_clean hw hk] at hchild
      exact ⟨w, hw, (ih _ (List.mem_of_getElem? hv) w).mp (Prod.mk.inj (Option.some.inj hchild)).2.symm⟩
    · rintro ⟨hs, hchildren⟩
      apply Doc.ext_children
      · rw [hf.surface, hf.surface, hs]
      · apply List.ext_getElem?
        intro i
        rw [hf.children, hf.children, List.getElem?_map, List.getElem?_map]
        rcases hv : x.children[i]? with _ | ⟨k, v⟩
        · rcases hw : y.children[i]? with _ | ⟨k, w⟩
          · rfl
          · obtain ⟨v, hv'⟩ := child_of_surface hs hw
            simp [hv] at hv'
        · obtain ⟨w, hw⟩ := child_of_surface hs.symm hv
          rw [hw, Option.map_some, Option.map_some]
          by_cases hk : k.any hidden = true
          · simp [hk]
          · have hclean : ∀ l ∈ k, hidden l = false := by
              rintro l rfl
              simpa using hk
            obtain ⟨w', hw', hsame⟩ := hchildren i k v hv hclean
            obtain rfl : w = w' := by simpa [hw] using hw'
            simp only [hk, (ih _ (List.mem_of_getElem? hv) w).mpr hsame]

end Masks
end Json
