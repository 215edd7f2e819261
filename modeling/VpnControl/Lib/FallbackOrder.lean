import VpnControl.Lib.SliceSort
import Mathlib.Order.Defs.LinearOrder

/-! A comparison with two criteria: elements that both have a rank go by their ranks when
these differ, all others by their keys. -/

namespace FallbackOrder
variable {α κ ρ : Type} [LinearOrder κ] [LinearOrder ρ] (key : α → κ) (rank : α → Option ρ)

/-- `x` comes before `y`. -/
def Before (x y : α) : Prop :=
  (∃ a b, rank x = some a ∧ rank y = some b ∧ a < b) ∨
    (∀ a b, rank x = some a → rank y = some b → a = b) ∧ key x < key y

/-- An element without a rank has its key between those of two elements whose ranks are in the
other order than their keys. -/
def Crossed (xs : List α) : Prop :=
  ∃ x ∈ xs, ∃ n ∈ xs, ∃ y ∈ xs, key x < key n ∧ key n < key y ∧ rank n = none ∧
    ∃ a b, rank x = some a ∧ rank y = some b ∧ b < a

variable {key rank} {x y z : α} {a b : ρ} {xs : List α}

theorem before_of_none_left (hx : rank x = none) : Before key rank x y ↔ key x < key y := by
  simp [Before, hx]

theorem before_of_none_right (hy : rank y = none) : Before key rank x y ↔ key x < key y := by
  simp [Before, hy]

theorem before_of_some (hx : rank x = some a) (hy : rank y = some b) :
    Before key rank x y ↔ a < b ∨ a = b ∧ key x < key y := by
  simp [Before, hx, hy]

theorem before_irrefl (x : α) : ¬ Before key rank x x := by
  cases hx : rank x with
  | none => simp [before_of_none_left hx]
  | some a => simp [before_of_some hx hx]

/-- Elements with different keys are comparable. -/
theorem before_total (hne : key x ≠ key y) : Before key rank x y ∨ Before key rank y x := by
  have hkeys := lt_or_gt_of_ne hne
  cases hx : rank x with
  | none => simpa [before_of_none_left hx, before_of_none_right hx] using hkeys
  | some a =>
    cases hy : rank y with
    | none => simpa [before_of_none_left hy, before_of_none_right hy] using hkeys
    | some b =>
      rw [before_of_some hx hy, before_of_some hy hx]
      rcases lt_trichotomy a b with hab | hab | hab
      · exact .inl (.inl hab)
      · exact hkeys.imp (fun h => .inr ⟨hab, h⟩) fun h => .inr ⟨hab.symm, h⟩
      · exact .inr (.inl hab)

/-- On different keys the comparison is transitive as long as nothing is crossed. -/
theorem before_trans (hc : ¬ Crossed key rank xs) (hkey : ∀ x ∈ xs, ∀ y ∈ xs, key x = key y → x = y)
    (hx : x ∈ xs) (hy : y ∈ xs) (hz : z ∈ xs) (hxy : Before key rank x y)
    (hyz : Before key rank y z) : Before key rank x z := by
  cases rx : rank x with
  | none =>
    rw [before_of_none_left rx] at hxy ⊢
    cases ry : rank y with
    | none => exact hxy.trans ((before_of_none_left ry).mp hyz)
    | some b =>
      cases rz : rank z with
      | none => exact hxy.trans ((before_of_none_right rz).mp hyz)
      | some c =>
        -- were `x` not before `z`, its key would lie between those of `z` and `y`
        by_contra hxz
        have hne : key z ≠ key x := by
          intro h
          rw [hkey z hz x hx h, rx] at rz
          cases rz
        have hzx : key z < key x := lt_of_le_of_ne (not_lt.mp hxz) hne
        rcases (before_of_some ry rz).mp hyz with hbc | ⟨-, hkyz⟩
        · exact hc ⟨z, hz, x, hx, y, hy, hzx, hxy, rx, c, b, rz, ry, hbc⟩
        · exact hxz (hxy.trans hkyz)
  | some a =>
    cases ry : rank y with
    | none =>
      have hkxy := (before_of_none_right ry).mp hxy
      have hkyz := (before_of_none_left ry).mp hyz
      cases rz : rank z with
      | none => exact (before_of_none_right rz).mpr (hkxy.trans hkyz)
      | some c =>
        rw [before_of_some rx rz]
        rcases lt_trichotomy a c with hac | hac | hca
        · exact .inl hac
        · exact .inr ⟨hac, hkxy.trans hkyz⟩
        · exact absurd ⟨x, hx, y, hy, z, hz, hkxy, hkyz, ry, a, c, rx, rz, hca⟩ hc
    | some b =>
      cases rz : rank z with
      | none =>
        rw [before_of_none_right rz] at hyz ⊢
        by_contra hxz
        have hne : key z ≠ key x := by
          intro h
          rw [hkey z hz x hx h, rx] at rz
          cases rz
        have hzx : key z < key x := lt_of_le_of_ne (not_lt.mp hxz) hne
        rcases (before_of_some rx ry).mp hxy with hab | ⟨-, hkxy⟩
        · exact hc ⟨y, hy, z, hz, x, hx, hyz, hzx, rz, b, a, ry, rx, hab⟩
        · exact hxz (hkxy.trans hyz)
      | some c =>
        rw [before_of_some rx ry] at hxy
        rw [before_of_some ry rz] at hyz
        rw [before_of_some rx rz]
        rcases hxy with hab | ⟨rfl, hkxy⟩
        · rcases hyz with hbc | ⟨rfl, -⟩
          · exact .inl (hab.trans hbc)
          · exact .inl hab
        · rcases hyz with hac | ⟨rfl, hkyz⟩
          · exact .inl hac
          · exact .inr ⟨rfl, hkxy.trans hkyz⟩

/-- The comparison orders elements with different keys exactly when nothing is crossed. -/
theorem strictTotalOn_iff {less : α → α → Bool}
    (hless : ∀ x y, less x y = true ↔ Before key rank x y)
    (hkey : ∀ x ∈ xs, ∀ y ∈ xs, key x = key y → x = y) :
    StrictTotalOn less xs ↔ ¬ Crossed key rank xs := by
  constructor
  · rintro h ⟨x, hx, n, hn, y, hy, hxn, hny, rn, a, b, rx, ry, hba⟩
    have h1 : less x n = true := (hless x n).mpr ((before_of_none_right rn).mpr hxn)
    have h2 : less n y = true := (hless n y).mpr ((before_of_none_left rn).mpr hny)
    have h3 : less y x = true := (hless y x).mpr ((before_of_some ry rx).mpr (.inl hba))
    have hxx := h.trans x hx y hy x hx (h.trans x hx n hn y hy h1 h2) h3
    simp [h.irrefl x hx] at hxx
  · intro hc
    refine ⟨fun x _ => ?_, fun x hx y hy z hz hxy hyz => ?_, fun x hx y hy hne => ?_⟩
    · rw [Bool.eq_false_iff, Ne, hless]
      exact before_irrefl x
    · rw [hless] at hxy hyz ⊢
      exact before_trans hc hkey hx hy hz hxy hyz
    · rw [hless, hless]
      exact before_total fun h => hne (hkey x hx y hy h)

end FallbackOrder
