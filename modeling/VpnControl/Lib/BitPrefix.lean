import Mathlib.Tactic.Ring
import Mathlib.Data.Nat.Basic

namespace BitPrefix

variable {w n m : Nat} {a b c x : BitVec w}

/-- The number that the leading `n` bits of `a` form. -/
def top (n : Nat) (a : BitVec w) : Nat := a.toNat / 2 ^ (w - n)

/-- `a` and `b` have the same leading `n` bits. -/
def Agree (n : Nat) (a b : BitVec w) : Prop := top n a = top n b

instance : Decidable (Agree n a b) := inferInstanceAs (Decidable (top n a = top n b))

/-- `a` with all but its leading `n` bits cleared. -/
def mask (n : Nat) (a : BitVec w) : BitVec w := BitVec.ofNat w (top n a * 2 ^ (w - n))

theorem Agree.refl (n : Nat) (a : BitVec w) : Agree n a a := rfl

theorem Agree.symm (h : Agree n a b) : Agree n b a := Eq.symm h

theorem Agree.trans (h : Agree n a b) (h' : Agree n b c) : Agree n a c := Eq.trans h h'

theorem top_of_le (h : n ≤ m) (hm : m ≤ w) (a : BitVec w) :
    top n a = top m a / 2 ^ (m - n) := by
  rw [top, top, Nat.div_div_eq_div_mul, ← pow_add, show w - m + (m - n) = w - n by omega]

theorem Agree.mono (hab : Agree m a b) (h : n ≤ m) (hm : m ≤ w) : Agree n a b := by
  rw [Agree, top_of_le h hm, top_of_le h hm, hab]

/-- Two prefixes meet exactly when they agree as far as the shorter one reaches. -/
theorem agree_min_iff (hn : n ≤ w) (hm : m ≤ w) :
    Agree (min n m) a b ↔ ∃ x, Agree n x a ∧ Agree m x b := by
  constructor
  · intro h
    rcases Nat.le_total n m with hnm | hmn
    · rw [Nat.min_eq_left hnm] at h
      exact ⟨b, h.symm, .refl m b⟩
    · rw [Nat.min_eq_right hmn] at h
      exact ⟨a, .refl n a, h⟩
  · rintro ⟨x, hxa, hxb⟩
    have hl := hxa.mono (Nat.min_le_left n m) hn
    have hr := hxb.mono (Nat.min_le_right n m) hm
    exact hl.symm.trans hr

theorem top_mul_le (n : Nat) (a : BitVec w) : top n a * 2 ^ (w - n) ≤ a.toNat :=
  Nat.div_mul_le_self _ _

theorem mask_toNat (n : Nat) (a : BitVec w) : (mask n a).toNat = top n a * 2 ^ (w - n) := by
  rw [mask, BitVec.toNat_ofNat, Nat.mod_eq_of_lt]
  exact (top_mul_le n a).trans_lt a.isLt

/-- The addresses that share `n` leading bits with `a` are the block of `2 ^ (w - n)`
addresses that starts at `mask n a`. -/
theorem agree_iff_range :
    Agree n x a ↔
      (mask n a).toNat ≤ x.toNat ∧ x.toNat < (mask n a).toNat + 2 ^ (w - n) := by
  rw [mask_toNat, Agree, top, Nat.div_eq_iff (Nat.two_pow_pos _)]
  have hpos : 0 < 2 ^ (w - n) := Nat.two_pow_pos _
  omega

/-- The block of a prefix lies below `2 ^ w`. -/
theorem mask_add_le (hn : n ≤ w) (a : BitVec w) :
    (mask n a).toNat + 2 ^ (w - n) ≤ 2 ^ w := by
  have hlt : top n a < 2 ^ n := by
    rw [top, Nat.div_lt_iff_lt_mul (Nat.two_pow_pos _), ← pow_add, Nat.add_sub_cancel' hn]
    exact a.isLt
  calc (mask n a).toNat + 2 ^ (w - n)
      = (top n a + 1) * 2 ^ (w - n) := by rw [mask_toNat]; ring
    _ ≤ 2 ^ n * 2 ^ (w - n) := Nat.mul_le_mul_right _ hlt
    _ = 2 ^ w := by rw [← pow_add, Nat.add_sub_cancel' hn]

end BitPrefix
