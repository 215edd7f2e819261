import VpnControl.Lib.BitPrefix
import Mathlib.Data.Finset.Card
import Mathlib.Order.Interval.Finset.Nat

namespace BitPrefix

variable {w : Nat}

/-- The addresses that share their leading bits with one address. -/
structure Block (w : Nat) where
  base : BitVec w
  bits : Nat
  bits_le : bits ≤ w
  deriving DecidableEq

namespace Block

def Contains (b : Block w) (x : BitVec w) : Prop := Agree b.bits b.base x

instance (b : Block w) (x : BitVec w) : Decidable (b.Contains x) :=
  inferInstanceAs (Decidable (Agree b.bits b.base x))

def size (b : Block w) : Nat := 2 ^ (w - b.bits)

/-- All of a block lies in another. -/
def Within (b c : Block w) : Prop := c.bits ≤ b.bits ∧ Agree c.bits c.base b.base

instance (b c : Block w) : Decidable (b.Within c) :=
  inferInstanceAs (Decidable (c.bits ≤ b.bits ∧ Agree c.bits c.base b.base))

theorem Within.contains {b c : Block w} (h : b.Within c) {x : BitVec w} (hx : b.Contains x) :
    c.Contains x :=
  h.2.trans (Agree.mono hx h.1 b.bits_le)

/-- Blocks that share an address are nested. -/
theorem within_or_within {b c : Block w} {x : BitVec w} (hb : b.Contains x) (hc : c.Contains x) :
    b.Within c ∨ c.Within b := by
  rcases Nat.le_total c.bits b.bits with h | h
  · exact .inl ⟨h, hc.trans (Agree.mono hb h b.bits_le).symm⟩
  · exact .inr ⟨h, hb.trans (Agree.mono hc h c.bits_le).symm⟩

/-- The addresses of a block as numbers. -/
def range (b : Block w) : Finset Nat :=
  Finset.Ico (mask b.bits b.base).toNat ((mask b.bits b.base).toNat + b.size)

theorem mem_range {b : Block w} {x : BitVec w} : x.toNat ∈ b.range ↔ b.Contains x := by
  rw [range, Finset.mem_Ico, Contains, size, ← agree_iff_range]
  exact ⟨Agree.symm, Agree.symm⟩

theorem card_range (b : Block w) : b.range.card = b.size := by simp [range]

theorem lt_of_mem_range {b : Block w} {n : Nat} (h : n ∈ b.range) : n < 2 ^ w := by
  rw [range, Finset.mem_Ico] at h
  exact h.2.trans_le (mask_add_le b.bits_le b.base)

/-- Blocks of which none lies in the other have no address in common. -/
def Apart (b c : Block w) : Prop := ¬b.Within c ∧ ¬c.Within b

theorem Apart.disjoint {b c : Block w} (h : b.Apart c) : Disjoint b.range c.range := by
  rw [Finset.disjoint_left]
  intro n hb hc
  have hn : (BitVec.ofNat w n).toNat = n := Nat.mod_eq_of_lt (lt_of_mem_range hb)
  rw [← hn, mem_range] at hb hc
  rcases within_or_within hb hc with h' | h'
  · exact h.1 h'
  · exact h.2 h'

end Block

/-- The blocks that do not lie in another one, each once. -/
def outermost : List (Block w) → List (Block w)
  | [] => []
  | b :: blocks =>
    if (outermost blocks).any (b.Within ·) then outermost blocks
    else b :: (outermost blocks).filter (¬·.Within b)

/-- The number of addresses of the outermost blocks. -/
def total (blocks : List (Block w)) : Nat := ((outermost blocks).map Block.size).sum

theorem outermost_subset (blocks : List (Block w)) : outermost blocks ⊆ blocks := by
  induction blocks with
  | nil => simp [outermost]
  | cons b blocks ih =>
    rw [outermost]
    split
    · exact fun c hc => List.mem_cons_of_mem _ (ih hc)
    · intro c hc
      rcases List.mem_cons.mp hc with rfl | hc
      · exact List.mem_cons_self
      · exact List.mem_cons_of_mem _ (ih (List.mem_of_mem_filter hc))

theorem exists_outermost {blocks : List (Block w)} {b : Block w} (h : b ∈ blocks) :
    ∃ c ∈ outermost blocks, b.Within c := by
  have hself : ∀ b : Block w, b.Within b := fun b => ⟨Nat.le_refl _, .refl _ _⟩
  have htrans : ∀ {b c d : Block w}, b.Within c → c.Within d → b.Within d :=
    fun h h' => ⟨h'.1.trans h.1, h'.2.trans (Agree.mono h.2 h'.1 (Block.bits_le _))⟩
  induction blocks with
  | nil => cases h
  | cons a blocks ih =>
    rw [outermost]
    split
    · rename_i hany
      rcases List.mem_cons.mp h with rfl | h
      · simpa using hany
      · exact ih h
    · rcases List.mem_cons.mp h with rfl | h
      · exact ⟨b, List.mem_cons_self, hself b⟩
      · obtain ⟨c, hc, hbc⟩ := ih h
        by_cases hca : c.Within a
        · exact ⟨a, List.mem_cons_self, htrans hbc hca⟩
        · exact ⟨c, List.mem_cons_of_mem _ (List.mem_filter.mpr ⟨hc, by simpa using hca⟩), hbc⟩

theorem pairwise_outermost (blocks : List (Block w)) :
    (outermost blocks).Pairwise Block.Apart := by
  induction blocks with
  | nil => exact .nil
  | cons b blocks ih =>
    rw [outermost]
    split
    · exact ih
    · rename_i hany
      refine .cons (fun c hc => ?_) (ih.sublist List.filter_sublist)
      obtain ⟨hmem, hnot⟩ := List.mem_filter.mp hc
      exact ⟨fun h => hany (List.any_eq_true.mpr ⟨c, hmem, by simpa using h⟩), by simpa using hnot⟩

/-- The addresses of all blocks. -/
def union (blocks : List (Block w)) : Finset Nat := blocks.foldr (fun b s => b.range ∪ s) ∅

theorem mem_union {blocks : List (Block w)} {n : Nat} :
    n ∈ union blocks ↔ ∃ b ∈ blocks, n ∈ b.range := by
  induction blocks with
  | nil => simp [union]
  | cons b blocks ih => simp [union, ← ih]

theorem card_union {blocks : List (Block w)} (h : blocks.Pairwise Block.Apart) :
    (union blocks).card = (blocks.map Block.size).sum := by
  induction blocks with
  | nil => rfl
  | cons b blocks ih =>
    obtain ⟨hb, hrest⟩ := List.pairwise_cons.mp h
    have hdisjoint : Disjoint b.range (union blocks) := by
      rw [Finset.disjoint_left]
      intro n hn hmem
      obtain ⟨c, hc, hnc⟩ := mem_union.mp hmem
      exact Finset.disjoint_left.mp (hb c hc).disjoint hn hnc
    have hcons : union (b :: blocks) = b.range ∪ union blocks := rfl
    rw [hcons, Finset.card_union_of_disjoint hdisjoint, Block.card_range, ih hrest, List.map_cons,
      List.sum_cons]

/-- Blocks leave an address out exactly when the outermost of them have together fewer
addresses than there are. -/
theorem total_lt_iff (blocks : List (Block w)) :
    total blocks < 2 ^ w ↔ ∃ x : BitVec w, ∀ b ∈ blocks, ¬b.Contains x := by
  have hsubset : union (outermost blocks) ⊆ Finset.range (2 ^ w) := by
    intro n hn
    obtain ⟨b, -, hb⟩ := mem_union.mp hn
    exact Finset.mem_range.mpr (Block.lt_of_mem_range hb)
  rw [total, ← card_union (pairwise_outermost blocks)]
  constructor
  · intro hlt
    rw [← Finset.card_range (2 ^ w)] at hlt
    obtain ⟨n, hn, hout⟩ := Finset.exists_mem_notMem_of_card_lt_card hlt
    have hnat : (BitVec.ofNat w n).toNat = n := Nat.mod_eq_of_lt (Finset.mem_range.mp hn)
    refine ⟨BitVec.ofNat w n, fun b hb hcontains => hout ?_⟩
    obtain ⟨c, hc, hbc⟩ := exists_outermost hb
    have hmem := Block.mem_range.mpr (hbc.contains hcontains)
    rw [hnat] at hmem
    exact mem_union.mpr ⟨c, hc, hmem⟩
  · rintro ⟨x, hx⟩
    have hout : x.toNat ∉ union (outermost blocks) := by
      intro hmem
      obtain ⟨b, hb, hxb⟩ := mem_union.mp hmem
      exact hx b (outermost_subset blocks hb) (Block.mem_range.mp hxb)
    have hss : union (outermost blocks) ⊂ Finset.range (2 ^ w) :=
      Finset.ssubset_iff_subset_ne.mpr ⟨hsubset, fun heq =>
        hout (heq ▸ Finset.mem_range.mpr x.isLt)⟩
    simpa using Finset.card_lt_card hss

end BitPrefix
