import VpnControl.Awg.NetipText

namespace VpnControl.Netip
open Trim

section Group

theorem hexDigit_digitChar {d : Nat} (h : d < 16) : hexDigit (digitChar d) = some d := by
  have hall : ∀ k < 16, hexDigit (digitChar k) = some k := by
    simp only [digitChar_eq]
    decide
  exact hall d h

theorem digitChar_ne_colon {d : Nat} (h : d < 16) : digitChar d ≠ ':' := by
  have hall : ∀ k < 16, digitChar k ≠ ':' := by
    simp only [digitChar_eq]
    decide
  exact hall d h

theorem hexGroup_digit {off acc d : Nat} (hd : d < 16) (hoff : off ≤ 3) (hacc : acc * 16 + d < 65536)
    (s : Text) : hexGroup off acc (digitChar d :: s) = hexGroup (off + 1) (acc * 16 + d) s := by
  rw [hexGroup, hexDigit_digitChar hd]
  simp only
  rw [if_neg (by omega), if_neg (by omega)]

/-- No hexadecimal digit comes first. -/
def GroupEnd (s : Text) : Prop := ∀ c ∈ s.head?, hexDigit c = none

theorem hexGroup_end {s : Text} (h : GroupEnd s) (off acc : Nat) :
    hexGroup off acc s = some (off, acc, s) := by
  cases s with
  | nil => rfl
  | cons c s => rw [hexGroup, h c (by simp)]

/-- A group is read as far as it was written. -/
theorem hexGroup_appendHex {x : Nat} (hx : x < 65536) {rest : Text} (hrest : GroupEnd rest) :
    ∃ off, off ≠ 0 ∧ hexGroup 0 0 (appendHex x ++ rest) = some (off, x, rest) := by
  have h₀ : x % 16 < 16 := Nat.mod_lt _ (by decide)
  have h₁ : x / 0x10 % 16 < 16 := Nat.mod_lt _ (by decide)
  have h₂ : x / 0x100 % 16 < 16 := Nat.mod_lt _ (by decide)
  have h₃ : x / 0x1000 < 16 := by omega
  rw [appendHex]
  by_cases hbig : 0x1000 ≤ x
  · refine ⟨4, by decide, ?_⟩
    simp only [hbig, show 0x100 ≤ x by omega, show 0x10 ≤ x by omega, if_true,
      List.cons_append, List.nil_append]
    rw [hexGroup_digit h₃ (by omega) (by omega), hexGroup_digit h₂ (by omega) (by omega),
      hexGroup_digit h₁ (by omega) (by omega), hexGroup_digit h₀ (by omega) (by omega),
      hexGroup_end hrest]
    congr 3
    omega
  by_cases hmid : 0x100 ≤ x
  · refine ⟨3, by decide, ?_⟩
    simp only [hbig, hmid, show 0x10 ≤ x by omega, if_true, if_false,
      List.cons_append, List.nil_append]
    rw [hexGroup_digit h₂ (by omega) (by omega), hexGroup_digit h₁ (by omega) (by omega),
      hexGroup_digit h₀ (by omega) (by omega), hexGroup_end hrest]
    congr 3
    omega
  by_cases hlow : 0x10 ≤ x
  · refine ⟨2, by decide, ?_⟩
    simp only [hbig, hmid, hlow, if_true, if_false, List.cons_append, List.nil_append]
    rw [hexGroup_digit h₁ (by omega) (by omega), hexGroup_digit h₀ (by omega) (by omega),
      hexGroup_end hrest]
    congr 3
    omega
  · refine ⟨1, by decide, ?_⟩
    simp only [hbig, hmid, hlow, if_false, List.cons_append, List.nil_append]
    rw [hexGroup_digit h₀ (by omega) (by omega), hexGroup_end hrest]
    congr 3
    omega

end Group

section Groups

/-- Groups of 16 bits, joined by colons. -/
def hexList (gs : List Nat) : Text := [':'].intercalate (gs.map appendHex)

def groupBytes (gs : List Nat) : List Nat := gs.flatMap fun g => [g / 256, g % 256]

theorem hexList_cons_cons (g h : Nat) (gs : List Nat) :
    hexList (g :: h :: gs) = appendHex g ++ ':' :: hexList (h :: gs) := by
  simp [hexList]

theorem hexList_head {g : Nat} (hg : g < 65536) (gs : List Nat) :
    ∃ d w, d < 16 ∧ hexList (g :: gs) = digitChar d :: w := by
  have hhex : ∃ d w, d < 16 ∧ appendHex g = digitChar d :: w := by
    rw [appendHex]
    split
    · exact ⟨_, _, by omega, rfl⟩
    · split
      · exact ⟨_, _, Nat.mod_lt _ (by decide), rfl⟩
      · split
        · exact ⟨_, _, Nat.mod_lt _ (by decide), rfl⟩
        · exact ⟨_, _, Nat.mod_lt _ (by decide), rfl⟩
  obtain ⟨d, w, hd, hw⟩ := hhex
  cases gs with
  | nil => exact ⟨d, w, hd, by simpa [hexList] using hw⟩
  | cons h gs => exact ⟨d, _, hd, by rw [hexList_cons_cons, hw, List.cons_append]⟩

variable {ip : List Nat} {ellipsis : Option Nat} {n g : Nat}

theorem groupEnd_nil : GroupEnd [] := by simp [GroupEnd]

theorem groupEnd_colon (s : Text) : GroupEnd (':' :: s) := by
  intro c hc
  rw [List.head?_cons, Option.mem_some] at hc
  rw [← hc]
  rfl

theorem parseIPv6Groups_last (hg : g < 65536) :
    parseIPv6Groups ip ellipsis (n + 1) (appendHex g) =
      some (ip ++ [g / 256, g % 256], ellipsis, []) := by
  obtain ⟨off, hoff, hgroup⟩ := hexGroup_appendHex hg groupEnd_nil
  rw [List.append_nil] at hgroup
  rw [parseIPv6Groups, hgroup]
  simp [hoff]

theorem parseIPv6Groups_colon (hg : g < 65536) {c : Char} (hc : c ≠ ':') (s : Text) :
    parseIPv6Groups ip ellipsis (n + 1) (appendHex g ++ ':' :: c :: s) =
      parseIPv6Groups (ip ++ [g / 256, g % 256]) ellipsis n (c :: s) := by
  obtain ⟨off, hoff, hgroup⟩ := hexGroup_appendHex hg (groupEnd_colon (c :: s))
  rw [parseIPv6Groups, hgroup]
  simp only [Option.bind_eq_bind, Option.bind_some, hoff, if_false]
  split
  · rename_i heq
    simp at heq
  · rename_i heq
    simp at heq
  · rename_i heq
    simp at heq
  · rename_i heq
    simp [hc] at heq
  · rename_i heq
    simp [hc] at heq
  · rename_i heq
    cases heq
    rfl
  · rename_i hne heq
    cases heq
    exact (hne rfl).elim

theorem parseIPv6Groups_ellipsis (hg : g < 65536) {c : Char} (s : Text) :
    parseIPv6Groups ip none (n + 1) (appendHex g ++ ':' :: ':' :: c :: s) =
      parseIPv6Groups (ip ++ [g / 256, g % 256]) (some (ip ++ [g / 256, g % 256]).length) n
        (c :: s) := by
  obtain ⟨off, hoff, hgroup⟩ := hexGroup_appendHex hg (groupEnd_colon (':' :: c :: s))
  rw [parseIPv6Groups, hgroup]
  simp [hoff]

theorem parseIPv6Groups_ellipsis_last (hg : g < 65536) :
    parseIPv6Groups ip none (n + 1) (appendHex g ++ [':', ':']) =
      some (ip ++ [g / 256, g % 256], some (ip ++ [g / 256, g % 256]).length, []) := by
  obtain ⟨off, hoff, hgroup⟩ := hexGroup_appendHex hg (groupEnd_colon [':'])
  rw [parseIPv6Groups, hgroup]
  simp [hoff]

/-- All groups up to the end of the text. -/
theorem parseIPv6Groups_hexList {gs : List Nat} (hne : gs ≠ []) (hgs : ∀ g ∈ gs, g < 65536)
    (hn : gs.length ≤ n) :
    parseIPv6Groups ip ellipsis n (hexList gs) = some (ip ++ groupBytes gs, ellipsis, []) := by
  induction gs generalizing ip n with
  | nil => exact absurd rfl hne
  | cons g gs ih =>
    obtain ⟨m, rfl⟩ : ∃ m, n = m + 1 := ⟨n - 1, by simp at hn; omega⟩
    have hg := hgs g (by simp)
    cases gs with
    | nil =>
      have hone : hexList [g] = appendHex g := by simp [hexList]
      rw [hone, parseIPv6Groups_last hg]
      simp [groupBytes]
    | cons h gs =>
      obtain ⟨d, w, hd, hw⟩ := hexList_head (hgs h (by simp)) gs
      rw [hexList_cons_cons, hw, parseIPv6Groups_colon hg (digitChar_ne_colon hd), ← hw,
        ih (by simp) (fun k hk => hgs k (List.mem_cons_of_mem _ hk)) (by simpa using hn)]
      simp [groupBytes]

/-- The groups before `::`, with others behind it. -/
theorem parseIPv6Groups_before {gs ks : List Nat} (hne : gs ≠ []) (hgs : ∀ g ∈ gs, g < 65536)
    (hks : ∀ k ∈ ks, k < 65536) (hn : gs.length + ks.length ≤ n) :
    parseIPv6Groups ip none n (hexList gs ++ ':' :: ':' :: hexList ks) =
      some (ip ++ groupBytes gs ++ groupBytes ks, some (ip ++ groupBytes gs).length, []) := by
  induction gs generalizing ip n with
  | nil => exact absurd rfl hne
  | cons g gs ih =>
    obtain ⟨m, rfl⟩ : ∃ m, n = m + 1 := ⟨n - 1, by simp at hn; omega⟩
    have hg := hgs g (by simp)
    cases gs with
    | nil =>
      have hone : hexList [g] = appendHex g := by simp [hexList]
      cases ks with
      | nil =>
        have hnil : hexList [] = [] := rfl
        rw [hone, hnil, parseIPv6Groups_ellipsis_last hg]
        simp [groupBytes]
      | cons k ks =>
        obtain ⟨d, w, hd, hw⟩ := hexList_head (hks k (by simp)) ks
        rw [hone, hw, parseIPv6Groups_ellipsis hg, ← hw,
          parseIPv6Groups_hexList (by simp) hks
            (by simp only [List.length_cons, List.length_nil] at hn ⊢; omega)]
        simp [groupBytes]
    | cons h gs =>
      obtain ⟨d, w, hd, hw⟩ := hexList_head (hgs h (by simp)) gs
      rw [hexList_cons_cons, hw, List.append_assoc, List.cons_append, List.cons_append,
        parseIPv6Groups_colon hg (digitChar_ne_colon hd), ← List.cons_append, ← hw,
        ih (by simp) (fun k hk => hgs k (List.mem_cons_of_mem _ hk))
          (by simp only [List.length_cons] at hn ⊢; omega)]
      simp [groupBytes]

end Groups

section Address
variable (a : BitVec 128)

theorem group_lt (i : Nat) : group a i < 65536 := Nat.mod_lt _ (by decide)

theorem hexGroups_eq (is : List Nat) : hexGroups a is = hexList (is.map (group a)) := by
  rw [hexGroups, hexList, List.map_map]
  rfl

/-- The leading groups as one number. -/
theorem ofBytes_groups {k : Nat} (hk : k ≤ 8) :
    ofBytes (groupBytes ((List.range k).map (group a))) = a.toNat / 65536 ^ (8 - k) := by
  induction k with
  | zero =>
    have hlt := a.isLt
    rw [Nat.div_eq_of_lt (by simpa using hlt)]
    rfl
  | succ k ih =>
    have hsplit : groupBytes ((List.range (k + 1)).map (group a)) =
        groupBytes ((List.range k).map (group a)) ++ [group a k / 256, group a k % 256] := by
      simp [groupBytes, List.range_succ]
    have hdiv : a.toNat / 65536 ^ (8 - k) = a.toNat / 65536 ^ (8 - (k + 1)) / 65536 := by
      rw [Nat.div_div_eq_div_mul, ← Nat.pow_succ]
      congr 2
      omega
    have hgroup : group a k = a.toNat / 65536 ^ (8 - (k + 1)) % 65536 := by
      rw [group]
      congr 3
      omega
    rw [hsplit, ofBytes, List.foldl_append, ← ofBytes, ih (by omega), hdiv, hgroup]
    simp only [List.foldl_cons, List.foldl_nil]
    omega

theorem zeroRun_le {i : Nat} (hi : i ≤ 8) : i + zeroRun a i ≤ 8 := by
  have h := (List.takeWhile_prefix (fun j => group a j == 0) (l := List.range' i (8 - i))).length_le
  rw [List.length_range'] at h
  rw [zeroRun]
  omega

theorem group_zeroRun {i m : Nat} (hi : i ≤ m) (hm : m < i + zeroRun a i) : group a m = 0 := by
  have hlen : m - i < ((List.range' i (8 - i)).takeWhile fun j => group a j == 0).length := by
    rw [zeroRun] at hm
    omega
  have hmem := List.mem_takeWhile_imp (List.getElem_mem hlen)
  rw [(List.takeWhile_prefix _).getElem hlen, List.getElem_range'] at hmem
  rw [show i + 1 * (m - i) = m by omega] at hmem
  simpa using hmem

/-- The run that `::` stands for is two or more groups of zeros. -/
structure IsRun (r : Nat × Nat) : Prop where
  two_le : r.1 + 2 ≤ r.2
  le : r.2 ≤ 8
  zero : ∀ m, r.1 ≤ m → m < r.2 → group a m = 0

theorem longestRun_isRun {r : Nat × Nat} (h : longestRun a = some r) : IsRun a r := by
  have hfold : ∀ is : List Nat, (∀ i ∈ is, i ≤ 8) → ∀ best : Option (Nat × Nat),
      (∀ r, best = some r → IsRun a r) → ∀ r, is.foldl (fun best i =>
        let l := zeroRun a i
        if 2 ≤ l ∧ (best.map fun r => r.2 - r.1).getD 0 < l then some (i, i + l) else best) best =
          some r → IsRun a r := by
    intro is
    induction is with
    | nil => exact fun _ best hbest => hbest
    | cons i is ih =>
      intro his best hbest
      refine ih (fun k hk => his k (List.mem_cons_of_mem _ hk)) _ fun r hr => ?_
      simp only at hr
      split at hr
      · rename_i hlong
        rw [Option.some.injEq] at hr
        subst hr
        exact ⟨by simpa using hlong.1, zeroRun_le a (his i (by simp)),
          fun m hm hlt => group_zeroRun a hm hlt⟩
      · exact hbest r hr
  exact hfold _ (fun i hi => by simp at hi; omega) none (by simp) r h

theorem length_groupBytes (gs : List Nat) : (groupBytes gs).length = 2 * gs.length := by
  induction gs with
  | nil => rfl
  | cons g gs ih =>
    simp only [groupBytes, List.flatMap_cons, List.length_append, List.length_cons,
      List.length_nil] at ih ⊢
    omega

theorem groupBytes_append (gs ks : List Nat) :
    groupBytes (gs ++ ks) = groupBytes gs ++ groupBytes ks := List.flatMap_append

theorem groupBytes_zeros (n : Nat) :
    groupBytes (List.replicate n 0) = List.replicate (2 * n) 0 := by
  induction n with
  | zero => rfl
  | succ n ih =>
    rw [List.replicate_succ, groupBytes, List.flatMap_cons, ← groupBytes, ih]
    rfl

/-- The groups around a run, with zeros between them, are all groups. -/
theorem expandEllipsis_run {i j : Nat} (h : IsRun a (i, j)) :
    expandEllipsis (groupBytes ((List.range i).map (group a)) ++
        groupBytes ((List.range' j (8 - j)).map (group a)))
      (some (groupBytes ((List.range i).map (group a))).length) =
      some (groupBytes ((List.range 8).map (group a))) := by
  have h₁ : i + 2 ≤ j := h.two_le
  have h₂ : j ≤ 8 := h.le
  have hzero : (List.range' i (j - i)).map (group a) = List.replicate (j - i) 0 := by
    rw [List.eq_replicate_iff]
    refine ⟨by simp, fun b hb => ?_⟩
    obtain ⟨m, hm, rfl⟩ := List.mem_map.mp hb
    rw [List.mem_range'_1] at hm
    exact h.zero m hm.1 (by simp only; omega)
  have hall : (List.range 8).map (group a) = (List.range i).map (group a) ++
      List.replicate (j - i) 0 ++ (List.range' j (8 - j)).map (group a) := by
    rw [← hzero, ← List.map_append, ← List.map_append]
    congr 1
    rw [List.range_eq_range', List.range_eq_range', List.append_assoc]
    have hback : List.range' i (j - i) ++ List.range' j (8 - j) = List.range' i (8 - i) := by
      have := List.range'_append_1 (s := i) (m := j - i) (n := 8 - j)
      rw [show i + (j - i) = j by omega, show j - i + (8 - j) = 8 - i by omega] at this
      exact this
    rw [hback]
    have := List.range'_append_1 (s := 0) (m := i) (n := 8 - i)
    rw [show 0 + i = i by omega, show i + (8 - i) = 8 by omega] at this
    exact this.symm
  have hlen : (groupBytes ((List.range i).map (group a)) ++
      groupBytes ((List.range' j (8 - j)).map (group a))).length = 2 * i + 2 * (8 - j) := by
    simp [length_groupBytes]
  rw [expandEllipsis, hlen, if_pos (by omega), List.take_left, List.drop_left, hall,
    groupBytes_append, groupBytes_append, groupBytes_zeros,
    show 16 - (2 * i + 2 * (8 - j)) = 2 * (j - i) by omega]

theorem mem_appendHex {x : Nat} (hx : x < 65536) {c : Char} (h : c ∈ appendHex x) :
    ∃ d < 16, c = digitChar d := by
  rw [appendHex] at h
  simp only [List.mem_append, List.mem_singleton] at h
  rcases h with ((h | h) | h) | h
  · split at h
    · exact ⟨_, by omega, List.mem_singleton.mp h⟩
    · cases h
  · split at h
    · exact ⟨_, Nat.mod_lt _ (by decide), List.mem_singleton.mp h⟩
    · cases h
  · split at h
    · exact ⟨_, Nat.mod_lt _ (by decide), List.mem_singleton.mp h⟩
    · cases h
  · exact ⟨_, Nat.mod_lt _ (by decide), h⟩

theorem mem_hexList {gs : List Nat} (hgs : ∀ g ∈ gs, g < 65536) {c : Char} (h : c ∈ hexList gs) :
    c = ':' ∨ ∃ d < 16, c = digitChar d := by
  induction gs with
  | nil => cases h
  | cons g gs ih =>
    cases gs with
    | nil =>
      have hone : hexList [g] = appendHex g := by simp [hexList]
      rw [hone] at h
      exact .inr (mem_appendHex (hgs g (by simp)) h)
    | cons k gs =>
      rw [hexList_cons_cons, List.mem_append, List.mem_cons] at h
      rcases h with h | h | h
      · exact .inr (mem_appendHex (hgs g (by simp)) h)
      · exact .inl h
      · exact ih (fun m hm => hgs m (List.mem_cons_of_mem _ hm)) h

theorem groups_lt (is : List Nat) : ∀ g ∈ is.map (group a), g < 65536 := by
  intro g hg
  obtain ⟨i, -, rfl⟩ := List.mem_map.mp hg
  exact group_lt a i

/-- An IPv6 address is written with hexadecimal digits and colons, and a colon is among them. -/
theorem mem_string6 {c : Char} (h : c ∈ string6 a) : c = ':' ∨ ∃ d < 16, c = digitChar d := by
  rw [string6] at h
  split at h
  · rw [hexGroups_eq] at h
    exact mem_hexList (groups_lt a _) h
  · rw [hexGroups_eq, hexGroups_eq] at h
    simp only [List.mem_append] at h
    rcases h with (h | h) | h
    · exact mem_hexList (groups_lt a _) h
    · exact .inl (by simpa [lit_eq] using h)
    · exact mem_hexList (groups_lt a _) h

theorem colon_mem_string6 : ':' ∈ string6 a := by
  rw [string6]
  split
  · rw [hexGroups_eq, show List.range 8 = 0 :: 1 :: List.range' 2 6 from rfl, List.map_cons,
      List.map_cons, hexList_cons_cons]
    simp
  · simp [lit_eq]

theorem notMem_string6 {c : Char} (hcolon : c ≠ ':')
    (hdigit : c ∉ ['0', '1', '2', '3', '4', '5', '6', '7', '8', '9', 'a', 'b', 'c', 'd', 'e', 'f']) :
    c ∉ string6 a := by
  intro h
  rcases mem_string6 a h with h | ⟨d, hd, h⟩
  · exact hcolon h
  · rw [digitChar_eq, List.getD_eq_getElem?_getD, List.getElem?_eq_getElem (by simpa using hd),
      Option.getD_some] at h
    exact hdigit (h ▸ List.getElem_mem _)

theorem percent_notMem_string6 : '%' ∉ string6 a :=
  notMem_string6 a (by decide) (by decide)

theorem slash_notMem_string6 : '/' ∉ string6 a :=
  notMem_string6 a (by decide) (by decide)

/-- Reading an address that starts with a group. -/
theorem parseIPv6_groups {c : Char} {w : Text} (hc : c ≠ ':') (hp : '%' ∉ c :: w)
    {ip bytes : List Nat} {ellipsis : Option Nat}
    (hread : parseIPv6Groups [] none 8 (c :: w) = some (ip, ellipsis, []))
    (hexpand : expandEllipsis ip ellipsis = some bytes) :
    parseIPv6 (c :: w) = some (.v6 (BitVec.ofNat 128 (ofBytes bytes)) []) := by
  rw [parseIPv6, cut_eq_none hp]
  simp only [Option.bind_eq_bind, Option.bind_some]
  split
  · rename_i heq
    cases heq
    exact absurd rfl hc
  · rename_i heq
    cases heq
    exact absurd rfl hc
  · simp [hread, hexpand]

/-- Reading an address that starts with `::`. -/
theorem parseIPv6_leading {ks : List Nat} (hks : ∀ k ∈ ks, k < 65536) (hlen : ks.length ≤ 8)
    {bytes : List Nat} (hexpand : expandEllipsis (groupBytes ks) (some 0) = some bytes) :
    parseIPv6 (':' :: ':' :: hexList ks) = some (.v6 (BitVec.ofNat 128 (ofBytes bytes)) []) := by
  have hp : '%' ∉ ':' :: ':' :: hexList ks := by
    simp only [List.mem_cons, not_or]
    refine ⟨by decide, by decide, fun h => ?_⟩
    rcases mem_hexList hks h with h | ⟨d, hd, h⟩
    · exact absurd h (by decide)
    · have hall : ∀ k < 16, '%' ≠ digitChar k := by
        simp only [digitChar_eq]
        decide
      exact hall d hd h
  rw [parseIPv6, cut_eq_none hp]
  simp only [Option.bind_eq_bind, Option.bind_some]
  cases ks with
  | nil =>
    have hnil : hexList [] = [] := rfl
    rw [hnil]
    have hempty : expandEllipsis [] (some 0) = some bytes := hexpand
    simp [hempty]
  | cons k ks =>
    have hread : parseIPv6Groups [] (some 0) 8 (hexList (k :: ks)) =
        some ([] ++ groupBytes (k :: ks), some 0, []) :=
      parseIPv6Groups_hexList (by simp) hks hlen
    obtain ⟨d, w, hd, hw⟩ := hexList_head (hks k (by simp)) ks
    rw [hw] at hread ⊢
    simp [hread, hexpand]

/-- Every IPv6 address is read back from its text. -/
theorem parseIPv6_string6 : parseIPv6 (string6 a) = some (.v6 a []) := by
  have hpercent := percent_notMem_string6 a
  have hall : BitVec.ofNat 128 (ofBytes (groupBytes ((List.range 8).map (group a)))) = a := by
    rw [ofBytes_groups a (Nat.le_refl 8)]
    simp
  rw [string6] at hpercent ⊢
  -- without a run of zeros all eight groups are written, else `::` stands for the run
  cases hrun : longestRun a with
  | none =>
    simp only [hrun, hexGroups_eq] at hpercent ⊢
    have hexpand : expandEllipsis ([] ++ groupBytes ((List.range 8).map (group a))) none =
        some (groupBytes ((List.range 8).map (group a))) := by
      rw [expandEllipsis, if_neg (by simp [length_groupBytes])]
      rfl
    have hread : parseIPv6Groups [] none 8 (hexList ((List.range 8).map (group a))) =
        some ([] ++ groupBytes ((List.range 8).map (group a)), none, []) :=
      parseIPv6Groups_hexList (by simp) (groups_lt a _) (by simp)
    obtain ⟨d, w, hd, hw⟩ := hexList_head (group_lt a 0) ((List.range' 1 7).map (group a))
    have hw : hexList ((List.range 8).map (group a)) = digitChar d :: w := hw
    rw [hw] at hread hpercent ⊢
    rw [parseIPv6_groups (digitChar_ne_colon hd) hpercent hread hexpand, hall]
  | some r =>
    obtain ⟨i, j⟩ := r
    have hisRun := longestRun_isRun a hrun
    have h₁ : i + 2 ≤ j := hisRun.two_le
    have h₂ : j ≤ 8 := hisRun.le
    have hexpand := expandEllipsis_run a hisRun
    have hsep : lit "::" = [':', ':'] := by simp [lit_eq]
    simp only [hrun, hexGroups_eq, hsep] at hpercent ⊢
    cases i with
    | zero =>
      have hlead := parseIPv6_leading (groups_lt a (List.range' j (8 - j))) (by simp) hexpand
      rw [hall] at hlead
      exact hlead
    | succ i =>
      have hread : parseIPv6Groups [] none 8 (hexList ((List.range (i + 1)).map (group a)) ++
          ':' :: ':' :: hexList ((List.range' j (8 - j)).map (group a))) =
          some ([] ++ groupBytes ((List.range (i + 1)).map (group a)) ++
            groupBytes ((List.range' j (8 - j)).map (group a)),
            some ([] ++ groupBytes ((List.range (i + 1)).map (group a))).length, []) :=
        parseIPv6Groups_before (by simp) (groups_lt a _) (groups_lt a _) (by simp; omega)
      obtain ⟨d, w, hd, hw⟩ := hexList_head (group_lt a 0)
        ((List.range i).map (fun k => group a (k + 1)))
      have hgroups : (List.range (i + 1)).map (group a) =
          group a 0 :: (List.range i).map fun k => group a (k + 1) := by
        rw [List.range_succ_eq_map, List.map_cons, List.map_map]
        rfl
      rw [List.append_assoc, List.cons_append, List.cons_append, List.nil_append] at hpercent ⊢
      have hcons : hexList ((List.range (i + 1)).map (group a)) ++
          ':' :: ':' :: hexList ((List.range' j (8 - j)).map (group a)) =
          digitChar d :: (w ++ ':' :: ':' :: hexList ((List.range' j (8 - j)).map (group a))) := by
        rw [hgroups, hw, List.cons_append]
      rw [hcons] at hread hpercent ⊢
      rw [parseIPv6_groups (digitChar_ne_colon hd) hpercent hread hexpand, hall]

theorem find?_string6 (rest : Text) :
    (string6 a ++ rest).find? (fun c => c == '.' || c == ':' || c == '%') = some ':' := by
  have hspecial : ∀ c ∈ string6 a, (c == '.' || c == ':' || c == '%') = true → c = ':' := by
    intro c hc hp
    rcases mem_string6 a hc with h | ⟨d, hd, rfl⟩
    · exact h
    · have hall : ∀ k < 16, (digitChar k == '.' || digitChar k == ':' || digitChar k == '%') =
          false := by
        simp only [digitChar_eq]
        decide
      rw [hall d hd] at hp
      cases hp
  rw [List.find?_append]
  cases hfind : (string6 a).find? fun c => c == '.' || c == ':' || c == '%' with
  | none =>
    have := List.find?_eq_none.mp hfind ':' (colon_mem_string6 a)
    simp at this
  | some c =>
    have hp := List.find?_some hfind
    rw [hspecial c (List.mem_of_find?_eq_some hfind) hp]
    rfl

theorem parseAddr_string6 : parseAddr (string6 a) = some (.v6 a []) := by
  have hfind := find?_string6 a []
  rw [List.append_nil] at hfind
  rw [parseAddr, hfind]
  exact parseIPv6_string6 a

/-- An address with something behind a percent sign has a zone, if it is one at all. -/
theorem parseAddr_zone (zone : Text) {addr : Addr}
    (h : parseAddr (string6 a ++ '%' :: zone) = some addr) : addr.zone ≠ [] := by
  rw [parseAddr, find?_string6] at h
  simp only [parseIPv6, cut_append_cons (percent_notMem_string6 a)] at h
  cases zone with
  | nil => simp at h
  | cons c zone =>
    simp only [Option.bind_eq_bind, Option.bind_some] at h
    have hzone : ∀ read : Option (List Nat × Option Nat × Text), (read.bind fun r =>
        if r.2.2 ≠ [] then none
        else (expandEllipsis r.1 r.2.1).map fun bytes =>
          Addr.v6 (BitVec.ofNat 128 (ofBytes bytes)) (c :: zone)) = some addr → addr.zone ≠ [] := by
      intro read hread
      obtain ⟨r, -, hr⟩ := Option.bind_eq_some_iff.mp hread
      split at hr
      · cases hr
      · obtain ⟨bytes, -, rfl⟩ := Option.map_eq_some_iff.mp hr
        simp [Addr.zone]
    split at h
    · exact hzone (some ([], some 0, [])) h
    · exact hzone _ h
    · exact hzone _ h

end Address
end VpnControl.Netip
