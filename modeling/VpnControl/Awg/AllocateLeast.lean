import VpnControl.Awg.Allocation

namespace VpnControl.Awg
open Strings Netip BitPrefix

section Machine

/-- `addrToUint32`. -/
def addrToUint32 (a : BitVec 32) : UInt32 := UInt32.ofBitVec a

/-- `uint32ToAddr`. -/
def uint32ToAddr (value : UInt32) : Addr := .v4 value.toBitVec

/-- The loop over the candidates in 64-bit words. -/
def firstFree64 (used : List Addr) (lastExclusive candidate : UInt64) : Option Addr :=
  if candidate < lastExclusive then
    let addr := uint32ToAddr candidate.toUInt32
    if addr ∉ used then some addr else firstFree64 used lastExclusive (candidate + 1)
  else none
termination_by lastExclusive.toNat - candidate.toNat
decreasing_by
  rename_i hlt _
  have hlt' : candidate.toNat < lastExclusive.toNat := UInt64.lt_iff_toNat_lt.mp hlt
  have hmax := lastExclusive.toNat_lt
  rw [UInt64.toNat_add, UInt64.toNat_one, Nat.mod_eq_of_lt (by omega)]
  omega

/-- `uint64(1) << uint(32-bits)`. -/
def subnetSize (bits : Nat) : UInt64 := 1 <<< (UInt64.ofNat (32 - bits))

def firstCandidate (network : UInt32) : UInt64 := network.toUInt64 + 1

def lastExclusive (network : UInt32) (size : UInt64) : UInt64 := network.toUInt64 + size - 1

/-- Allocation with the words that the program computes with. -/
def allocateIn64 (used : List Addr) (a : BitVec 32) (bits : Nat) : Option Addr :=
  let network := addrToUint32 (mask bits a)
  let size := subnetSize bits
  if size ≤ 2 then if .v4 (mask bits a) ∉ used then some (.v4 (mask bits a)) else none
  else firstFree64 used (lastExclusive network size) (firstCandidate network)

/-- The words stand for the numbers that the expressions mean. -/
structure Unwrapped (a : BitVec 32) (bits : Nat) : Prop where
  size : (subnetSize bits).toNat = 2 ^ (32 - bits)
  network : (addrToUint32 (mask bits a)).toNat = (mask bits a).toNat
  first : (firstCandidate (addrToUint32 (mask bits a))).toNat = (mask bits a).toNat + 1
  sum : ((addrToUint32 (mask bits a)).toUInt64 + subnetSize bits).toNat =
    (mask bits a).toNat + 2 ^ (32 - bits)
  last : (lastExclusive (addrToUint32 (mask bits a)) (subnetSize bits)).toNat =
    (mask bits a).toNat + 2 ^ (32 - bits) - 1
  candidate : ∀ c : UInt64, c < lastExclusive (addrToUint32 (mask bits a)) (subnetSize bits) →
    c.toUInt32.toNat = c.toNat ∧ (c + 1).toNat = c.toNat + 1

theorem unwrapped {bits : Nat} (hpos : 1 ≤ bits) (hbits : bits ≤ 32) (a : BitVec 32) :
    Unwrapped a bits := by
  have hsum := mask_add_le hbits a
  have hsize : (subnetSize bits).toNat = 2 ^ (32 - bits) := by
    have hpow : 2 ^ (32 - bits) < 2 ^ 64 := Nat.pow_lt_pow_right (by omega) (by omega)
    rw [subnetSize, UInt64.toNat_shiftLeft, UInt64.toNat_one, UInt64.toNat_ofNat',
      Nat.mod_eq_of_lt (by omega : 32 - bits < 2 ^ 64), Nat.mod_eq_of_lt (by omega : 32 - bits < 64),
      Nat.one_shiftLeft, Nat.mod_eq_of_lt hpow]
  have hpositive : 0 < 2 ^ (32 - bits) := Nat.two_pow_pos _
  have hnetwork : (addrToUint32 (mask bits a)).toNat = (mask bits a).toNat := rfl
  have hfirst : (firstCandidate (addrToUint32 (mask bits a))).toNat = (mask bits a).toNat + 1 := by
    rw [firstCandidate, UInt64.toNat_add, UInt32.toNat_toUInt64, hnetwork, UInt64.toNat_one,
      Nat.mod_eq_of_lt (by omega)]
  have hadd : ((addrToUint32 (mask bits a)).toUInt64 + subnetSize bits).toNat =
      (mask bits a).toNat + 2 ^ (32 - bits) := by
    rw [UInt64.toNat_add, UInt32.toNat_toUInt64, hnetwork, hsize, Nat.mod_eq_of_lt (by omega)]
  have hlast : (lastExclusive (addrToUint32 (mask bits a)) (subnetSize bits)).toNat =
      (mask bits a).toNat + 2 ^ (32 - bits) - 1 := by
    rw [lastExclusive, UInt64.toNat_sub_of_le _ _ (UInt64.le_iff_toNat_le.mpr _), hadd,
      UInt64.toNat_one]
    rw [hadd, UInt64.toNat_one]
    omega
  refine ⟨hsize, hnetwork, hfirst, hadd, hlast, fun c hc => ?_⟩
  have hlt : c.toNat < (mask bits a).toNat + 2 ^ (32 - bits) - 1 :=
    hlast ▸ UInt64.lt_iff_toNat_lt.mp hc
  refine ⟨?_, ?_⟩
  · rw [UInt64.toNat_toUInt32, Nat.mod_eq_of_lt (by omega)]
  · rw [UInt64.toNat_add, UInt64.toNat_one, Nat.mod_eq_of_lt (by omega)]

theorem firstFree64_eq {used : List Addr} {last candidate : UInt64} {n : Nat}
    (hn : candidate.toNat + n = last.toNat) (hlast : last.toNat ≤ 2 ^ 32) :
    firstFree64 used last candidate = firstFree used candidate.toNat n := by
  induction n generalizing candidate with
  | zero =>
    have hge : ¬ candidate < last := by
      rw [UInt64.lt_iff_toNat_lt]
      omega
    rw [firstFree64, if_neg hge, firstFree]
  | succ n ih =>
    have hlt : candidate < last := UInt64.lt_iff_toNat_lt.mpr (by omega)
    have hnext : (candidate + 1).toNat = candidate.toNat + 1 := by
      rw [UInt64.toNat_add, UInt64.toNat_one, Nat.mod_eq_of_lt (by omega)]
    have haddr : uint32ToAddr candidate.toUInt32 = .v4 (BitVec.ofNat 32 candidate.toNat) := by
      rw [uint32ToAddr, Addr.v4.injEq]
      apply BitVec.eq_of_toNat_eq
      rw [UInt32.toNat_toBitVec, UInt64.toNat_toUInt32, BitVec.toNat_ofNat]
    rw [firstFree64, if_pos hlt, haddr, firstFree, ← hnext, ih (by omega)]

theorem allocateIn64_eq {bits : Nat} (hpos : 1 ≤ bits) (hbits : bits ≤ 32) (used : List Addr)
    (a : BitVec 32) : allocateIn64 used a bits = allocateIn used a bits := by
  obtain ⟨hsize, hnetwork, hfirst, hadd, hlast, -⟩ := unwrapped hpos hbits a
  have hsum := mask_add_le hbits a
  have hsmall : subnetSize bits ≤ 2 ↔ 2 ^ (32 - bits) ≤ 2 := by
    rw [UInt64.le_iff_toNat_le, hsize]
    rfl
  rw [allocateIn64, allocateIn]
  simp only [hsmall]
  split_ifs with hle
  · rfl
  · rfl
  · rw [firstFree64_eq (n := 2 ^ (32 - bits) - 2) _ _, hfirst]
    · rw [hfirst, hlast]
      omega
    · rw [hlast]
      omega

end Machine

section Written
variable {entry : Text} {x : BitVec 32}

/-- The IPv4 address that an entry, a prefix or a bare address, is written with. -/
def WrittenWith (entry : Text) (x : BitVec 32) : Prop :=
  (∃ m, parsePrefix (trimSpace entry) = some m ∧ m.addr = .v4 x) ∨
    parseAddr (trimSpace entry) = some (.v4 x)

theorem parseIPv4Fields_slash {fields : List Nat} {val digLen : Nat} {s : Text} (h : '/' ∈ s) :
    parseIPv4Fields fields val digLen s = none := by
  induction s generalizing fields val digLen with
  | nil => cases h
  | cons c s ih =>
    have hslash : ¬('0' ≤ '/' ∧ '/' ≤ '9') := by decide
    rw [parseIPv4Fields]
    rcases List.mem_cons.mp h with rfl | h
    · rw [if_neg hslash, if_neg (by decide)]
    · simp only [ih h]
      split_ifs <;> rfl

theorem is4_of_parseIPv6 {s : Text} {addr : Addr} (h : parseIPv6 s = some addr) :
    addr.is4 = false := by
  have hread : ∀ (zone : Text) (r : List Nat × Option Nat × Text),
      (if r.2.2 ≠ [] then none
        else (expandEllipsis r.1 r.2.1).map fun bytes => Addr.v6 (BitVec.ofNat 128 (ofBytes bytes)) zone) =
        some addr → addr.is4 = false := by
    intro zone r hr
    split_ifs at hr
    obtain ⟨bytes, -, rfl⟩ := Option.map_eq_some_iff.mp hr
    rfl
  rw [parseIPv6] at h
  simp only [Option.bind_eq_bind] at h
  split at h
  all_goals
    first
    | cases h
    | (rw [Option.bind_some] at h; split at h)
  all_goals
    obtain ⟨r, -, hr⟩ := Option.bind_eq_some_iff.mp h
    exact hread _ r hr

/-- A bare IPv4 address has no slash. -/
theorem slash_of_parseAddr {s : Text} (h : parseAddr s = some (.v4 x)) : '/' ∉ s := by
  intro hslash
  rw [parseAddr] at h
  split at h
  · rw [parseIPv4, parseIPv4Fields_slash hslash] at h
    cases h
  · cases is4_of_parseIPv6 h
  · cases h

theorem slash_of_parsePrefix {s : Text} {m : Prefix} (h : parsePrefix s = some m) : '/' ∈ s := by
  by_contra hslash
  have hcut : cutLastSlash s = none := by
    rw [cutLastSlash, Trim.cut_eq_none (by simpa using hslash)]
    rfl
  rw [parsePrefix, hcut] at h
  cases h

theorem allowedIPv4Addr_eq_some : allowedIPv4Addr entry = some (.v4 x) ↔ WrittenWith entry x := by
  have hblank : trimSpace entry = [] → ¬ WrittenWith entry x := by
    rintro h (⟨m, hm, -⟩ | haddr)
    · rw [h] at hm
      cases slash_of_parsePrefix hm
    · rw [h] at haddr
      cases haddr
  rw [allowedIPv4Addr]
  split_ifs with hempty
  · exact iff_of_false (by simp) (hblank hempty)
  cases hp : parsePrefix (trimSpace entry) with
  | none =>
    rw [WrittenWith, hp]
    simp [Option.filter_eq_some_iff, Addr.is4]
  | some m =>
    have hno : parseAddr (trimSpace entry) ≠ some (.v4 x) := fun h =>
      slash_of_parseAddr h (slash_of_parsePrefix hp)
    rw [WrittenWith, hp]
    rcases hm : m.addr with y | ⟨y, z⟩
    · simp [hm, Addr.is4, hno, Option.filter]
    · have hskip : ((some m).map (·.addr)).filter Addr.is4 = none := by
        simp [hm, Addr.is4, Option.filter]
      rw [hskip]
      simp [hm, hno, Option.filter_eq_some_iff]

end Written

section Least
variable {cfg : Config} {extraUsed : List Text} {a : BitVec 32} {bits : Nat}

/-- The server's own address, or one that an entry is written with. -/
def Reserved (cfg : Config) (extraUsed : List Text) (a x : BitVec 32) : Prop :=
  x = a ∨ ∃ entry ∈ cfg.peers.flatMap (·.allowedIPs) ++ extraUsed, WrittenWith entry x

/-- Strictly between the network and the broadcast address, and not reserved. -/
def Free (cfg : Config) (extraUsed : List Text) (a : BitVec 32) (bits : Nat) (x : BitVec 32) :
    Prop :=
  (mask bits a).toNat < x.toNat ∧ x.toNat < (mask bits a).toNat + (2 ^ (32 - bits) - 1) ∧
    ¬ Reserved cfg extraUsed a x

theorem mem_usedAddrs {x : BitVec 32} :
    .v4 x ∈ usedAddrs (.v4 a) cfg extraUsed ↔ Reserved cfg extraUsed a x := by
  simp only [usedAddrs, List.mem_cons, List.mem_filterMap, allowedIPv4Addr_eq_some, Addr.v4.injEq,
    Reserved]

theorem free_iff (hbits : bits ≤ 30) {x : BitVec 32} : Free cfg extraUsed a bits x ↔
    Candidate a bits x ∧ .v4 x ∉ usedAddrs (.v4 a) cfg extraUsed := by
  have hsize : 2 ^ 2 ≤ 2 ^ (32 - bits) := Nat.pow_le_pow_right (by omega) (by omega)
  rw [Free, Candidate, if_neg (by omega), mem_usedAddrs, and_assoc]
  exact and_congr_right fun _ => and_congr_left fun _ => by omega

/-- An allocated address is the least free one, and allocation fails only if there is none. -/
theorem allocate_least {address : Text} {hbits : bits ≤ (Addr.v4 a).bitLen}
    {hzone : (Addr.v4 a).zone = []} (haddress : cfg.interfaceAddress = some address)
    (hparse : parsePrefix address = some ⟨.v4 a, bits, hbits, hzone⟩) (hpos : 1 ≤ bits)
    (hle : bits ≤ 30) (extraUsed : List Text) :
    (∀ addr, allocateFreeIPv4 cfg extraUsed = .ok addr ↔ ∃ x, addr = .v4 x ∧
      Free cfg extraUsed a bits x ∧ ∀ y, Free cfg extraUsed a bits y → x.toNat ≤ y.toNat) ∧
    ((∃ e, allocateFreeIPv4 cfg extraUsed = .error e) ↔ ∀ x, ¬ Free cfg extraUsed a bits x) ∧
    Unwrapped a bits ∧ ∀ used, allocateIn64 used a bits = allocateIn used a bits := by
  have hserver : serverAddress cfg = some (a, bits) := by
    rw [serverAddress, haddress, Option.bind_some, hparse]
    exact if_neg (by omega)
  -- the first address that the loop finds free is the least one
  have hok : ∀ addr, allocateFreeIPv4 cfg extraUsed = .ok addr ↔ ∃ x, addr = .v4 x ∧
      Free cfg extraUsed a bits x ∧ ∀ y, Free cfg extraUsed a bits y → x.toNat ≤ y.toNat := by
    intro addr
    rw [allocateFreeIPv4_eq_ok]
    constructor
    · rintro ⟨a', bits', h, hb, hin⟩
      rw [hserver, Option.some.injEq, Prod.mk.injEq] at h
      obtain ⟨rfl, rfl⟩ := h
      obtain ⟨x, rfl, hx, hfree, hmin⟩ := (allocateIn_eq_some hb).mp hin
      refine ⟨x, rfl, (free_iff hle).mpr ⟨hx, hfree⟩, fun y hy => Nat.not_lt.mp fun hlt => ?_⟩
      obtain ⟨hy, hyfree⟩ := (free_iff hle).mp hy
      exact hyfree (hmin y hy hlt)
    · rintro ⟨x, rfl, hx, hmin⟩
      obtain ⟨hx, hfree⟩ := (free_iff hle).mp hx
      refine ⟨a, bits, hserver, by omega, (allocateIn_eq_some (by omega)).mpr
        ⟨x, rfl, hx, hfree, fun y hy hlt => ?_⟩⟩
      by_contra hyfree
      exact absurd (hmin y ((free_iff hle).mpr ⟨hy, hyfree⟩)) (by omega)
  refine ⟨hok, ?_, unwrapped hpos (by omega) a, fun used => allocateIn64_eq hpos (by omega) used a⟩
  constructor
  · rintro ⟨e, he⟩ x hx
    obtain ⟨hcand, hfree⟩ := (free_iff hle).mp hx
    obtain ⟨u, hu, hufree, -, hmin⟩ := exists_first hcand hfree
    have hleast := (hok (.v4 u)).mpr ⟨u, rfl, (free_iff hle).mpr ⟨hu, hufree⟩, fun y hy =>
      Nat.not_lt.mp fun hlt => ((free_iff hle).mp hy).2 (hmin y ((free_iff hle).mp hy).1 hlt)⟩
    rw [he] at hleast
    cases hleast
  · intro hnone
    cases halloc : allocateFreeIPv4 cfg extraUsed with
    | error e => exact ⟨e, rfl⟩
    | ok addr =>
      obtain ⟨x, -, hx, -⟩ := (hok addr).mp halloc
      exact absurd hx (hnone x)

end Least

/-- A server with the first address of the last /30. -/
def topConfig : Config where
  interface := [parseInterfaceLine (lit "Address = 255.255.255.253/30")]

theorem allocate_least_top : ∃ x, Addr.v4 0xFFFFFFFE = .v4 x ∧ Free topConfig [] 0xFFFFFFFD 30 x ∧
    ∀ y, Free topConfig [] 0xFFFFFFFD 30 y → x.toNat ≤ y.toNat := by
  have hparse : parsePrefix (lit "255.255.255.253/30") =
      some ⟨.v4 0xFFFFFFFD, 30, by decide, rfl⟩ := by decide +kernel
  have haddress : topConfig.interfaceAddress = some (lit "255.255.255.253/30") := by decide +kernel
  have halloc : allocateFreeIPv4 topConfig [] = .ok (.v4 0xFFFFFFFE) := by decide +kernel
  exact ((allocate_least haddress hparse (by decide) (by decide) []).1 _).mp halloc

end VpnControl.Awg
