import VpnControl.Awg.AllocateIP

namespace VpnControl.Awg
open Strings Netip BitPrefix

def RuntimePeer.routes (p : RuntimePeer) : List Prefix := p.allowedIPs.filterMap parsePrefix

/-- The address is in some AllowedIPs prefix of a config peer or of a runtime peer. -/
def covered (cfg : Config) (runtime : List RuntimePeer) (x : BitVec 32) : Bool :=
  (cfg.peers.flatMap Peer.routes ++ runtime.flatMap RuntimePeer.routes).any (·.contains (.v4 x))

/-- The server's IPv4 address and its network bits, if it has any. -/
def serverAddress (cfg : Config) : Option (BitVec 32 × Nat) :=
  match cfg.interfaceAddress.bind parsePrefix with
  | some ⟨.v4 a, bits, _, _⟩ => if bits = 0 then none else some (a, bits)
  | _ => none

/-- The addresses of the subnet that may go to a client: those between the network and
the broadcast address, or the network address alone in a subnet too small to have any. -/
def Candidate (a : BitVec 32) (bits : Nat) (x : BitVec 32) : Prop :=
  if 2 ^ (32 - bits) ≤ 2 then x = mask bits a
  else (mask bits a).toNat < x.toNat ∧ x.toNat + 1 < (mask bits a).toNat + 2 ^ (32 - bits)

instance (a : BitVec 32) (bits : Nat) (x : BitVec 32) : Decidable (Candidate a bits x) := by
  unfold Candidate
  infer_instance

/-- The candidate is neither the server's address nor written in an AllowedIPs entry. -/
def Unreserved (cfg : Config) (runtime : List RuntimePeer) (a x : BitVec 32) : Prop :=
  .v4 x ∉ usedAddrs (.v4 a) cfg (runtimeUsed runtime)

theorem firstFree_eq_some {used : List Addr} {candidate n : Nat} {addr : Addr} :
    firstFree used candidate n = some addr ↔ ∃ k < n,
      addr = .v4 (BitVec.ofNat 32 (candidate + k)) ∧ addr ∉ used ∧
      ∀ j < k, .v4 (BitVec.ofNat 32 (candidate + j)) ∈ used := by
  induction n generalizing candidate with
  | zero => simp [firstFree]
  | succ n ih =>
    rw [firstFree]
    by_cases hu : .v4 (BitVec.ofNat 32 candidate) ∈ used
    · rw [if_neg (by simpa using hu), ih]
      constructor
      · rintro ⟨k, hk, rfl, hfree, hall⟩
        refine ⟨k + 1, by omega, by rw [Nat.add_right_comm, Nat.add_assoc], hfree, ?_⟩
        rintro (_ | j) hj
        · exact hu
        · rw [← Nat.add_assoc, Nat.add_right_comm]
          exact hall j (by omega)
      · rintro ⟨_ | k, hk, rfl, hfree, hall⟩
        · exact absurd hu hfree
        · refine ⟨k, by omega, by rw [Nat.add_right_comm, Nat.add_assoc], hfree, ?_⟩
          intro j hj
          have := hall (j + 1) (by omega)
          rwa [← Nat.add_assoc, Nat.add_right_comm] at this
    · rw [if_pos hu, Option.some.injEq]
      constructor
      · rintro rfl
        exact ⟨0, by omega, rfl, hu, by omega⟩
      · rintro ⟨_ | k, hk, rfl, hfree, hall⟩
        · rfl
        · exact absurd (hall 0 (by omega)) hu

/-- Allocation returns the first candidate that is not used. -/
theorem allocateIn_eq_some {used : List Addr} {a : BitVec 32} {bits : Nat} (hbits : bits ≤ 32)
    {addr : Addr} :
    allocateIn used a bits = some addr ↔ ∃ x, addr = .v4 x ∧ Candidate a bits x ∧ .v4 x ∉ used ∧
      ∀ y, Candidate a bits y → y.toNat < x.toNat → .v4 y ∈ used := by
  rw [allocateIn]
  by_cases hsize : 2 ^ (32 - bits) ≤ 2
  -- a /31 or /32: the only candidate is the network address
  · simp only [Candidate, if_pos hsize]
    by_cases hu : .v4 (mask bits a) ∈ used
    · rw [if_neg (by simpa using hu)]
      simp only [reduceCtorEq, false_iff, not_exists, not_and]
      rintro x rfl rfl hfree
      exact absurd hu hfree
    · rw [if_pos hu, Option.some.injEq]
      constructor
      · rintro rfl
        exact ⟨_, rfl, rfl, hu, by rintro y rfl; omega⟩
      · rintro ⟨x, rfl, rfl, -⟩
        rfl
  · simp only [Candidate, if_neg hsize]
    -- else the candidates follow the network address, and the sum does not wrap
    have hbound := mask_add_le hbits a
    have htoNat : ∀ k, k < 2 ^ (32 - bits) - 2 →
        (BitVec.ofNat 32 ((mask bits a).toNat + 1 + k)).toNat = (mask bits a).toNat + 1 + k := by
      intro k hk
      rw [BitVec.toNat_ofNat, Nat.mod_eq_of_lt (by omega)]
    rw [firstFree_eq_some]
    constructor
    · rintro ⟨k, hk, rfl, hfree, hall⟩
      refine ⟨_, rfl, ?_, hfree, ?_⟩
      · rw [htoNat k hk]
        omega
      · intro y hy hlt
        rw [htoNat k hk] at hlt
        have hj := hall (y.toNat - ((mask bits a).toNat + 1)) (by omega)
        rwa [Nat.add_sub_cancel' (by omega), BitVec.ofNat_toNat, BitVec.setWidth_eq] at hj
    · rintro ⟨x, rfl, hx, hfree, hall⟩
      have hk : (mask bits a).toNat + 1 + (x.toNat - ((mask bits a).toNat + 1)) = x.toNat := by omega
      refine ⟨x.toNat - ((mask bits a).toNat + 1), by omega, ?_, hfree, ?_⟩
      · rw [hk, BitVec.ofNat_toNat, BitVec.setWidth_eq]
      · intro j hj
        apply hall
        · rw [htoNat j (by omega)]
          omega
        · rw [htoNat j (by omega)]
          omega

theorem allocateFreeIPv4_eq_ok {cfg : Config} {extraUsed : List Text} {addr : Addr} :
    allocateFreeIPv4 cfg extraUsed = .ok addr ↔ ∃ a bits, serverAddress cfg = some (a, bits) ∧
      bits ≤ 32 ∧ allocateIn (usedAddrs (.v4 a) cfg extraUsed) a bits = some addr := by
  rw [allocateFreeIPv4, serverAddress]
  cases cfg.interfaceAddress with
  | none => simp
  | some address =>
    simp only [Option.bind_some]
    cases parsePrefix address with
    | none => simp
    | some p =>
      rcases p with ⟨a | ⟨a, z⟩, bits, hbits, hzone⟩
      · by_cases hb : bits = 0
        · simp [hb]
        · simp only [hb, if_false, Option.some.injEq, Prod.mk.injEq]
          constructor
          · intro h
            refine ⟨a, bits, ⟨rfl, rfl⟩, hbits, ?_⟩
            split at h
            · rename_i x hx
              rw [hx]
              simpa using h
            · cases h
          · rintro ⟨a', bits', ⟨rfl, rfl⟩, -, h⟩
            simp [h]
      · simp

theorem allocateFreeIPv4_v4 {cfg : Config} {extraUsed : List Text} {addr : Addr}
    (h : allocateFreeIPv4 cfg extraUsed = .ok addr) : ∃ x, addr = .v4 x := by
  obtain ⟨a, bits, -, hbits, hin⟩ := allocateFreeIPv4_eq_ok.mp h
  obtain ⟨x, hx, -⟩ := (allocateIn_eq_some hbits).mp hin
  exact ⟨x, hx⟩

/-- Before every covered candidate that is not reserved there is one that is neither. -/
def FreeBeforeCovered (cfg : Config) (runtime : List RuntimePeer) : Prop :=
  ∀ a bits, serverAddress cfg = some (a, bits) → ∀ x, Candidate a bits x →
    Unreserved cfg runtime a x → covered cfg runtime x = true →
    ∃ y, Candidate a bits y ∧ Unreserved cfg runtime a y ∧ covered cfg runtime y = false ∧
      y.toNat < x.toNat

/-- An allocated address is in no prefix of a peer, and the config that a new peer with
this address is added to passes its check again. -/
structure AllocationSafe (cfg : Config) (runtime : List RuntimePeer) : Prop where
  uncovered : ∀ x, allocateFreeIPv4 cfg (runtimeUsed runtime) = .ok (.v4 x) →
    covered cfg runtime x = false
  validates : ∀ addr (peer : Peer), allocateFreeIPv4 cfg (runtimeUsed runtime) = .ok addr →
    peer.publicKey ≠ [] → cfg.findPeer peer.publicKey = none →
    peer.allowedIPs = [addr.text ++ lit "/32"] → (cfg.addPeer peer).validate = .ok ()

/-- If some candidate is free, there is a first one. -/
theorem exists_first {used : List Addr} {a : BitVec 32} {bits : Nat} {x : BitVec 32}
    (hx : Candidate a bits x) (hfree : .v4 x ∉ used) :
    ∃ u, Candidate a bits u ∧ .v4 u ∉ used ∧ u.toNat ≤ x.toNat ∧
      ∀ y, Candidate a bits y → y.toNat < u.toNat → .v4 y ∈ used := by
  by_cases hall : ∀ y, Candidate a bits y → y.toNat < x.toNat → .v4 y ∈ used
  · exact ⟨x, hx, hfree, Nat.le_refl _, hall⟩
  · push Not at hall
    obtain ⟨y, hy, hlt, hyfree⟩ := hall
    obtain ⟨u, hu, hufree, hle, hmin⟩ := exists_first hy hyfree
    exact ⟨u, hu, hufree, by omega, hmin⟩
termination_by x.toNat

theorem routes_host {peer : Peer} {x : BitVec 32}
    (h : peer.allowedIPs = [(Addr.v4 x).text ++ lit "/32"]) : peer.routes = [.host x] := by
  simp [Peer.routes, h, Addr.text, parsePrefix_host]

/-- A new peer with one address keeps a valid config valid when the address is in no
prefix of the config. -/
theorem valid_addPeer {cfg : Config} (hcfg : cfg.Valid) {peer : Peer} {x : BitVec 32}
    (hkey : peer.publicKey ≠ []) (hnew : cfg.findPeer peer.publicKey = none)
    (hips : peer.allowedIPs = [(Addr.v4 x).text ++ lit "/32"])
    (hx : ∀ p ∈ cfg.peers, ∀ m ∈ p.routes, m.contains (.v4 x) = false) :
    (cfg.addPeer peer).Valid := by
  refine ⟨hcfg.address, hcfg.listenPort, PeersValid.concat.mpr ⟨hcfg.peers, ⟨hkey, ?_, ?_⟩, ?_⟩⟩
  · simp [hips]
  · simp [hips, Addr.text, parsePrefix_host]
  · intro p hp
    refine ⟨?_, ?_⟩
    · have := List.find?_eq_none.mp hnew p hp
      simpa using this
    · rw [routes_host hips]
      intro m hm n hn
      rw [List.mem_singleton.mp hn, Prefix.overlaps_comm, Prefix.host_overlaps]
      exact hx p hp m hm

theorem covered_eq_false {cfg : Config} {runtime : List RuntimePeer} {x : BitVec 32}
    (h : covered cfg runtime x = false) :
    ∀ p ∈ cfg.peers, ∀ m ∈ p.routes, m.contains (.v4 x) = false := by
  intro p hp m hm
  rw [covered, List.any_eq_false] at h
  have hmem : m ∈ cfg.peers.flatMap Peer.routes ++ runtime.flatMap RuntimePeer.routes :=
    List.mem_append_left _ (List.mem_flatMap.mpr ⟨p, hp, hm⟩)
  simpa using h m hmem

/-- Allocation looks only at the addresses that entries are written with, so it keeps
clear of the prefixes exactly when a free address comes before every covered one. -/
theorem allocationSafe_iff {cfg : Config} (hcfg : cfg.validate = .ok ())
    (runtime : List RuntimePeer) :
    AllocationSafe cfg runtime ↔ FreeBeforeCovered cfg runtime := by
  constructor
  -- were there no free address before a covered one, the covered one would be given out
  · intro hsafe a bits hserver x hx hfree hcov
    have hbits : bits ≤ 32 := by
      rw [serverAddress] at hserver
      split at hserver
      · split at hserver
        · cases hserver
        · simp only [Option.some.injEq, Prod.mk.injEq] at hserver
          obtain ⟨-, rfl⟩ := hserver
          assumption
      · cases hserver
    obtain ⟨u, hu, hufree, hle, hmin⟩ := exists_first hx hfree
    have halloc : allocateFreeIPv4 cfg (runtimeUsed runtime) = .ok (.v4 u) :=
      allocateFreeIPv4_eq_ok.mpr ⟨a, bits, hserver, hbits,
        (allocateIn_eq_some hbits).mpr ⟨u, rfl, hu, hufree, hmin⟩⟩
    have hucov := hsafe.uncovered u halloc
    refine ⟨u, hu, hufree, hucov, Nat.lt_of_le_of_ne hle fun heq => ?_⟩
    rw [BitVec.eq_of_toNat_eq heq, hcov] at hucov
    cases hucov
  -- the loop stops at the first free address, and the condition puts an uncovered one before
  · intro hgap
    have huncov : ∀ x, allocateFreeIPv4 cfg (runtimeUsed runtime) = .ok (.v4 x) →
        covered cfg runtime x = false := by
      intro x halloc
      obtain ⟨a, bits, hserver, hbits, hin⟩ := allocateFreeIPv4_eq_ok.mp halloc
      obtain ⟨u, hu, hcand, hfree, hmin⟩ := (allocateIn_eq_some hbits).mp hin
      cases hu
      by_contra hcov
      obtain ⟨y, hy, hyfree, -, hlt⟩ := hgap a bits hserver x hcand hfree (by simpa using hcov)
      exact hyfree (hmin y hy hlt)
    refine ⟨huncov, fun addr peer halloc hkey hnew hips => ?_⟩
    obtain ⟨a, bits, -, hbits, hin⟩ := allocateFreeIPv4_eq_ok.mp halloc
    obtain ⟨x, rfl, -⟩ := (allocateIn_eq_some hbits).mp hin
    exact validate_ok.mpr (valid_addPeer (validate_ok.mp hcfg) hkey hnew hips
      (covered_eq_false (huncov x halloc)))

/-- A server at 10.8.1.1 in a /24, with the given peers. -/
def exampleConfig (peers : List Peer) : Config where
  interface := [parseInterfaceLine (lit "Address = 10.8.1.1/24"),
    parseInterfaceLine (lit "ListenPort = 51820")]
  peers

theorem allocationSafe_iff_oneClient :
    AllocationSafe (exampleConfig [{ publicKey := lit "a", allowedIPs := [lit "10.8.1.2/32"] }]) [] ↔
      FreeBeforeCovered
        (exampleConfig [{ publicKey := lit "a", allowedIPs := [lit "10.8.1.2/32"] }]) [] :=
  allocationSafe_iff (by decide +kernel) []

/-- A peer that routes the first half of the subnet is given away again. -/
theorem allocation_unsafe :
    (exampleConfig [{ publicKey := lit "a", allowedIPs := [lit "10.8.1.0/25"] }]).validate = .ok () ∧
      ¬AllocationSafe
        (exampleConfig [{ publicKey := lit "a", allowedIPs := [lit "10.8.1.0/25"] }]) [] := by
  refine ⟨by decide +kernel, fun h => ?_⟩
  have hcov := h.uncovered (BitVec.ofNat 32 0x0A080102) (by decide +kernel)
  revert hcov
  decide +kernel

end VpnControl.Awg
