import VpnControl.HttpApi.Remote
import VpnControl.Lib.AddressBlocks
import VpnControl.Backend.Config

namespace VpnControl.Backend.Config
open Strings Trim Netip BitPrefix Ipaddress HttpApi

section Text

theorem decimal_chars {n : Nat} {c : Char} (h : c ∈ decimal n) : '0' ≤ c ∧ c ≤ '9' := by
  have hdigit := Nat.isDigit_of_mem_toDigits (by decide) (by decide) h
  simpa [Char.isDigit, Char.le_def] using hdigit

theorem decimal_foldl (n : Nat) :
    (decimal n).foldl (fun n c => n * 10 + (c.toNat - '0'.toNat)) 0 = n := by
  have h := Nat.ofDigitChars_toDigits (b := 10) (n := n) (by decide) (by decide)
  rw [Nat.ofDigitChars_eq_foldl] at h
  simpa [decimal, Nat.mul_comm] using h

theorem decimal_ne_nil (n : Nat) : decimal n ≠ [] := by simp [decimal]

/-- The text of an address with a length. -/
theorem parseCIDR_text {s : Text} {addr : Addr} {n : Nat} (hslash : '/' ∉ s)
    (haddr : parseAddr s = some addr) (hzone : addr.zone = []) (hn : n ≤ addr.bitLen) :
    parseCIDR (s ++ '/' :: decimal n) = some (maskIP n addr) := by
  have hdigits : (decimal n).all (fun c => '0' ≤ c && c ≤ '9') = true := by
    rw [List.all_eq_true]
    intro c hc
    simpa using decimal_chars hc
  rw [parseCIDR, cut_append_cons hslash]
  simp only [Option.bind_eq_bind, Option.bind_some, haddr, decimal_foldl]
  exact if_pos ⟨hzone, ⟨decimal_ne_nil n, hdigits⟩, hn⟩

/-- An address with a scope is refused. -/
theorem parseCIDR_scope (a : BitVec 128) (scopeId w : Text) :
    parseCIDR (string6 a ++ '%' :: scopeId ++ '/' :: w) = none := by
  have hslash : '/' ∉ string6 a ++ ['%'] := by simp [slash_notMem_string6 a]
  have htext : string6 a ++ '%' :: scopeId ++ '/' :: w =
      (string6 a ++ ['%']) ++ (scopeId ++ '/' :: w) := by simp
  rw [htext, parseCIDR, cut_append hslash]
  cases hcut : cut '/' (scopeId ++ '/' :: w) with
  | none => rfl
  | some cutAt =>
    cases haddr : parseAddr (string6 a ++ '%' :: cutAt.1) with
    | none => simp [haddr]
    | some addr => simp [haddr, parseAddr_zone a cutAt.1 haddr]

end Text

section Networks

/-- A network as the agent reads its text. -/
def ipNet : IPNetwork → IPNet
  | .v4 a n => maskIP n (.v4 a)
  | .v6 a _ n => maskIP n (.v6 a [])

theorem parseAllowedIP_str {network : IPNetwork} {net : IPNet}
    (h : parseAllowedIP network.str = .ok net) : net = ipNet network := by
  cases network with
  | v4 a n =>
    have hread := parseCIDR_text (slash_notMem_string4 a) (parseAddr_string4 a) rfl
      (Nat.le_of_lt_succ n.isLt)
    rw [parseAllowedIP, IPNetwork.str, if_pos (by simp), hread] at h
    exact (Except.ok.inj h).symm
  | v6 a scopeId n =>
    rw [parseAllowedIP, IPNetwork.str, if_pos (by simp)] at h
    by_cases hscope : scopeId = []
    · have hread := parseCIDR_text (slash_notMem_string6 a) (parseAddr_string6 a) rfl
        (Nat.le_of_lt_succ n.isLt)
      rw [hscope, if_pos rfl, List.append_nil, hread] at h
      exact (Except.ok.inj h).symm
    · rw [if_neg hscope, parseCIDR_scope] at h
      cases h

/-- What starts with the text of an address and ends with a length is trimmed. -/
theorem trimSpace_decimal {s : Text} (h : Flush s) (n : Nat) :
    trimSpace (s ++ '/' :: decimal n) = s ++ '/' :: decimal n := by
  obtain ⟨c, w, rfl, hc⟩ := h
  have hlast := List.dropLast_append_getLast (decimal_ne_nil n)
  have hdigit := decimal_chars (List.getLast_mem (decimal_ne_nil n))
  have hspace := isSpace_graphic (Char.le_trans (by decide) hdigit.1)
    (Char.le_trans hdigit.2 (by decide))
  rw [← hlast]
  have htrimmed := trimmed_cons_concat hc (w := w ++ '/' :: (decimal n).dropLast) hspace
  simpa [trimSpace, Trimmed] using htrimmed

theorem trimSpace_str (network : IPNetwork) : trimSpace network.str = network.str := by
  cases network with
  | v4 a n => exact trimSpace_decimal (flush_text (.v4 a)) n
  | v6 a scopeId n => exact trimSpace_decimal ((flush_string6 a).append _) n

theorem str_ne_nil (network : IPNetwork) : network.str ≠ [] := by
  cases network <;> simp [IPNetwork.str]

theorem mapM_str {networks : List IPNetwork} {nets : List IPNet}
    (h : (networks.map IPNetwork.str).mapM parseAllowedIP = .ok nets) :
    nets = networks.map ipNet := by
  induction networks generalizing nets with
  | nil =>
    cases h
    rfl
  | cons network networks ih =>
    rw [List.map_cons, List.mapM_cons] at h
    cases hnet : parseAllowedIP network.str with
    | error e =>
      rw [hnet] at h
      cases h
    | ok net =>
      cases hrest : (networks.map IPNetwork.str).mapM parseAllowedIP with
      | error e =>
        rw [hnet, hrest] at h
        cases h
      | ok rest =>
        rw [hnet, hrest] at h
        cases h
        rw [parseAllowedIP_str hnet, ih hrest, List.map_cons]

/-- The networks that the agent allows are those that were accepted. -/
theorem newAuthenticator_networks {config : AuthConfig} {a : Authenticator}
    {networks : List IPNetwork} (hips : config.allowedIPs = networks.map IPNetwork.str)
    (h : newAuthenticator config = .ok a) :
    a.allowedNets = networks.map ipNet ∧ a.allowedNets ≠ [] := by
  have hvalues : (config.allowedIPs.map trimSpace).filter (· ≠ []) =
      networks.map IPNetwork.str := by
    have htrim : (networks.map IPNetwork.str).map trimSpace = networks.map IPNetwork.str := by
      rw [List.map_map]
      exact List.map_congr_left fun network _ => trimSpace_str network
    rw [hips, htrim, List.filter_eq_self]
    simp [str_ne_nil]
  rw [newAuthenticator, hvalues] at h
  cases hnets : (networks.map IPNetwork.str).mapM parseAllowedIP with
  | error e =>
    rw [hnets] at h
    cases h
  | ok nets =>
    rw [hnets] at h
    by_cases hempty : nets = []
    · simp [bind, Except.bind, hempty, throw, throwThe, MonadExceptOf.throw] at h
    · simp only [bind, Except.bind, hempty, if_false] at h
      cases h
      exact ⟨mapM_str hnets, hempty⟩

end Networks

section Accepted

theorem normalizeAllowIps_ok {s : Settings} {values normalized : List Text}
    (h : s.normalizeAllowIps values = .ok normalized) :
    normalized = (values.filterMap ipNetwork).map IPNetwork.str := by
  induction values generalizing normalized with
  | nil =>
    cases h
    rfl
  | cons value values ih =>
    rw [Settings.normalizeAllowIps] at h
    cases hnetwork : ipNetwork value with
    | none =>
      rw [hnetwork] at h
      cases h
    | some network =>
      rw [hnetwork] at h
      simp only at h
      split_ifs at h
      cases hrest : s.normalizeAllowIps values with
      | error e =>
        rw [hrest] at h
        cases h
      | ok rest =>
        rw [hrest] at h
        cases h
        rw [ih hrest, List.filterMap_cons_some hnetwork, List.map_cons]

theorem allowIps_of_validate {fernetKey : Text → Bool} {s s' : Settings}
    (h : s.validate fernetKey = .ok s') :
    s'.setupAgentAllowIps = (s.setupAgentAllowIps.filterMap ipNetwork).map IPNetwork.str := by
  cases hnormalize : s.normalizeAllowIps s.setupAgentAllowIps with
  | error e =>
    simp only [Settings.validate, hnormalize, bind, Except.bind, throw, throwThe,
      MonadExceptOf.throw] at h
    split_ifs at h
  | ok normalized =>
    rw [← normalizeAllowIps_ok hnormalize]
    simp only [Settings.validate, hnormalize, bind, Except.bind, throw, throwThe,
      MonadExceptOf.throw] at h
    split_ifs at h
    -- what is returned differs from the settings in these addresses only
    all_goals
      repeat' split at h
      all_goals cases h <;> rfl

end Accepted

section Blocks

/-- The IPv4 addresses of a network: an IPv6 network inside `::ffff:0:0/96` stands for them. -/
def ipv4Block : IPNetwork → Option (Block 32)
  | .v4 a n => some ⟨mask n a, n, Nat.le_of_lt_succ n.isLt⟩
  | .v6 a _ n =>
    if is4In6 (mask n a) then
      some ⟨(mask n a).setWidth 32, n - 96, by have := n.isLt; omega⟩
    else none

/-- The IPv6 addresses of a network. -/
def ipv6Block : IPNetwork → Option (Block 128)
  | .v4 .. => none
  | .v6 a _ n =>
    if is4In6 (mask n a) then none else some ⟨mask n a, n, Nat.le_of_lt_succ n.isLt⟩

/-- `::ffff:0:0/96`, whose addresses are IPv4 addresses. -/
def mapped : Block 128 := ⟨0xFFFF00000000, 96, by decide⟩

theorem mapped_contains (y : BitVec 128) : mapped.Contains y ↔ is4In6 y = true := by
  have htop : top 96 (0xFFFF00000000 : BitVec 128) = 0xFFFF := by decide
  rw [Block.Contains, Agree, mapped, htop, is4In6, beq_iff_eq]
  exact eq_comm

theorem ipNet_contains_v4 (network : IPNetwork) (x : BitVec 32) :
    (ipNet network).contains (.v4 x) = true ↔ ∃ b ∈ ipv4Block network, b.Contains x := by
  cases network with
  | v4 a n =>
    simp only [ipNet, maskIP, IPNet.contains, ipv4Block, Option.mem_def, Option.some.injEq,
      exists_eq_left']
    exact decide_eq_true_iff
  | v6 a scopeId n =>
    by_cases h : is4In6 (mask n a) = true
    · simp [ipNet, maskIP, IPNet.contains, ipv4Block, Block.Contains, unmap, h]
    · simp [ipNet, maskIP, IPNet.contains, ipv4Block, unmap, h]

theorem ipNet_contains_v6 (network : IPNetwork) (y : BitVec 128) :
    (ipNet network).contains (.v6 y) = true ↔ ∃ b ∈ ipv6Block network, b.Contains y := by
  cases network with
  | v4 a n => simp [ipNet, maskIP, IPNet.contains, ipv6Block]
  | v6 a scopeId n =>
    by_cases h : is4In6 (mask n a) = true
    · simp [ipNet, maskIP, IPNet.contains, ipv6Block, unmap, h]
    · simp [ipNet, maskIP, IPNet.contains, ipv6Block, Block.Contains, unmap, h]

/-- The blocks of a list of addresses and networks. -/
def ipv4Blocks (values : List Text) : List (Block 32) :=
  (values.filterMap ipNetwork).filterMap ipv4Block

def ipv6Blocks (values : List Text) : List (Block 128) :=
  (values.filterMap ipNetwork).filterMap ipv6Block

end Blocks

section Internet
variable {fernetKey : Text → Bool} {s s' : Settings} {config : AuthConfig} {a : Authenticator}

theorem allowedNets_of_validate (hs : s.validate fernetKey = .ok s')
    (hips : config.allowedIPs = s'.setupAgentAllowIps) (ha : newAuthenticator config = .ok a) :
    a.allowedNets = (s.setupAgentAllowIps.filterMap ipNetwork).map ipNet ∧ a.allowedNets ≠ [] :=
  newAuthenticator_networks (hips.trans (allowIps_of_validate hs)) ha

theorem rejects_v4 (hs : s.validate fernetKey = .ok s')
    (hips : config.allowedIPs = s'.setupAgentAllowIps) (ha : newAuthenticator config = .ok a)
    (x : BitVec 32) :
    a.Rejects (.v4 x) ↔ ∀ b ∈ ipv4Blocks s.setupAgentAllowIps, ¬b.Contains x := by
  obtain ⟨hnets, hne⟩ := allowedNets_of_validate hs hips ha
  rw [Authenticator.rejects_iff hne (by simp), hnets, List.forall_mem_map, ipv4Blocks,
    List.forall_mem_filterMap (f := ipv4Block)]
  refine forall₂_congr fun network _ => ?_
  rw [← Bool.not_eq_true, ipNet_contains_v4]
  simp

theorem rejects_v6 (hs : s.validate fernetKey = .ok s')
    (hips : config.allowedIPs = s'.setupAgentAllowIps) (ha : newAuthenticator config = .ok a)
    {y : BitVec 128} (hy : is4In6 y = false) :
    a.Rejects (.v6 y) ↔ ∀ b ∈ ipv6Blocks s.setupAgentAllowIps, ¬b.Contains y := by
  obtain ⟨hnets, hne⟩ := allowedNets_of_validate hs hips ha
  rw [Authenticator.rejects_iff hne (by simp [hy]), hnets, List.forall_mem_map, ipv6Blocks,
    List.forall_mem_filterMap (f := ipv6Block)]
  refine forall₂_congr fun network _ => ?_
  rw [← Bool.not_eq_true, ipNet_contains_v6]
  simp

/-- Accepted addresses leave an IPv4 address and an IPv6 address out exactly when the outermost
networks of each kind are together smaller than all addresses of that kind. -/
theorem rejects_internet_iff (hs : s.validate fernetKey = .ok s')
    (hips : config.allowedIPs = s'.setupAgentAllowIps) (ha : newAuthenticator config = .ok a) :
    ((∃ x : BitVec 32, a.Rejects (.v4 x)) ∧
      ∃ y : BitVec 128, is4In6 y = false ∧ a.Rejects (.v6 y)) ↔
    total (ipv4Blocks s.setupAgentAllowIps) < 2 ^ 32 ∧
      total (mapped :: ipv6Blocks s.setupAgentAllowIps) < 2 ^ 128 := by
  have hout6 : (∃ y : BitVec 128, is4In6 y = false ∧ a.Rejects (.v6 y)) ↔
      ∃ y, ∀ b ∈ mapped :: ipv6Blocks s.setupAgentAllowIps, ¬b.Contains y := by
    refine exists_congr fun y => ?_
    rw [List.forall_mem_cons, mapped_contains, Bool.not_eq_true]
    exact and_congr_right fun hy => rejects_v6 hs hips ha hy
  rw [total_lt_iff, total_lt_iff, hout6]
  simp only [rejects_v4 hs hips ha]

end Internet

namespace Sample

def encryptionKey : Text := lit "MDEyMzQ1Njc4OWFiY2RlZjAxMjM0NTY3ODlhYmNkZWY="

/-- Production settings with some addresses. -/
def settings (setupAgentAllowIps : List Text) : Settings where
  appEnv := lit "production"
  agentMode := lit "http"
  encryptionKey := some encryptionKey
  setupRunner := lit "deploy_script"
  setupAgentBaseUrlTemplate := lit "http://\x7bhost\x7d:8090"
  setupAgentAllowIps
  setupTimeoutSeconds := 600
  setupAllowPublicAgentAccess := false

/-- The agent that is given the addresses. -/
def authConfig (allowedIPs : List Text) : AuthConfig :=
  { HttpApi.Sample.authConfig with allowedIPs }

def authenticator (allowedNets : List IPNet) : Authenticator :=
  { HttpApi.Sample.authenticator with allowedNets }

end Sample

theorem rejects_internet_host :
    (∃ x : BitVec 32, (Sample.authenticator [⟨.v4 0x0a000005, 32⟩]).Rejects (.v4 x)) ∧
      ∃ y : BitVec 128, is4In6 y = false ∧
        (Sample.authenticator [⟨.v4 0x0a000005, 32⟩]).Rejects (.v6 y) := by
  have hs : (Sample.settings [lit "10.0.0.5"]).validate (· = Sample.encryptionKey) =
      .ok (Sample.settings [lit "10.0.0.5/32"]) := by decide +kernel
  have ha : newAuthenticator (Sample.authConfig [lit "10.0.0.5/32"]) =
      .ok (Sample.authenticator [⟨.v4 0x0a000005, 32⟩]) := by decide +kernel
  exact (rejects_internet_iff hs rfl ha).mpr (by decide +kernel)

/-- Two halves of the internet are accepted. -/
theorem halves_admit_ipv4 :
    let s := Sample.settings [lit "0.0.0.0/1", lit "128.0.0.0/1"]
    let a := Sample.authenticator [⟨.v4 0, 1⟩, ⟨.v4 0x80000000, 1⟩]
    s.appEnv ≠ lit "local" ∧ s.setupAllowPublicAgentAccess = false ∧
      s.validate (· = Sample.encryptionKey) = .ok s ∧
      newAuthenticator (Sample.authConfig s.setupAgentAllowIps) = .ok a ∧
      ¬∃ x : BitVec 32, a.Rejects (.v4 x) := by
  intro s a
  have hs : s.validate (· = Sample.encryptionKey) = .ok s := by decide +kernel
  have ha : newAuthenticator (Sample.authConfig s.setupAgentAllowIps) = .ok a := by decide +kernel
  refine ⟨by decide +kernel, rfl, hs, ha, ?_⟩
  rintro ⟨x, hx⟩
  rw [rejects_v4 hs rfl ha] at hx
  have hlt := (total_lt_iff _).mpr ⟨x, hx⟩
  exact absurd hlt (by decide +kernel)

end VpnControl.Backend.Config
