import VpnControl.Awg.RoundTrip
import VpnControl.Awg.NetipText
import Mathlib.Data.List.Pairwise

namespace VpnControl.Awg
open Strings Trim Netip

/-- The prefixes that a peer's AllowedIPs stand for. -/
def Peer.routes (p : Peer) : List Prefix := p.allowedIPs.filterMap parsePrefix

/-- What `Validate` asks of a peer by itself. -/
structure Peer.Valid (p : Peer) : Prop where
  publicKey : p.publicKey ≠ []
  allowedIPs : p.allowedIPs ≠ []
  parsed : ∀ a ∈ p.allowedIPs, (parsePrefix a).isSome

/-- What `Validate` asks of two peers: different keys and no common address. -/
structure Compatible (p q : Peer) : Prop where
  publicKey : p.publicKey ≠ q.publicKey
  routes : ∀ m ∈ p.routes, ∀ n ∈ q.routes, m.overlaps n = false

instance : Std.Symm Compatible where
  symm _ _ h := ⟨h.publicKey.symm, fun m hm n hn => by
    rw [Prefix.overlaps_comm, h.routes n hn m hm]⟩

structure PeersValid (ps : List Peer) : Prop where
  each : ∀ p ∈ ps, p.Valid
  pairwise : ps.Pairwise Compatible

structure Config.Valid (c : Config) : Prop where
  address : c.interfaceAddress ≠ none
  listenPort : c.listenPort ≠ []
  peers : PeersValid c.peers

theorem validateAllowed_ok {owner : Text} {seen seen' : List SeenPrefix} {as : List Text} :
    validateAllowed owner seen as = .ok seen' ↔
      (∀ a ∈ as, (parsePrefix a).isSome) ∧
      (∀ m ∈ as.filterMap parsePrefix, ∀ s ∈ seen, s.owner ≠ owner → m.overlaps s.net = false) ∧
      seen' = seen ++ (as.filterMap parsePrefix).map (⟨·, owner⟩) := by
  induction as generalizing seen with
  | nil =>
    simp only [validateAllowed, Except.ok.injEq]
    simp [@eq_comm _ seen]
  | cons a as ih =>
    rw [validateAllowed]
    cases hp : parsePrefix a with
    | none => simp [hp]
    | some p =>
      simp only
      cases hf : seen.find? fun other => other.owner ≠ owner && p.overlaps other.net with
      | some other =>
        have hmem := List.mem_of_find?_eq_some hf
        have hprop := List.find?_some hf
        simp only [ne_eq, decide_not, Bool.and_eq_true, Bool.not_eq_true',
          decide_eq_false_iff_not] at hprop
        simp only [reduceCtorEq, false_iff, not_and]
        intro _ hno
        have := hno p (by simp [hp]) other hmem hprop.1
        simp [hprop.2] at this
      | none =>
        have hnone : ∀ s ∈ seen, s.owner ≠ owner → p.overlaps s.net = false := by
          intro s hs ho
          have := List.find?_eq_none.mp hf s hs
          simpa [ho] using this
        simp only
        rw [ih]
        simp only [List.mem_cons, forall_eq_or_imp, hp, Option.isSome_some, true_and,
          List.filterMap_cons_some hp, List.map_cons, List.append_assoc, List.singleton_append,
          List.mem_append]
        constructor
        · rintro ⟨h₁, h₂, h₃⟩
          exact ⟨h₁, ⟨hnone, fun m hm s hs => h₂ m hm s (.inl hs)⟩, h₃⟩
        · rintro ⟨h₁, ⟨-, h₂⟩, h₃⟩
          refine ⟨h₁, fun m hm s hs ho => ?_, h₃⟩
          rcases hs with hs | hs
          · exact h₂ m hm s hs ho
          · have hown : s = ⟨p, owner⟩ := by simpa using hs
            exact absurd (by rw [hown]) ho

/-- The loop accepts the peers that are valid by themselves, new to what was seen before
and compatible with each other. -/
theorem validatePeers_ok {number : Nat} {keys : List Text} {seen : List SeenPrefix}
    (hseen : ∀ s ∈ seen, s.owner ∈ keys) {ps : List Peer} :
    validatePeers number keys seen ps = .ok () ↔
      (∀ p ∈ ps, p.Valid ∧ p.publicKey ∉ keys ∧
        ∀ m ∈ p.routes, ∀ s ∈ seen, m.overlaps s.net = false) ∧ ps.Pairwise Compatible := by
  -- over the peers, with the keys and the networks of those before
  induction ps generalizing number keys seen with
  | nil => simp [validatePeers]
  | cons p ps ih =>
    rw [validatePeers]
    by_cases hkey : p.publicKey = []
    · rw [if_pos hkey]
      simp only [reduceCtorEq, false_iff]
      exact fun h => (h.1 p (by simp)).1.publicKey hkey
    rw [if_neg hkey]
    by_cases hdup : p.publicKey ∈ keys
    · rw [if_pos hdup]
      simp only [reduceCtorEq, false_iff]
      exact fun h => (h.1 p (by simp)).2.1 hdup
    rw [if_neg hdup]
    by_cases hips : p.allowedIPs = []
    · rw [if_pos hips]
      simp only [reduceCtorEq, false_iff]
      exact fun h => (h.1 p (by simp)).1.allowedIPs hips
    rw [if_neg hips]
    have howner : ∀ s ∈ seen, s.owner ≠ p.publicKey := fun s hs he => hdup (he ▸ hseen s hs)
    -- the networks of this peer against those of the peers before
    cases hv : validateAllowed p.publicKey seen p.allowedIPs with
    | error e =>
      simp only [reduceCtorEq, false_iff]
      intro h
      obtain ⟨hp, -, hs⟩ := h.1 p (by simp)
      have hok : validateAllowed p.publicKey seen p.allowedIPs = .ok _ :=
        validateAllowed_ok.mpr ⟨hp.parsed, fun m hm s hms _ => hs m hm s hms, rfl⟩
      rw [hv] at hok
      cases hok
    | ok seen' =>
      obtain ⟨hparsed, hno, rfl⟩ := validateAllowed_ok.mp hv
      simp only
      -- the rest: what was seen is now also this key and its networks
      rw [ih]
      · simp only [List.mem_append, List.mem_cons, List.not_mem_nil, or_false, not_or,
          forall_eq_or_imp, List.pairwise_cons]
        constructor
        · rintro ⟨h₁, h₂⟩
          refine ⟨⟨⟨⟨hkey, hips, hparsed⟩, hdup, fun m hm s hs => hno m hm s hs (howner s hs)⟩,
            fun q hq => ?_⟩, fun q hq => ?_, h₂⟩
          · obtain ⟨hq₁, hq₂, hq₃⟩ := h₁ q hq
            exact ⟨hq₁, hq₂.1, fun m hm s hs => hq₃ m hm s (.inl hs)⟩
          · obtain ⟨-, hq₂, hq₃⟩ := h₁ q hq
            refine ⟨Ne.symm hq₂.2, fun m hm n hn => ?_⟩
            rw [Prefix.overlaps_comm]
            exact hq₃ n hn ⟨m, p.publicKey⟩ (.inr (List.mem_map.mpr ⟨m, hm, rfl⟩))
        · rintro ⟨⟨-, h₁⟩, h₂, h₃⟩
          refine ⟨fun q hq => ?_, h₃⟩
          obtain ⟨hq₁, hq₂, hq₃⟩ := h₁ q hq
          refine ⟨hq₁, ⟨hq₂, (h₂ q hq).publicKey.symm⟩, fun m hm s hs => ?_⟩
          rcases hs with hs | hs
          · exact hq₃ m hm s hs
          · obtain ⟨n, hn, rfl⟩ := List.mem_map.mp hs
            rw [Prefix.overlaps_comm]
            exact (h₂ q hq).routes n hn m hm
      · intro s hs
        rcases List.mem_append.mp hs with hs | hs
        · exact List.mem_append_left _ (hseen s hs)
        · obtain ⟨n, -, rfl⟩ := List.mem_map.mp hs
          simp

/-- The entry of a single address, as it is written in a config. -/
theorem allowedEntry_host (x : BitVec 32) : AllowedEntry ((Addr.v4 x).text ++ lit "/32") := by
  have hmem : ∀ c ∈ (Addr.v4 x).text ++ lit "/32",
      (('0' ≤ c ∧ c ≤ '9') ∨ c = '.') ∨ c = '/' ∨ c = '3' ∨ c = '2' := by
    intro c hc
    rcases List.mem_append.mp hc with hc | hc
    · exact .inl (mem_string4 hc)
    · exact .inr (by simpa [lit_eq] using hc)
  have hspace : ∀ c ∈ (Addr.v4 x).text ++ lit "/32", isSpace c = false := by
    intro c hc
    rcases hmem c hc with (⟨hlo, hhi⟩ | rfl) | rfl | rfl | rfl
    · have h₁ : '!' ≤ '0' := by decide
      have h₂ : '9' ≤ '~' := by decide
      exact isSpace_graphic (Char.le_trans h₁ hlo) (Char.le_trans hhi h₂)
    · rfl
    · rfl
    · rfl
    · rfl
  refine ⟨⟨trimmed_of_forall hspace, fun h => ?_⟩, by simp [lit_eq], fun h => ?_⟩
  · exact absurd (hmem _ h) (by decide)
  · exact absurd (hmem _ h) (by decide)

theorem validate_ok {c : Config} : c.validate = .ok () ↔ c.Valid := by
  rw [Config.validate]
  by_cases ha : c.interfaceAddress = none
  · rw [if_pos ha]
    simp only [reduceCtorEq, false_iff]
    exact fun h => h.address ha
  rw [if_neg ha]
  by_cases hl : c.listenPort = []
  · rw [if_pos hl]
    simp only [reduceCtorEq, false_iff]
    exact fun h => h.listenPort hl
  rw [if_neg hl, validatePeers_ok (by simp)]
  constructor
  · rintro ⟨h₁, h₂⟩
    exact ⟨ha, hl, fun p hp => (h₁ p hp).1, h₂⟩
  · rintro ⟨-, -, h₁, h₂⟩
    exact ⟨fun p hp => ⟨h₁ p hp, by simp, by simp⟩, h₂⟩

theorem PeersValid.sublist {ps qs : List Peer} (h : PeersValid qs) (hs : ps.Sublist qs) :
    PeersValid ps :=
  ⟨fun p hp => h.each p (hs.mem hp), h.pairwise.sublist hs⟩

theorem PeersValid.concat {ps : List Peer} {q : Peer} :
    PeersValid (ps ++ [q]) ↔ PeersValid ps ∧ q.Valid ∧ ∀ p ∈ ps, Compatible p q := by
  constructor
  · intro h
    obtain ⟨hps, -, hpq⟩ := List.pairwise_append.mp h.pairwise
    exact ⟨⟨fun p hp => h.each p (by simp [hp]), hps⟩, h.each q (by simp),
      fun p hp => hpq p hp q (by simp)⟩
  · rintro ⟨hps, hq, hpq⟩
    refine ⟨?_, List.pairwise_append.mpr ⟨hps.pairwise, by simp, by simpa using hpq⟩⟩
    intro p hp
    rcases List.mem_append.mp hp with hp | hp
    · exact hps.each p hp
    · rw [List.mem_singleton.mp hp]
      exact hq

/-- Removing peers keeps a config valid. -/
theorem Config.Valid.removePeer {c : Config} (h : c.Valid) (publicKey : Text) :
    (c.removePeer publicKey).1.Valid :=
  ⟨h.address, h.listenPort, h.peers.sublist List.filter_sublist⟩

section Reread
variable {c : Config}

theorem find?_reread (hc : c.WellFormed) (key : Text) :
    (reread c).interfaceValue key = c.interfaceValue key := by
  have hblank : ∀ l : InterfaceLine, l.WellFormed → trimSpace l.raw = [] → l.hasKV = false := by
    intro l hl hr
    rw [← hl.parsed]
    simp [parseInterfaceLine, parseAssignment, hr]
  have hsplit : trimTrailingEmptyInterfaceLines c.interface ++
      c.interface.rtakeWhile (fun line => trimSpace line.raw = []) = c.interface := by
    simp only [trimTrailingEmptyInterfaceLines, List.rdropWhile, List.rtakeWhile]
    rw [← List.reverse_append, List.takeWhile_append_dropWhile, List.reverse_reverse]
  have hnone : (c.interface.rtakeWhile fun line => trimSpace line.raw = []).find?
      (fun line => line.hasKV && equalFold line.key key) = none := by
    rw [List.find?_eq_none]
    intro l hl
    have hmem : l ∈ c.interface := (List.rtakeWhile_suffix _ _).sublist.mem hl
    have hraw : trimSpace l.raw = [] := by simpa using List.mem_rtakeWhile_imp hl
    simp [hblank l (hc.interface l hmem) hraw]
  have hlast : [blankInterfaceLine].find?
      (fun line => line.hasKV && equalFold line.key key) = none := rfl
  rw [Config.interfaceValue, Config.interfaceValue, reread]
  conv_rhs => rw [← hsplit]
  simp only [List.find?_append, hnone, hlast]

theorem interfaceAddress_reread (hc : c.WellFormed) :
    (reread c).interfaceAddress = c.interfaceAddress := by
  rw [Config.interfaceAddress, Config.interfaceAddress, find?_reread hc]

theorem listenPort_reread (hc : c.WellFormed) : (reread c).listenPort = c.listenPort := by
  rw [Config.listenPort, Config.listenPort, find?_reread hc]

@[simp] theorem peers_reread : (reread c).peers = c.peers := rfl

theorem valid_reread (hc : c.WellFormed) : (reread c).Valid ↔ c.Valid := by
  constructor
  · rintro ⟨ha, hl, hp⟩
    exact ⟨interfaceAddress_reread hc ▸ ha, listenPort_reread hc ▸ hl, hp⟩
  · rintro ⟨ha, hl, hp⟩
    exact ⟨by rwa [interfaceAddress_reread hc], by rwa [listenPort_reread hc], hp⟩

end Reread
end VpnControl.Awg
