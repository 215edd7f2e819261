import VpnControl.Agent.Service
import VpnControl.Awg.Allocation

namespace VpnControl.Awg
open Strings Netip

/-- The address is in a prefix of the peer's AllowedIPs. -/
def Peer.Owns (p : Peer) (x : Addr) : Prop :=
  ∃ entry ∈ p.allowedIPs, ∃ m, parsePrefix entry = some m ∧ m.contains x = true

/-- What a config has to be like to be valid, in terms of its lines and of single addresses. -/
structure Config.Sound (c : Config) : Prop where
  address : ∃ value, c.interfaceValue (lit "Address") = some value ∧
    trimSpace (value.takeWhile (· ≠ ',')) ≠ []
  listenPort : ∃ value, c.interfaceValue (lit "ListenPort") = some value ∧ value ≠ []
  named : ∀ p ∈ c.peers, p.publicKey ≠ []
  distinct : (c.peers.map (·.publicKey)).Nodup
  routed : ∀ p ∈ c.peers, p.allowedIPs ≠ [] ∧
    ∀ entry ∈ p.allowedIPs, ∃ m, parsePrefix entry = some m
  separate : c.peers.Pairwise fun p q => ∀ x, ¬ (p.Owns x ∧ q.Owns x)

theorem Peer.owns_iff {p : Peer} {x : Addr} : p.Owns x ↔ ∃ m ∈ p.routes, m.contains x = true := by
  simp only [Owns, routes, List.mem_filterMap]
  constructor
  · rintro ⟨entry, hentry, m, hm, hx⟩
    exact ⟨m, ⟨entry, hentry, hm⟩, hx⟩
  · rintro ⟨m, ⟨entry, hentry, hm⟩, hx⟩
    exact ⟨entry, hentry, m, hm, hx⟩

/-- No two prefixes of the peers overlap when no address is owned by both. -/
theorem separate_iff {p q : Peer} :
    (∀ x, ¬ (p.Owns x ∧ q.Owns x)) ↔ ∀ m ∈ p.routes, ∀ n ∈ q.routes, m.overlaps n = false := by
  constructor
  · intro h m hm n hn
    rw [Bool.eq_false_iff]
    intro hoverlaps
    obtain ⟨x, hmx, hnx⟩ := (Prefix.overlaps_iff m n).mp hoverlaps
    exact h x ⟨Peer.owns_iff.mpr ⟨m, hm, hmx⟩, Peer.owns_iff.mpr ⟨n, hn, hnx⟩⟩
  · rintro h x ⟨hp, hq⟩
    obtain ⟨m, hm, hmx⟩ := Peer.owns_iff.mp hp
    obtain ⟨n, hn, hnx⟩ := Peer.owns_iff.mp hq
    have hoverlaps := (Prefix.overlaps_iff m n).mpr ⟨x, hmx, hnx⟩
    rw [h m hm n hn] at hoverlaps
    cases hoverlaps

theorem compatible_iff {p q : Peer} :
    Compatible p q ↔ p.publicKey ≠ q.publicKey ∧ ∀ x, ¬ (p.Owns x ∧ q.Owns x) := by
  rw [separate_iff]
  exact ⟨fun h => ⟨h.publicKey, h.routes⟩, fun h => ⟨h.1, h.2⟩⟩

/-- What `cut` finds before the first comma. -/
theorem cut_comma (value : Text) :
    (Trim.cut ',' value = none ∧ value.takeWhile (· ≠ ',') = value) ∨
      ∃ rest, Trim.cut ',' value = some (value.takeWhile (· ≠ ','), rest) := by
  by_cases h : ',' ∈ value
  · obtain ⟨before, rest, rfl, hbefore⟩ := List.eq_append_cons_of_mem h
    have htake : (before ++ ',' :: rest).takeWhile (· ≠ ',') = before := by
      rw [List.takeWhile_append_of_pos]
      · simp
      · intro c hc
        simpa using fun heq : c = ',' => hbefore (heq ▸ hc)
    exact .inr ⟨rest, by rw [htake, Trim.cut_append_cons hbefore]⟩
  · refine .inl ⟨Trim.cut_eq_none h, List.takeWhile_eq_self_iff.mpr fun c hc => ?_⟩
    simpa using fun heq : c = ',' => h (heq ▸ hc)

theorem interfaceAddress_ne_none {c : Config} : c.interfaceAddress ≠ none ↔
    ∃ value, c.interfaceValue (lit "Address") = some value ∧
      trimSpace (value.takeWhile (· ≠ ',')) ≠ [] := by
  rw [Config.interfaceAddress]
  cases c.interfaceValue (lit "Address") with
  | none => simp
  | some value =>
    simp only [Option.some.injEq, exists_eq_left']
    rcases cut_comma value with ⟨hcut, htake⟩ | ⟨rest, hcut⟩
    · rw [hcut, htake]
      simp
    · rw [hcut]
      simp

theorem listenPort_ne_nil {c : Config} : c.listenPort ≠ [] ↔
    ∃ value, c.interfaceValue (lit "ListenPort") = some value ∧ value ≠ [] := by
  rw [Config.listenPort]
  cases c.interfaceValue (lit "ListenPort") <;> simp

theorem valid_iff_sound {c : Config} : c.Valid ↔ c.Sound := by
  constructor
  · intro h
    have hpairwise := h.peers.pairwise.imp compatible_iff.mp
    refine ⟨interfaceAddress_ne_none.mp h.address, listenPort_ne_nil.mp h.listenPort,
      fun p hp => (h.peers.each p hp).publicKey, ?_, fun p hp => ?_, hpairwise.imp And.right⟩
    · exact List.pairwise_map.mpr (hpairwise.imp And.left)
    · exact ⟨(h.peers.each p hp).allowedIPs, fun entry hentry =>
        Option.isSome_iff_exists.mp ((h.peers.each p hp).parsed entry hentry)⟩
  · intro h
    refine ⟨interfaceAddress_ne_none.mpr h.address, listenPort_ne_nil.mpr h.listenPort,
      fun p hp => ?_, ?_⟩
    · exact ⟨h.named p hp, (h.routed p hp).1, fun entry hentry =>
        Option.isSome_iff_exists.mpr ((h.routed p hp).2 entry hentry)⟩
    · exact ((List.pairwise_map.mp h.distinct).and h.separate).imp compatible_iff.mpr

theorem validate_iff_sound (c : Config) : c.validate = .ok () ↔ c.Sound := by
  rw [validate_ok, valid_iff_sound]

/-- A valid config stays valid with any of its peers removed. -/
theorem validate_sublist {c : Config} (h : c.validate = .ok ()) {ps : List Peer}
    (hps : ps.Sublist c.peers) : ({ c with peers := ps } : Config).validate = .ok () := by
  obtain ⟨haddress, hport, hpeers⟩ := validate_ok.mp h
  exact validate_ok.mpr ⟨haddress, hport, hpeers.sublist hps⟩

end VpnControl.Awg

namespace VpnControl.Agent
open Awg Strings

theorem removePeer_eq_mutate {c : Config} (h : c.validate = .ok ()) (publicKey : Text)
    (table : ClientsTable) :
    Service.removePeer publicKey c table =
      Service.mutate (c.removePeer publicKey).1 (table.remove publicKey).1
        (Service.verifyRevoked publicKey) := by
  have hremoved : (c.removePeer publicKey).1.validate = .ok () :=
    validate_sublist h List.filter_sublist
  rw [Service.removePeer, hremoved]
  rfl

/-- `Validate` accepts the sound configs; they stay sound with peers removed, so that the
second `Validate` of `Revoke` lets every config through that passed the first. -/
theorem validate_sound (c : Config) : (c.validate = .ok () ↔ c.Sound) ∧
    (c.validate = .ok () →
      (∀ ps : List Peer, ps.Sublist c.peers →
        ({ c with peers := ps } : Config).validate = .ok ()) ∧
      ∀ publicKey table, Service.removePeer publicKey c table =
        Service.mutate (c.removePeer publicKey).1 (table.remove publicKey).1
          (Service.verifyRevoked publicKey)) :=
  ⟨validate_iff_sound c, fun h => ⟨fun _ => validate_sublist h, removePeer_eq_mutate h⟩⟩

/-- A peer and its neighbour: without the first the second is valid still. -/
theorem validate_sound_neighbours :
    ({ exampleConfig [{ publicKey := lit "a", allowedIPs := [lit "10.8.1.2/32"] },
        { publicKey := lit "b", allowedIPs := [lit "10.8.1.3/32"] }] with
      peers := [{ publicKey := lit "b", allowedIPs := [lit "10.8.1.3/32"] }] } : Config).validate =
      .ok () :=
  ((validate_sound (exampleConfig [{ publicKey := lit "a", allowedIPs := [lit "10.8.1.2/32"] },
    { publicKey := lit "b", allowedIPs := [lit "10.8.1.3/32"] }])).2 (by decide +kernel)).1 _
      (List.sublist_cons_self _ _)

end VpnControl.Agent
