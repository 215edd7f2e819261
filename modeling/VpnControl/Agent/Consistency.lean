import VpnControl.Agent.Atomicity
import VpnControl.Agent.Completion
import VpnControl.Awg.Allocation
import VpnControl.Awg.ClientsTableRoundTrip

namespace VpnControl.Agent
open Awg Strings Netip Effects Prog

/-- One non-empty line of ASCII. -/
structure OneLine (t : Text) : Prop where
  ne_nil : t ≠ []
  newline : '\n' ∉ t
  ascii : ∀ c ∈ t, c.toNat < 128

/-- Keys are single lines, and every config that is written has lines that the scanner
can read. -/
def KeyAnswers : (e : Op) → e.Res → Prop
  | .readFile .serverPublicKey, r => ∀ text, r = .ok text → OneLine (trimSpace text)
  | .readFile .presharedKey, r => ∀ text, r = .ok text → OneLine (trimSpace text)
  | .generatePrivateKey, r => ∀ key, r = .ok key → OneLine key
  | .publicKey _, r => ∀ key, r = .ok key → OneLine key
  | .writeFileAtomic .config data _, _ => LinesFit data
  | _, _ => True

instance (t : Text) : Decidable (OneLine t) :=
  decidable_of_iff (t ≠ [] ∧ '\n' ∉ t ∧ t.all (·.toNat < 128) = true)
    ⟨fun h => ⟨h.1, h.2.1, by simpa using h.2.2⟩, fun h => ⟨h.ne_nil, h.newline, by simpa using h.ascii⟩⟩

instance decidableAnswered {P : Text → Prop} [DecidablePred P] :
    (r : Except Text Text) → Decidable (∀ text, r = .ok text → P text)
  | .ok text => decidable_of_iff (P text) ⟨fun h _ heq => Except.ok.inj heq ▸ h, fun h => h text rfl⟩
  | .error _ => .isTrue fun _ heq => by cases heq

instance decidableKeyAnswers : (e : Op) → (r : e.Res) → Decidable (KeyAnswers e r)
  | .readFile .serverPublicKey, r =>
    inferInstanceAs (Decidable (∀ text, r = .ok text → OneLine (trimSpace text)))
  | .readFile .presharedKey, r =>
    inferInstanceAs (Decidable (∀ text, r = .ok text → OneLine (trimSpace text)))
  | .generatePrivateKey, r => inferInstanceAs (Decidable (∀ key, r = .ok key → OneLine key))
  | .publicKey _, r => inferInstanceAs (Decidable (∀ key, r = .ok key → OneLine key))
  | .writeFileAtomic .config data _, _ => inferInstanceAs (Decidable (LinesFit data))
  | .readFile .config, _ => .isTrue trivial
  | .readFile .clientsTable, _ => .isTrue trivial
  | .readFile (.configBackup _), _ => .isTrue trivial
  | .readFile (.clientsTableBackup _), _ => .isTrue trivial
  | .writeFileAtomic .clientsTable _ _, _ => .isTrue trivial
  | .writeFileAtomic .serverPublicKey _ _, _ => .isTrue trivial
  | .writeFileAtomic .presharedKey _ _, _ => .isTrue trivial
  | .writeFileAtomic (.configBackup _) _ _, _ => .isTrue trivial
  | .writeFileAtomic (.clientsTableBackup _) _ _, _ => .isTrue trivial
  | .now, _ => .isTrue trivial
  | .mapOrder, _ => .isTrue trivial
  | .readFileOrEmptyArray _, _ => .isTrue trivial
  | .fileInfo _, _ => .isTrue trivial
  | .backupFile .., _ => .isTrue trivial
  | .restoreFile .., _ => .isTrue trivial
  | .removeFile _, _ => .isTrue trivial
  | .syncConf, _ => .isTrue trivial
  | .awgShow, _ => .isTrue trivial

/-- Calls with their outcomes, in the order in which they released the lock. -/
abbrev History : Type := List (Call × Except ServiceError Reply)

/-- The results of the successful issues whose peer no later call has revoked. -/
def unrevokedStep (rs : List IssueResult) : Call × Except ServiceError Reply → List IssueResult
  | (_, .ok (.issued r)) => rs ++ [r]
  | (_, .ok (.revoked r)) => rs.filter (·.publicKey ≠ r.publicKey)
  | (_, .error _) => rs

def unrevoked (h : History) : List IssueResult := h.foldl unrevokedStep []

theorem unrevoked_concat (h : History) (e : Call × Except ServiceError Reply) :
    unrevoked (h ++ [e]) = unrevokedStep (unrevoked h) e := by
  simp [unrevoked, List.foldl_append]

/-- A successful revoke named the key. -/
def RevokedKey (h : History) (publicKey : Text) : Prop :=
  ∃ c r, (c, .ok (.revoked r)) ∈ h ∧ r.publicKey = publicKey

/-- Every call that failed did so before it changed anything, or with a completed rollback. -/
def Recovered (h : History) : Prop :=
  ∀ c cause details, (c, .error (.rollbackFailed cause details)) ∉ h

/-- What holds of the two files whenever the lock is free: the config parses and is
valid; issued peers are in it with their one address, and in the clients table; peers of
the first config that no revoke named are as they were; no two issued peers share an
address. -/
structure Consistent (fmt : FloatFormat) (first : Config) (w : World) (h : History) : Prop where
  config : ∃ text cfg, w.files .config = some text ∧ parseConfig text = .ok cfg ∧
    cfg.validate = .ok () ∧
    (∀ r ∈ unrevoked h, ∃ p ∈ cfg.peers, p.publicKey = r.publicKey ∧
      p.allowedIPs = [r.clientIP ++ lit "/32"]) ∧
    (∀ p ∈ first.peers, ¬RevokedKey h p.publicKey → p ∈ cfg.peers)
  clientsTable : ∀ r ∈ unrevoked h, ∀ iter, ∃ table,
    parseClientsTable fmt iter ((w.files .clientsTable).getD (lit "[]\n")) = .ok table ∧
    r.publicKey ∈ table.ids

section Consistent
variable {fmt : FloatFormat} {first : Config} {w w' : World} {h : History} {c : Call}

/-- Two issued peers with one address are one peer. -/
theorem Consistent.clientIP_inj (hw : Consistent fmt first w h) {r r' : IssueResult}
    (hr : r ∈ unrevoked h) (hr' : r' ∈ unrevoked h) (hip : r.clientIP = r'.clientIP) :
    r.publicKey = r'.publicKey := by
  obtain ⟨text, cfg, -, -, hvalid, hissued, -⟩ := hw.config
  have hpeers := (validate_ok.mp hvalid).peers
  obtain ⟨p, hp, hkey, hips⟩ := hissued r hr
  obtain ⟨p', hp', hkey', hips'⟩ := hissued r' hr'
  by_contra hne
  have hpp : p ≠ p' := by
    rintro rfl
    exact hne (hkey.symm.trans hkey')
  have hcompat : Compatible p p' := hpeers.pairwise.forall hp hp' hpp
  obtain ⟨m, hm⟩ := Option.isSome_iff_exists.mp
    ((hpeers.each p hp).parsed (r.clientIP ++ lit "/32") (by simp [hips]))
  have hroute : m ∈ p.routes := by simp [Peer.routes, hips, hm]
  have hroute' : m ∈ p'.routes := by simp [Peer.routes, hips', ← hip, hm]
  have hself : m.overlaps m = true :=
    (Prefix.overlaps_iff m m).mpr ⟨m.addr, m.contains_addr, m.contains_addr⟩
  rw [hcompat.routes m hroute m hroute'] at hself
  cases hself

theorem Consistent.failed (hw : Consistent fmt first w h) (hsame : Unchanged w w')
    (x : ServiceError) : Consistent fmt first w' (h ++ [(c, .error x)]) := by
  have hun : unrevoked (h ++ [(c, .error x)]) = unrevoked h := unrevoked_concat h _
  have hrev : ∀ k, RevokedKey (h ++ [(c, .error x)]) k ↔ RevokedKey h k := by
    simp [RevokedKey]
  refine ⟨?_, ?_⟩
  · simp only [hun, hrev, hsame.config]
    exact hw.config
  · simp only [hun, hsame.clientsTable]
    exact hw.clientsTable

/-- A config that is written can be read again, with the same peers. -/
theorem Written.reread {cfg : Config} {table : ClientsTable} (hwrite : Written KeyAnswers cfg table w)
    (hcfg : cfg.WellFormed) (hvalid : cfg.validate = .ok ()) :
    ∃ text cfg', w.files .config = some text ∧ parseConfig text = .ok cfg' ∧
      cfg'.validate = .ok () ∧ cfg'.peers = cfg.peers :=
  ⟨_, Awg.reread cfg, hwrite.config, parseConfig_renderConfig hcfg hwrite.answered,
    validate_ok.mpr ((valid_reread hcfg).mpr (validate_ok.mp hvalid)), peers_reread⟩

theorem Written.parse {cfg : Config} {table : ClientsTable} (hwrite : Written KeyAnswers cfg table w)
    (htable : table.Canonical fmt) (iter : MapOrder) :
    parseClientsTable fmt iter ((w.files .clientsTable).getD (lit "[]\n")) = .ok table := by
  obtain ⟨text, hrender, hfile⟩ := hwrite.clientsTable
  rw [hfile, Option.getD_some, parseClientsTable_render htable hrender]

theorem Consistent.issued (hw : Consistent fmt first w h) {name : Text} {cfg : Config}
    {table : ClientsTable} {r : IssueResult}
    (hprepared : Prepared KeyAnswers fmt w name cfg table r) (hwrite : Written KeyAnswers cfg table w') :
    Consistent fmt first w' (h ++ [(c, .ok (.issued r))]) := by
  obtain ⟨text, cfg₀, hfile, hparse, -, hissued, hkept⟩ := hw.config
  obtain ⟨⟨cfg₁, table₁, runtime, privateKey, pskFile, ip, creationDate, hholds, -, -, htrim, hkey,
    hpsk, halloc, hip, rfl, rfl⟩, hvalid⟩ := hprepared
  obtain ⟨text', hfile', hparse'⟩ := hholds.config
  obtain rfl : text = text' := Option.some.inj (hfile.symm.trans hfile')
  obtain rfl : cfg₀ = cfg₁ := Except.ok.inj (hparse.symm.trans hparse')
  obtain ⟨iter, htable⟩ := hholds.table
  have hun : unrevoked (h ++ [(c, .ok (.issued r))]) = unrevoked h ++ [r] := unrevoked_concat h _
  have hrev : ∀ k, RevokedKey (h ++ [(c, .ok (.issued r))]) k ↔ RevokedKey h k := by
    simp [RevokedKey]
  -- what was written reads back: the new peer is well-formed, so is the whole config
  have hpeer : Peer.WellFormed
      { publicKey := r.publicKey, presharedKey := trimSpace pskFile,
        allowedIPs := [r.clientIP ++ lit "/32"] } := by
    obtain ⟨x, rfl⟩ := allocateFreeIPv4_v4 halloc
    refine ⟨⟨htrim, (hkey _ rfl).newline⟩, ⟨trimSpace_idem _, (hpsk _ rfl).newline⟩, ?_, by simp⟩
    simpa [hip] using allowedEntry_host x
  have hwf : (cfg₀.addPeer
      { publicKey := r.publicKey, presharedKey := trimSpace pskFile,
        allowedIPs := [r.clientIP ++ lit "/32"] }).WellFormed := by
    have hcfg := parseConfig_wellFormed hparse
    refine ⟨hcfg.interface, fun p hp => ?_⟩
    rcases List.mem_append.mp hp with hp | hp
    · exact hcfg.peers p hp
    · rw [List.mem_singleton.mp hp]
      exact hpeer
  obtain ⟨text₂, cfg₂, hfile₂, hparse₂, hvalid₂, hpeers⟩ := hwrite.reread hwf hvalid
  have hcanonical : table₁.Canonical fmt := parseClientsTable_canonical htable
  refine ⟨⟨text₂, cfg₂, hfile₂, hparse₂, hvalid₂, ?_, ?_⟩, ?_⟩
  -- the peers of the calls so far, and the new one
  · rw [hun, hpeers]
    intro r' hr'
    rcases List.mem_append.mp hr' with hr' | hr'
    · obtain ⟨p, hp, hp'⟩ := hissued r' hr'
      exact ⟨p, List.mem_append_left _ hp, hp'⟩
    · rw [List.mem_singleton.mp hr']
      exact ⟨_, List.mem_append_right _ (List.mem_singleton_self _), rfl, rfl⟩
  · rw [hpeers]
    intro p hp hnot
    exact List.mem_append_left _ (hkept p hp fun hk => hnot ((hrev _).mpr hk))
  -- their entries in the clients table
  · rw [hun]
    intro r' hr' iter'
    refine ⟨_, hwrite.parse (addOrUpdate_canonical hcanonical _ _ _ _) iter',
      mem_ids_addOrUpdate.mpr ?_⟩
    rcases List.mem_append.mp hr' with hr' | hr'
    · obtain ⟨table', htable', hmem⟩ := hw.clientsTable r' hr' iter
      obtain rfl : table' = table₁ := Except.ok.inj (htable'.symm.trans htable)
      exact .inl hmem
    · rw [List.mem_singleton.mp hr']
      exact .inr rfl

theorem Consistent.revoked (hw : Consistent fmt first w h) {r : RevokeResult} {cfg : Config}
    {table : ClientsTable} (hholds : Holds fmt w cfg table) (hvalid : cfg.validate = .ok ())
    (hwrite : Written KeyAnswers (cfg.removePeer r.publicKey).1 (table.remove r.publicKey).1 w') :
    Consistent fmt first w' (h ++ [(c, .ok (.revoked r))]) := by
  obtain ⟨text, cfg₀, hfile, hparse, -, hissued, hkept⟩ := hw.config
  obtain ⟨text', hfile', hparse'⟩ := hholds.config
  obtain rfl : text = text' := Option.some.inj (hfile.symm.trans hfile')
  obtain rfl : cfg₀ = cfg := Except.ok.inj (hparse.symm.trans hparse')
  obtain ⟨iter, htable⟩ := hholds.table
  have hun : unrevoked (h ++ [(c, .ok (.revoked r))]) =
      (unrevoked h).filter (·.publicKey ≠ r.publicKey) := unrevoked_concat h _
  have hmem : ∀ r', r' ∈ unrevoked (h ++ [(c, .ok (.revoked r))]) ↔
      r' ∈ unrevoked h ∧ r'.publicKey ≠ r.publicKey := by
    simp [hun]
  -- what was written reads back: a config without one of its peers stays well-formed and valid
  have hwf : (cfg₀.removePeer r.publicKey).1.WellFormed := by
    have hcfg := parseConfig_wellFormed hparse
    exact ⟨hcfg.interface, fun p hp => hcfg.peers p (List.mem_of_mem_filter hp)⟩
  have hvalid' : (cfg₀.removePeer r.publicKey).1.validate = .ok () :=
    validate_ok.mpr ((validate_ok.mp hvalid).removePeer _)
  obtain ⟨text₂, cfg₂, hfile₂, hparse₂, hvalid₂, hpeers⟩ := hwrite.reread hwf hvalid'
  have hcanonical : table.Canonical fmt := parseClientsTable_canonical htable
  have hfilter : ∀ p, p ∈ cfg₂.peers ↔ p ∈ cfg₀.peers ∧ p.publicKey ≠ r.publicKey := by
    simp [hpeers, Config.removePeer]
  refine ⟨⟨text₂, cfg₂, hfile₂, hparse₂, hvalid₂, ?_, ?_⟩, ?_⟩
  -- issued and not revoked: the peer was there and has another key
  · intro r' hr'
    obtain ⟨hr', hne⟩ := (hmem r').mp hr'
    obtain ⟨p, hp, hkey, hips⟩ := hissued r' hr'
    exact ⟨p, (hfilter p).mpr ⟨hp, hkey ▸ hne⟩, hkey, hips⟩
  · intro p hp hnot
    refine (hfilter p).mpr ⟨hkept p hp ?_, fun hk => hnot ⟨c, r, by simp, hk.symm⟩⟩
    rintro ⟨c', r', hmem', hk⟩
    exact hnot ⟨c', r', List.mem_append_left _ hmem', hk⟩
  · intro r' hr' iter'
    obtain ⟨hr', hne⟩ := (hmem r').mp hr'
    obtain ⟨table', htable', hmem'⟩ := hw.clientsTable r' hr' iter
    obtain rfl : table' = table := Except.ok.inj (htable'.symm.trans htable)
    exact ⟨_, hwrite.parse (remove_canonical hcanonical _) iter', mem_ids_remove.mpr ⟨hmem', hne⟩⟩

end Consistent
end VpnControl.Agent
