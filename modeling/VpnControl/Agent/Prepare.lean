import VpnControl.Agent.Rules

namespace VpnControl.Agent
open Awg Strings Effects Prog

/-- The config and the clients table that the files of a container hold. -/
structure Holds (fmt : FloatFormat) (w : World) (cfg : Config) (table : ClientsTable) : Prop where
  config : ∃ text, w.files .config = some text ∧ parseConfig text = .ok cfg
  table : ∃ iter, parseClientsTable fmt iter ((w.files .clientsTable).getD (lit "[]\n")) = .ok table

/-- How the state that `Issue` writes comes from the one it read. -/
structure Prepared (allowed : (e : Op) → e.Res → Prop) (fmt : FloatFormat) (w : World) (name : Text)
    (cfg' : Config) (table' : ClientsTable) (result : IssueResult) : Prop where
  made : ∃ cfg table runtime privateKey pskFile ip creationDate, Holds fmt w cfg table ∧
    cfg.validate = .ok () ∧ cfg.findPeer result.publicKey = none ∧
    trimSpace result.publicKey = result.publicKey ∧
    allowed (.publicKey privateKey) (.ok result.publicKey) ∧
    allowed (.readFile .presharedKey) (.ok pskFile) ∧
    allocateFreeIPv4 cfg (runtimeUsed runtime) = .ok ip ∧ result.clientIP = ip.text ∧
    cfg' = cfg.addPeer
      { publicKey := result.publicKey, presharedKey := trimSpace pskFile,
        allowedIPs := [result.clientIP ++ lit "/32"] } ∧
    table' = table.addOrUpdate result.publicKey name (result.clientIP ++ lit "/32") creationDate
  validates : cfg'.validate = .ok ()

namespace Service
variable {allowed : (e : Op) → e.Res → Prop} {w : World} (s : Service)

theorem reads_readState :
    wp (dockerEnv allowed) s.readState (Reads w fun r => Holds s.fmt w r.1 r.2.1) w := by
  unfold readState
  refine reads_bind (reads_readFile .config) fun configText hconfig => ?_
  refine reads_bind reads_mapError fun cfg hcfg => ?_
  refine reads_bind (reads_readFileOrEmptyArray .clientsTable) fun tableText htable => ?_
  refine reads_bind (reads_ask ⟨rfl, by simp⟩) fun iter _ => ?_
  refine reads_bind reads_mapError fun table hparsed => ?_
  refine reads_bind reads_awgShow fun runtimeText _ => ?_
  exact reads_ret ⟨⟨configText, hconfig.1, hcfg⟩, ⟨iter, htable ▸ hparsed⟩⟩

theorem reads_readTrimmed (file : FilePath) :
    wp (dockerEnv allowed) (s.readTrimmed file) (Reads w fun value =>
      ∃ text, allowed (.readFile file) (.ok text) ∧ trimSpace text = value) w := by
  unfold readTrimmed
  refine reads_bind (reads_readFile file) fun text htext => ?_
  refine reads_bind reads_refuseIf fun _ _ => ?_
  exact reads_ret ⟨text, htext.2, rfl⟩

theorem reads_prepareIssue (req : IssueRequest) (endpointHost : Text) :
    wp (dockerEnv allowed) (s.prepareIssue req endpointHost)
      (Reads w fun r => Prepared allowed s.fmt w req.name r.1 r.2.1 r.2.2) w := by
  unfold prepareIssue
  refine reads_bind s.reads_readState ?_
  rintro ⟨cfg, table, runtime⟩ hholds
  refine reads_bind reads_mapError fun _ hvalid => ?_
  refine reads_bind reads_generatePrivateKey fun privateKey _ => ?_
  refine reads_bind (reads_derivePublicKey privateKey) fun publicKey hkey => ?_
  refine reads_bind reads_refuseIf fun _ hnew => ?_
  refine reads_bind reads_mapError fun clientIP hip => ?_
  refine reads_bind (s.reads_readTrimmed .serverPublicKey) fun serverPublicKey _ => ?_
  refine reads_bind (s.reads_readTrimmed .presharedKey) ?_
  rintro psk ⟨pskFile, hpsk, rfl⟩
  refine reads_bind reads_mapError fun _ hvalid' => ?_
  refine reads_bind (reads_ask ⟨rfl, by simp⟩) fun now _ => ?_
  refine reads_bind reads_mapError fun clientConfig _ => ?_
  refine reads_bind reads_mapError fun vpnURL _ => ?_
  exact reads_ret ⟨⟨cfg, table, runtime.peers, privateKey, pskFile, clientIP, now.creationDate,
    hholds, hvalid, by simpa using hnew, hkey.1, hkey.2, hpsk, hip, rfl, rfl, rfl⟩, hvalid'⟩

theorem reads_prepareRevoke (publicKey : Text) :
    wp (dockerEnv allowed) (s.prepareRevoke publicKey) (Reads w fun r =>
      Holds s.fmt w r.1 r.2 ∧ r.1.validate = .ok () ∧ r.1.findPeer publicKey ≠ none) w := by
  unfold prepareRevoke
  refine reads_bind s.reads_readState ?_
  rintro ⟨cfg, table, runtime⟩ hholds
  refine reads_bind reads_refuseIf fun _ hpeer => ?_
  refine reads_bind reads_mapError fun _ hvalid => ?_
  exact reads_ret ⟨hholds, hvalid, hpeer⟩

/-! The same programs, by the operations they use. -/

theorem uses_run {α : Type} {P : Op → Prop} {p : Docker (Except Text α)} (h : p.Uses P) :
    (run p).Uses P :=
  uses_bind h fun _ => uses_lift _

theorem uses_ask {P : Op → Prop} {e : Op} (h : P e) : (ask e).Uses P := uses_perform h

theorem uses_refuseIf {P : Op → Prop} {p : Prop} [Decidable p] {x : ServiceError} :
    (refuseIf p x).Uses P := by
  unfold refuseIf
  split <;> trivial

theorem uses_readState : s.readState.Uses Op.ReadOnly := by
  refine uses_bind (uses_run (uses_ask ⟨rfl, by simp⟩)) fun configText => ?_
  refine uses_bind (uses_lift _) fun cfg => ?_
  refine uses_bind (uses_run (uses_ask ⟨rfl, by simp⟩)) fun tableText => ?_
  refine uses_bind (uses_ask ⟨rfl, by simp⟩) fun iter => ?_
  refine uses_bind (uses_lift _) fun table => ?_
  exact uses_bind (uses_run (uses_ask ⟨rfl, by simp⟩)) fun runtimeText => trivial

theorem uses_readTrimmed (file : FilePath) : (s.readTrimmed file).Uses Op.ReadOnly := by
  refine uses_bind (uses_run (uses_ask ⟨rfl, by simp⟩)) fun value => ?_
  exact uses_bind uses_refuseIf fun _ => trivial

theorem uses_prepareIssue (req : IssueRequest) (endpointHost : Text) :
    (s.prepareIssue req endpointHost).Uses Op.ReadOnly := by
  refine uses_bind s.uses_readState ?_
  rintro ⟨cfg, table, runtime⟩
  refine uses_bind (uses_lift _) fun _ => ?_
  refine uses_bind (uses_run (uses_ask ⟨rfl, by simp⟩)) fun privateKey => ?_
  refine uses_bind (uses_run (uses_ask ⟨rfl, by simp⟩)) fun publicKey => ?_
  refine uses_bind uses_refuseIf fun _ => ?_
  refine uses_bind (uses_lift _) fun clientIP => ?_
  refine uses_bind (s.uses_readTrimmed .serverPublicKey) fun serverPublicKey => ?_
  refine uses_bind (s.uses_readTrimmed .presharedKey) fun psk => ?_
  refine uses_bind (uses_lift _) fun _ => ?_
  refine uses_bind (uses_ask ⟨rfl, by simp⟩) fun now => ?_
  refine uses_bind (uses_lift _) fun clientConfig => ?_
  exact uses_bind (uses_lift _) fun vpnURL => trivial

theorem uses_prepareRevoke (publicKey : Text) : (s.prepareRevoke publicKey).Uses Op.ReadOnly := by
  refine uses_bind s.uses_readState ?_
  rintro ⟨cfg, table, runtime⟩
  refine uses_bind uses_refuseIf fun _ => ?_
  exact uses_bind (uses_lift _) fun _ => trivial

end Service
end VpnControl.Agent
