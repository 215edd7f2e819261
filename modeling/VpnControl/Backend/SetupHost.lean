import VpnControl.Backend.SetupWorker
import VpnControl.Backend.UserCalls
import VpnControl.Awg.ClientConfig

namespace VpnControl.Backend
open Strings Trim Netip Awg Effects

def alphanumeric (c : Char) : Bool :=
  ('A' ≤ c && c ≤ 'Z') || ('a' ≤ c && c ≤ 'z') || ('0' ≤ c && c ≤ '9')

def hostChar (c : Char) : Bool := alphanumeric c || c == '.' || c == '_' || c == ':' || c == '-'

/-- The length and the pattern that `SetupJobCreateIn` demands of a host. -/
def acceptsHost : Text → Bool
  | [] => false
  | c :: host => alphanumeric c && host.length < 255 && host.all hostChar

/-- The default of `setup_agent_base_url_template`, with the host put in. -/
def defaultAgentBaseUrl (host : Text) : Text := lit "http://" ++ host ++ lit ":8090"

def isDigit (c : Char) : Bool := '0' ≤ c && c ≤ '9'

/-- A host with a port: an address with colons has to stand in brackets. -/
def splitHostPort : Text → Option (Text × Text)
  | '[' :: s =>
    match cut ']' s with
    | some (host, ':' :: port) =>
      if (parseIPv6 host).isSome ∧ port.all isDigit then some (host, port) else none
    | _ => none
  | s =>
    match cut ':' s with
    | some (host, port) => if port.all isDigit then some (host, port) else none
    | none => none

/-- The authority of an `http` URL without user information. -/
def authority (url : Text) : Option Text :=
  if lit "http://" <+: url then
    some ((url.drop (lit "http://").length).takeWhile fun c => c ≠ '/' && c ≠ '?' && c ≠ '#')
  else none

def urlHostPort (url : Text) : Option (Text × Text) := (authority url).bind splitHostPort

/-- The value of the last `Endpoint` line of a client's config. -/
def endpointValue (config : Text) : Option Text :=
  ((config.splitOn '\n').reverse.find? (lit "Endpoint = " <+: ·)).map
    (·.drop (lit "Endpoint = ").length)

def endpointHostPort (config : Text) : Option (Text × Text) :=
  (endpointValue config).bind splitHostPort

section Split
variable {host port : Text}

theorem splitHostPort_iff (hbracket : ∀ s, host ≠ '[' :: s) (hport : port.all isDigit = true) :
    splitHostPort (host ++ ':' :: port) = some (host, port) ↔ ':' ∉ host := by
  have hsplit : splitHostPort (host ++ ':' :: port) =
      match cut ':' (host ++ ':' :: port) with
      | some (host, port) => if port.all isDigit then some (host, port) else none
      | none => none := by
    cases host with
    | nil => rfl
    | cons c s =>
      rw [List.cons_append, splitHostPort]
      rintro s' ⟨rfl, -⟩
      exact hbracket s rfl
  rw [hsplit]
  by_cases hcolon : ':' ∈ host
  · -- the first colon is inside the host, so another one is left in the port
    obtain ⟨a, w, rfl, ha⟩ := List.eq_append_cons_of_mem hcolon
    have hdigits : (w ++ ':' :: port).all isDigit = false := by
      simp [isDigit]
    rw [List.append_assoc, List.cons_append, cut_append_cons ha]
    simp [hdigits]
  · rw [cut_append_cons hcolon]
    simp [hport, hcolon]

end Split

section Host
variable {host port : Text}

theorem hostChar_of_mem (h : acceptsHost host = true) {c : Char} (hc : c ∈ host) :
    hostChar c = true := by
  cases host with
  | nil => cases hc
  | cons d host =>
    simp only [acceptsHost, Bool.and_eq_true, List.all_eq_true] at h
    rcases List.mem_cons.mp hc with rfl | hc
    · simp [hostChar, h.1.1]
    · exact h.2 c hc

theorem notMem_host (h : acceptsHost host = true) {c : Char} (hc : hostChar c = false) :
    c ∉ host := fun hmem => by rw [hostChar_of_mem h hmem] at hc; cases hc

theorem urlHostPort_default (h : acceptsHost host = true) :
    urlHostPort ((defaultAgentBaseUrl host).rdropWhile (· == '/')) =
      splitHostPort (host ++ ':' :: lit "8090") := by
  have hend : (defaultAgentBaseUrl host).rdropWhile (· == '/') = defaultAgentBaseUrl host := by
    rw [defaultAgentBaseUrl, show lit ":8090" = lit ":809" ++ ['0'] by simp [lit_eq],
      ← List.append_assoc]
    exact List.rdropWhile_concat_neg _ _ _ (by decide)
  have hauthority : authority (defaultAgentBaseUrl host) = some (host ++ ':' :: lit "8090") := by
    rw [authority, defaultAgentBaseUrl, List.append_assoc, if_pos (List.prefix_append _ _),
      List.drop_left, show lit ":8090" = ':' :: lit "8090" by simp [lit_eq], Option.some.injEq,
      List.takeWhile_eq_self_iff]
    intro c hc
    have hport : ∀ c ∈ ':' :: lit "8090", (c ≠ '/' && c ≠ '?' && c ≠ '#') = true := by
      simp [lit_eq]
    rcases List.mem_append.mp hc with hc | hc
    · have hne : ∀ d, hostChar d = false → c ≠ d := fun d hd hcd => notMem_host h hd (hcd ▸ hc)
      simp [hne '/' (by decide), hne '?' (by decide), hne '#' (by decide)]
    · exact hport c hc
  rw [hend, urlHostPort, hauthority]
  rfl

/-- A text whose last lines are an endpoint's and the one about keeping alive. -/
theorem endpointValue_append (before : Text) {value : Text} (h : '\n' ∉ value) :
    endpointValue (before ++ lit "\nEndpoint = " ++ value ++ lit "\nPersistentKeepalive = 25\n") =
      some value := by
  have hlines : (before ++ lit "\nEndpoint = " ++ value ++
      lit "\nPersistentKeepalive = 25\n").splitOn '\n' =
        before.splitOn '\n' ++ [lit "Endpoint = " ++ value, lit "PersistentKeepalive = 25", []] := by
    have hendpoint : lit "\nEndpoint = " = '\n' :: lit "Endpoint = " := by simp [lit_eq]
    have hkeep : lit "\nPersistentKeepalive = 25\n" =
        '\n' :: (lit "PersistentKeepalive = 25" ++ ['\n']) := by simp [lit_eq]
    have hfirst : ∀ c ∈ lit "Endpoint = " ++ value, (c == '\n') = false := by
      intro c hc
      rw [beq_eq_false_iff_ne]
      rintro rfl
      rcases List.mem_append.mp hc with hc | hc
      · exact absurd hc (by simp [lit_eq])
      · exact h hc
    have hlast : ∀ c ∈ lit "PersistentKeepalive = 25", (c == '\n') = false := by simp [lit_eq]
    rw [hendpoint, hkeep, List.append_assoc, List.append_assoc, List.cons_append,
      List.splitOn_eq_splitOnP, List.splitOnP_append_cons _ _ (by simp), List.splitOn_eq_splitOnP,
      ← List.append_assoc, List.splitOnP_append_cons _ _ (by simp),
      List.splitOnP_eq_singleton hfirst, List.splitOnP_append_cons _ _ (by simp),
      List.splitOnP_eq_singleton hlast, List.splitOnP_nil]
    rfl
  rw [endpointValue, hlines, List.reverse_append]
  have hendpoint : lit "Endpoint = " <+: lit "Endpoint = " ++ value := List.prefix_append _ _
  have hkeep : ¬ lit "Endpoint = " <+: lit "PersistentKeepalive = 25" := by simp [lit_eq]
  have hempty : ¬ lit "Endpoint = " <+: ([] : Text) := by simp [lit_eq]
  simp [hendpoint, hkeep, hempty]

theorem endpointHostPort_render {server : Config} {params : ClientConfigParams} {config : Text}
    (h : renderClientConfig server params = .ok config) (hhost : acceptsHost params.endpointHost = true)
    (hport : server.listenPort.all isDigit = true) :
    endpointHostPort config = splitHostPort (params.endpointHost ++ ':' :: server.listenPort) := by
  have hvalue : '\n' ∉ params.endpointHost ++ ':' :: server.listenPort := by
    intro hmem
    rcases List.mem_append.mp hmem with hmem | hmem
    · exact notMem_host hhost (by decide) hmem
    · rcases List.mem_cons.mp hmem with hmem | hmem
      · exact absurd hmem (by decide)
      · exact absurd (List.all_eq_true.mp hport _ hmem) (by decide)
  rw [renderClientConfig] at h
  split_ifs at h
  split at h
  · cases h
  · cases h
    have hallowed : lit "\nAllowedIPs = 0.0.0.0/0, ::/0\nEndpoint = " =
        lit "\nAllowedIPs = 0.0.0.0/0, ::/0" ++ lit "\nEndpoint = " := by simp [lit_eq]
    rw [endpointHostPort, hallowed, ← List.append_assoc, List.append_assoc _ _ server.listenPort,
      List.append_assoc _ params.endpointHost, List.singleton_append,
      endpointValue_append _ hvalue]
    rfl

end Host

section Address
variable {ω : Type} {P : Platform ω} {b : Services} {i : Nat} {w w' : World ω}
  {credentials : AgentCredentials} {job : SetupJob} {server : Config} {params : ClientConfigParams}
  {config : Text}

theorem newCredentials_baseUrl (h : Runs (P.env i) (b.newCredentials job) w (.ok credentials) w') :
    credentials.baseUrl = (b.settings.setupAgentBaseUrl job.host).rdropWhile (· == '/') := by
  rw [Services.newCredentials] at h
  rcases runs_bind.mp h with ⟨x, h, -⟩ | ⟨keyId, w₁, -, h⟩
  · cases h
  rcases runs_bind.mp h with ⟨x, h, -⟩ | ⟨secret, w₂, -, h⟩
  · cases h
  obtain ⟨hout, -⟩ := runs_ret.mp h
  cases hout
  rfl

/-- Neither place puts an address with colons in brackets: it is split where it should not be. -/
theorem address_splits_iff (hdefault : b.settings.setupAgentBaseUrl = defaultAgentBaseUrl)
    (hhost : acceptsHost job.host = true)
    (hnew : Runs (P.env i) (b.newCredentials job) w (.ok credentials) w')
    (hparams : params.endpointHost = job.host) (hport : server.listenPort.all isDigit = true)
    (hconfig : renderClientConfig server params = .ok config) :
    (urlHostPort credentials.baseUrl = some (job.host, lit "8090") ∧
      endpointHostPort config = some (job.host, server.listenPort)) ↔ ':' ∉ job.host := by
  have hbracket : ∀ s, job.host ≠ '[' :: s := by
    intro s h
    exact notMem_host hhost (by decide) (h ▸ List.mem_cons_self)
  rw [newCredentials_baseUrl hnew, hdefault, urlHostPort_default hhost,
    endpointHostPort_render hconfig (hparams ▸ hhost) hport, hparams,
    splitHostPort_iff hbracket (by simp only [lit_eq]; decide), splitHostPort_iff hbracket hport, and_self]

end Address

namespace Sample

/-- A job on a host, as it is when the worker takes it. -/
def jobOn (host : Text) : SetupJob where
  id := lit "j"
  createdByUserId := lit "u"
  serverName := lit "edge"
  host
  sshPort := 22
  sshUsername := lit "root"
  authMethod := .password
  createdAt := 0
  updatedAt := 0
  status := .checkingSsh

def defaults : Services := ⟨wire, { setupAgentBaseUrl := defaultAgentBaseUrl }⟩

def serverConfig : Config := { interface := [parseInterfaceLine (lit "ListenPort = 51820")] }

def endpointParams (host : Text) : ClientConfigParams where
  clientPrivateKey := lit "a"
  clientIP := some (.v4 0x0a080102)
  serverPublicKey := lit "b"
  presharedKey := lit "c"
  endpointHost := host
  dns := []

def credentials (host : Text) : AgentCredentials where
  keyId := lit "key"
  secret := lit "secret"
  baseUrl := (defaultAgentBaseUrl host).rdropWhile (· == '/')

theorem newCredentials_run (w : World Unit) (host : Text) :
    Runs ((scenario .database).platform.env 0) (defaults.newCredentials (jobOn host)) w
      (.ok (credentials host)) w := by
  have hkey : (scenario .database).platform.env 0 w .generateAgentKeyId (.ok (lit "key")) w := rfl
  have hsecret : (scenario .database).platform.env 0 w .generateAgentSecret (.ok (lit "secret")) w :=
    rfl
  rw [Services.newCredentials]
  refine runs_bind.mpr (.inr ⟨_, w, runs_op.mpr ⟨_, w, hkey, runs_ret.mpr ⟨rfl, rfl⟩⟩, ?_⟩)
  refine runs_bind.mpr (.inr ⟨_, w, runs_op.mpr ⟨_, w, hsecret, runs_ret.mpr ⟨rfl, rfl⟩⟩, ?_⟩)
  exact runs_ret.mpr ⟨rfl, rfl⟩

theorem renders {host : Text} (h : host ≠ []) :
    ∃ config, renderClientConfig serverConfig (endpointParams host) = .ok config := by
  have hkeys : (endpointParams host).clientPrivateKey ≠ [] ∧
      (endpointParams host).serverPublicKey ≠ [] ∧ (endpointParams host).presharedKey ≠ [] := by
    simp [endpointParams, lit_eq]
  have hport : serverConfig.listenPort ≠ [] := by decide +kernel
  have hhost : (endpointParams host).endpointHost ≠ [] := h
  rw [renderClientConfig, if_neg hkeys.1, if_neg hkeys.2.1, if_neg hkeys.2.2, if_neg hhost,
    if_neg hport]
  exact ⟨_, rfl⟩

end Sample

theorem address_of_name_splits : ∃ config,
    renderClientConfig Sample.serverConfig (Sample.endpointParams (lit "edge.example")) = .ok config ∧
    urlHostPort (Sample.credentials (lit "edge.example")).baseUrl =
      some (lit "edge.example", lit "8090") ∧
    endpointHostPort config = some (lit "edge.example", Sample.serverConfig.listenPort) := by
  obtain ⟨config, hconfig⟩ := Sample.renders (show lit "edge.example" ≠ [] by simp [lit_eq])
  refine ⟨config, hconfig, ?_⟩
  exact (address_splits_iff rfl (by simp only [lit_eq]; decide)
    (Sample.newCredentials_run { store := {}, agents := () } (lit "edge.example")) rfl
    (by decide +kernel) hconfig).mpr (by simp only [lit_eq]; decide)

/-- An address with colons is accepted, and can be read back from neither text. -/
theorem address_of_ipv6_lost : acceptsHost (lit "2001:db8::1") = true ∧
    (parseIPv6 (lit "2001:db8::1")).isSome ∧
    Runs ((Sample.scenario .database).platform.env 0)
      (Sample.defaults.newCredentials (Sample.jobOn (lit "2001:db8::1")))
      { store := {}, agents := () } (.ok (Sample.credentials (lit "2001:db8::1")))
      { store := {}, agents := () } ∧
    urlHostPort (Sample.credentials (lit "2001:db8::1")).baseUrl ≠
      some (lit "2001:db8::1", lit "8090") ∧
    ∃ config, renderClientConfig Sample.serverConfig
        (Sample.endpointParams (lit "2001:db8::1")) = .ok config ∧
      endpointHostPort config ≠ some (lit "2001:db8::1", Sample.serverConfig.listenPort) := by
  obtain ⟨config, hconfig⟩ := Sample.renders (show lit "2001:db8::1" ≠ [] by simp [lit_eq])
  refine ⟨by simp only [lit_eq]; decide, by simp only [lit_eq]; decide, Sample.newCredentials_run _ _, by decide +kernel,
    config, hconfig, ?_⟩
  rw [endpointHostPort_render hconfig (by simp only [lit_eq]; decide) (by decide +kernel)]
  simp only [lit_eq]; decide

end VpnControl.Backend
