import VpnControl.Awg.Allocation
import VpnControl.Awg.ClientConfig

namespace VpnControl.Awg
open Strings Trim Netip

/-- The assignments of the client's own section. -/
def clientSettings (server : Config) (params : ClientConfigParams) (clientIP : Addr) :
    List (Text × Text) :=
  [(lit "Address", clientIP.text ++ lit "/32"),
    (lit "DNS", join (defaultDNS params.dns) (lit ", ")),
    (lit "PrivateKey", params.clientPrivateKey)] ++
    awgFields.filterMap fun key => (server.interfaceValue key).map fun value => (key, value)

def endpoint (server : Config) (params : ClientConfigParams) : Text :=
  params.endpointHost ++ ':' :: server.listenPort

def defaultRoutes : List Text := [lit "0.0.0.0/0", lit "::/0"]

/-- The peer of the client: the server, with all routes. -/
def serverPeer (server : Config) (params : ClientConfigParams) : Peer where
  publicKey := params.serverPublicKey
  presharedKey := params.presharedKey
  allowedIPs := defaultRoutes
  extra := [keyLine (lit "Endpoint") (endpoint server params),
    keyLine (lit "PersistentKeepalive") (lit "25")]

/-- An interface line that the renderer wrote. -/
def settingLine (s : Text × Text) : InterfaceLine where
  raw := keyLine s.1 s.2
  key := s.1
  value := s.2
  commented := false
  hasKV := true

/-- What a client config says: its settings, one blank line and the server as its only
peer. -/
def clientConfig (server : Config) (params : ClientConfigParams) (clientIP : Addr) : Config where
  interface := (clientSettings server params clientIP).map settingLine ++ [blankInterfaceLine]
  peers := [serverPeer server params]

/-- Every parameter stays on its line and is read back as it is. The host may have blanks at
its ends: the port follows it on the line, which is kept as it is. -/
structure OneLine (params : ClientConfigParams) (clientIP : Addr) : Prop where
  newline : ∀ v ∈ [clientIP.text, join (defaultDNS params.dns) (lit ", "),
    params.clientPrivateKey, params.serverPublicKey, params.presharedKey, params.endpointHost],
    '\n' ∉ v
  trimmed : ∀ v ∈ [join (defaultDNS params.dns) (lit ", "), params.clientPrivateKey,
    params.serverPublicKey, params.presharedKey], trimSpace v = v

/-- No line is too long for the scanner. -/
def LineLengths (server : Config) (params : ClientConfigParams) (clientIP : Addr) : Prop :=
  ∀ s ∈ clientSettings server params clientIP ++
    [(lit "PublicKey", params.serverPublicKey), (lit "PresharedKey", params.presharedKey),
      (lit "Endpoint", endpoint server params)], utf8Len s.1 + 3 + utf8Len s.2 < maxTokenSize

/-- The lines of the server's section. -/
def serverLines (server : Config) (params : ClientConfigParams) : List Text :=
  [keyLine (lit "PublicKey") params.serverPublicKey,
    keyLine (lit "PresharedKey") params.presharedKey,
    keyLine (lit "AllowedIPs") (join defaultRoutes (lit ", "))] ++
    (serverPeer server params).extra

def settingLines (server : Config) (params : ClientConfigParams) (clientIP : Addr) : List Text :=
  (clientSettings server params clientIP).map fun s => keyLine s.1 s.2

/-- The sections of a rendered client config. -/
def clientBlocks (server : Config) (params : ClientConfigParams) (clientIP : Addr) : List Block :=
  [.interface (lit "[Interface]") (settingLines server params clientIP ++ [[]]),
    .peer (lit "[Peer]") (serverLines server params)]

section Render
variable {server : Config} {params : ClientConfigParams} {clientIP : Addr} {out : Text}

theorem renderClientConfig_ok (hip : params.clientIP = some clientIP)
    (h : renderClientConfig server params = .ok out) :
    params.presharedKey ≠ [] ∧
      out = unlines '\n' (blocksLines (clientBlocks server params clientIP)) := by
  rw [renderClientConfig] at h
  split at h
  · cases h
  split at h
  · cases h
  split at h
  · cases h
  rename_i hpsk
  split at h
  · cases h
  split at h
  · cases h
  rw [hip] at h
  simp only [Except.ok.injEq] at h
  have hfields : unlines '\n' ((awgFields.filterMap fun key =>
      (server.interfaceValue key).map fun value => (key, value)).map fun s => keyLine s.1 s.2) =
      (awgFields.filterMap fun key => (server.interfaceValue key).map fun value =>
        key ++ lit " = " ++ value ++ ['\n']).flatten := by
    rw [unlines, List.flatMap_map, List.flatMap_def, List.map_filterMap]
    simp only [Option.map_map, Function.comp_def, keyLine]
  refine ⟨hpsk, h.symm.trans ?_⟩
  simp only [blocksLines, clientBlocks, Block.lines, Block.header, Block.body, settingLines,
    clientSettings, serverLines, serverPeer, endpoint, defaultRoutes, List.map_append,
    List.flatMap_cons, List.flatMap_nil, List.cons_append, unlines_append, unlines_cons,
    unlines_nil, List.map_cons, List.map_nil]
  rw [hfields]
  simp [lit_eq, join, keyLine]

end Render

section Values
variable {c : Config} {v : Text}

/-- What a file says of an interface key is on one line. -/
theorem interfaceValue_field (hc : c.WellFormed) {key : Text}
    (h : c.interfaceValue key = some v) : Field v := by
  rw [Config.interfaceValue, Option.map_eq_some_iff] at h
  obtain ⟨line, hline, rfl⟩ := h
  have hwf := hc.interface line (List.mem_of_find?_eq_some hline)
  rw [← hwf.parsed]
  exact parseAssignment_value hwf.newline

theorem listenPort_field (hc : c.WellFormed) : Field c.listenPort := by
  rw [Config.listenPort]
  cases h : c.interfaceValue (lit "ListenPort") with
  | none => exact .nil
  | some port => exact interfaceValue_field hc h

theorem utf8Len_append (s t : Text) : utf8Len (s ++ t) = utf8Len s + utf8Len t := by
  simp [utf8Len]

theorem tokenFits_keyLine (key v : Text) :
    tokenFits (keyLine key v) = true ↔ utf8Len key + 3 + utf8Len v < maxTokenSize := by
  have hsep : utf8Len (lit " = ") = 3 := by simp only [lit_eq]; decide
  rw [tokenFits, decide_eq_true_eq, keyLine, utf8Len_append, utf8Len_append, hsep]

theorem alphanumeric_awgField {key : Text} (h : key ∈ awgFields) :
    key ≠ [] ∧ key.all Char.isAlphanum = true := by
  have hall : ∀ k ∈ awgFields, k ≠ [] ∧ k.all Char.isAlphanum = true := by
    simp only [awgFields, List.map_cons, List.map_nil, lit_eq]
    decide
  exact hall key h

theorem keyWord_endpoint : KeyWord (lit "Endpoint") :=
  keyWord_of_all (by simp [lit_eq]) (by simp only [lit_eq]; decide)

theorem keyWord_keepalive : KeyWord (lit "PersistentKeepalive") :=
  keyWord_of_all (by simp [lit_eq]) (by simp only [lit_eq]; decide)

theorem alphanumeric_setting {server : Config} {params : ClientConfigParams} {clientIP : Addr}
    {s : Text × Text} (h : s ∈ clientSettings server params clientIP) :
    s.1 ≠ [] ∧ s.1.all Char.isAlphanum = true := by
  rw [clientSettings, List.mem_append] at h
  rcases h with h | h
  · simp only [List.mem_cons, List.not_mem_nil, or_false] at h
    rcases h with rfl | rfl | rfl
    · exact ⟨by simp [lit_eq], by simp only [lit_eq]; decide⟩
    · exact ⟨by simp [lit_eq], by simp only [lit_eq]; decide⟩
    · exact ⟨by simp [lit_eq], by simp only [lit_eq]; decide⟩
  · obtain ⟨key, hkey, hs⟩ := List.mem_filterMap.mp h
    obtain ⟨value, -, rfl⟩ := Option.map_eq_some_iff.mp hs
    exact alphanumeric_awgField hkey

theorem keyWord_setting {server : Config} {params : ClientConfigParams} {clientIP : Addr}
    {s : Text × Text} (h : s ∈ clientSettings server params clientIP) : KeyWord s.1 :=
  keyWord_of_all (alphanumeric_setting h).1 (alphanumeric_setting h).2

/-- The address and its length have no blanks around them. -/
theorem address_field {a : Addr} (h : '\n' ∉ a.text) : Field (a.text ++ lit "/32") := by
  obtain ⟨ch, w, hw, hch⟩ := flush_text a
  constructor
  · have ht := trimmed_cons_concat (w := w ++ ['/', '3']) hch (by rfl : isSpace '2' = false)
    rw [trimSpace, hw]
    simpa [lit_eq, Trimmed] using ht
  · simpa [lit_eq] using h

/-- A line of the key that ends in a port is kept as it is. -/
theorem endpoint_extraLine {host port : Text} (hhost : '\n' ∉ host) (hport : Field port) :
    ExtraLine (keyLine (lit "Endpoint") (host ++ ':' :: port)) := by
  have htrim : trimSpace (keyLine (lit "Endpoint") (host ++ ':' :: port)) =
      keyLine (lit "Endpoint") (host ++ ':' :: port) := by
    have hr : port.rdropWhile isSpace = port := Trimmed.rdropWhile hport.trimmed
    have hsplit : ' ' :: (host ++ ':' :: port) = (' ' :: host) ++ ':' :: port := rfl
    rw [trimSpace_keyLine keyWord_endpoint, hsplit, rdropWhile_append_cons (by rfl), hr,
      keyLine_split, ← hsplit]
  refine ⟨⟨htrim, ?_⟩, ?_, ?_⟩
  · simpa [keyLine, lit_eq, hhost] using hport.newline
  · have hname := sectionName_keyLine keyWord_endpoint (host ++ ':' :: port)
    rwa [sectionName, trimSpace_trimRightCR, htrim] at hname
  · rw [peerLine_keyWord keyWord_endpoint, htrim]
    simp [assignmentLine]

theorem keepalive_extraLine : ExtraLine (keyLine (lit "PersistentKeepalive") (lit "25")) := by
  have hv : Field (lit "25") := ⟨by simp only [lit_eq]; decide, by simp [lit_eq]⟩
  have hf := keyLine_fileLine keyWord_keepalive hv
  have htrim : trimSpace (keyLine (lit "PersistentKeepalive") (lit "25")) =
      keyLine (lit "PersistentKeepalive") (lit "25") := by
    simp only [keyLine, lit_eq]
    decide
  refine ⟨⟨htrim, hf.newline⟩, ?_, ?_⟩
  · have hname := sectionName_keyLine keyWord_keepalive (lit "25")
    rwa [sectionName, trimSpace_trimRightCR, htrim] at hname
  · rw [peerLine_keyLine keyWord_keepalive hv, htrim]
    simp [assignmentLine]

theorem defaultRoutes_entries : ∀ a ∈ defaultRoutes, AllowedEntry a := by
  intro a ha
  simp only [defaultRoutes, List.mem_cons, List.not_mem_nil, or_false] at ha
  rcases ha with rfl | rfl
  · exact ⟨⟨by simp only [lit_eq]; decide, by simp [lit_eq]⟩, by simp [lit_eq], by simp [lit_eq]⟩
  · exact ⟨⟨by simp only [lit_eq]; decide, by simp [lit_eq]⟩, by simp [lit_eq], by simp [lit_eq]⟩

end Values
section ReadBack
variable {server : Config} {params : ClientConfigParams} {clientIP : Addr} {out : Text}

/-- The values that stand in the client's own section. -/
theorem OneLine.settings (h : OneLine params clientIP) (hs : server.WellFormed)
    {s : Text × Text} (hmem : s ∈ clientSettings server params clientIP) : Field s.2 := by
  rw [clientSettings, List.mem_append] at hmem
  rcases hmem with hmem | hmem
  · simp only [List.mem_cons, List.not_mem_nil, or_false] at hmem
    rcases hmem with rfl | rfl | rfl
    · exact address_field (h.newline _ (by simp))
    · exact ⟨h.trimmed _ (by simp), h.newline _ (by simp)⟩
    · exact ⟨h.trimmed _ (by simp), h.newline _ (by simp)⟩
  · obtain ⟨key, -, hs'⟩ := List.mem_filterMap.mp hmem
    obtain ⟨value, hvalue, rfl⟩ := Option.map_eq_some_iff.mp hs'
    exact interfaceValue_field hs hvalue

theorem OneLine.serverPeer (h : OneLine params clientIP) (hs : server.WellFormed) :
    (serverPeer server params).WellFormed where
  publicKey := ⟨h.trimmed _ (by simp [Awg.serverPeer]), h.newline _ (by simp [Awg.serverPeer])⟩
  presharedKey := ⟨h.trimmed _ (by simp [Awg.serverPeer]), h.newline _ (by simp [Awg.serverPeer])⟩
  allowedIPs := defaultRoutes_entries
  extra := by
    intro e he
    simp only [Awg.serverPeer, List.mem_cons, List.not_mem_nil, or_false] at he
    rcases he with rfl | rfl
    · exact endpoint_extraLine (h.newline _ (by simp)) (listenPort_field hs)
    · exact keepalive_extraLine

theorem serverLines_renderBody (hpsk : params.presharedKey ≠ []) :
    renderBody (serverPeer server params) = serverLines server params ++ [[]] := by
  simp [renderBody, serverLines, serverPeer, hpsk]

/-- Every line of a clean config is handed back by the scanner, and none is a header
but the two that should be. -/
theorem OneLine.lines (h : OneLine params clientIP) (hs : server.WellFormed)
    (hpsk : params.presharedKey ≠ []) :
    ∀ b ∈ clientBlocks server params clientIP, FileLine b.header ∧
      (∃ n, sectionName b.header = some n ∧ toLower n = b.name) ∧ ∀ l ∈ b.body, BodyLine l := by
  simp only [clientBlocks, List.mem_cons, List.not_mem_nil, or_false, forall_eq_or_imp, forall_eq]
  refine ⟨⟨header_interface.1, ⟨_, header_interface.2⟩, ?_⟩,
    ⟨header_peer.1, ⟨_, header_peer.2⟩, ?_⟩⟩
  · intro l hl
    rcases List.mem_append.mp hl with hl | hl
    · obtain ⟨s, hmem, rfl⟩ := List.mem_map.mp hl
      exact keyLine_bodyLine (keyWord_setting hmem) (h.settings hs hmem)
    · rw [List.mem_singleton.mp hl]
      exact .nil
  · intro l hl
    apply renderBody_bodyLine (h.serverPeer hs)
    rw [serverLines_renderBody hpsk]
    exact List.mem_append_left _ hl

/-- What the sections of a clean config describe. -/
theorem OneLine.blocksConfig (h : OneLine params clientIP) (hs : server.WellFormed)
    (hpsk : params.presharedKey ≠ []) :
    blocksConfig (clientBlocks server params clientIP) = clientConfig server params clientIP := by
  have hlines : (settingLines server params clientIP).map
      (fun l => parseInterfaceLine (trimRightCR l)) =
      (clientSettings server params clientIP).map settingLine := by
    rw [settingLines, List.map_map]
    apply List.map_congr_left
    intro s hmem
    have hkey := keyWord_setting hmem
    have hvalue := h.settings hs hmem
    simp only [Function.comp_apply, (keyLine_fileLine hkey hvalue).noCR, parseInterfaceLine,
      parseAssignment_keyLine hkey hvalue, settingLine]
  have hpeer : Block.readPeer {} (serverLines server params) = Awg.serverPeer server params := by
    have hread := readPeer_renderBody (h.serverPeer hs)
    rw [serverLines_renderBody hpsk, readPeer_eq, List.map_append, List.foldl_append] at hread
    rw [readPeer_eq]
    exact hread
  have hblank : parseInterfaceLine (trimRightCR []) = blankInterfaceLine := rfl
  simp only [Awg.blocksConfig, clientBlocks, List.flatMap_cons, List.flatMap_nil,
    Block.interfaceLines, Block.peers, List.map_append, hlines, hpeer, List.map_cons, List.map_nil,
    hblank, List.append_nil, List.nil_append, clientConfig]

theorem LineLengths.linesFit (h : LineLengths server params clientIP) :
    ∀ l ∈ blocksLines (clientBlocks server params clientIP), tokenFits l = true := by
  intro l hl
  have hfits := h
  simp only [LineLengths, List.mem_append, List.mem_cons, List.not_mem_nil, or_false] at hfits
  simp only [blocksLines, clientBlocks, Block.lines, Block.header, Block.body, List.flatMap_cons,
    List.flatMap_nil, List.append_nil, List.cons_append, List.mem_cons, List.mem_append,
    serverLines, serverPeer, List.not_mem_nil, or_false, false_or, or_assoc] at hl
  rcases hl with rfl | hl | rfl | rfl | rfl | rfl | rfl | rfl | rfl
  · simp only [lit_eq]
    decide
  · obtain ⟨s, hmem, rfl⟩ := List.mem_map.mp hl
    exact (tokenFits_keyLine _ _).mpr (hfits s (.inl hmem))
  · decide
  · simp only [lit_eq]
    decide
  · exact (tokenFits_keyLine _ _).mpr (hfits _ (.inr (.inl rfl)))
  · exact (tokenFits_keyLine _ _).mpr (hfits _ (.inr (.inr (.inl rfl))))
  · simp only [keyLine, defaultRoutes, join, lit_eq]
    decide
  · exact (tokenFits_keyLine _ _).mpr (hfits _ (.inr (.inr (.inr rfl))))
  · simp only [keyLine, lit_eq]
    decide

theorem OneLine.newlines (h : OneLine params clientIP) (hs : server.WellFormed)
    (hpsk : params.presharedKey ≠ []) :
    ∀ l ∈ blocksLines (clientBlocks server params clientIP), FileLine l := by
  intro l hl
  obtain ⟨b, hb, hl⟩ := List.mem_flatMap.mp hl
  obtain ⟨hheader, -, hbody⟩ := h.lines hs hpsk b hb
  rcases List.mem_cons.mp hl with rfl | hl
  · exact hheader
  · exact (hbody l hl).toFileLine

/-- A config with these settings comes out of a parser only if they fit on their lines. -/
theorem oneLine_of_wellFormed (h : (clientConfig server params clientIP).WellFormed) :
    OneLine params clientIP := by
  have hsetting : ∀ s ∈ clientSettings server params clientIP, Field s.2 := by
    intro s hmem
    have hline := h.interface _ (List.mem_append_left _ (List.mem_map_of_mem hmem))
    have hparsed : (parseInterfaceLine (settingLine s).raw).value = s.2 :=
      congrArg InterfaceLine.value hline.parsed
    rw [← hparsed]
    exact parseAssignment_value hline.newline
  have hpeer := h.peers (serverPeer server params) (by simp [clientConfig])
  have hendpoint := (hpeer.extra (keyLine (lit "Endpoint") (endpoint server params))
    (by simp [serverPeer])).newline
  have haddress := hsetting (lit "Address", clientIP.text ++ lit "/32") (by simp [clientSettings])
  have hdns := hsetting (lit "DNS", join (defaultDNS params.dns) (lit ", "))
    (by simp [clientSettings])
  have hkey := hsetting (lit "PrivateKey", params.clientPrivateKey) (by simp [clientSettings])
  have hip : '\n' ∉ clientIP.text := fun hn => haddress.newline (List.mem_append_left _ hn)
  have hhost : '\n' ∉ params.endpointHost := fun hn =>
    hendpoint (List.mem_append_right _ (List.mem_append_left _ hn))
  constructor
  · simpa using ⟨hip, hdns.newline, hkey.newline, hpeer.publicKey.newline,
      hpeer.presharedKey.newline, hhost⟩
  · simpa using ⟨hdns.trimmed, hkey.trimmed, hpeer.publicKey.trimmed, hpeer.presharedKey.trimmed⟩

/-- A client config is read back as what it was rendered from exactly when no parameter breaks
its line and no line is too long. -/
theorem readBack_iff {input : Text} (hs : parseConfig input = .ok server)
    (hip : params.clientIP = some clientIP) (hr : renderClientConfig server params = .ok out) :
    parseConfig out = .ok (clientConfig server params clientIP) ↔
      OneLine params clientIP ∧ LineLengths server params clientIP := by
  obtain ⟨hpsk, rfl⟩ := renderClientConfig_ok hip hr
  have hserver := parseConfig_wellFormed hs
  constructor
  · intro h
    have hone := oneLine_of_wellFormed (parseConfig_wellFormed h)
    have hlines := hone.newlines hserver hpsk
    have hfit := linesFit_of_parseConfig h
    rw [LinesFit, rawLines_unlines fun l hl => (hlines l hl).newline] at hfit
    refine ⟨hone, fun s hmem => (tokenFits_keyLine s.1 s.2).mp (hfit _ ?_)⟩
    simp only [blocksLines, clientBlocks, Block.lines, Block.body, List.flatMap_cons,
      List.mem_append, List.mem_cons, List.flatMap_nil, List.append_nil, serverLines, serverPeer]
    rcases List.mem_append.mp hmem with hmem | hmem
    · exact .inl (.inr (.inl (List.mem_map_of_mem hmem)))
    · simp only [List.mem_cons, List.not_mem_nil, or_false] at hmem
      rcases hmem with rfl | rfl | rfl <;> simp
  · rintro ⟨hone, hlengths⟩
    have hlines := hone.newlines hserver hpsk
    apply parseConfig_ok_iff.mpr
    refine ⟨[], clientBlocks server params clientIP, ?_, by simp, ?_, ?_, ?_⟩
    · rw [scanLines_unlines (fun l hl => (hlines l hl).newline) hlengths.linesFit]
      congr 1
      conv_rhs => rw [List.nil_append, ← List.map_id (blocksLines _)]
      exact List.map_congr_left fun l hl => (hlines l hl).dropCR
    · intro b hb
      obtain ⟨-, hheader, hbody⟩ := hone.lines hserver hpsk b hb
      exact ⟨hheader, fun l hl => (hbody l hl).header⟩
    · exact (hone.blocksConfig hserver hpsk).symm
    · simp [clientConfig]

end ReadBack
/-- A client at 10.8.1.2 with the given name servers. -/
def exampleParams (dns : List Text) : ClientConfigParams where
  clientPrivateKey := lit "client"
  clientIP := some (.v4 (BitVec.ofNat 32 0x0A080102))
  serverPublicKey := lit "server"
  presharedKey := lit "shared"
  endpointHost := lit "203.0.113.10"
  dns

theorem exampleConfig_parsed :
    parseConfig (lit "[Interface]\nAddress = 10.8.1.1/24\nListenPort = 51820\n") =
      .ok (exampleConfig []) := by decide +kernel

/-- The rendered config of that client. -/
def exampleClient (dns : List Text) : Text :=
  unlines '\n' (blocksLines (clientBlocks (exampleConfig []) (exampleParams dns)
    (.v4 (BitVec.ofNat 32 0x0A080102))))

theorem exampleClient_rendered (dns : List Text) :
    renderClientConfig (exampleConfig []) (exampleParams dns) = .ok (exampleClient dns) := by
  have hport : (exampleConfig []).listenPort ≠ [] := by decide +kernel
  have hok : ∃ out, renderClientConfig (exampleConfig []) (exampleParams dns) = .ok out := by
    have hkey : lit "client" ≠ [] := by simp [lit_eq]
    have hserver : lit "server" ≠ [] := by simp [lit_eq]
    have hshared : lit "shared" ≠ [] := by simp [lit_eq]
    have hhost : lit "203.0.113.10" ≠ [] := by simp [lit_eq]
    rw [renderClientConfig]
    simp only [exampleParams, hkey, hserver, hshared, hhost, hport, if_false]
    exact ⟨_, rfl⟩
  obtain ⟨out, hout⟩ := hok
  rw [hout, (renderClientConfig_ok rfl hout).2]
  rfl

theorem readBack_iff_default :
    renderClientConfig (exampleConfig []) (exampleParams []) = .ok (exampleClient []) ∧
    parseConfig (exampleClient []) = .ok (clientConfig (exampleConfig []) (exampleParams [])
      (.v4 (BitVec.ofNat 32 0x0A080102))) := by
  have hone : OneLine (exampleParams []) (.v4 (BitVec.ofNat 32 0x0A080102)) :=
    ⟨by decide +kernel, by decide +kernel⟩
  have hlengths : LineLengths (exampleConfig []) (exampleParams [])
      (.v4 (BitVec.ofNat 32 0x0A080102)) := by
    rw [LineLengths]
    decide +kernel
  have hr := exampleClient_rendered []
  exact ⟨hr, (readBack_iff exampleConfig_parsed rfl hr).mpr ⟨hone, hlengths⟩⟩

/-- A name server that goes on to a section of its own. -/
def intruder : Text := lit "1.1.1.1\n[Peer]\nPublicKey = intruder\nAllowedIPs = 0.0.0.0/0"

/-- The client config then has a peer that nobody asked for. -/
theorem dns_adds_peer :
    parseConfig (lit "[Interface]\nAddress = 10.8.1.1/24\nListenPort = 51820\n") =
      .ok (exampleConfig []) ∧
    renderClientConfig (exampleConfig []) (exampleParams [intruder]) =
      .ok (exampleClient [intruder]) ∧
    parseConfig (exampleClient [intruder]) ≠ .ok (clientConfig (exampleConfig [])
      (exampleParams [intruder]) (.v4 (BitVec.ofNat 32 0x0A080102))) ∧
    (parseConfig (exampleClient [intruder])).toOption.map (fun c => c.peers.map (·.publicKey)) =
      some [lit "intruder", lit "server"] := by
  have hpeers : (parseConfig (exampleClient [intruder])).toOption.map
      (fun c => c.peers.map (·.publicKey)) = some [lit "intruder", lit "server"] := by
    decide +kernel
  refine ⟨exampleConfig_parsed, exampleClient_rendered _, fun h => ?_, hpeers⟩
  rw [h] at hpeers
  simp [Except.toOption, clientConfig] at hpeers

end VpnControl.Awg
