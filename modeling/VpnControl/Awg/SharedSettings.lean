import VpnControl.Awg.ShareURI

namespace VpnControl.Awg
open Strings Trim Json SortedMap Netip

/-- What `Issue` puts into a share URI besides what is in the native config. -/
def ClientConfigParams.share (params : ClientConfigParams) (native clientPublicKey name : Text) :
    ShareURIParams where
  endpointHost := params.endpointHost
  dns := params.dns
  nativeConfig := native
  clientPrivateKey := params.clientPrivateKey
  clientPublicKey
  clientIP := params.clientIP
  serverPublicKey := params.serverPublicKey
  presharedKey := params.presharedKey
  allowedIPs := [lit "0.0.0.0/0", lit "::/0"]
  persistentKeepalive := lit "25"
  mtu := lit "1376"
  description := name

/-- The texts that go into both formats. -/
def ClientConfigParams.texts (params : ClientConfigParams) : List Text :=
  [params.clientPrivateKey, params.serverPublicKey, params.presharedKey, params.endpointHost] ++
    params.dns ++ (params.clientIP.map Addr.text).toList

/-- The value on the first line of a native config that starts with the key. -/
def nativeValue (native key : Text) : Option Text :=
  (native.splitOn '\n').findSome? (afterPrefix (key ++ lit " = "))

/-- The first two name servers of a native config. -/
def nativeDNS (native : Text) : List Text :=
  (splitCSV ((nativeValue native (lit "DNS")).getD [])).take 2

/-- The name servers of a share URI. -/
def Shared.dns (s : Shared) : List Text :=
  [textMember s.root "dns1", textMember s.root "dns2"].filterMap id

/-- Both formats say the same. -/
structure Agree (native : Text) (s : Shared) : Prop where
  config : textMember s.lastConfig "config" = some native
  fields : ∀ key ∈ awgFields,
    lookup s.lastConfig key = (nativeValue native key).map .str ∧
      lookup s.awg key = (nativeValue native key).map .str
  endpoint : ∃ host port n, nativeValue native (lit "Endpoint") = some (host ++ ':' :: port) ∧
    ':' ∉ port ∧ atoi port = some n ∧ textMember s.root "hostName" = some host ∧
    textMember s.lastConfig "hostName" = some host ∧
    lookup s.lastConfig (lit "port") = some (.num (intLiteral n)) ∧
    textMember s.awg "port" = some port
  clientIP : ∃ ip, nativeValue native (lit "Address") = some (ip ++ lit "/32") ∧
    textMember s.lastConfig "client_ip" = some ip
  clientPrivateKey : ∃ key, nativeValue native (lit "PrivateKey") = some key ∧
    textMember s.lastConfig "client_priv_key" = some key
  serverPublicKey : ∃ key, nativeValue native (lit "PublicKey") = some key ∧
    textMember s.lastConfig "server_pub_key" = some key
  presharedKey : ∃ key, nativeValue native (lit "PresharedKey") = some key ∧
    textMember s.lastConfig "psk_key" = some key
  dns : ∃ servers, nativeValue native (lit "DNS") = some (join servers (lit ", ")) ∧
    s.dns = servers.take 2

/-- An entry of a comma-separated list that is found in it again. -/
structure Item (d : Text) : Prop where
  ne_nil : d ≠ []
  comma : ',' ∉ d
  trimmed : trimSpace d = d

section Native
variable {server : Config} {params : ClientConfigParams} {clientIP : Addr}

/-- The assignments of the server's section. -/
def serverSettings (server : Config) (params : ClientConfigParams) : List (Text × Text) :=
  [(lit "PublicKey", params.serverPublicKey), (lit "PresharedKey", params.presharedKey),
    (lit "AllowedIPs", join defaultRoutes (lit ", ")), (lit "Endpoint", endpoint server params),
    (lit "PersistentKeepalive", lit "25")]

theorem blocksLines_clientBlocks :
    blocksLines (clientBlocks server params clientIP) =
      lit "[Interface]" ::
        (clientSettings server params clientIP).map (fun s => keyLine s.1 s.2) ++
        [] :: lit "[Peer]" :: (serverSettings server params).map fun s => keyLine s.1 s.2 := by
  simp [blocksLines, clientBlocks, Block.lines, Block.header, Block.body, settingLines,
    serverLines, serverPeer, serverSettings]

theorem afterPrefix_keyLine {key k : Text} (hkey : ' ' ∉ key) (hk : ' ' ∉ k) (v : Text) :
    afterPrefix (key ++ lit " = ") (keyLine k v) = if k = key then some v else none := by
  split
  · rename_i heq
    subst heq
    exact afterPrefix_append _ v
  · rename_i hne
    rw [afterPrefix, if_neg]
    rintro ⟨t, ht⟩
    have hcut := congrArg (cut ' ') ht
    simp only [keyLine, lit_eq, List.append_assoc] at hcut
    have h₁ := cut_append_cons (w := '=' :: ' ' :: t) hkey
    have h₂ := cut_append_cons (w := '=' :: ' ' :: v) hk
    have heq : some (key, '=' :: ' ' :: t) = some (k, '=' :: ' ' :: v) :=
      h₁.symm.trans (hcut.trans h₂)
    rw [Option.some.injEq, Prod.mk.injEq] at heq
    exact hne heq.1.symm

theorem afterPrefix_noSpace {key l : Text} (h : ' ' ∉ l) :
    afterPrefix (key ++ lit " = ") l = none := by
  rw [afterPrefix, if_neg]
  intro hp
  exact h (hp.sublist.mem (by simp [lit_eq]))

theorem findSome?_keyLines {key : Text} (hkey : ' ' ∉ key) {settings : List (Text × Text)}
    (h : ∀ s ∈ settings, ' ' ∉ s.1) :
    (settings.map fun s => keyLine s.1 s.2).findSome? (afterPrefix (key ++ lit " = ")) =
      lookup settings key := by
  induction settings with
  | nil => rfl
  | cons s settings ih =>
    obtain ⟨hs, hrest⟩ := List.forall_mem_cons.mp h
    rw [List.map_cons, List.findSome?_cons, afterPrefix_keyLine hkey hs, lookup]
    by_cases heq : s.1 = key
    · simp [heq]
    · rw [if_neg heq, List.find?_cons_of_neg (by simpa using heq)]
      exact ih hrest

theorem space_notMem {key : Text} (h : key.all Char.isAlphanum = true) : ' ' ∉ key := by
  intro hmem
  have := List.all_eq_true.mp h ' ' hmem
  revert this
  decide

theorem space_serverSettings : ∀ s ∈ serverSettings server params, ' ' ∉ s.1 := by
  simp [serverSettings, lit_eq]

/-- Reading a key of a rendered config whose lines are whole. -/
theorem nativeValue_rendered (hlines : ∀ s ∈ clientSettings server params clientIP ++
    serverSettings server params, '\n' ∉ keyLine s.1 s.2) {key : Text} (hkey : ' ' ∉ key) :
    nativeValue (unlines '\n' (blocksLines (clientBlocks server params clientIP))) key =
      (lookup (clientSettings server params clientIP) key).or
        (lookup (serverSettings server params) key) := by
  have hnl : ∀ l ∈ blocksLines (clientBlocks server params clientIP), '\n' ∉ l := by
    intro l hl
    simp only [blocksLines_clientBlocks, List.mem_append, List.mem_cons, List.cons_append,
      List.mem_map] at hl
    rcases hl with rfl | ⟨s, hs, rfl⟩ | rfl | rfl | ⟨s, hs, rfl⟩
    · simp [lit_eq]
    · exact hlines s (List.mem_append_left _ hs)
    · simp
    · simp [lit_eq]
    · exact hlines s (List.mem_append_right _ hs)
  have hspace : ∀ s ∈ clientSettings server params clientIP, ' ' ∉ s.1 :=
    fun s hs => space_notMem (alphanumeric_setting hs).2
  have hinterface : afterPrefix (key ++ lit " = ") (lit "[Interface]") = none :=
    afterPrefix_noSpace (by simp [lit_eq])
  have hpeer : afterPrefix (key ++ lit " = ") (lit "[Peer]") = none :=
    afterPrefix_noSpace (by simp [lit_eq])
  have hnil : afterPrefix (key ++ lit " = ") [] = none := afterPrefix_noSpace (by simp)
  rw [nativeValue, splitOn_unlines _ hnl, blocksLines_clientBlocks]
  simp only [List.cons_append, List.append_assoc, List.findSome?_cons, List.findSome?_append,
    List.findSome?_nil, hinterface, hpeer, hnil, findSome?_keyLines hkey hspace,
    findSome?_keyLines hkey space_serverSettings, Option.or_none]

end Native
section Objects
variable {server : Config}

theorem lookup_lit (es : List (String × Doc)) (key : String) :
    lookup (es.map fun e => (lit e.1, e.2)) (lit key) = (es.find? (·.1 = key)).map (·.2) := by
  induction es with
  | nil => rfl
  | cons e es ih =>
    by_cases he : e.1 = key
    · simp [lookup, he]
    · rw [List.map_cons, lookup, List.find?_cons_of_neg (by simpa using he),
        List.find?_cons_of_neg (by simpa using he)]
      exact ih

theorem lookup_object (es : List (String × Doc)) (key : String) :
    lookup (object es) (lit key) = (es.reverse.find? (·.1 = key)).map (·.2) := by
  rw [object, lookup_insertAll, ← List.map_reverse, lookup_lit]
  simp [lookup]

theorem lookup_copyAWGFields (dst : GoMap) (key : Text) :
    lookup (copyAWGFields server dst) key =
      (if key ∈ awgFields then (server.interfaceValue key).map .str else none).or
        (lookup dst key) := by
  have hfields : (awgFields.filterMap fun key =>
      (server.interfaceValue key).map fun value => (key, Doc.str value)) =
      awgFields.filterMap fun key =>
        ((server.interfaceValue key).map Doc.str).map fun v => (key, v) := by
    simp only [Option.map_map, Function.comp_def]
  rw [copyAWGFields, lookup_insertAll, hfields, ← List.filterMap_reverse, lookup_filterMap]
  simp only [List.mem_reverse]

theorem lookup_copy_other {key : String} (h : lit key ∉ awgFields) (es : List (String × Doc)) :
    lookup (copyAWGFields server (object es)) (lit key) =
      (es.reverse.find? (·.1 = key)).map (·.2) := by
  rw [lookup_copyAWGFields, if_neg h, lookup_object]
  rfl

theorem lookup_copy_field {key : Text} (h : key ∈ awgFields) {es : List (String × Doc)}
    (hes : ∀ e ∈ es, lit e.1 ∉ awgFields) :
    lookup (copyAWGFields server (object es)) key = (server.interfaceValue key).map .str := by
  have hnone : lookup (object es) key = none := by
    refine lookup_eq_none fun m hm hkey => ?_
    rcases mem_insertAll hm with hm | hm
    · obtain ⟨e, he, rfl⟩ := List.mem_map.mp hm
      have heq : lit e.1 = key := hkey
      exact hes e he (heq ▸ h)
    · cases hm
  rw [lookup_copyAWGFields, if_pos h, hnone, Option.or_none]

theorem plain_object {n : Nat} {es : List (String × Doc)} (h : ∀ e ∈ es, e.2.Plain n) :
    (Doc.obj (object es)).Plain (n + 1) := by
  refine .obj fun m hm => ?_
  rcases mem_insertAll hm with hm | hm
  · obtain ⟨e, he, rfl⟩ := List.mem_map.mp hm
    exact h e he
  · cases hm

theorem plain_copyAWGFields {n : Nat} {dst : GoMap} (h : (Doc.obj dst).Plain (n + 1)) :
    (Doc.obj (copyAWGFields server dst)).Plain (n + 1) := by
  refine .obj fun m hm => ?_
  rcases mem_insertAll hm with hm | hm
  · obtain ⟨key, -, hkey⟩ := List.mem_filterMap.mp hm
    obtain ⟨value, -, rfl⟩ := Option.map_eq_some_iff.mp hkey
    exact .str n value
  · exact h.members m hm

theorem plain_strings (n : Nat) (xs : List Text) : (strings xs).Plain (n + 1) := by
  refine .arr fun x hx => ?_
  obtain ⟨s, -, rfl⟩ := List.mem_map.mp hx
  exact .str n s

end Objects

section Share
variable {deflate : List UInt8 → List UInt8} {inflate : List UInt8 → Option (List UInt8)}
variable {server : Config} {params : ShareURIParams} {clientIP : Addr} {uri : Text}

/-- The client's own config in the URI. -/
def lastConfigObject (server : Config) (params : ShareURIParams) (clientIP : Addr) (port : Int) :
    GoMap :=
  copyAWGFields server (object [
    ("config", .str params.nativeConfig),
    ("hostName", .str params.endpointHost),
    ("port", .num (intLiteral port)),
    ("client_ip", .str clientIP.text),
    ("client_priv_key", .str params.clientPrivateKey),
    ("client_pub_key", .str params.clientPublicKey),
    ("server_pub_key", .str params.serverPublicKey),
    ("psk_key", .str params.presharedKey),
    ("clientId", .str params.clientPublicKey),
    ("allowed_ips", strings (if params.allowedIPs = [] then defaultRoutes else params.allowedIPs)),
    ("persistent_keep_alive", .str (firstNonEmpty [params.persistentKeepalive, lit "25"])),
    ("mtu", .str (firstNonEmpty [params.mtu, lit "1376"]))])

/-- The settings of the container. -/
def awgObject (server : Config) (subnet : Prefix) (lastConfig : GoMap) : GoMap :=
  copyAWGFields server (object [
    ("port", .str server.listenPort),
    ("transport_proto", .str (lit "udp")),
    ("protocol_version", .str (lit "2")),
    ("subnet_address", .str subnet.addr.text),
    ("subnet_cidr", .str (decimal subnet.bits)),
    ("last_config", .str (print ⟨none, false⟩ 0 (.obj lastConfig)))])

def rootObject (params : ShareURIParams) (awg : GoMap) : GoMap :=
  object (
    [("hostName", .str params.endpointHost),
      ("containers", .arr [.obj (object [
        ("container", .str (lit "amnezia-awg2")), ("awg", .obj awg)])]),
      ("defaultContainer", .str (lit "amnezia-awg2"))] ++
    (if params.description = [] then [] else [("description", .str params.description)]) ++
    ((defaultDNS params.dns).head?.toList.map fun s => ("dns1", .str s)) ++
    ((defaultDNS params.dns).tail.head?.toList.map fun s => ("dns2", .str s)))

/-- What is compressed into the URI. -/
theorem renderAmneziaShareURI_ok (hip : params.clientIP = some clientIP)
    (h : renderAmneziaShareURI deflate server params = .ok uri) :
    ∃ port subnet compressed, atoi server.listenPort = some port ∧
      qCompress deflate (utf8 (print ⟨some 4, false⟩ 0 (.obj (rootObject params
        (awgObject server subnet (lastConfigObject server params clientIP port)))) ++ ['\n'])) =
        some compressed ∧ uri = lit "vpn://" ++ base64URL compressed := by
  rw [renderAmneziaShareURI] at h
  split at h
  · cases h
  split at h
  · cases h
  split at h
  · cases h
  rw [hip] at h
  simp only at h
  split at h
  · cases h
  split at h
  · cases h
  · cases h
  rename_i port address hport _
  split at h
  · cases h
  rename_i subnet _
  split at h
  · cases h
  rename_i compressed hcompressed
  rw [Except.ok.injEq] at h
  exact ⟨port, subnet, compressed, hport, hcompressed, h.symm⟩

theorem plain_lastConfigObject (port : Int) :
    (Doc.obj (lastConfigObject server params clientIP port)).Plain 2 := by
  apply plain_copyAWGFields
  apply plain_object
  simp only [List.mem_cons, List.not_mem_nil, or_false, forall_eq_or_imp, forall_eq]
  exact ⟨.str 1 _, .str 1 _, .num 1 (number_intLiteral port), .str 1 _, .str 1 _, .str 1 _,
    .str 1 _, .str 1 _, .str 1 _, plain_strings 0 _, .str 1 _, .str 1 _⟩

theorem plain_awgObject (subnet : Prefix) (lastConfig : GoMap) :
    (Doc.obj (awgObject server subnet lastConfig)).Plain 1 := by
  apply plain_copyAWGFields
  apply plain_object
  simp only [List.mem_cons, List.not_mem_nil, or_false, forall_eq_or_imp, forall_eq]
  exact ⟨.str 0 _, .str 0 _, .str 0 _, .str 0 _, .str 0 _, .str 0 _⟩

theorem plain_rootObject {awg : GoMap} (h : (Doc.obj awg).Plain 1) :
    (Doc.obj (rootObject params awg)).Plain 4 := by
  have hcontainer : (Doc.obj (object [
      ("container", .str (lit "amnezia-awg2")), ("awg", .obj awg)])).Plain 2 := by
    apply plain_object
    simp only [List.mem_cons, List.not_mem_nil, or_false, forall_eq_or_imp, forall_eq]
    exact ⟨.str 1 _, h⟩
  apply plain_object
  intro e he
  simp only [List.mem_append, List.mem_cons, List.not_mem_nil, or_false, List.mem_map] at he
  rcases he with (((rfl | rfl | rfl) | he) | ⟨s, -, rfl⟩) | ⟨s, -, rfl⟩
  · exact .str 3 _
  · exact .arr (by simpa using hcontainer)
  · exact .str 3 _
  · split at he
    · cases he
    · rw [List.mem_singleton.mp he]
      exact .str 3 _
  · exact .str 3 s
  · exact .str 3 s

theorem find?_optional (o : Option Text) (k key : String) :
    (o.toList.map fun s => (k, Doc.str s)).reverse.find? (·.1 = key) =
      if k = key then o.map fun s => (k, .str s) else none := by
  cases o with
  | none => simp
  | some s => by_cases hk : k = key <;> simp [hk]

theorem lookup_rootObject (awg : GoMap) {key : String} (hkey : key ≠ "description") :
    lookup (rootObject params awg) (lit key) =
      ((if "dns2" = key then (defaultDNS params.dns).tail.head?.map Doc.str else none).or
        (if "dns1" = key then (defaultDNS params.dns).head?.map Doc.str else none)).or
      (lookup (object [("hostName", .str params.endpointHost),
        ("containers", .arr [.obj (object [
          ("container", .str (lit "amnezia-awg2")), ("awg", .obj awg)])]),
        ("defaultContainer", .str (lit "amnezia-awg2"))]) (lit key)) := by
  have hdescription : (if params.description = [] then []
      else [("description", Doc.str params.description)]).reverse.find? (·.1 = key) = none := by
    split
    · rfl
    · simp [Ne.symm hkey]
  rw [rootObject, lookup_object, lookup_object]
  simp only [List.reverse_append, List.find?_append, find?_optional, hdescription]
  split_ifs <;> cases (defaultDNS params.dns).tail.head? <;>
    cases (defaultDNS params.dns).head? <;> simp

/-- The URI is decoded to the objects that went into it. -/
theorem decodeShareURI_render (hinflate : ∀ xs, inflate (deflate xs) = some xs)
    (hip : params.clientIP = some clientIP)
    (h : renderAmneziaShareURI deflate server params = .ok uri) :
    ∃ port subnet, atoi server.listenPort = some port ∧ decodeShareURI inflate uri = some
      { root := rootObject params
          (awgObject server subnet (lastConfigObject server params clientIP port)),
        awg := awgObject server subnet (lastConfigObject server params clientIP port),
        lastConfig := lastConfigObject server params clientIP port } := by
  obtain ⟨port, subnet, compressed, hport, hcompressed, rfl⟩ := renderAmneziaShareURI_ok hip h
  refine ⟨port, subnet, hport, ?_⟩
  generalize hlast : lastConfigObject server params clientIP port = last at *
  generalize hawg : awgObject server subnet last = awg at *
  have hroot : parse (print ⟨some 4, false⟩ 0 (.obj (rootObject params awg)) ++ ['\n']) =
      some (.obj (rootObject params awg)) :=
    have hplain := plain_rootObject (hawg ▸ plain_awgObject subnet last)
    parse_print _ hplain.valid (hplain.depth.trans (by decide)) 0 (by simp [Blank, Json.isBlank])
  have hcontainers : lookup (rootObject params awg) (lit "containers") =
      some (.arr [.obj (object [
        ("container", .str (lit "amnezia-awg2")), ("awg", .obj awg)])]) := by
    rw [lookup_rootObject awg (by decide), lookup_object]
    simp
  have hcontainer : lookup (object [("container", .str (lit "amnezia-awg2")), ("awg", .obj awg)])
      (lit "awg") = some (.obj awg) := by
    rw [lookup_object]
    simp
  have htext : textMember awg "last_config" = some (print ⟨none, false⟩ 0 (.obj last)) := by
    rw [textMember, ← hawg, awgObject, lookup_copy_other (by simp [awgFields])]
    simp [asText]
  have hparsed : parse (print ⟨none, false⟩ 0 (.obj last)) = some (.obj last) := by
    have hplain : (Doc.obj last).Plain 2 := hlast ▸ plain_lastConfigObject port
    have hp : parse (print ⟨none, false⟩ 0 (.obj last) ++ []) = some (.obj last) :=
      parse_print _ hplain.valid (hplain.depth.trans (by decide)) 0 (by simp [Blank])
    rwa [List.append_nil] at hp
  rw [decodeShareURI, afterPrefix_append]
  simp only [Option.bind_eq_bind, Option.bind_some, decodeBase64URL_base64URL,
    qUncompress_qCompress hinflate hcompressed, textOf_utf8, hroot, asObject, hcontainers, asArray,
    List.head?_cons, hcontainer, htext, hparsed]

end Share
section DNS

theorem newline_notMem_join {sep : Text} (hsep : '\n' ∉ sep) {parts : List Text}
    (h : ∀ p ∈ parts, '\n' ∉ p) : '\n' ∉ join parts sep := by
  induction parts with
  | nil => simp [join]
  | cons a parts ih =>
    obtain ⟨ha, hrest⟩ := List.forall_mem_cons.mp h
    cases parts with
    | nil => simpa [join] using ha
    | cons b parts =>
      have hsplit : join (a :: b :: parts) sep = a ++ sep ++ join (b :: parts) sep := by simp [join]
      rw [hsplit]
      simp only [List.mem_append, not_or]
      exact ⟨⟨ha, hsep⟩, ih hrest⟩

theorem mem_splitCSV_item {v d : Text} (h : d ∈ splitCSV v) : Item d := by
  rw [splitCSV, List.mem_filter, List.mem_map] at h
  obtain ⟨⟨part, hpart, rfl⟩, hne⟩ := h
  exact ⟨by simpa using hne, fun hc => (mem_splitOn hpart).1 (mem_of_mem_trim hc),
    trimSpace_idem part⟩

theorem splitCSV_single {w : Text} (hcomma : ',' ∉ w) (hne : trimSpace w ≠ []) :
    splitCSV w = [trimSpace w] := by
  rw [splitCSV, List.splitOn_eq_singleton hcomma]
  simp [hne]

theorem splitCSV_cons {w : Text} (hcomma : ',' ∉ w) (hne : trimSpace w ≠ []) (rest : Text) :
    splitCSV (w ++ ',' :: rest) = trimSpace w :: splitCSV rest := by
  rw [splitCSV, List.splitOn_append_cons_self_of_not_mem hcomma]
  simp [hne, splitCSV]

theorem trimSpace_blank (d : Text) : trimSpace (' ' :: d) = trimSpace d := by
  have h := trim_dropWhile isSpace (' ' :: d)
  rw [List.dropWhile_cons_of_pos (by rfl), trim_dropWhile] at h
  exact h.symm

/-- The first two entries of a joined list are found in it again exactly when they are
items of such a list. -/
theorem take_splitCSV_join (dns : List Text) :
    (splitCSV (join dns (lit ", "))).take 2 = dns.take 2 ↔ ∀ d ∈ dns.take 2, Item d := by
  constructor
  · intro h d hd
    rw [← h] at hd
    exact mem_splitCSV_item (List.mem_of_mem_take hd)
  · intro h
    cases dns with
    | nil => rfl
    | cons a dns =>
      have ha := h a (by simp)
      have hane : trimSpace a ≠ [] := by rw [ha.trimmed]; exact ha.ne_nil
      cases dns with
      | nil => simp [join, splitCSV_single ha.comma hane, ha.trimmed]
      | cons b dns =>
        have hb := h b (by simp)
        have hbne : trimSpace (' ' :: b) ≠ [] := by
          rw [trimSpace_blank, hb.trimmed]
          exact hb.ne_nil
        have hbcomma : ',' ∉ ' ' :: b := by simpa using hb.comma
        cases dns with
        | nil =>
          have hjoin : join [a, b] (lit ", ") = a ++ ',' :: ' ' :: b := by simp [join, lit_eq]
          rw [hjoin, splitCSV_cons ha.comma hane, splitCSV_single hbcomma hbne, trimSpace_blank,
            ha.trimmed, hb.trimmed]
        | cons c dns =>
          have hjoin : join (a :: b :: c :: dns) (lit ", ") =
              a ++ ',' :: ((' ' :: b) ++ ',' :: ' ' :: join (c :: dns) (lit ", ")) := by
            simp [join, lit_eq]
          rw [hjoin, splitCSV_cons ha.comma hane, splitCSV_cons hbcomma hbne, trimSpace_blank,
            ha.trimmed, hb.trimmed]
          rfl

end DNS

theorem colon_notMem_digits {ds : Text} (h : digits ds = true) : ':' ∉ ds := by
  rw [digits, Bool.and_eq_true] at h
  intro hmem
  have := List.all_eq_true.mp h.2 ':' hmem
  revert this
  decide

theorem colon_notMem_of_atoi {s : Text} {n : Int} (h : atoi s = some n) : ':' ∉ s := by
  have hdigits : ∀ ds : Text, ∀ r : Option Int, (if digits ds then r else none) = some n →
      ':' ∉ ds := by
    intro ds r hr
    split at hr
    · exact colon_notMem_digits ‹_›
    · cases hr
  rw [atoi.eq_def] at h
  have hds := hdigits _ _ h
  split at hds
  · simpa using hds
  · simpa using hds
  · exact hds

section Agreement
variable {deflate : List UInt8 → List UInt8} {inflate : List UInt8 → Option (List UInt8)}
variable {cfg server : Config} {params : ClientConfigParams} {clientIP : Addr}

/-- The lines of the rendered config are whole. -/
theorem keyLines_whole (hcfg : cfg.WellFormed) (hserver : server.interface = cfg.interface)
    (hip : params.clientIP = some clientIP) (hlines : ∀ v ∈ params.texts, '\n' ∉ v) :
    ∀ s ∈ clientSettings server params clientIP ++ serverSettings server params,
      '\n' ∉ keyLine s.1 s.2 := by
  have hvalue : ∀ key, server.interfaceValue key = cfg.interfaceValue key := by
    intro key
    rw [Config.interfaceValue, Config.interfaceValue, hserver]
  have hport : '\n' ∉ server.listenPort := by
    rw [Config.listenPort, hvalue]
    exact (listenPort_field hcfg).newline
  have hsep : '\n' ∉ lit ", " := by simp [lit_eq]
  have hdns : '\n' ∉ join (defaultDNS params.dns) (lit ", ") := by
    apply newline_notMem_join hsep
    intro d hd
    rw [defaultDNS] at hd
    split at hd
    · simp only [List.mem_cons, List.not_mem_nil, or_false] at hd
      rcases hd with rfl | rfl <;> simp [lit_eq]
    · exact hlines d (by simp [ClientConfigParams.texts, hd])
  have hroutes : '\n' ∉ join defaultRoutes (lit ", ") :=
    (join_field defaultRoutes_entries).newline
  simp only [ClientConfigParams.texts, hip, Option.map_some, Option.toList_some, List.mem_append,
    List.mem_cons, List.not_mem_nil, or_false] at hlines
  have hkey : ∀ s ∈ clientSettings server params clientIP ++ serverSettings server params,
      '\n' ∉ s.1 ∧ '\n' ∉ s.2 := by
    intro s hs
    rcases List.mem_append.mp hs with hs | hs
    · refine ⟨(keyWord_setting hs).newline, ?_⟩
      rcases List.mem_append.mp hs with hs | hs
      · simp only [List.mem_cons, List.not_mem_nil, or_false] at hs
        rcases hs with rfl | rfl | rfl
        · simpa [lit_eq] using hlines _ (.inr rfl)
        · exact hdns
        · exact hlines _ (.inl (.inl (.inl rfl)))
      · obtain ⟨key, -, hs⟩ := List.mem_filterMap.mp hs
        obtain ⟨value, hvalue', rfl⟩ := Option.map_eq_some_iff.mp hs
        exact (interfaceValue_field hcfg (hvalue key ▸ hvalue')).newline
    · simp only [serverSettings, List.mem_cons, List.not_mem_nil, or_false] at hs
      rcases hs with rfl | rfl | rfl | rfl | rfl
      · exact ⟨by simp [lit_eq], hlines _ (.inl (.inl (.inr (.inl rfl))))⟩
      · exact ⟨by simp [lit_eq], hlines _ (.inl (.inl (.inr (.inr (.inl rfl)))))⟩
      · exact ⟨by simp [lit_eq], hroutes⟩
      · refine ⟨by simp [lit_eq], ?_⟩
        have hhost := hlines params.endpointHost (.inl (.inl (.inr (.inr (.inr rfl)))))
        simp [endpoint, hhost, hport]
      · exact ⟨by simp [lit_eq], by simp [lit_eq]⟩
  intro s hs
  simp [keyLine, lit_eq, hkey s hs]

theorem lookup_clientSettings (key : Text) :
    lookup (clientSettings server params clientIP) key =
      (lookup [(lit "Address", clientIP.text ++ lit "/32"),
        (lit "DNS", join (defaultDNS params.dns) (lit ", ")),
        (lit "PrivateKey", params.clientPrivateKey)] key).or
      (if key ∈ awgFields then server.interfaceValue key else none) := by
  rw [clientSettings, lookup_append, lookup_filterMap]
  by_cases hk : key ∈ awgFields <;> simp [hk]

/-- The first two name servers of a URI, as they were given. -/
theorem dns_shared (share : ShareURIParams) (awg lastConfig : GoMap) :
    Shared.dns ⟨rootObject share awg, awg, lastConfig⟩ = (defaultDNS share.dns).take 2 := by
  have h₁ : textMember (rootObject share awg) "dns1" = (defaultDNS share.dns).head? := by
    rw [textMember, lookup_rootObject awg (by decide), lookup_object]
    cases (defaultDNS share.dns).head? <;> simp [asText]
  have h₂ : textMember (rootObject share awg) "dns2" = (defaultDNS share.dns).tail.head? := by
    rw [textMember, lookup_rootObject awg (by decide), lookup_object]
    cases (defaultDNS share.dns).tail.head? <;> simp [asText]
  rw [Shared.dns]
  simp only [h₁, h₂]
  rcases defaultDNS share.dns with _ | ⟨a, _ | ⟨b, rest⟩⟩ <;> simp

/-- The share URI of an issued config holds what the config says, and the name servers
of both are the same exactly when the first two given are items of a list. -/
theorem formats_agree (hinflate : ∀ xs, inflate (deflate xs) = some xs) {input : Text}
    (hcfg : parseConfig input = .ok cfg) (hserver : server.interface = cfg.interface)
    (hlines : ∀ v ∈ params.texts, '\n' ∉ v) {native : Text}
    (hnative : renderClientConfig server params = .ok native) {clientPublicKey name uri : Text}
    (huri : renderAmneziaShareURI deflate server (params.share native clientPublicKey name) =
      .ok uri) :
    ∃ s, decodeShareURI inflate uri = some s ∧ Agree native s ∧
      (nativeDNS native = s.dns ↔ ∀ d ∈ (defaultDNS params.dns).take 2, Item d) := by
  -- without an address no client config is rendered
  cases hip : params.clientIP with
  | none =>
    rw [renderClientConfig, hip] at hnative
    split_ifs at hnative
  | some clientIP =>
    have hwhole := keyLines_whole (parseConfig_wellFormed hcfg) hserver hip hlines
    obtain ⟨-, rfl⟩ := renderClientConfig_ok hip hnative
    obtain ⟨port, subnet, hport, hdecode⟩ := decodeShareURI_render hinflate hip huri
    -- what a client reads from the native config, key by key
    have hendpoint : nativeValue (unlines '\n' (blocksLines (clientBlocks server params clientIP)))
        (lit "Endpoint") = some (params.endpointHost ++ ':' :: server.listenPort) := by
      rw [nativeValue_rendered hwhole (by simp [lit_eq]), lookup_clientSettings]
      simp [lookup, awgFields, serverSettings, endpoint]
    have haddress : nativeValue (unlines '\n' (blocksLines (clientBlocks server params clientIP)))
        (lit "Address") = some (clientIP.text ++ lit "/32") := by
      rw [nativeValue_rendered hwhole (by simp [lit_eq]), lookup_clientSettings]
      simp [lookup]
    have hkey : nativeValue (unlines '\n' (blocksLines (clientBlocks server params clientIP)))
        (lit "PrivateKey") = some params.clientPrivateKey := by
      rw [nativeValue_rendered hwhole (by simp [lit_eq]), lookup_clientSettings]
      simp [lookup]
    have hpublic : nativeValue (unlines '\n' (blocksLines (clientBlocks server params clientIP)))
        (lit "PublicKey") = some params.serverPublicKey := by
      rw [nativeValue_rendered hwhole (by simp [lit_eq]), lookup_clientSettings]
      simp [lookup, awgFields, serverSettings]
    have hshared : nativeValue (unlines '\n' (blocksLines (clientBlocks server params clientIP)))
        (lit "PresharedKey") = some params.presharedKey := by
      rw [nativeValue_rendered hwhole (by simp [lit_eq]), lookup_clientSettings]
      simp [lookup, awgFields, serverSettings]
    have hdns : nativeValue (unlines '\n' (blocksLines (clientBlocks server params clientIP)))
        (lit "DNS") = some (join (defaultDNS params.dns) (lit ", ")) := by
      rw [nativeValue_rendered hwhole (by simp [lit_eq]), lookup_clientSettings]
      simp [lookup]
    have hfield : ∀ key ∈ awgFields, nativeValue
        (unlines '\n' (blocksLines (clientBlocks server params clientIP))) key =
        server.interfaceValue key := by
      intro key hmem
      rw [nativeValue_rendered hwhole (space_notMem (alphanumeric_awgField hmem).2),
        lookup_clientSettings, if_pos hmem]
      have hnone : ∀ settings : List (Text × Text), (∀ s ∈ settings, s.1 ∉ awgFields) →
          lookup settings key = none :=
        fun settings h => lookup_eq_none fun s hs heq => h s hs (heq ▸ hmem)
      rw [hnone _ (by simp [awgFields]), hnone (serverSettings server params)
        (by simp [serverSettings, awgFields]), Option.none_or, Option.or_none]
    -- and the same from the decoded share link
    refine ⟨_, hdecode, ⟨?_, ?_, ?_, ?_, ?_, ?_, ?_, ?_⟩, ?_⟩
    · rw [textMember, lastConfigObject, lookup_copy_other (by simp [awgFields])]
      simp [asText, ClientConfigParams.share]
    · intro key hmem
      rw [hfield key hmem]
      refine ⟨lookup_copy_field hmem ?_, lookup_copy_field hmem ?_⟩
      · simp [awgFields]
      · simp [awgFields]
    · refine ⟨_, _, port, hendpoint, colon_notMem_of_atoi hport, hport, ?_, ?_, ?_, ?_⟩
      · rw [textMember, lookup_rootObject _ (by decide), lookup_object]
        simp [asText, ClientConfigParams.share]
      · rw [textMember, lastConfigObject, lookup_copy_other (by simp [awgFields])]
        simp [asText, ClientConfigParams.share]
      · rw [lastConfigObject, lookup_copy_other (by simp [awgFields])]
        simp
      · rw [textMember, awgObject, lookup_copy_other (by simp [awgFields])]
        simp [asText]
    · refine ⟨_, haddress, ?_⟩
      rw [textMember, lastConfigObject, lookup_copy_other (by simp [awgFields])]
      simp [asText]
    · refine ⟨_, hkey, ?_⟩
      rw [textMember, lastConfigObject, lookup_copy_other (by simp [awgFields])]
      simp [asText, ClientConfigParams.share]
    · refine ⟨_, hpublic, ?_⟩
      rw [textMember, lastConfigObject, lookup_copy_other (by simp [awgFields])]
      simp [asText, ClientConfigParams.share]
    · refine ⟨_, hshared, ?_⟩
      rw [textMember, lastConfigObject, lookup_copy_other (by simp [awgFields])]
      simp [asText, ClientConfigParams.share]
    · exact ⟨_, hdns, dns_shared _ _ _⟩
    · rw [nativeDNS, hdns, dns_shared]
      exact take_splitCSV_join _

end Agreement
section Example

/-- Stored blocks of one byte each. -/
def storeBytes : List UInt8 → List UInt8
  | [] => [1, 0, 0, 255, 255]
  | b :: bytes => 0 :: 1 :: 0 :: 254 :: 255 :: b :: storeBytes bytes

def adler32 (bytes : List UInt8) : List UInt8 :=
  let sums := bytes.foldl (fun (sums : Nat × Nat) b =>
    let low := (sums.1 + b.toNat) % 65521
    (low, (sums.2 + low) % 65521)) (1, 0)
  [sums.2 / 256, sums.2, sums.1 / 256, sums.1].map UInt8.ofNat

/-- A zlib stream that compresses nothing. -/
def zlibStore (bytes : List UInt8) : List UInt8 :=
  0x78 :: 0xDA :: (storeBytes bytes ++ adler32 bytes)

/-- The bytes of stored blocks and what follows the last of them. -/
def storedBytes : List UInt8 → Option (List UInt8 × List UInt8)
  | a :: b :: c :: d :: e :: rest =>
    if [a, b, c, d, e] = [1, 0, 0, 255, 255] then some ([], rest)
    else
      match rest with
      | x :: rest =>
        if [a, b, c, d, e] = [0, 1, 0, 254, 255] then
          (storedBytes rest).map fun r => (x :: r.1, r.2)
        else none
      | [] => none
  | _ => none

/-- Inflating a zlib stream of such blocks. -/
def zlibRead (stream : List UInt8) : Option (List UInt8) := do
  let (bytes, sum) ← storedBytes (stream.drop 2)
  if stream.take 2 = [0x78, 0xDA] ∧ sum = adler32 bytes then some bytes else none

theorem storedBytes_storeBytes (bytes rest : List UInt8) :
    storedBytes (storeBytes bytes ++ rest) = some (bytes, rest) := by
  induction bytes with
  | nil =>
    rw [storeBytes, storedBytes.eq_def]
    simp
  | cons b bytes ih => simp [storeBytes, storedBytes, ih]

theorem zlibRead_zlibStore (bytes : List UInt8) : zlibRead (zlibStore bytes) = some bytes := by
  simp [zlibRead, zlibStore, storedBytes_storeBytes]

/-- The share URI of the example client. -/
def exampleURI (dns : List Text) : Except ShareURIError Text :=
  renderAmneziaShareURI zlibStore (exampleConfig [])
    ((exampleParams dns).share (exampleClient dns) (lit "public") (lit "phone"))

theorem formats_agree_default : ∃ uri s, exampleURI [] = .ok uri ∧
    decodeShareURI zlibRead uri = some s ∧ Agree (exampleClient []) s ∧
    nativeDNS (exampleClient []) = s.dns := by
  have hok : (exampleURI []).toOption.isSome = true := by decide +kernel
  cases huri : exampleURI [] with
  | error e =>
    rw [huri] at hok
    cases hok
  | ok uri =>
    have hlines : ∀ v ∈ (exampleParams []).texts, '\n' ∉ v := by decide +kernel
    have hitems : ∀ d ∈ (defaultDNS (exampleParams []).dns).take 2, Item d := by
      have hall : ∀ d ∈ (defaultDNS (exampleParams []).dns).take 2,
          d ≠ [] ∧ ',' ∉ d ∧ trimSpace d = d := by decide +kernel
      exact fun d hd => ⟨(hall d hd).1, (hall d hd).2.1, (hall d hd).2.2⟩
    obtain ⟨s, hs, hagree, hdns⟩ := formats_agree zlibRead_zlibStore exampleConfig_parsed rfl
      hlines (exampleClient_rendered []) huri
    exact ⟨uri, s, rfl, hs, hagree, hdns.mpr hitems⟩

/-- Two name servers in one entry are two in the native config and one in the URI. -/
theorem dns_disagree : ∃ uri s,
    (∀ v ∈ (exampleParams [lit "1.1.1.1, 8.8.8.8"]).texts, '\n' ∉ v) ∧
    renderClientConfig (exampleConfig []) (exampleParams [lit "1.1.1.1, 8.8.8.8"]) =
      .ok (exampleClient [lit "1.1.1.1, 8.8.8.8"]) ∧
    exampleURI [lit "1.1.1.1, 8.8.8.8"] = .ok uri ∧ decodeShareURI zlibRead uri = some s ∧
    nativeDNS (exampleClient [lit "1.1.1.1, 8.8.8.8"]) = [lit "1.1.1.1", lit "8.8.8.8"] ∧
    s.dns = [lit "1.1.1.1, 8.8.8.8"] := by
  have hok : (exampleURI [lit "1.1.1.1, 8.8.8.8"]).toOption.isSome = true := by decide +kernel
  cases huri : exampleURI [lit "1.1.1.1, 8.8.8.8"] with
  | error e =>
    rw [huri] at hok
    cases hok
  | ok uri =>
    obtain ⟨port, subnet, -, hdecode⟩ := decodeShareURI_render zlibRead_zlibStore rfl huri
    exact ⟨uri, _, by decide +kernel, exampleClient_rendered _, rfl, hdecode, by decide +kernel,
      dns_shared _ _ _⟩

end Example
end VpnControl.Awg
