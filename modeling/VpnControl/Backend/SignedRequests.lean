import VpnControl.Backend.WireText
import VpnControl.Backend.Playback
import VpnControl.HttpApi.SignedOnce

namespace VpnControl.Backend
open Strings Trim Json Effects Prog HttpApi Calendar

/-- The functions of `hashlib` and `hmac` are those of the agent, their digests in hexadecimal. -/
structure Wire.Computes (wire : Wire) (H : Hashes) : Prop where
  sha256 : ∀ text, utf8 (wire.sha256 text) = encodeToString (H.sha256 (utf8 text))
  hmacSha256 : ∀ key text,
    utf8 (wire.hmacSha256 key text) = encodeToString (H.hmacSha256 (utf8 key) (utf8 text))

/-- What the client asks of an agent with a signature; `post` is any body for `/peers`. -/
inductive AgentCall where
  | status
  | peers
  | post (body : Doc)
  | issuePeer (name : Text) (dns : List Text) (endpointHost : Option Text) (metadata : List (Text × Doc))
  | revokePeer (publicKey : Text)

namespace AgentCall

def method : AgentCall → Text
  | status | peers => lit "GET"
  | post _ | issuePeer .. => lit "POST"
  | revokePeer _ => lit "DELETE"

def path : AgentCall → Text
  | status => lit "/status"
  | peers | post _ | issuePeer .. => lit "/peers"
  | revokePeer publicKey => peerPath publicKey

def task (b : Services) (node : ServerNode) : AgentCall → Task Unit
  | status => do
    let _ ← b.status node
    return ()
  | peers => do
    let _ ← b.peers node
    return ()
  | post body => do
    let _ ← b.request node (lit "POST") (lit "/peers") (some body) true
    return ()
  | issuePeer name dns endpointHost metadata => do
    let _ ← b.issuePeer node name dns endpointHost metadata
    return ()
  | revokePeer publicKey => do
    let _ ← b.revokePeer node publicKey
    return ()

end AgentCall

/-- A request as a call on `node` signs it. -/
structure Sent {ω : Type} (P : Platform ω) (b : Services) (node : ServerNode) (method path : Text)
    (l : List (Sigma Op.Res)) (request : Request) : Prop where
  method_eq : request.method = method
  path_eq : request.path = path
  headers : ∃ contentType secret timestamp, (∀ h ∈ contentType, h.1 = lit "Content-Type") ∧
    P.box.decrypt (node.agentSecretEncrypted.getD []) = some secret ∧
    (⟨.utcNow, .ok timestamp⟩ : Sigma Op.Res) ∈ l ∧
    request.headers = contentType ++ [(lit "X-Agent-Key-Id", node.agentKeyId.getD []),
      (lit "X-Agent-Timestamp", timestamp),
      (lit "X-Agent-Signature", b.signAgentRequest secret method path timestamp request.body)]

/-- A request arrives as it was sent. -/
structure Delivered (request : Request) (r : HttpApi.Request) (body : Bytes) : Prop where
  method : r.method = utf8 request.method
  url : parseRequestURI (utf8 request.path) = some r.url
  header : ∀ name, r.get name = ((request.headers.find? (·.1 = name)).map fun h => utf8 h.2).getD []
  body : body = utf8 request.body

section Sent
variable {ω : Type} {P : Platform ω} {b : Services} {i : Nat} {w : World ω} {node : ServerNode}

theorem wp_logged_ask {β : Type} {e : Op} {f : e.Ans → Task β} {l : List (Sigma Op.Res)}
    {Q : Post (World ω × List (Sigma Op.Res)) Exc β}
    (hok : ∀ r w', P.effect i w e r w' → wp (logged (P.env i)) (f r) Q (w', l ++ [⟨e, .ok r⟩]))
    (herr : ∀ x w', P.failure w e x w' → Q (.error x) (w', l ++ [⟨e, .error x⟩])) :
    wp (logged (P.env i)) (ask e >>= f) Q (w, l) := by
  rw [ask, wp_bind, wp_bind, wp_perform]
  rintro r ⟨w', l'⟩ ⟨hstep, hlog⟩
  dsimp only at hlog
  subst hlog
  cases r with
  | ok a => exact hok a w' hstep
  | error x => exact herr x w' hstep

/-- Making the headers sends nothing. -/
theorem wp_headers (method path body : Text) (hasBody : Bool) :
    wp (logged (P.env i)) (b.headers node method path body hasBody true) (fun out st =>
      (∀ request answer, (⟨.request request, answer⟩ : Sigma Op.Res) ∉ st.2) ∧
      ∀ headers, out = .ok headers → ∀ request : Request, request.method = method →
        request.path = path → request.body = body → request.headers = headers →
          Sent P b node method path st.2 request) (w, []) := by
  rw [Services.headers, if_pos rfl, Services.signedHeaders]
  have hcontent : ∀ h ∈ (if hasBody then [(lit "Content-Type", lit "application/json")] else []),
      h.1 = lit "Content-Type" := by
    cases hasBody <;> simp
  generalize (if hasBody then [(lit "Content-Type", lit "application/json")] else []) = contentType
    at hcontent ⊢
  by_cases hunset : (!optional node.agentKeyId || !optional node.agentSecretEncrypted) = true
  · rw [if_pos hunset]
    exact ⟨by simp, by rintro _ ⟨⟩⟩
  · rw [if_neg hunset, bind_assoc]
    refine wp_logged_ask (fun secret w₁ hdecrypt => ?_) fun x w₁ _ => ⟨by simp, by rintro _ ⟨⟩⟩
    rw [bind_assoc]
    refine wp_logged_ask (fun timestamp w₂ _ => ?_) fun x w₂ _ => ⟨by simp, by rintro _ ⟨⟩⟩
    refine ⟨by simp, ?_⟩
    rintro headers ⟨⟩ request hmethod hpath hbody hheaders
    refine ⟨hmethod, hpath, contentType, secret, timestamp, hcontent, hdecrypt.1, by simp, ?_⟩
    rw [hheaders, hbody]

theorem Sent.mono {method path : Text} {l l' : List (Sigma Op.Res)} {request : Request}
    (h : Sent P b node method path l request) (hsub : l ⊆ l') :
    Sent P b node method path l' request := by
  obtain ⟨hmethod, hpath, contentType, secret, timestamp, hcontent, hsecret, htime, hheaders⟩ := h
  exact ⟨hmethod, hpath, contentType, secret, timestamp, hcontent, hsecret, hsub htime, hheaders⟩

/-- Whatever comes of a signed request, nothing but it is sent. -/
theorem wp_request (method path : Text) (bodyObj : Option Doc) :
    wp (logged (P.env i)) (b.request node method path bodyObj true) (fun _ st =>
      ∀ request answer, (⟨.request request, answer⟩ : Sigma Op.Res) ∈ st.2 →
        Sent P b node method path st.2 request) (w, []) := by
  rw [Services.request]
  refine wp_seq (wp_headers method path _ _) ?_ ?_
  · rintro headers ⟨w₁, l⟩ ⟨hnone, hheaders⟩
    have hsent := hheaders headers rfl
      { baseUrl := node.agentBaseUrl, method, path, headers
        body := (bodyObj.map b.wire.dumps).getD [] } rfl rfl rfl rfl
    generalize ({ baseUrl := node.agentBaseUrl, method, path, headers
                  body := (bodyObj.map b.wire.dumps).getD [] } : Request) = sent at hsent ⊢
    have hlog : wp (logged (P.env i)) (ask (.request sent)) (fun _ st =>
        ∃ answer, st.2 = l ++ [(⟨.request sent, answer⟩ : Sigma Op.Res)]) (w₁, l) := by
      rw [← bind_pure (ask (.request sent))]
      exact wp_logged_ask (fun _ _ _ => ⟨_, rfl⟩) fun _ _ _ => ⟨_, rfl⟩
    refine wp_seq_attempt hlog ?_
    rintro r ⟨w₂, l'⟩ ⟨answer, rfl⟩
    have honly : ∀ request answer', (⟨.request request, answer'⟩ : Sigma Op.Res) ∈
        l ++ [⟨.request sent, answer⟩] →
          Sent P b node method path (l ++ [⟨.request sent, answer⟩]) request := by
      intro request answer' hmem
      rcases List.mem_append.mp hmem with hmem | hmem
      · exact absurd hmem (hnone request answer')
      · have hop := congrArg Sigma.fst (List.mem_singleton.mp hmem)
        cases hop
        exact hsent.mono (List.subset_append_left _ _)
    cases r with
    | ok response => exact honly
    | error x =>
      cases x with
      | transport reason => exact honly
      | _ => exact honly
  · rintro x ⟨w₁, l⟩ ⟨hnone, -⟩ request answer hmem
    exact absurd hmem (hnone request answer)

/-- What is done with the answer sends nothing more. -/
theorem wp_request_then {β : Type} {method path : Text} {bodyObj : Option Doc}
    {f : AgentResponse → Task β} (hf : ∀ response, (f response).Uses fun _ => False) :
    wp (logged (P.env i)) (b.request node method path bodyObj true >>= f) (fun _ st =>
      ∀ request answer, (⟨.request request, answer⟩ : Sigma Op.Res) ∈ st.2 →
        Sent P b node method path st.2 request) (w, []) :=
  wp_seq (wp_request method path bodyObj)
    (fun response _ h => wp_uses (fun _ _ _ _ he => he.elim) (hf response) h) fun _ _ h => h

/-- Every request of a call is its own, signed. -/
theorem AgentCall.sent {call : AgentCall} {l : List (Sigma Op.Res)} {out : Except Exc Unit}
    {w' : World ω} (h : Exec (P.env i) (call.task b node) w l out w') {request : Request}
    {answer : Op.Res (.request request)}
    (hmem : (⟨.request request, answer⟩ : Sigma Op.Res) ∈ l) :
    Sent P b node call.method call.path l request := by
  have hwp : wp (logged (P.env i)) (call.task b node) (fun _ st =>
      ∀ request answer, (⟨.request request, answer⟩ : Sigma Op.Res) ∈ st.2 →
        Sent P b node call.method call.path st.2 request) (w, []) := by
    cases call with
    | status =>
      rw [AgentCall.task, Services.status, bind_assoc]
      exact wp_request_then fun response => uses_bind (uses_lift _) fun _ => trivial
    | peers =>
      rw [AgentCall.task, Services.peers, bind_assoc]
      exact wp_request_then fun response => uses_bind (uses_lift _) fun _ => trivial
    | post body => exact wp_request_then fun response => trivial
    | issuePeer name dns endpointHost metadata =>
      rw [AgentCall.task, Services.issuePeer, bind_assoc]
      exact wp_request_then fun response =>
        uses_bind (uses_bind (uses_lift _) fun _ => uses_lift _) fun _ => trivial
    | revokePeer publicKey =>
      rw [AgentCall.task, Services.revokePeer, bind_assoc]
      exact wp_request_then fun response => uses_bind (uses_lift _) fun _ => trivial
  exact (wp_iff_exec _).mp hwp l out (w', [] ++ l) (exec_logged h []) request answer hmem

end Sent

section Agree
variable {ω : Type} {P : Platform ω} {b : Services} {H : Hashes} {node : ServerNode}

theorem upper_method (call : AgentCall) : upper call.method = call.method := by
  cases call <;> simp [AgentCall.method, upper, lit_eq]

/-- The signature that the backend makes is the one that the agent computes. -/
theorem utf8_signAgentRequest (hwire : b.wire.Computes H) {secret method path timestamp body : Text}
    (hmethod : upper method = method) :
    utf8 (b.signAgentRequest secret method path timestamp body) =
      signRequest H (utf8 secret) (utf8 method) (utf8 path) (utf8 timestamp) (utf8 body) := by
  rw [Services.signAgentRequest, hwire.hmacSha256, utf8_join_four, hwire.sha256, hmethod]
  rfl

theorem validEncoded_path (call : AgentCall) : validEncoded (utf8 call.path) = true := by
  have hpeers : validEncoded (utf8 (lit "/peers")) = true := by decide +kernel
  cases call with
  | status => decide +kernel
  | revokePeer key =>
    have hdirectory : validEncoded (utf8 (lit "/peers/")) = true := by decide +kernel
    rw [AgentCall.path, peerPath, utf8_append, validEncoded, List.all_append, Bool.and_eq_true]
    exact ⟨hdirectory, validEncoded_quote key⟩
  | _ => exact hpeers

/-- The handler of a path finds the key that was put into it. -/
theorem peerKey_peerPath {key : Text} {r : HttpApi.Request}
    (hpath : r.url.escapedPath = utf8 (peerPath key)) : Server.peerKey r = some (utf8 key) := by
  have hpeer : utf8 (peerPath key) = utf8 (lit "/peers/") ++ utf8 (quote key) := by
    rw [peerPath, utf8_append]
  rw [Server.peerKey, hpath, hpeer, if_pos (List.prefix_append _ _), List.drop_left,
    unescape_quote]

/-- The headers of a signature do not depend on what stands in front of them. -/
theorem find_signed {contentType signed : List (Text × Text)} {name : Text}
    (hcontent : ∀ h ∈ contentType, h.1 = lit "Content-Type") (hname : name ≠ lit "Content-Type") :
    (contentType ++ signed).find? (·.1 = name) = signed.find? (·.1 = name) := by
  have hnone : contentType.find? (·.1 = name) = none :=
    List.find?_eq_none.mpr fun h hh => by simpa [hcontent h hh] using hname.symm
  rw [List.find?_append, hnone, Option.none_or]

/-- Whatever the client sends carries the signature that the agent with the same key id and secret
computes from what it has received, and is let in; the key in a path is read back. -/
theorem sent_request_authorized (hwire : b.wire.Computes H) {keyId secret : Text}
    (hkeyId : node.agentKeyId = some keyId) (hprint : ∀ c ∈ keyId, ' ' ≤ c ∧ c ≤ '~')
    (hhead : keyId.head? ≠ some ' ') (hlast : keyId.getLast? ≠ some ' ')
    (hsecret : P.box.decrypt (node.agentSecretEncrypted.getD []) = some secret) (hne : secret ≠ [])
    {config : AuthConfig} {a : Authenticator} (ha : newAuthenticator config = .ok a)
    (hsameKey : config.keyID = keyId) (hsameSecret : config.secret = secret)
    {call : AgentCall} {i : Nat} {w w' : World ω} {l : List (Sigma Op.Res)} {out : Except Exc Unit}
    (hcall : Exec (P.env i) (call.task b node) w l out w') {request : Request}
    {answer : Op.Res (.request request)}
    (hsent : (⟨.request request, answer⟩ : Sigma Op.Res) ∈ l) {now : Int}
    (hskew : ∀ timestamp, (⟨.utcNow, .ok timestamp⟩ : Sigma Op.Res) ∈ l →
      ∃ t : Stamp, t.Valid ∧ t.year < 10000 ∧ timestamp = rfc3339UtcNow t ∧
        |now - (t.seconds : Int) * 1000000000| ≤ a.allowedSkew.toInt)
    {r : HttpApi.Request} {body : Bytes} (hdelivered : Delivered request r body)
    (hallowed : a.checkAllowlist r = .ok ()) :
    r.get (lit "X-Agent-Signature") =
        signRequest H a.secret r.method (requestPath r) (r.get (lit "X-Agent-Timestamp")) body ∧
      a.authorize H now r body = .ok () ∧
      ∀ key, call = .revokePeer key → Server.peerKey r = some (utf8 key) := by
  obtain ⟨hmethod, hpath, contentType, secret', timestamp, hcontent, hsecret', htime, hheaders⟩ :=
    call.sent hcall hsent
  cases hsecret.symm.trans hsecret'
  obtain ⟨t, ht, hyear, rfl, hnow⟩ := hskew timestamp htime
  obtain ⟨hescaped, hquery⟩ := escapedPath_parseRequestURI
    (hpath ▸ hdelivered.url) (validEncoded_path call)
  obtain ⟨haKey, haSecret⟩ := newAuthenticator_ok ha
  -- Go reads back the path that Python escaped, without a query
  have hrequestPath : requestPath r = utf8 call.path := by
    rw [requestPath, if_pos hquery, hescaped]
  have hget : ∀ name, name ≠ lit "Content-Type" → r.get name =
      (([(lit "X-Agent-Key-Id", node.agentKeyId.getD []), (lit "X-Agent-Timestamp", rfc3339UtcNow t),
        (lit "X-Agent-Signature", b.signAgentRequest secret call.method call.path (rfc3339UtcNow t)
          request.body)].find? (·.1 = name)).map fun h => utf8 h.2).getD [] := by
    intro name hname
    rw [hdelivered.header, hheaders, find_signed hcontent hname]
  have hkeyGet : r.get (lit "X-Agent-Key-Id") = utf8 keyId := by
    rw [hget _ (by simp)]
    simp [hkeyId]
  have htimeGet : r.get (lit "X-Agent-Timestamp") = utf8 (rfc3339UtcNow t) := by
    rw [hget _ (by simp)]
    simp
  -- both sides hash the same text: method, path, time stamp, body
  have hsignatureGet : r.get (lit "X-Agent-Signature") =
      signRequest H a.secret r.method (requestPath r) (utf8 (rfc3339UtcNow t)) body := by
    rw [hget _ (by simp), haSecret, hsameSecret, hdelivered.method, hmethod, hrequestPath,
      hdelivered.body, ← utf8_signAgentRequest hwire (upper_method call)]
    simp
  have hsecretNe : a.secret ≠ [] := by
    rw [haSecret, hsameSecret]
    obtain ⟨c, s, rfl⟩ := List.exists_cons_of_ne_nil hne
    rw [utf8_cons]
    exact List.append_ne_nil_of_left_ne_nil (by simp [utf8]) _
  -- the checks of the middleware, in its order
  have hsigned : Signed a H now r body := by
    refine ⟨hallowed, ?_, ⟨_, htimeGet ▸ parseTime_rfc3339UtcNow ht hyear,
      a.checkSkew_of_abs_le hnow⟩, ?_⟩
    · rw [hkeyGet, haKey, hsameKey, trimSpace_printable hprint hhead hlast]
    · rw [hsignatureGet, htimeGet]
      exact trimSpaceBytes_hex fun _ => hexByte_encodeToString
  refine ⟨htimeGet ▸ hsignatureGet, (authorize_ok_iff hsecretNe).mpr hsigned, ?_⟩
  rintro key rfl
  exact peerKey_peerPath hescaped

end Agree

namespace Sample

/-- The digests of the agent in hexadecimal. -/
def signingWire : Wire where
  sha256 text := ascii (encodeToString (HttpApi.Sample.hashes.sha256 (utf8 text)))
  hmacSha256 key text :=
    ascii (encodeToString (HttpApi.Sample.hashes.hmacSha256 (utf8 key) (utf8 text)))
  dumps := wire.dumps
  str := wire.str
  lower := wire.lower
  pbkdf2Matches := wire.pbkdf2Matches

theorem utf8_ascii_hex (s : Bytes) : utf8 (ascii (encodeToString s)) = encodeToString s := by
  have hbyte : ∀ i : Fin 256, hexByte (UInt8.ofNat i) = true →
      utf8 [Char.ofNat (UInt8.ofNat i).toNat] = [UInt8.ofNat i] := by decide +kernel
  have hall : ∀ t : Bytes, (∀ c ∈ t, hexByte c = true) → utf8 (ascii t) = t := by
    intro t ht
    induction t with
    | nil => rfl
    | cons c t ih =>
      have hc : utf8 [Char.ofNat c.toNat] = [c] := by
        simpa using hbyte ⟨c.toNat, c.toNat_lt⟩ (by simpa using ht c List.mem_cons_self)
      rw [ascii, List.map_cons, utf8_cons, ← ascii, ih fun d hd => ht d (List.mem_cons_of_mem c hd), hc]
      rfl
  exact hall _ fun _ => hexByte_encodeToString

theorem signingWire_computes : signingWire.Computes HttpApi.Sample.hashes :=
  ⟨fun _ => utf8_ascii_hex _, fun _ _ => utf8_ascii_hex _⟩

def signing : Services := ⟨signingWire, services.settings⟩

def sentRevocation : Request where
  baseUrl := node.agentBaseUrl
  method := lit "DELETE"
  path := peerPath (lit "a/b+c=")
  headers := [(lit "X-Agent-Key-Id", lit "key"), (lit "X-Agent-Timestamp", lit "2026-07-07T10:00:00Z"),
    (lit "X-Agent-Signature", signing.signAgentRequest (lit "agent secret") (lit "DELETE")
      (peerPath (lit "a/b+c=")) (lit "2026-07-07T10:00:00Z") [])]
  body := []

theorem exec_revocation (w : World Unit) :
    Exec ((scenario .database).platform.env 0) ((AgentCall.revokePeer (lit "a/b+c=")).task signing node) w
      [⟨.decrypt (node.agentSecretEncrypted.getD []), .ok (lit "agent secret")⟩,
        ⟨.utcNow, .ok (lit "2026-07-07T10:00:00Z")⟩,
        ⟨.request sentRevocation, .ok ⟨200, .obj [], []⟩⟩] (.ok ()) w := by
  have hset : ¬ (!optional node.agentKeyId || !optional node.agentSecretEncrypted) = true := by
    decide +kernel
  rw [AgentCall.task, Services.revokePeer, Services.request, Services.headers, if_pos rfl,
    Services.signedHeaders, if_neg hset]
  have hdecrypt : (scenario .database).platform.env 0 w
      (.decrypt (node.agentSecretEncrypted.getD [])) (.ok (lit "agent secret")) w := ⟨rfl, rfl⟩
  have htime : (scenario .database).platform.env 0 w .utcNow
      (.ok (lit "2026-07-07T10:00:00Z")) w := rfl
  have hrequest : (scenario .database).platform.env 0 w (.request sentRevocation)
      (.ok ⟨200, .obj [], []⟩) w := by
    have hmethod : sentRevocation.method ≠ lit "POST" := by decide +kernel
    exact ⟨(), ⟨none, by simp only [scenario, agent]; rw [if_neg hmethod]⟩, rfl⟩
  exact .op hdecrypt (.op htime (.op hrequest (.ret () w)))

end Sample

/-- A key with all the characters that have to be escaped, a minute late. -/
theorem revocation_authorized :
    (HttpApi.Sample.revocation (lit "10.1.2.3:5000")).get (lit "X-Agent-Signature") =
        signRequest HttpApi.Sample.hashes HttpApi.Sample.authenticator.secret
          (HttpApi.Sample.revocation (lit "10.1.2.3:5000")).method
          (requestPath (HttpApi.Sample.revocation (lit "10.1.2.3:5000")))
          ((HttpApi.Sample.revocation (lit "10.1.2.3:5000")).get (lit "X-Agent-Timestamp")) [] ∧
      HttpApi.Sample.authenticator.authorize HttpApi.Sample.hashes (HttpApi.Sample.now + 60000000000)
        (HttpApi.Sample.revocation (lit "10.1.2.3:5000")) [] = .ok () ∧
      Server.peerKey (HttpApi.Sample.revocation (lit "10.1.2.3:5000")) = some (utf8 (lit "a/b+c=")) := by
  have htime : lit "2026-07-07T10:00:00Z" = rfc3339UtcNow ⟨2026, 7, 7, 10, 0, 0⟩ := by decide +kernel
  have hskew : ∀ timestamp, (⟨.utcNow, .ok timestamp⟩ : Sigma Op.Res) ∈
      [(⟨.decrypt (Sample.node.agentSecretEncrypted.getD []), .ok (lit "agent secret")⟩ : Sigma Op.Res),
        ⟨.utcNow, .ok (lit "2026-07-07T10:00:00Z")⟩,
        ⟨.request Sample.sentRevocation, .ok ⟨200, .obj [], []⟩⟩] →
      ∃ t : Stamp, t.Valid ∧ t.year < 10000 ∧ timestamp = rfc3339UtcNow t ∧
        |HttpApi.Sample.now + 60000000000 - (t.seconds : Int) * 1000000000| ≤
          HttpApi.Sample.authenticator.allowedSkew.toInt := by
    intro timestamp hmem
    have hstamp : timestamp = lit "2026-07-07T10:00:00Z" := by simpa using hmem
    refine ⟨⟨2026, 7, 7, 10, 0, 0⟩, ?_, by decide, hstamp.trans htime, by decide +kernel⟩
    constructor <;> decide
  have hdelivered : Delivered Sample.sentRevocation
      (HttpApi.Sample.revocation (lit "10.1.2.3:5000")) [] := by
    have hheader : (HttpApi.Sample.revocation (lit "10.1.2.3:5000")).header =
        Sample.sentRevocation.headers.map fun h => (h.1, utf8 h.2) := by decide +kernel
    refine ⟨rfl, by decide +kernel, fun name => ?_, rfl⟩
    rw [HttpApi.Request.get, hheader, List.find?_map, Option.map_map]
    rfl
  have hsecret : (Sample.scenario .database).platform.box.decrypt
      (Sample.node.agentSecretEncrypted.getD []) = some (lit "agent secret") := rfl
  have hprint : ∀ c ∈ lit "key", ' ' ≤ c ∧ c ≤ '~' := by simp [lit_eq]
  obtain ⟨hsignature, hauthorized, hkey⟩ := sent_request_authorized Sample.signingWire_computes rfl
    hprint (by decide +kernel) (by decide +kernel) hsecret (by decide +kernel)
    HttpApi.Sample.newAuthenticator_authConfig rfl rfl
    (Sample.exec_revocation { store := {}, agents := () }) (List.mem_cons_of_mem _
      (List.mem_cons_of_mem _ List.mem_cons_self)) hskew hdelivered (by decide +kernel)
  exact ⟨hsignature, hauthorized, hkey _ rfl⟩

end VpnControl.Backend
