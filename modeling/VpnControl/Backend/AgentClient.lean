import VpnControl.Backend.Platform
import VpnControl.Lib.Calendar

namespace VpnControl.Backend
open Strings Json Effects Prog

/-- What the backend takes from libraries: the hashes of a signature in hexadecimal, JSON
text, Python's `str` of a JSON value and `lower` of a text, and whether a password has, with
these iterations and this salt, this PBKDF2 digest. -/
structure Wire where
  sha256 : Text → Text
  hmacSha256 : Text → Text → Text
  dumps : Doc → Text
  str : Doc → Text
  lower : Text → Text
  pbkdf2Matches : (password iterations salt digest : Text) → Bool

structure Settings where
  sessionTtlDays : Nat := 30
  issueResultTtlMinutes : Nat := 15
  loginRateLimitAttempts : Nat := 5
  loginRateLimitWindowMinutes : Nat := 15
  setupWorkerEnabled : Bool := true
  setupAgentBaseUrl : Text → Text

/-- The services of one backend process. -/
structure Services where
  wire : Wire
  settings : Settings

def twoDigits (n : Nat) : Text := [Nat.digitChar (n / 10), Nat.digitChar (n % 10)]

/-- `rfc3339_utc_now` at a moment of UTC: `%Y-%m-%dT%H:%M:%SZ`. -/
def rfc3339UtcNow (now : Calendar.Stamp) : Text :=
  twoDigits (now.year / 100) ++ twoDigits (now.year % 100) ++ '-' :: twoDigits now.month ++
    '-' :: twoDigits now.day ++ 'T' :: twoDigits now.hour ++ ':' :: twoDigits now.minute ++
    ':' :: twoDigits now.second ++ ['Z']

def hexDigits (b : UInt8) : Text :=
  let digit (n : Nat) : Char := if n < 10 then Char.ofNat (48 + n) else Char.ofNat (55 + n)
  [digit (b.toNat / 16), digit (b.toNat % 16)]

/-- The characters that `quote` with `safe=""` leaves as they are. -/
def unreserved (c : Char) : Bool :=
  ('a' ≤ c && c ≤ 'z') || ('A' ≤ c && c ≤ 'Z') || ('0' ≤ c && c ≤ '9') ||
    c == '_' || c == '.' || c == '-' || c == '~'

def quote (s : Text) : Text :=
  s.flatMap fun c =>
    if unreserved c then [c] else (String.utf8EncodeChar c).flatMap fun b => '%' :: hexDigits b

def peerPath (publicKey : Text) : Text := lit "/peers/" ++ quote publicKey

/-- The value of a key; of a repeated key `json.loads` keeps the last one. -/
def member (ms : List (Text × Doc)) (key : Text) : Option Doc :=
  (ms.reverse.find? (·.1 = key)).map (·.2)

/-- `payload[key]`. -/
def item (payload : Doc) (key : Text) : Except Exc Doc :=
  match payload with
  | .obj ms =>
    match member ms key with
    | some value => .ok value
    | none => .error (.other (lit "KeyError"))
  | _ => .error (.other (lit "TypeError"))

/-- `payload.get(key)`. -/
def getItem (payload : Doc) (key : Text) : Except Exc (Option Doc) :=
  match payload with
  | .obj ms => .ok (member ms key)
  | _ => .error (.other (lit "AttributeError"))

/-- `bool(value)`. -/
def truthy : Doc → Bool
  | .null => false
  | .bool b => b
  | .num literal => (literal.takeWhile fun c => c ≠ 'e' && c ≠ 'E').any fun c => '1' ≤ c && c ≤ '9'
  | .str s => s ≠ []
  | .arr xs => !xs.isEmpty
  | .obj ms => !ms.isEmpty

def optional : Option Text → Bool
  | none => false
  | some s => s ≠ []

structure AgentIssueResult where
  publicKey : WireValue
  clientIp : WireValue
  config : WireValue
  vpnUrl : WireValue

def skewMessage : Text := lit "timestamp outside allowed skew"

namespace Services
variable (b : Services)

def signAgentRequest (secret method escapedPathWithQuery timestamp body : Text) : Text :=
  b.wire.hmacSha256 secret
    (join [upper method, escapedPathWithQuery, timestamp, b.wire.sha256 body] ['\n'])

def secretRequired (node : ServerNode) : AppError where
  code := .secretRequired
  message := lit "Для узла не настроен доступ к агенту"
  details := .obj [(lit "server_node_id", .str node.id)]

def signedHeaders (node : ServerNode) (method path body : Text) : Task (List (Text × Text)) := do
  if !optional node.agentKeyId || !optional node.agentSecretEncrypted then
    raise (secretRequired node)
  else
    let secret : Text ← ask (.decrypt (node.agentSecretEncrypted.getD []))
    let timestamp : Text ← ask .utcNow
    return [(lit "X-Agent-Key-Id", node.agentKeyId.getD []), (lit "X-Agent-Timestamp", timestamp),
      (lit "X-Agent-Signature", b.signAgentRequest secret method path timestamp body)]

/-- The headers of a request; a request without a body has no content type. -/
def headers (node : ServerNode) (method path body : Text) (hasBody signed : Bool) :
    Task (List (Text × Text)) := do
  let contentType := if hasBody then [(lit "Content-Type", lit "application/json")] else []
  if signed then
    let signature ← b.signedHeaders node method path body
    return contentType ++ signature
  else return contentType

def unavailable (node : ServerNode) (reason : Text) : AppError where
  code := .agentUnavailable
  message := lit "Узел сейчас недоступен"
  status := 502
  details := .obj [(lit "server_node_id", .str node.id), (lit "reason", .str reason)]

/-- `_request`. -/
def request (node : ServerNode) (method path : Text) (bodyObj : Option Doc) (signed : Bool) :
    Task AgentResponse := do
  let body := (bodyObj.map b.wire.dumps).getD []
  let headers ← b.headers node method path body bodyObj.isSome signed
  let r ← (ask (.request { baseUrl := node.agentBaseUrl, method, path, headers, body })).attempt
  match r with
  | .ok response => ret response
  | .error (.transport reason) => raise (unavailable node reason)
  | .error x => fail x

/-- `str(payload.get("error", ""))`, or nothing if the payload is no dict. -/
def agentMessage (payload : Doc) : Text :=
  match payload with
  | .obj ms =>
    match member ms (lit "error") with
    | none => []
    | some (.str s) => s
    | some value => b.wire.str value
  | _ => []

def rejection (response : AgentResponse) (node : ServerNode) : AppError :=
  let message := b.agentMessage response.payload
  let details := [(lit "server_node_id", .str node.id),
    (lit "agent_status", .num (Nat.toDigits 10 response.statusCode)),
    (lit "agent_message", .str message)]
  if response.statusCode ≥ 500 then
    { code := .agentUnavailable, message := lit "Узел ответил ошибкой", status := 502
      details := .obj details }
  else
    let hint := if skewMessage <:+: message then
      [(lit "hint", .str (lit "Часы бэкенда и узла разошлись больше чем на 60 секунд (NTP)"))]
    else []
    { code := .agentRejected, message := lit "Узел отклонил запрос", status := 502
      details := .obj (details ++ hint) }

/-- `_expect`. -/
def expect (response : AgentResponse) (expectedStatus : Nat) (node : ServerNode) :
    Except Exc Doc :=
  if response.statusCode = expectedStatus then .ok response.payload
  else .error (.app (b.rejection response node))

def health (node : ServerNode) : Task Doc := do
  let response ← b.request node (lit "GET") (lit "/health") none false
  lift (b.expect response 200 node)

def status (node : ServerNode) : Task Doc := do
  let response ← b.request node (lit "GET") (lit "/status") none true
  lift (b.expect response 200 node)

def peers (node : ServerNode) : Task Doc := do
  let response ← b.request node (lit "GET") (lit "/peers") none true
  lift (b.expect response 200 node)

def issueResult (payload : Doc) (surrogates : List Text) : Except Exc AgentIssueResult := do
  let field (name : Text) : Except Exc WireValue :=
    (item payload name).map fun value => ⟨value, name ∈ surrogates⟩
  let publicKey ← field (lit "public_key")
  let clientIp ← field (lit "client_ip")
  let config ← field (lit "config")
  let vpnUrl ← field (lit "vpn_url")
  return ⟨publicKey, clientIp, config, vpnUrl⟩

def issuePeer (node : ServerNode) (name : Text) (dns : List Text) (endpointHost : Option Text)
    (metadata : List (Text × Doc)) : Task AgentIssueResult := do
  let requestBody := .obj ([(lit "name", .str name)] ++
    (if dns ≠ [] then [(lit "dns", .arr (dns.map .str))] else []) ++
    (if optional endpointHost then [(lit "endpoint_host", .str (endpointHost.getD []))] else []) ++
    (if metadata.isEmpty then [] else [(lit "metadata", .obj metadata)]))
  let response ← b.request node (lit "POST") (lit "/peers") (some requestBody) true
  let payload ← lift (b.expect response 201 node)
  lift (issueResult payload response.surrogates)

def revokePeer (node : ServerNode) (publicKey : Text) : Task Doc := do
  let response ← b.request node (lit "DELETE") (peerPath publicKey) none true
  lift (b.expect response 200 node)

end Services
end VpnControl.Backend
