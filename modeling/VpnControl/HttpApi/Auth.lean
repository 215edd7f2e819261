import VpnControl.HttpApi.Rfc3339
import VpnControl.Awg.Netip
import Mathlib.Data.Set.Function
import Mathlib.Algebra.Order.Group.Abs
import Mathlib.Algebra.Order.Group.Int

namespace VpnControl.HttpApi
open Strings Trim Netip BitPrefix

/-- `crypto/sha256` and `crypto/hmac` over it. -/
structure Hashes where
  sha256 : Bytes → Bytes
  hmacSha256 : Bytes → Bytes → Bytes

def lowerHex (n : UInt8) : UInt8 := if n < 10 then 48 + n else 87 + n

/-- `hex.EncodeToString`. -/
def encodeToString (s : Bytes) : Bytes := s.flatMap fun b => [lowerHex (b / 16), lowerHex (b % 16)]

/-- A `time.Duration`, in nanoseconds. -/
abbrev Duration := Int64

/-- `time.Time.Sub` of two instants in nanoseconds: what is out of range becomes the nearest
duration. -/
def sub (t u : Int) : Duration :=
  Int64.ofInt (max Int64.minValue.toInt (min Int64.maxValue.toInt (t - u)))

structure AuthConfig where
  keyID : Text
  secret : Text
  allowedIPs : List Text
  allowedSkew : Duration
  allowNoAuth : Bool

/-- A `net.IP` as `To4` sees it: an IPv4 address inside IPv6 is an IPv4 address. -/
inductive IP where
  | v4 (a : BitVec 32)
  | v6 (a : BitVec 128)
  deriving DecidableEq, Repr

def unmap (a : BitVec 128) : IP := if is4In6 a then .v4 (a.setWidth 32) else .v6 a

/-- A `net.IPNet`: an address and the number of leading ones of the mask that is used with it. -/
structure IPNet where
  ip : IP
  ones : Nat
  deriving DecidableEq, Repr

def IPNet.contains (n : IPNet) (ip : IP) : Bool :=
  match n.ip, ip with
  | .v4 a, .v4 b => Agree n.ones a b
  | .v6 a, .v6 b => Agree n.ones a b
  | _, _ => false

/-- `net.ParseIP`. -/
def parseIP (s : Text) : Option IP :=
  match parseAddr s with
  | some (.v4 a) => some (.v4 a)
  | some (.v6 a zone) => if zone = [] then some (unmap a) else none
  | none => none

/-- `IP.Mask` of the address of a CIDR, and what remains of the mask. -/
def maskIP (n : Nat) : Addr → IPNet
  | .v4 a => ⟨.v4 (mask n a), n⟩
  | .v6 a _ =>
    match unmap (mask n a) with
    | .v4 a => ⟨.v4 a, n - 96⟩
    | .v6 a => ⟨.v6 a, n⟩

/-- `net.ParseCIDR`, less the address. -/
def parseCIDR (s : Text) : Option IPNet := do
  let (addrText, maskText) ← cut '/' s
  let addr ← parseAddr addrText
  let digits := maskText ≠ [] ∧ maskText.all (fun c => '0' ≤ c && c ≤ '9')
  let n := maskText.foldl (fun n c => n * 10 + (c.toNat - '0'.toNat)) 0
  if addr.zone = [] ∧ digits ∧ n ≤ addr.bitLen then some (maskIP n addr) else none

inductive AuthConfigError where
  | parseCIDR (value : Text)
  | parseIP (value : Text)
  | emptyAllowlist
  deriving DecidableEq, Repr

def parseAllowedIP (value : Text) : Except AuthConfigError IPNet :=
  if '/' ∈ value then
    match parseCIDR value with
    | none => .error (.parseCIDR value)
    | some network => .ok network
  else
    match parseIP value with
    | none => .error (.parseIP value)
    | some (.v4 a) => .ok ⟨.v4 a, 32⟩
    | some (.v6 a) => .ok ⟨.v6 a, 128⟩

structure Authenticator where
  keyID : Text
  secret : Bytes
  allowedNets : List IPNet
  allowedSkew : Duration
  allowNoAuth : Bool
  deriving DecidableEq

def newAuthenticator (config : AuthConfig) : Except AuthConfigError Authenticator := do
  let values := (config.allowedIPs.map trimSpace).filter (· ≠ [])
  let allowedNets ← values.mapM parseAllowedIP
  if allowedNets = [] then throw .emptyAllowlist
  return {
    keyID := trimSpace config.keyID
    secret := utf8 config.secret
    allowedNets
    allowedSkew := if config.allowedSkew = 0 then 60000000000 else config.allowedSkew
    allowNoAuth := config.allowNoAuth }

theorem newAuthenticator_ok {config : AuthConfig} {a : Authenticator}
    (h : newAuthenticator config = .ok a) :
    a.keyID = trimSpace config.keyID ∧ a.secret = utf8 config.secret := by
  rw [newAuthenticator] at h
  cases hnets : ((config.allowedIPs.map trimSpace).filter (· ≠ [])).mapM parseAllowedIP with
  | error e =>
    rw [hnets] at h
    cases h
  | ok nets =>
    rw [hnets] at h
    by_cases hempty : nets = []
    · simp [bind, Except.bind, hempty, throw, throwThe, MonadExceptOf.throw] at h
    · simp only [bind, Except.bind, hempty, if_false] at h
      cases h
      exact ⟨rfl, rfl⟩

/-- `httpError`. -/
structure HttpError where
  status : Nat
  message : Text
  deriving DecidableEq, Repr

def isTokenByte (c : UInt8) : Bool := alphanumeric c || isByteOf "!#$%&'*+-.^_|~\u0060" c

/-- An `http.Request` as the server reads it: the method is a token, the header is given under
canonical names, and what the handler reads of the body is the rest. -/
structure Request where
  method : Bytes
  url : URL
  header : List (Text × Bytes)
  remoteAddr : Text
  method_token : ∀ c ∈ method, isTokenByte c = true := by decide +kernel

/-- `Header.Get`. -/
def Request.get (r : Request) (name : Text) : Bytes :=
  ((r.header.find? (·.1 = name)).map (·.2)).getD []

def requestPath (r : Request) : Bytes :=
  if r.url.rawQuery = [] then r.url.escapedPath else r.url.escapedPath ++ 63 :: r.url.rawQuery

/-- `strings.Join(parts, "\n")`. -/
def joinLines (parts : List Bytes) : Bytes := [10].intercalate parts

def signRequest (H : Hashes) (secret method path timestamp body : Bytes) : Bytes :=
  encodeToString (H.hmacSha256 secret
    (joinLines [method, path, timestamp, encodeToString (H.sha256 body)]))

/-- The host of `net.SplitHostPort`. -/
def splitHostPort (s : Text) : Option Text :=
  match cut ':' s.reverse with
  | none => none
  | some (port, before) =>
    let host := before.reverse
    if s.head? = some '[' then
      -- the first `]` has to stand just before the last colon
      match cut ']' (s.drop 1) with
      | some (host, rest) =>
        if rest = ':' :: port.reverse ∧ '[' ∉ host ++ rest ∧ ']' ∉ rest then some host else none
      | none => none
    else if ':' ∈ host ∨ '[' ∈ s ∨ ']' ∈ s then none
    else some host

/-- The bytes that `strings.TrimSpace` takes off an end. -/
def spaceBytes : List Bytes :=
  (lit "\t\n\u000b\u000c\r \u0085\u00a0\u1680\u2000\u2001\u2002\u2003\u2004\u2005\u2006\u2007\u2008\u2009\u200a\u2028\u2029\u202f\u205f\u3000").map
    fun c => utf8 [c]

def trimLeft : Nat → Bytes → Bytes
  | 0, s => s
  | n + 1, s =>
    match spaceBytes.find? (· <+: s) with
    | some space => trimLeft n (s.drop space.length)
    | none => s

def trimRight : Nat → Bytes → Bytes
  | 0, s => s
  | n + 1, s =>
    match spaceBytes.find? (· <:+ s) with
    | some space => trimRight n (s.take (s.length - space.length))
    | none => s

/-- `strings.TrimSpace` of a text by its bytes. -/
def trimSpaceBytes (s : Bytes) : Bytes := trimRight s.length (trimLeft s.length s)

namespace Authenticator
variable (a : Authenticator)

def checkAllowlist (r : Request) : Except HttpError Unit :=
  if a.allowedNets = [] then .error ⟨403, lit "IP allowlist is empty"⟩
  else
    match parseIP ((splitHostPort r.remoteAddr).getD r.remoteAddr) with
    | none => .error ⟨403, lit "invalid remote address"⟩
    | some ip =>
      if a.allowedNets.any (·.contains ip) then .ok ()
      else .error ⟨403, lit "remote address is not allowed"⟩

/-- The check of the time of a request against the clock. -/
def checkSkew (now : Int) (timestamp : Int) : Except HttpError Unit :=
  let delta := sub now timestamp
  let delta := if delta < 0 then -delta else delta
  if delta > a.allowedSkew then .error ⟨401, lit "timestamp outside allowed skew"⟩ else .ok ()

def checkSignature (H : Hashes) (now : Int) (r : Request) (body : Bytes) : Except HttpError Unit :=
  if r.get (lit "X-Agent-Key-Id") ≠ utf8 a.keyID then .error ⟨401, lit "invalid key id"⟩
  else
    let timestampRaw := r.get (lit "X-Agent-Timestamp")
    match parseTime timestampRaw with
    | none => .error ⟨401, lit "invalid timestamp"⟩
    | some timestamp => do
      a.checkSkew now timestamp
      let expected := signRequest H a.secret r.method (requestPath r) timestampRaw body
      let got := trimSpaceBytes (r.get (lit "X-Agent-Signature"))
      if got ≠ expected then .error ⟨401, lit "invalid signature"⟩ else .ok ()

def authorize (H : Hashes) (now : Int) (r : Request) (body : Bytes) : Except HttpError Unit := do
  a.checkAllowlist r
  if a.secret = [] then
    if a.allowNoAuth then .ok ()
    else .error ⟨401, lit "HMAC secret is not configured"⟩
  else a.checkSignature H now r body

/-- Durations that are in range are subtracted and negated as they should be. -/
theorem checkSkew_of_abs_le {now timestamp : Int} (h : |now - timestamp| ≤ a.allowedSkew.toInt) :
    a.checkSkew now timestamp = .ok () := by
  have hlt := a.allowedSkew.toInt_lt
  obtain ⟨hlo, hhi⟩ := abs_le.mp h
  have hsub : sub now timestamp = Int64.ofInt (now - timestamp) := by
    rw [sub, Int64.toInt_minValue, Int64.toInt_maxValue, min_eq_right (by omega),
      max_eq_right (by omega)]
  have hdelta : (if sub now timestamp < 0 then -sub now timestamp else sub now timestamp).toInt ≤
      a.allowedSkew.toInt := by
    rw [hsub]
    split_ifs
    · rw [Int64.neg_ofInt, Int64.toInt_ofInt_of_le (by omega) (by omega)]
      omega
    · rw [Int64.toInt_ofInt_of_le (by omega) (by omega)]
      omega
  rw [checkSkew]
  exact if_neg fun hgt => absurd (Int64.lt_iff_toInt_lt.mp hgt) (by omega)

end Authenticator

namespace Sample

def secret : Text := lit "agent secret"

def payload : Bytes :=
  utf8 (lit "DELETE\n/peers/a%2Fb%2Bc%3D\n2026-07-07T10:00:00Z\ne3b0c44298fc1c149afbf4c8996fb92427ae41e4649b934ca495991b7852b855")

/-- The digests of one request; elsewhere any injective functions. -/
def hashes : Hashes where
  sha256 body :=
    if body = [] then [227, 176, 196, 66, 152, 252, 28, 20, 154, 251, 244, 200, 153, 111, 185, 36,
      39, 174, 65, 228, 100, 155, 147, 76, 164, 149, 153, 27, 120, 82, 184, 85]
    else body
  hmacSha256 key text :=
    if key = utf8 secret ∧ text = payload then [194, 137, 29, 65, 123, 235, 146, 215, 17, 161, 33,
      127, 221, 118, 230, 235, 224, 224, 207, 98, 154, 220, 28, 179, 49, 88, 29, 87, 119, 102, 17, 6]
    else key ++ text

def authConfig : AuthConfig where
  keyID := lit "key"
  secret := secret
  allowedIPs := [lit "127.0.0.1", lit "10.0.0.0/8"]
  allowedSkew := 0
  allowNoAuth := false

def authenticator : Authenticator where
  keyID := lit "key"
  secret := utf8 secret
  allowedNets := [⟨.v4 0x7f000001, 32⟩, ⟨.v4 0x0a000000, 8⟩]
  allowedSkew := 60000000000
  allowNoAuth := false

theorem newAuthenticator_authConfig : newAuthenticator authConfig = .ok authenticator := by
  decide +kernel

/-- The moment of the time stamp of the request. -/
def now : Int := (Calendar.Stamp.seconds ⟨2026, 7, 7, 10, 0, 0⟩ : Int) * 1000000000

def revocation (remoteAddr : Text) : Request where
  method := utf8 (lit "DELETE")
  url :=
    { path := utf8 (lit "/peers/a/b+c="), rawPath := utf8 (lit "/peers/a%2Fb%2Bc%3D")
      no_ctl := isCTL_nil }
  header := [(lit "X-Agent-Key-Id", utf8 (lit "key")),
    (lit "X-Agent-Timestamp", utf8 (lit "2026-07-07T10:00:00Z")),
    (lit "X-Agent-Signature",
      utf8 (lit "c2891d417beb92d711a1217fdd76e6ebe0e0cf629adc1cb331581d5777661106"))]
  remoteAddr := remoteAddr

end Sample
end VpnControl.HttpApi
