import VpnControl.Awg.ClientsTable

namespace VpnControl.Awg
open Strings Json SortedMap Netip

/-- The interface settings that a client needs besides the server's address and keys. -/
def awgFields : List Text :=
  ["Jc", "Jmin", "Jmax", "S1", "S2", "S3", "S4", "H1", "H2", "H3", "H4",
    "I1", "I2", "I3", "I4", "I5"].map lit

/-- A zero `clientIP` is Go's invalid address. -/
structure ClientConfigParams where
  clientPrivateKey : Text
  clientIP : Option Addr
  serverPublicKey : Text
  presharedKey : Text
  endpointHost : Text
  dns : List Text

inductive ClientConfigError where
  | required (what : String)
  deriving DecidableEq, Repr

def ClientConfigError.message : ClientConfigError → Text
  | required what => lit what ++ lit " is required"

def defaultDNS (dns : List Text) : List Text :=
  if dns = [] then [lit "1.1.1.1", lit "8.8.8.8"] else dns

def renderClientConfig (server : Config) (params : ClientConfigParams) :
    Except ClientConfigError Text :=
  if params.clientPrivateKey = [] then .error (.required "client private key")
  else if params.serverPublicKey = [] then .error (.required "server public key")
  else if params.presharedKey = [] then .error (.required "preshared key")
  else if params.endpointHost = [] then .error (.required "endpoint host")
  else if server.listenPort = [] then .error (.required "server ListenPort")
  else
    match params.clientIP with
    | none => .error (.required "client IP")
    | some clientIP => .ok <|
      lit "[Interface]\nAddress = " ++ clientIP.text ++ lit "/32\nDNS = " ++
        join (defaultDNS params.dns) (lit ", ") ++ lit "\nPrivateKey = " ++
        params.clientPrivateKey ++ ['\n'] ++
        (awgFields.filterMap fun key => (server.interfaceValue key).map fun value =>
          key ++ lit " = " ++ value ++ ['\n']).flatten ++
        lit "\n[Peer]\nPublicKey = " ++ params.serverPublicKey ++ lit "\nPresharedKey = " ++
        params.presharedKey ++ lit "\nAllowedIPs = 0.0.0.0/0, ::/0\nEndpoint = " ++
        params.endpointHost ++ [':'] ++ server.listenPort ++ lit "\nPersistentKeepalive = 25\n"

structure ShareURIParams where
  endpointHost : Text
  dns : List Text
  nativeConfig : Text
  clientPrivateKey : Text
  clientPublicKey : Text
  clientIP : Option Addr
  serverPublicKey : Text
  presharedKey : Text
  allowedIPs : List Text
  persistentKeepalive : Text
  mtu : Text
  description : Text

inductive ShareURIError where
  | required (what : String)
  | invalidListenPort (port : Text)
  | invalidAddress (address : Text)
  | tooLarge
  deriving DecidableEq, Repr

def ShareURIError.message (go : GoTexts) : ShareURIError → Text
  | required what => lit what
  | invalidListenPort port =>
    lit "invalid server ListenPort " ++ go.quote port ++ lit ": " ++ go.atoi port
  | invalidAddress address =>
    lit "invalid interface Address " ++ go.quote address ++ lit ": " ++ go.parsePrefix address
  | tooLarge => lit "config is too large"

/-- `strconv.Atoi` for a 64-bit int. -/
def atoi (s : Text) : Option Int :=
  let (negative, ds) := match s with
    | '-' :: ds => (true, ds)
    | '+' :: ds => (false, ds)
    | ds => (false, ds)
  if Json.digits ds then
    let n := ds.foldl (fun n c => n * 10 + (c.toNat - '0'.toNat)) 0
    if negative then if n ≤ 2 ^ 63 then some (-n) else none
    else if n < 2 ^ 63 then some n else none
  else none

def intLiteral : Int → Text
  | .ofNat n => decimal n
  | .negSucc n => '-' :: decimal (n + 1)

/-- The settings of the server under their own names, into an object. -/
def copyAWGFields (server : Config) (dst : GoMap) : GoMap :=
  insertAll dst (awgFields.filterMap fun key =>
    (server.interfaceValue key).map fun value => (key, .str value))

def base64Char (n : Nat) : Char :=
  (lit "ABCDEFGHIJKLMNOPQRSTUVWXYZabcdefghijklmnopqrstuvwxyz0123456789-_").getD n 'A'

/-- `base64.RawURLEncoding`. -/
def base64URL : List UInt8 → Text
  | [] => []
  | [a] =>
    let n := a.toNat * 65536
    [base64Char (n / 262144), base64Char (n / 4096 % 64)]
  | [a, b] =>
    let n := a.toNat * 65536 + b.toNat * 256
    [base64Char (n / 262144), base64Char (n / 4096 % 64), base64Char (n / 64 % 64)]
  | a :: b :: c :: rest =>
    let n := a.toNat * 65536 + b.toNat * 256 + c.toNat
    base64Char (n / 262144) :: base64Char (n / 4096 % 64) :: base64Char (n / 64 % 64) ::
      base64Char (n % 64) :: base64URL rest

/-- The big-endian length of the input and its zlib stream, which `deflate` makes. -/
def qCompress (deflate : List UInt8 → List UInt8) (input : List UInt8) : Option (List UInt8) :=
  if 2 ^ 32 ≤ input.length then none
  else
    let n := input.length
    some ([n / 2 ^ 24, n / 2 ^ 16 % 256, n / 2 ^ 8 % 256, n % 256].map UInt8.ofNat ++ deflate input)

def strings (xs : List Text) : Doc := .arr (xs.map .str)

def object (es : List (String × Doc)) : GoMap := insertAll [] (es.map fun e => (lit e.1, e.2))

def renderAmneziaShareURI (deflate : List UInt8 → List UInt8) (server : Config)
    (params : ShareURIParams) : Except ShareURIError Text :=
  if params.endpointHost = [] then .error (.required "endpoint host is required")
  else if params.nativeConfig = [] then .error (.required "native config is required")
  else if params.clientPrivateKey = [] ∨ params.clientPublicKey = [] ∨
      params.serverPublicKey = [] ∨ params.presharedKey = [] then
    .error (.required "client and server keys are required")
  else
    match params.clientIP with
    | none => .error (.required "client IP is required")
    | some clientIP =>
      let port := server.listenPort
      if port = [] then .error (.required "server ListenPort is required")
      else
        match atoi port, server.interfaceAddress with
        | none, _ => .error (.invalidListenPort port)
        | some _, none => .error (.required "interface Address is required")
        | some portNumber, some address =>
          match parsePrefix address with
          | none => .error (.invalidAddress address)
          | some subnet =>
            let dns := defaultDNS params.dns
            let allowedIPs :=
              if params.allowedIPs = [] then [lit "0.0.0.0/0", lit "::/0"] else params.allowedIPs
            let clientJSON := copyAWGFields server (object [
              ("config", .str params.nativeConfig),
              ("hostName", .str params.endpointHost),
              ("port", .num (intLiteral portNumber)),
              ("client_ip", .str clientIP.text),
              ("client_priv_key", .str params.clientPrivateKey),
              ("client_pub_key", .str params.clientPublicKey),
              ("server_pub_key", .str params.serverPublicKey),
              ("psk_key", .str params.presharedKey),
              ("clientId", .str params.clientPublicKey),
              ("allowed_ips", strings allowedIPs),
              ("persistent_keep_alive", .str (firstNonEmpty [params.persistentKeepalive, lit "25"])),
              ("mtu", .str (firstNonEmpty [params.mtu, lit "1376"]))])
            let awgJSON := copyAWGFields server (object [
              ("port", .str port),
              ("transport_proto", .str (lit "udp")),
              ("protocol_version", .str (lit "2")),
              ("subnet_address", .str subnet.addr.text),
              ("subnet_cidr", .str (decimal subnet.bits)),
              ("last_config", .str (print ⟨none, false⟩ 0 (.obj clientJSON)))])
            let root := object (
              [("hostName", .str params.endpointHost),
                ("containers", .arr [.obj (object [
                  ("container", .str (lit "amnezia-awg2")), ("awg", .obj awgJSON)])]),
                ("defaultContainer", .str (lit "amnezia-awg2"))] ++
              (if params.description = [] then [] else [("description", .str params.description)]) ++
              (dns.head?.toList.map fun s => ("dns1", .str s)) ++
              (dns.tail.head?.toList.map fun s => ("dns2", .str s)))
            match qCompress deflate (utf8 (print ⟨some 4, false⟩ 0 (.obj root) ++ ['\n'])) with
            | none => .error .tooLarge
            | some compressed => .ok (lit "vpn://" ++ base64URL compressed)

end VpnControl.Awg
