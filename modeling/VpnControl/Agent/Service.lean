import VpnControl.Agent.Docker
import VpnControl.Lib.CriticalSection
import VpnControl.Awg.AllocateIP
import VpnControl.Awg.ClientConfig

namespace VpnControl.Agent
open Awg Strings Netip Effects Prog

inductive ServiceError where
  | nameRequired
  | endpointHostRequired
  | publicKeyRequired
  | acquireLock (path cause : Text)
  | docker (text : Text)
  | config (e : ParseError)
  | table (e : TableError)
  | validate (e : ValidateError)
  | duplicatePublicKey (publicKey : Text)
  | allocate (e : AllocateError)
  | emptyFile (path : Text)
  | clientConfig (e : ClientConfigError)
  | shareURI (e : ShareURIError)
  | notInConfig (publicKey : Text)
  | notInRuntime (publicKey : Text)
  | stillInRuntime (publicKey : Text)
  | rolledBack (cause : ServiceError)
  | rollbackFailed (cause : ServiceError) (details : List Text)
  deriving Repr

def ServiceError.message (go : GoTexts) : ServiceError → Text
  | nameRequired => lit "name is required"
  | endpointHostRequired =>
    lit "endpoint host is required; pass --endpoint-host or set VPN_AGENT_ENDPOINT_HOST"
  | publicKeyRequired => lit "public key is required"
  | acquireLock path cause => lit "acquire lock " ++ path ++ lit ": " ++ cause
  | docker text => text
  | config e => e.message go
  | table e => e.message go
  | validate e => e.message go
  | duplicatePublicKey publicKey => lit "generated duplicate public key " ++ go.quote publicKey
  | allocate e => e.message go
  | emptyFile path => path ++ lit " is empty"
  | clientConfig e => e.message
  | shareURI e => e.message go
  | notInConfig publicKey => lit "peer " ++ go.quote publicKey ++ lit " not found in config"
  | notInRuntime publicKey =>
    lit "peer " ++ go.quote publicKey ++ lit " not found in runtime after sync"
  | stillInRuntime publicKey =>
    lit "peer " ++ go.quote publicKey ++ lit " still present in runtime after sync"
  | rolledBack cause => cause.message go ++ lit "; rollback completed"
  | rollbackFailed cause details =>
    cause.message go ++ lit "; rollback failed: " ++ join details (lit "; ")

/-- A program over the container. -/
abbrev Docker (α : Type) : Type := Prog Op Op.Res ServiceError α

def ask (e : Op) : Docker e.Res := perform e

/-- An answer of the container, with its error text as the error. -/
def run {α : Type} (p : Docker (Except Text α)) : Docker α := do
  let r ← p
  lift (r.mapError .docker)

def readFile (file : FilePath) : Docker Text := run (ask (.readFile file))

def readFileOrEmptyArray (file : FilePath) : Docker Text := run (ask (.readFileOrEmptyArray file))

def fileInfo (file : FilePath) : Docker FileInfo := run (ask (.fileInfo file))

def writeFileAtomic (file : FilePath) (data : Text) : Docker Unit :=
  run (ask (.writeFileAtomic file data (lit "600")))

def backupFile (file backup : FilePath) (required : Bool) : Docker Unit :=
  run (ask (.backupFile file backup required))

def syncConf : Docker Unit := run (ask .syncConf)

def awgShow : Docker Text := run (ask .awgShow)

def generatePrivateKey : Docker Text := run (ask .generatePrivateKey)

def derivePublicKey (privateKey : Text) : Docker Text := run (ask (.publicKey privateKey))

/-- A program over the container, with the lock file's lock among their operations. -/
abbrev Locked (α : Type) : Type := LockProg (E := Op) Text Op.Res ServiceError α

def refuseIf (p : Prop) [Decidable p] (x : ServiceError) : Docker Unit :=
  if p then fail x else ret ()

/-- `deflate` is the zlib stream of an input, `envEndpointHost` the environment variable
`VPN_AGENT_ENDPOINT_HOST`. -/
structure Service where
  opts : Options
  envEndpointHost : Text
  fmt : FloatFormat
  deflate : List UInt8 → List UInt8

structure IssueRequest where
  name : Text
  dns : List Text
  endpointHost : Text

structure IssueResult where
  publicKey : Text
  clientIP : Text
  config : Text
  vpnURL : Text

structure RevokeResult where
  revoked : Bool
  publicKey : Text

structure BackupSet where
  configPath : FilePath
  clientsTablePath : FilePath
  clientsTableExisted : Bool

namespace Service
variable (s : Service)

def readState : Docker (Config × ClientsTable × RuntimeStatus) := do
  let configText ← readFile .config
  let cfg ← lift ((parseConfig configText).mapError .config)
  let tableText ← readFileOrEmptyArray .clientsTable
  let iter : MapOrder ← ask .mapOrder
  let table ← lift ((parseClientsTable s.fmt iter tableText).mapError .table)
  let runtimeText ← awgShow
  return (cfg, table, parseAWGShow runtimeText)

def readTrimmed (file : FilePath) : Docker Text := do
  let value ← readFile file
  refuseIf (trimSpace value = []) (.emptyFile (file.text s.opts))
  return trimSpace value

def backup : Docker BackupSet := do
  let now : Time ← ask .now
  let suffix := lit ".bak." ++ now.utc ++ ['.'] ++ intLiteral now.unixNano
  let clientsInfo ← fileInfo .clientsTable
  backupFile .config (.configBackup suffix) true
  backupFile .clientsTable (.clientsTableBackup suffix) false
  return ⟨.configBackup suffix, .clientsTableBackup suffix, clientsInfo.fileExists⟩

def writeState (cfg : Config) (table : ClientsTable) : Docker Unit := do
  writeFileAtomic .config (renderConfig cfg)
  let tableText ← lift ((renderClientsTable table).mapError .table)
  writeFileAtomic .clientsTable tableText

/-- The second of the three operations of a rollback. -/
def restoreClientsTable (backups : BackupSet) : Docker (Except Text Unit) :=
  if backups.clientsTableExisted then
    ask (.restoreFile backups.clientsTablePath .clientsTable (lit "600"))
  else ask (.removeFile .clientsTable)

/-- What one operation of a rollback contributes to the details of its failure. -/
def detail (what : String) : Except Text Unit → List Text
  | .ok _ => []
  | .error text => [lit what ++ text]

def rollbackError (cause : ServiceError) (restoreConfig restoreClients sync : Except Text Unit) :
    ServiceError :=
  let details := detail "restore config: " restoreConfig ++
    detail "restore clientsTable: " restoreClients ++ detail "sync restored config: " sync
  if details = [] then .rolledBack cause else .rollbackFailed cause details

def rollback {α : Type} (backups : BackupSet) (cause : ServiceError) : Docker α := do
  let restoreConfig ← ask (.restoreFile backups.configPath .config (lit "600"))
  let restoreClients ← restoreClientsTable backups
  let sync ← ask .syncConf
  fail (rollbackError cause restoreConfig restoreClients sync)

/-- Every error of `p` is answered with a rollback. -/
def withRollback (backups : BackupSet) (p : Docker Unit) : Docker Unit := do
  match ← p.attempt with
  | .ok _ => ret ()
  | .error cause => rollback backups cause

/-- Write the new state, apply it and look at the runtime it led to. -/
def mutate (cfg : Config) (table : ClientsTable)
    (verify : RuntimeStatus → Except ServiceError Unit) : Docker Unit := do
  writeState cfg table
  syncConf
  let runtimeText ← awgShow
  lift (verify (parseAWGShow runtimeText))

/-- The part of `Issue` that only reads: the new state and the answer to the client. -/
def prepareIssue (req : IssueRequest) (endpointHost : Text) :
    Docker (Config × ClientsTable × IssueResult) := do
  let (cfg, table, runtime) ← s.readState
  lift (cfg.validate.mapError .validate)
  let privateKey ← generatePrivateKey
  let publicKey ← derivePublicKey privateKey
  refuseIf ((cfg.findPeer publicKey).isSome) (.duplicatePublicKey publicKey)
  -- addresses seen only in the runtime are reserved as well
  let clientIP ← lift ((allocateFreeIPv4 cfg (runtimeUsed runtime.peers)).mapError .allocate)
  let allowedIP := clientIP.text ++ lit "/32"
  let serverPublicKey ← s.readTrimmed .serverPublicKey
  let psk ← s.readTrimmed .presharedKey
  let cfg := cfg.addPeer { publicKey, presharedKey := psk, allowedIPs := [allowedIP] }
  lift (cfg.validate.mapError .validate)
  let now : Time ← ask .now
  let table := table.addOrUpdate publicKey req.name allowedIP now.creationDate
  let clientConfig ← lift ((renderClientConfig cfg
    { clientPrivateKey := privateKey, clientIP, serverPublicKey, presharedKey := psk,
      endpointHost, dns := req.dns }).mapError .clientConfig)
  let vpnURL ← lift ((renderAmneziaShareURI s.deflate cfg
    { endpointHost, dns := req.dns, nativeConfig := clientConfig, clientPrivateKey := privateKey,
      clientPublicKey := publicKey, clientIP, serverPublicKey, presharedKey := psk,
      allowedIPs := [lit "0.0.0.0/0", lit "::/0"], persistentKeepalive := lit "25",
      mtu := lit "1376", description := req.name }).mapError .shareURI)
  return (cfg, table, ⟨publicKey, clientIP.text, clientConfig, vpnURL⟩)

def verifyIssued (publicKey : Text) (runtime : RuntimeStatus) : Except ServiceError Unit :=
  if runtime.hasPeer publicKey then .ok () else .error (.notInRuntime publicKey)

def verifyRevoked (publicKey : Text) (runtime : RuntimeStatus) : Except ServiceError Unit :=
  if runtime.hasPeer publicKey then .error (.stillInRuntime publicKey) else .ok ()

def issueLocked (req : IssueRequest) (endpointHost : Text) : Docker IssueResult := do
  let (cfg, table, result) ← s.prepareIssue req endpointHost
  let backups ← backup
  withRollback backups (mutate cfg table (verifyIssued result.publicKey))
  return result

/-- The part of `Revoke` that only reads. -/
def prepareRevoke (publicKey : Text) : Docker (Config × ClientsTable) := do
  let (cfg, table, _) ← s.readState
  refuseIf (cfg.findPeer publicKey = none) (.notInConfig publicKey)
  lift (cfg.validate.mapError .validate)
  return (cfg, table)

/-- The part of `Revoke` under the guard of the rollback. -/
def removePeer (publicKey : Text) (cfg : Config) (table : ClientsTable) : Docker Unit := do
  let cfg := (cfg.removePeer publicKey).1
  lift (cfg.validate.mapError .validate)
  mutate cfg (table.remove publicKey).1 (verifyRevoked publicKey)

def revokeLocked (publicKey : Text) : Docker RevokeResult := do
  let (cfg, table) ← s.prepareRevoke publicKey
  let backups ← backup
  withRollback backups (removePeer publicKey cfg table)
  return ⟨true, publicKey⟩

def issue (req : IssueRequest) : Locked IssueResult :=
  if trimSpace req.name = [] then fail .nameRequired
  else
    let endpointHost := firstNonEmpty [req.endpointHost, s.opts.endpointHost, s.envEndpointHost]
    if endpointHost = [] then fail .endpointHostRequired
    else withLock (.acquireLock s.opts.lockPath) (s.issueLocked req endpointHost)

def revoke (publicKey : Text) : Locked RevokeResult :=
  let publicKey := trimSpace publicKey
  if publicKey = [] then fail .publicKeyRequired
  else withLock (.acquireLock s.opts.lockPath) (s.revokeLocked publicKey)

end Service

/-- What a caller can ask the service to change. -/
inductive Call where
  | issue (req : IssueRequest)
  | revoke (publicKey : Text)

inductive Reply where
  | issued (result : IssueResult)
  | revoked (result : RevokeResult)

def Service.call (s : Service) : Call → Locked Reply
  | .issue req => (s.issue req).map .issued
  | .revoke publicKey => (s.revoke publicKey).map .revoked

end VpnControl.Agent
