import VpnControl.Strings
import VpnControl.Lib.Json

namespace VpnControl.Backend
open Strings Json

inductive ErrorCode where
  | unauthorized
  | forbidden
  | csrfFailed
  | notFound
  | validationError
  | rateLimited
  | deviceLimitReached
  | issueResultExpired
  | serverUnavailable
  | agentUnavailable
  | agentRejected
  | setupJobFailed
  | secretRequired
  | internalError
  deriving DecidableEq, Repr

def ErrorCode.value : ErrorCode → Text
  | unauthorized => lit "unauthorized"
  | forbidden => lit "forbidden"
  | csrfFailed => lit "csrf_failed"
  | notFound => lit "not_found"
  | validationError => lit "validation_error"
  | rateLimited => lit "rate_limited"
  | deviceLimitReached => lit "device_limit_reached"
  | issueResultExpired => lit "issue_result_expired"
  | serverUnavailable => lit "server_unavailable"
  | agentUnavailable => lit "agent_unavailable"
  | agentRejected => lit "agent_rejected"
  | setupJobFailed => lit "setup_job_failed"
  | secretRequired => lit "secret_required"
  | internalError => lit "internal_error"

structure AppError where
  code : ErrorCode
  message : Text
  status : Nat := 400
  details : Doc := .obj []

def unauthorized (message : Text) : AppError := { code := .unauthorized, message, status := 401 }

def forbidden : AppError where
  code := .forbidden
  message := lit "Недостаточно прав"
  status := 403

def notFound (message : Text) : AppError := { code := .notFound, message, status := 404 }

/-- What a Python call can raise: `transport` is an `AgentTransportError`, `other` any further
subclass of `Exception`, and `cancelled` (asyncio's `CancelledError`) is none. -/
inductive Exc where
  | app (e : AppError)
  | setupStep (message : Text)
  | transport (reason : Text)
  | cancelled
  | other (kind : Text)

/-- A point in time, in microseconds. -/
abbrev Time := Nat

def minutes (n : Nat) : Time := n * 60000000

def days (n : Nat) : Time := n * 86400000000

/-- `str.strip`: besides Go's white space it removes the four separators from U+001C on. -/
def strip (s : Text) : Text := Trim.trim (fun c => isSpace c || (28 ≤ c.toNat && c.toNat ≤ 31)) s

inductive UserRole where
  | admin
  | user
  deriving DecidableEq, Repr

def UserRole.value : UserRole → Text
  | admin => lit "admin"
  | user => lit "user"

inductive DeviceStatus where
  | provisioning
  | active
  | revoked
  | failed
  deriving DecidableEq, Repr

inductive ServerStatus where
  | draft
  | setupPending
  | setupRunning
  | online
  | warning
  | offline
  | disabled
  | setupFailed
  deriving DecidableEq, Repr

def ServerStatus.value : ServerStatus → Text
  | draft => lit "draft"
  | setupPending => lit "setup_pending"
  | setupRunning => lit "setup_running"
  | online => lit "online"
  | warning => lit "warning"
  | offline => lit "offline"
  | disabled => lit "disabled"
  | setupFailed => lit "setup_failed"

inductive SetupJobStatus where
  | draft
  | queued
  | checkingSsh
  | installingAgent
  | installingVpn
  | verifying
  | success
  | failed
  | cancelled
  deriving DecidableEq, Repr

namespace SetupJobStatus

def value : SetupJobStatus → Text
  | draft => lit "draft"
  | queued => lit "queued"
  | checkingSsh => lit "checking_ssh"
  | installingAgent => lit "installing_agent"
  | installingVpn => lit "installing_vpn"
  | verifying => lit "verifying"
  | success => lit "success"
  | failed => lit "failed"
  | cancelled => lit "cancelled"

def isTerminal : SetupJobStatus → Bool
  | success | failed | cancelled => true
  | _ => false

end SetupJobStatus

inductive AuthMethod where
  | sshKey
  | password
  deriving DecidableEq, Repr

inductive EventLevel where
  | info
  | warning
  | error
  deriving DecidableEq, Repr

structure User where
  id : Text
  login : Text
  displayName : Text
  role : UserRole
  passwordHash : Text
  createdAt : Time
  updatedAt : Time
  isActive : Bool := true
  telegramUsername : Option Text := none
  deviceLimit : Option Int := some 3
  deviceLimitUnlimited : Bool := false
  showServerSupport : Bool := true
  freeAccess : Bool := false
  note : Option Text := none
  createdByUserId : Option Text := none
  deriving DecidableEq, Repr

structure Session where
  id : Text
  userId : Text
  tokenHash : Text
  createdAt : Time
  expiresAt : Time
  lastSeenAt : Time
  userAgent : Option Text := none
  ipAddress : Option Text := none
  revokedAt : Option Time := none
  deriving DecidableEq, Repr

/-- A node. A patch can set to null the fields it can patch, whatever their declared types. -/
structure ServerNode where
  id : Text
  name : Option Text
  publicHost : Option Text
  agentBaseUrl : Option Text
  createdAt : Time
  updatedAt : Time
  publicPort : Option Int := none
  regionNote : Option Text := none
  provider : Option Text := none
  agentKeyId : Option Text := none
  agentSecretEncrypted : Option Text := none
  agentAllowedIpNote : Option Text := none
  status : ServerStatus := .draft
  lastSeenAt : Option Time := none
  lastError : Option Text := none
  lastStatusPayload : Option Doc := none
  awgContainerName : Option Text := some (lit "amnezia-awg2")
  awgInterface : Option Text := some (lit "awg0")
  awgConfigPath : Option Text := some (lit "/opt/amnezia/awg/awg0.conf")
  clientsTablePath : Option Text := some (lit "/opt/amnezia/awg/clientsTable")
  isAvailableForNewDevices : Option Bool := some true
  createdByUserId : Option Text := none

structure Device where
  id : Text
  userId : Text
  serverNodeId : Text
  name : Text
  createdAt : Time
  updatedAt : Time
  status : DeviceStatus := .provisioning
  publicKey : Option Text := none
  clientIp : Option Text := none
  lastConfigIssuedAt : Option Time := none
  revokedAt : Option Time := none
  failureMessage : Option Text := none
  deriving DecidableEq, Repr

/-- The result of issuing a config: read any number of times until `expiresAt`. -/
structure DeviceConfigIssue where
  id : Text
  deviceId : Text
  issuedToUserId : Text
  createdAt : Time
  expiresAt : Time
  configEncrypted : Option Text := none
  vpnUrlEncrypted : Option Text := none
  consumedAt : Option Time := none
  deriving DecidableEq, Repr

structure SetupJob where
  id : Text
  createdByUserId : Text
  serverName : Text
  host : Text
  sshPort : Int
  sshUsername : Text
  authMethod : AuthMethod
  createdAt : Time
  updatedAt : Time
  status : SetupJobStatus := .queued
  secretEncrypted : Option Text := none
  regionNote : Option Text := none
  installAwg : Bool := true
  availableForNewDevices : Bool := true
  verifyBeforeInstall : Bool := true
  currentStep : Text := lit "queued"
  errorMessage : Option Text := none
  resultPayload : Option Doc := none
  serverNodeId : Option Text := none
  startedAt : Option Time := none
  finishedAt : Option Time := none

structure SetupJobEvent where
  id : Text
  setupJobId : Text
  level : EventLevel
  step : Text
  message : Text
  createdAt : Time
  metadata : Doc := .obj []

structure AuditLogEntry where
  id : Text
  action : Text
  createdAt : Time
  actorUserId : Option Text := none
  targetType : Option Text := none
  targetId : Option Text := none
  metadata : Doc := .obj []
  ipAddress : Option Text := none
  userAgent : Option Text := none

end VpnControl.Backend
