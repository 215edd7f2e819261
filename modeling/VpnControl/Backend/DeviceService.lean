import VpnControl.Backend.ServerService

namespace VpnControl.Backend
open Strings Json Effects Prog

/-- What a client gets to see of an issued config. -/
structure IssueOut where
  deviceId : Text
  config : Doc
  vpnUrl : Doc
  expiresAt : Time

/-- Where a request came from, for the audit. -/
structure ClientMeta where
  ip : Option Text := none
  userAgent : Option Text := none

/-- What a payload's value leaves in a text column. In memory the value itself stays, which is
its text here. -/
def column (wire : Wire) (value : WireValue) : Option Text :=
  match value.value with
  | .null => none
  | .str s => some s
  | value => some (wire.str value)

namespace Services
variable (b : Services)

def getForActor (actor : User) (deviceId : Text) : Task Device := do
  let device : Option Device ← ask (.getDevice deviceId)
  match device with
  | none => raise (notFound (lit "Устройство не найдено"))
  | some device =>
    -- the devices of others look as if they did not exist
    if device.userId ≠ actor.id ∧ actor.role ≠ .admin then
      raise (notFound (lit "Устройство не найдено"))
    else ret device

def limitReached (used : Nat) (limit : Int) : AppError where
  code := .deviceLimitReached
  message := lit "Лимит устройств закончился"
  status := 409
  details := .obj [(lit "used", .num (Nat.toDigits 10 used)),
    (lit "limit", .num (toString limit).toList)]

def enforceLimit (user : User) : Task Unit :=
  if user.deviceLimitUnlimited then ret ()
  else
    match user.deviceLimit with
    | none => ret ()
    | some limit => do
      let used : Nat ← ask (.countDevicesTowardLimit user.id)
      if (used : Int) ≥ limit then raise (limitReached used limit) else ret ()

/-- The node that is asked for, or else the one with the fewest devices. -/
def chooseNode (serverNodeId : Option Text) : Task ServerNode :=
  match serverNodeId with
  | some nodeId => do
    let node ← getServer nodeId
    ensureSelectable node
    return node
  | none => do
    let picked ← pickForNewDevice
    match picked with
    | none =>
      raise
        { code := .serverUnavailable
          message := lit "Сейчас нет доступного сервера — попробуй позже", status := 503 }
    | some node => ret node

/-- `create` up to the call of the agent. -/
def provision (user : User) (name : Text) (serverNodeId : Option Text) :
    Task (Device × ServerNode) := do
  enforceLimit user
  let node ← chooseNode serverNodeId
  let now : Time ← ask .now
  let id : Text ← ask .uuid
  let device : Device :=
    { id, userId := user.id, serverNodeId := node.id, name := strip name, createdAt := now
      updatedAt := now }
  -- PROVISIONING counts toward the limit, before the agent is asked
  ask (.saveDevice device)
  return (device, node)

/-- `create` after an `AppError` of the agent client. -/
def issueFailed (user : User) (device : Device) (node : ServerNode) (client : ClientMeta)
    (e : AppError) : Task Unit := do
  let now : Time ← ask .now
  ask (.saveDevice { device with
    status := .failed, failureMessage := some e.message, updatedAt := now })
  auditLog
    { action := lit "device_issue_failed", actorUserId := some user.id
      targetType := some (lit "device"), targetId := some device.id
      metadata := [(lit "code", .str e.code.value), (lit "server_node_id", .str node.id)]
      ipAddress := client.ip, userAgent := client.userAgent }

/-- `self._secret_box.encrypt(value)`: only texts can be encrypted, by their UTF-8. -/
def encryptValue : WireValue → Task Text
  | ⟨.str s, false⟩ => ask (.encrypt s)
  | ⟨.str _, true⟩ => fail (.other (lit "UnicodeEncodeError"))
  | _ => fail (.other (lit "AttributeError"))

/-- `create` after the answer of the agent. -/
def issued (user : User) (device : Device) (node : ServerNode) (client : ClientMeta)
    (result : AgentIssueResult) : Task (Device × IssueOut) := do
  let now : Time ← ask .now
  let device := { device with
    publicKey := column b.wire result.publicKey, clientIp := column b.wire result.clientIp
    status := .active, lastConfigIssuedAt := some now, updatedAt := now }
  -- the two values go to the driver as they are
  ask (.bindColumn .publicKey result.publicKey)
  ask (.bindColumn .clientIp result.clientIp)
  ask (.saveDevice device)
  let id : Text ← ask .uuid
  let configEncrypted ← encryptValue result.config
  let vpnUrlEncrypted ← encryptValue result.vpnUrl
  let issue : DeviceConfigIssue :=
    { id, deviceId := device.id, issuedToUserId := user.id, createdAt := now
      expiresAt := now + minutes b.settings.issueResultTtlMinutes
      configEncrypted := some configEncrypted, vpnUrlEncrypted := some vpnUrlEncrypted }
  ask (.saveIssue issue)
  auditLog
    { action := lit "device_issued", actorUserId := some user.id
      targetType := some (lit "device"), targetId := some device.id
      metadata := [(lit "server_node_id", .str node.id)]
      ipAddress := client.ip, userAgent := client.userAgent }
  return (device, ⟨device.id, result.config.value, result.vpnUrl.value, issue.expiresAt⟩)

/-- The rest of `create`, by how the call of the agent ended: only an `AppError` is handled. -/
def settleIssue (user : User) (device : Device) (node : ServerNode) (client : ClientMeta) :
    Except Exc AgentIssueResult → Task (Device × IssueOut)
  | .ok result => b.issued user device node client result
  | .error (.app e) => do
    issueFailed user device node client e
    raise e
  | .error x => fail x

def create (user : User) (name : Text) (serverNodeId : Option Text) (client : ClientMeta) :
    Task (Device × IssueOut) :=
  withStorageLock do
    -- all of it under the storage lock, the request to the agent included
    let (device, node) ← provision user name serverNodeId
    let result ← (b.issuePeer node (user.displayName ++ lit " — " ++ device.name) []
      node.publicHost [(lit "backend_device_id", .str device.id)]).attempt
    b.settleIssue user device node client result

/-- How `revoke` takes the end of the agent's call: of the `AppError`s only an unavailable
node is raised. -/
def settleRevoke : Except Exc Doc → Task Unit
  | .ok _ => ret ()
  | .error (.app e) => if e.code = .agentUnavailable then raise e else ret ()
  | .error x => fail x

def revokeOnNode (node : Option ServerNode) (publicKey : Option Text) : Task Unit :=
  match node with
  | none => ret ()
  | some node =>
    if !optional publicKey then ret ()
    else do
      let result ← (b.revokePeer node (publicKey.getD [])).attempt
      settleRevoke result

/-- `revoke` after the call of the agent. -/
def markRevoked (actor : User) (device : Device) (client : ClientMeta) : Task Device := do
  let now : Time ← ask .now
  let device := { device with status := .revoked, revokedAt := some now, updatedAt := now }
  ask (.saveDevice device)
  ask (.dropIssue device.id)
  auditLog
    { action := lit "device_revoked", actorUserId := some actor.id
      targetType := some (lit "device"), targetId := some device.id
      metadata := [(lit "owner_user_id", .str device.userId)]
      ipAddress := client.ip, userAgent := client.userAgent }
  return device

def revoke (actor : User) (deviceId : Text) (client : ClientMeta) : Task Device :=
  withStorageLock do
    let device ← getForActor actor deviceId
    -- revoking again is no error, and asks no agent
    if device.status = .revoked then return device
    else
      let node : Option ServerNode ← ask (.getServerNode device.serverNodeId)
      b.revokeOnNode node device.publicKey
      markRevoked actor device client

/-- The texts of an issue, as `issue_result` returns them. -/
structure IssueResultOut where
  deviceId : Text
  config : Text
  vpnUrl : Option Text
  expiresAt : Time

def decryptOptional (value : Option Text) : Task (Option Text) :=
  if optional value then do
    let text : Text ← ask (.decrypt (value.getD []))
    return some text
  else ret none

/-- The first reading of an issue is recorded, for the audit only: it can be read again. -/
def consume (issue : DeviceConfigIssue) (now : Time) : Task DeviceConfigIssue := do
  if issue.consumedAt = none then
    ask (.saveIssue { issue with consumedAt := some now })
    return { issue with consumedAt := some now }
  else return issue

def issueResultOf (actor : User) (deviceId : Text) : Task IssueResultOut := do
  let device ← getForActor actor deviceId
  let issue : Option DeviceConfigIssue ← ask (.getIssue device.id)
  match issue with
  | none => raise (notFound (lit "Результат выпуска недоступен — выпусти конфиг заново"))
  | some issue =>
    if !optional issue.configEncrypted then
      raise (notFound (lit "Результат выпуска недоступен — выпусти конфиг заново"))
    else
      let now : Time ← ask .now
      if issue.expiresAt ≤ now then
        -- expired: dropped at the first look
        ask (.dropIssue device.id)
        raise
          { code := .issueResultExpired
            message := lit "Срок действия истёк — выпусти конфиг заново", status := 404 }
      else
        let issue ← consume issue now
        let config : Text ← ask (.decrypt (issue.configEncrypted.getD []))
        let vpnUrl ← decryptOptional issue.vpnUrlEncrypted
        return ⟨device.id, config, vpnUrl, issue.expiresAt⟩

end Services

/-- A call of the device service. -/
inductive DeviceCall where
  | create (user : User) (name : Text) (serverNodeId : Option Text) (client : ClientMeta)
  | revoke (actor : User) (deviceId : Text) (client : ClientMeta)
  | issueResult (actor : User) (deviceId : Text)

inductive DeviceReply where
  | created (device : Device) (issue : IssueOut)
  | revoked (device : Device)
  | result (result : Services.IssueResultOut)

def Services.deviceCall (b : Services) : DeviceCall → Task DeviceReply
  | .create user name serverNodeId client => do
    let (device, issue) ← b.create user name serverNodeId client
    return .created device issue
  | .revoke actor deviceId client => do
    let device ← b.revoke actor deviceId client
    return .revoked device
  | .issueResult actor deviceId => do
    let result ← issueResultOf actor deviceId
    return .result result

end VpnControl.Backend
