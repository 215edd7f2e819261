import VpnControl.Backend.AgentClient

namespace VpnControl.Backend
open Strings Json Effects Prog

section Redact

/-- `str.lower` as far as a comparison with an ASCII word can see it. -/
def pyLower (s : Text) : Text :=
  s.flatMap fun c =>
    if c = '\u0130' then ['i', '\u0307'] else if c = '\u212A' then ['k'] else [lowerASCII c]

def sensitiveKeys : List Text :=
  [lit "secret", lit "password", lit "ssh_key", lit "private_key", lit "config", lit "vpn_url"]

def isSensitive (key : Text) : Bool := sensitiveKeys.any fun token => token <:+: pyLower key

mutual
/-- `_redact`. -/
def redact : Doc → Doc
  | .obj ms => .obj (redactMembers ms)
  | .arr xs => .arr (redactElems xs)
  | value => value

def redactElems : List Doc → List Doc
  | [] => []
  | x :: xs => redact x :: redactElems xs

def redactMembers : List (List Char × Doc) → List (List Char × Doc)
  | [] => []
  | (k, v) :: ms =>
    (k, if isSensitive k then .str (lit "[redacted]") else redact v) :: redactMembers ms
end

end Redact

/-- What an audit entry says besides its id and time. -/
structure AuditRecord where
  action : Text
  actorUserId : Option Text := none
  targetType : Option Text := none
  targetId : Option Text := none
  metadata : List (Text × Doc) := []
  ipAddress : Option Text := none
  userAgent : Option Text := none

/-- `AuditService.log`. -/
def auditLog (r : AuditRecord) : Task Unit := do
  let id : Text ← ask .uuid
  let createdAt : Time ← ask .now
  ask (.addAuditEntry
    { id, action := r.action, createdAt, actorUserId := r.actorUserId, targetType := r.targetType
      targetId := r.targetId, metadata := redact (.obj r.metadata), ipAddress := r.ipAddress
      userAgent := r.userAgent })

def ServerNode.selectable (node : ServerNode) : Bool :=
  node.status = .online || node.status = .warning

def ServerNode.forNewDevices (node : ServerNode) : Bool :=
  node.isAvailableForNewDevices.getD false && node.selectable

/-- A patchable field of a node with its new value, which can be null for every field. -/
inductive ServerPatch where
  | agentSecret (value : Option Text)
  | name (value : Option Text)
  | publicHost (value : Option Text)
  | publicPort (value : Option Int)
  | regionNote (value : Option Text)
  | provider (value : Option Text)
  | agentBaseUrl (value : Option Text)
  | agentKeyId (value : Option Text)
  | agentAllowedIpNote (value : Option Text)
  | isAvailableForNewDevices (value : Option Bool)
  | awgContainerName (value : Option Text)
  | awgInterface (value : Option Text)
  | awgConfigPath (value : Option Text)
  | clientsTablePath (value : Option Text)

/-- The name of the field, and the node with the new value if that is another one. The
secret is not compared but encrypted anew. -/
def ServerNode.patch (node : ServerNode) : ServerPatch → Text × Option ServerNode
  | .agentSecret _ => (lit "agent_secret", none)
  | .name value => (lit "name", if node.name = value then none else some { node with name := value })
  | .publicHost value => (lit "public_host",
      if node.publicHost = value then none else some { node with publicHost := value })
  | .publicPort value => (lit "public_port",
      if node.publicPort = value then none else some { node with publicPort := value })
  | .regionNote value => (lit "region_note",
      if node.regionNote = value then none else some { node with regionNote := value })
  | .provider value => (lit "provider",
      if node.provider = value then none else some { node with provider := value })
  | .agentBaseUrl value => (lit "agent_base_url",
      if node.agentBaseUrl = value then none else some { node with agentBaseUrl := value })
  | .agentKeyId value => (lit "agent_key_id",
      if node.agentKeyId = value then none else some { node with agentKeyId := value })
  | .agentAllowedIpNote value => (lit "agent_allowed_ip_note",
      if node.agentAllowedIpNote = value then none
      else some { node with agentAllowedIpNote := value })
  | .isAvailableForNewDevices value => (lit "is_available_for_new_devices",
      if node.isAvailableForNewDevices = value then none
      else some { node with isAvailableForNewDevices := value })
  | .awgContainerName value => (lit "awg_container_name",
      if node.awgContainerName = value then none else some { node with awgContainerName := value })
  | .awgInterface value => (lit "awg_interface",
      if node.awgInterface = value then none else some { node with awgInterface := value })
  | .awgConfigPath value => (lit "awg_config_path",
      if node.awgConfigPath = value then none else some { node with awgConfigPath := value })
  | .clientsTablePath value => (lit "clients_table_path",
      if node.clientsTablePath = value then none else some { node with clientsTablePath := value })

namespace Services
variable (b : Services)

def getServer (nodeId : Text) : Task ServerNode := do
  let node : Option ServerNode ← ask (.getServerNode nodeId)
  match node with
  | none => raise (notFound (lit "Сервер не найден"))
  | some node => ret node

def listAvailable : Task (List ServerNode) := do
  let nodes : List ServerNode ← ask .listServerNodes
  return nodes.filter (·.forNewDevices)

/-- The first of the nodes with the fewest devices, `best` being the one found so far. -/
def leastLoaded (best : Option (Nat × ServerNode)) : List ServerNode → Task (Option ServerNode)
  | [] => ret (best.map (·.2))
  | node :: nodes => do
    let count : Nat ← ask (.countActiveDevicesForServer node.id)
    match best with
    | none => leastLoaded (some (count, node)) nodes
    | some (least, chosen) =>
      leastLoaded (some (if count < least then (count, node) else (least, chosen))) nodes

def pickForNewDevice : Task (Option ServerNode) := do
  let candidates ← listAvailable
  leastLoaded none candidates

def ensureSelectable (node : ServerNode) : Task Unit :=
  if !node.forNewDevices then
    raise
      { code := .serverUnavailable
        message := lit "Этот сервер сейчас недоступен для новых устройств", status := 503 }
  else ret ()

/-- The fields of a node that is added by hand. -/
structure NewServer where
  name : Text
  publicHost : Text
  agentBaseUrl : Text
  publicPort : Option Int := none
  regionNote : Option Text := none
  provider : Option Text := none
  agentKeyId : Option Text := none
  agentSecret : Option Text := none
  agentAllowedIpNote : Option Text := none
  isAvailableForNewDevices : Bool := true

/-- `self._secret_box.encrypt(value) if value else None`. -/
def encryptOptional (value : Option Text) : Task (Option Text) :=
  if optional value then do
    let secret : Text ← ask (.encrypt (value.getD []))
    return some secret
  else return none

def createManual (actor : User) (new : NewServer) : Task ServerNode := do
  let now : Time ← ask .now
  let id : Text ← ask .uuid
  let agentSecretEncrypted ← encryptOptional new.agentSecret
  let node : ServerNode :=
    { id, name := some (strip new.name), publicHost := some (strip new.publicHost)
      agentBaseUrl := some ((strip new.agentBaseUrl).rdropWhile (· == '/')), createdAt := now
      updatedAt := now, publicPort := new.publicPort, regionNote := new.regionNote
      provider := new.provider, agentKeyId := new.agentKeyId, agentSecretEncrypted
      agentAllowedIpNote := new.agentAllowedIpNote
      isAvailableForNewDevices := some new.isAvailableForNewDevices
      createdByUserId := some actor.id }
  ask (.saveServerNode node)
  auditLog
    { action := lit "server_created", actorUserId := some actor.id
      targetType := some (lit "server_node"), targetId := some node.id
      metadata := [(lit "name", .str (strip new.name))] }
  return node

def createFromSetup (job : SetupJob) (agentBaseUrl agentKeyId agentSecret : Text) :
    Task ServerNode := do
  let now : Time ← ask .now
  let id : Text ← ask .uuid
  let agentSecretEncrypted : Text ← ask (.encrypt agentSecret)
  let node : ServerNode :=
    { id, name := some job.serverName, publicHost := some job.host
      agentBaseUrl := some agentBaseUrl, createdAt := now, updatedAt := now
      regionNote := job.regionNote, agentKeyId := some agentKeyId
      agentSecretEncrypted := some agentSecretEncrypted, status := .setupRunning
      -- not for new devices before the job has verified it
      isAvailableForNewDevices := some false, createdByUserId := some job.createdByUserId }
  ask (.saveServerNode node)
  return node

def activateAfterSetup (nodeId : Text) (available : Bool) : Task ServerNode := do
  let node ← getServer nodeId
  let now : Time ← ask .now
  let node := { node with isAvailableForNewDevices := some available, updatedAt := now }
  ask (.saveServerNode node)
  return node

/-- The loop over the items of a patch: the patched node and the names of what changed. -/
def patchServer (node : ServerNode) (changed : List Text) :
    List ServerPatch → Task (ServerNode × List Text)
  | [] => ret (node, changed)
  -- an empty secret and null both clear the stored one
  | .agentSecret value :: patch => do
    if optional value then
      let secret : Text ← ask (.encrypt (value.getD []))
      patchServer { node with agentSecretEncrypted := some secret }
        (changed ++ [lit "agent_secret"]) patch
    else
      patchServer { node with agentSecretEncrypted := none } (changed ++ [lit "agent_secret"]) patch
  -- a value that is the stored one is not a change
  | field :: patch =>
    match node.patch field with
    | (_, none) => patchServer node changed patch
    | (fieldName, some node) => patchServer node (changed ++ [fieldName]) patch

def updateServer (actor : User) (nodeId : Text) (patch : List ServerPatch) : Task ServerNode := do
  let node ← getServer nodeId
  let (node, changed) ← patchServer node [] patch
  if changed = [] then return node
  else
    let now : Time ← ask .now
    let node := { node with updatedAt := now }
    ask (.saveServerNode node)
    auditLog
      { action := lit "server_updated", actorUserId := some actor.id
        targetType := some (lit "server_node"), targetId := some node.id
        metadata := [(lit "changed", .arr (changed.map .str))] }
    return node

def setDisabled (actor : User) (nodeId : Text) (disabled : Bool) : Task ServerNode := do
  let node ← getServer nodeId
  let now : Time ← ask .now
  let status :=
    if disabled then .disabled
    -- after enabling, the status is unknown until the next health check
    else if node.status = .disabled then .draft
    else node.status
  let node := { node with status, updatedAt := now }
  ask (.saveServerNode node)
  auditLog
    { action := if disabled then lit "server_disabled" else lit "server_enabled"
      actorUserId := some actor.id, targetType := some (lit "server_node")
      targetId := some node.id }
  return node

/-- What `health_check` does when a call of the agent fails. -/
def checkFailed (node : ServerNode) (now : Time) (actorUserId : Option Text) (e : AppError) :
    Task ServerNode := do
  let node : ServerNode ← ask (.nodeObject node)
  let status := if node.status = .disabled then node.status else .offline
  let node := { node with status, lastError := some e.message, updatedAt := now }
  ask (.saveServerNode node)
  auditLog
    { action := lit "agent_call_failed", actorUserId, targetType := some (lit "server_node")
      targetId := some node.id
      metadata := [(lit "code", .str e.code.value), (lit "details", e.details)] }
  return node

/-- The status that a payload shows; a disabled node stays disabled. -/
def checkedStatus (node : ServerNode) (statusPayload : Doc) : Except Exc ServerStatus :=
  if node.status = .disabled then .ok node.status
  else do
    let warnings ← getItem statusPayload (lit "warnings")
    let running ← getItem statusPayload (lit "container_running")
    return if (running.map truthy).getD false && !((warnings.map truthy).getD false) then .online
      else .warning

/-- What `health_check` does with a status payload. -/
def checkPassed (node : ServerNode) (previousStatus : ServerStatus) (now : Time)
    (actorUserId : Option Text) (statusPayload : Doc) : Task ServerNode := do
  let node : ServerNode ← ask (.nodeObject node)
  let node := { node with
    lastSeenAt := some now, lastStatusPayload := some statusPayload, lastError := none }
  -- in memory the fields are changed before the status can raise
  ask (.assignNode node)
  let status ← lift (checkedStatus node statusPayload)
  let node := { node with status, updatedAt := now }
  ask (.saveServerNode node)
  if node.status ≠ previousStatus then
    auditLog
      { action := lit "server_status_changed", actorUserId
        targetType := some (lit "server_node"), targetId := some node.id
        metadata := [(lit "from", .str previousStatus.value), (lit "to", .str node.status.value)] }
  return node

def healthCheck (nodeId : Text) (actorUserId : Option Text) : Task ServerNode := do
  let node ← getServer nodeId
  let previousStatus := node.status
  let now : Time ← ask .now
  let r ← Prog.attempt do
    let _ ← b.health node
    let node : ServerNode ← ask (.nodeObject node)
    b.status node
  match r with
  -- missing credentials are raised, other errors of the agent recorded on the node
  | .error (.app e) =>
    if e.code = .secretRequired then raise e
    else checkFailed node now actorUserId e
  -- and anything else passes through
  | .error x => fail x
  | .ok statusPayload => checkPassed node previousStatus now actorUserId statusPayload

end Services

/-- A call of the server service about one node. -/
inductive ServerCall where
  | update (actor : User) (nodeId : Text) (patch : List ServerPatch)
  | setDisabled (actor : User) (nodeId : Text) (disabled : Bool)
  | healthCheck (nodeId : Text) (actorUserId : Option Text)

def Services.serverCall (b : Services) : ServerCall → Task ServerNode
  | .update actor nodeId patch => updateServer actor nodeId patch
  | .setDisabled actor nodeId disabled => setDisabled actor nodeId disabled
  | .healthCheck nodeId actorUserId => b.healthCheck nodeId actorUserId

end VpnControl.Backend
