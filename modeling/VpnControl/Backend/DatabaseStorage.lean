import VpnControl.Backend.InMemoryStorage
import VpnControl.Backend.AgentClient
import VpnControl.Lib.RowTable
import Mathlib.Algebra.Group.Int.Defs

namespace VpnControl.Backend
open Strings Json RowTable

section Enums

def DeviceStatus.value : DeviceStatus → Text
  | provisioning => lit "provisioning"
  | active => lit "active"
  | revoked => lit "revoked"
  | failed => lit "failed"

def AuthMethod.value : AuthMethod → Text
  | sshKey => lit "ssh_key"
  | password => lit "password"

def EventLevel.value : EventLevel → Text
  | info => lit "info"
  | warning => lit "warning"
  | error => lit "error"

def UserRole.ofValue (value : Text) : Option UserRole :=
  [admin, user].find? (·.value = value)

def ServerStatus.ofValue (value : Text) : Option ServerStatus :=
  [draft, setupPending, setupRunning, online, warning, offline, disabled, setupFailed].find?
    (·.value = value)

def DeviceStatus.ofValue (value : Text) : Option DeviceStatus :=
  [provisioning, active, revoked, failed].find? (·.value = value)

def SetupJobStatus.ofValue (value : Text) : Option SetupJobStatus :=
  [draft, queued, checkingSsh, installingAgent, installingVpn, verifying, success, failed,
    cancelled].find? (·.value = value)

def AuthMethod.ofValue (value : Text) : Option AuthMethod :=
  [sshKey, password].find? (·.value = value)

def EventLevel.ofValue (value : Text) : Option EventLevel :=
  [info, warning, error].find? (·.value = value)

theorem UserRole.ofValue_value (role : UserRole) : ofValue role.value = some role := by
  cases role <;> simp [ofValue, value, lit_eq]

theorem ServerStatus.ofValue_value (status : ServerStatus) : ofValue status.value = some status := by
  cases status <;> simp [ofValue, value, lit_eq]

theorem DeviceStatus.ofValue_value (status : DeviceStatus) : ofValue status.value = some status := by
  cases status <;> simp [ofValue, value, lit_eq]

theorem SetupJobStatus.ofValue_value (status : SetupJobStatus) :
    ofValue status.value = some status := by
  cases status <;> simp [ofValue, value, lit_eq]

theorem AuthMethod.ofValue_value (method : AuthMethod) : ofValue method.value = some method := by
  cases method <;> simp [ofValue, value, lit_eq]

theorem EventLevel.ofValue_value (level : EventLevel) : ofValue level.value = some level := by
  cases level <;> simp [ofValue, value, lit_eq]

theorem DeviceStatus.value_inj {status status' : DeviceStatus} :
    status.value = status'.value ↔ status = status' := by
  refine ⟨fun h => ?_, congrArg value⟩
  rw [← Option.some_inj, ← ofValue_value, ← ofValue_value, h]

theorem SetupJobStatus.value_inj {status status' : SetupJobStatus} :
    status.value = status'.value ↔ status = status' := by
  refine ⟨fun h => ?_, congrArg value⟩
  rw [← Option.some_inj, ← ofValue_value, ← ofValue_value, h]

end Enums

section Cells

/-- The databases that the storage runs on. -/
inductive Dialect where
  | sqlite
  | postgresql
  deriving DecidableEq, Repr

/-- A value for a column `String(size)`, `Text` or `Integer`, or a null for a column that takes
none. Values for columns of other types always fit. -/
inductive Cell where
  | string (size : Nat) (value : Text)
  | text (value : Text)
  | integer (value : Int)
  | null
  deriving DecidableEq, Repr

namespace Cell
variable {α : Type}

/-- The value of a column that takes nulls. -/
def nullable (cell : α → Cell) (value : Option α) : List Cell := (value.map cell).toList

/-- The value of a column that takes no nulls. -/
def required (cell : α → Cell) (value : Option α) : List Cell := [(value.map cell).getD .null]

/-- A parameter of a statement, whatever the size of its column. -/
def parameter : Cell → Cell
  | string _ value => .text value
  | cell => cell

end Cell

/-- SQLite stores integers of 64 bits and does not look at the length of a text. PostgreSQL has 32
bits for an `INTEGER`, and no NUL in a text. -/
def Dialect.takes : Dialect → Cell → Bool
  | _, .null => false
  | sqlite, .integer value => -2 ^ 63 ≤ value && value < 2 ^ 63
  | sqlite, _ => true
  | postgresql, .integer value => -2 ^ 31 ≤ value && value < 2 ^ 31
  | postgresql, .text value => '\x00' ∉ value
  | postgresql, .string size value => '\x00' ∉ value && value.length ≤ size

theorem Dialect.takes_parameter {dialect : Dialect} {cell : Cell} (h : dialect.takes cell = true) :
    dialect.takes cell.parameter = true := by
  cases dialect <;> cases cell <;> simp_all [takes, Cell.parameter]

theorem Dialect.takes_checkingSsh (dialect : Dialect) :
    dialect.takes (.string 30 SetupJobStatus.checkingSsh.value) = true := by
  cases dialect <;> decide +kernel

end Cells

section Rows
open Cell

structure UserRow where
  id : Text
  login : Text
  displayName : Text
  role : Text
  passwordHash : Text
  createdAt : Time
  updatedAt : Time
  isActive : Bool
  telegramUsername : Option Text
  deviceLimit : Option Int
  deviceLimitUnlimited : Bool
  showServerSupport : Bool
  freeAccess : Bool
  note : Option Text
  createdByUserId : Option Text

def UserRow.cells (row : UserRow) : List Cell :=
  [.string 36 row.id, .string 64 row.login, .string 100 row.displayName, .string 20 row.role,
    .text row.passwordHash] ++ nullable (.string 64) row.telegramUsername ++
    nullable .integer row.deviceLimit ++ nullable .text row.note ++
    nullable (.string 36) row.createdByUserId

def userRow (user : User) : UserRow := { user with role := user.role.value }

/-- `_user`. -/
def UserRow.user (row : UserRow) : Option User := do
  let role ← UserRole.ofValue row.role
  return { row with role }

def Session.cells (row : Session) : List Cell :=
  [.string 36 row.id, .string 36 row.userId, .string 64 row.tokenHash] ++
    nullable .text row.userAgent ++ nullable (.string 80) row.ipAddress

/-- The fields that a patch can set to null are null here too, until the database sees them. -/
structure ServerNodeRow where
  id : Text
  name : Option Text
  publicHost : Option Text
  agentBaseUrl : Option Text
  createdAt : Time
  updatedAt : Time
  publicPort : Option Int
  regionNote : Option Text
  provider : Option Text
  agentKeyId : Option Text
  agentSecretEncrypted : Option Text
  agentAllowedIpNote : Option Text
  status : Text
  lastSeenAt : Option Time
  lastError : Option Text
  lastStatusPayload : Option Doc
  awgContainerName : Option Text
  awgInterface : Option Text
  awgConfigPath : Option Text
  clientsTablePath : Option Text
  isAvailableForNewDevices : Option Bool
  createdByUserId : Option Text

def ServerNodeRow.cells (row : ServerNodeRow) : List Cell :=
  [.string 36 row.id, .string 30 row.status] ++ required (.string 100) row.name ++
    required (.string 255) row.publicHost ++ required (.string 255) row.agentBaseUrl ++
    nullable .integer row.publicPort ++ nullable (.string 200) row.regionNote ++
    nullable (.string 100) row.provider ++ nullable (.string 100) row.agentKeyId ++
    nullable .text row.agentSecretEncrypted ++ nullable (.string 200) row.agentAllowedIpNote ++
    nullable .text row.lastError ++ required (.string 100) row.awgContainerName ++
    required (.string 50) row.awgInterface ++ required (.string 255) row.awgConfigPath ++
    required (.string 255) row.clientsTablePath ++
    (if row.isAvailableForNewDevices = none then [.null] else []) ++
    nullable (.string 36) row.createdByUserId

def serverNodeRow (node : ServerNode) : ServerNodeRow := { node with status := node.status.value }

def ServerNodeRow.serverNode (row : ServerNodeRow) : Option ServerNode := do
  let status ← ServerStatus.ofValue row.status
  return { row with status }

structure DeviceRow where
  id : Text
  userId : Text
  serverNodeId : Text
  name : Text
  createdAt : Time
  updatedAt : Time
  status : Text
  publicKey : Option Text
  clientIp : Option Text
  lastConfigIssuedAt : Option Time
  revokedAt : Option Time
  failureMessage : Option Text

def DeviceRow.cells (row : DeviceRow) : List Cell :=
  [.string 36 row.id, .string 36 row.userId, .string 36 row.serverNodeId, .string 64 row.name,
    .string 30 row.status] ++ nullable .text row.publicKey ++ nullable (.string 80) row.clientIp ++
    nullable .text row.failureMessage

def deviceRow (device : Device) : DeviceRow := { device with status := device.status.value }

def DeviceRow.device (row : DeviceRow) : Option Device := do
  let status ← DeviceStatus.ofValue row.status
  return { row with status }

def DeviceConfigIssue.cells (row : DeviceConfigIssue) : List Cell :=
  [.string 36 row.id, .string 36 row.deviceId, .string 36 row.issuedToUserId] ++
    nullable .text row.configEncrypted ++ nullable .text row.vpnUrlEncrypted

structure SetupJobRow where
  id : Text
  createdByUserId : Text
  serverName : Text
  host : Text
  sshPort : Int
  sshUsername : Text
  authMethod : Text
  createdAt : Time
  updatedAt : Time
  status : Text
  secretEncrypted : Option Text
  regionNote : Option Text
  installAwg : Bool
  availableForNewDevices : Bool
  verifyBeforeInstall : Bool
  currentStep : Text
  errorMessage : Option Text
  resultPayload : Option Doc
  serverNodeId : Option Text
  startedAt : Option Time
  finishedAt : Option Time

def SetupJobRow.cells (row : SetupJobRow) : List Cell :=
  [.string 36 row.id, .string 36 row.createdByUserId, .string 100 row.serverName,
    .string 255 row.host, .integer row.sshPort, .string 64 row.sshUsername,
    .string 30 row.authMethod, .string 30 row.status, .string 100 row.currentStep] ++
    nullable .text row.secretEncrypted ++ nullable (.string 200) row.regionNote ++
    nullable .text row.errorMessage ++ nullable (.string 36) row.serverNodeId

def setupJobRow (job : SetupJob) : SetupJobRow :=
  { job with status := job.status.value, authMethod := job.authMethod.value }

def SetupJobRow.setupJob (row : SetupJobRow) : Option SetupJob := do
  let status ← SetupJobStatus.ofValue row.status
  let authMethod ← AuthMethod.ofValue row.authMethod
  return { row with status, authMethod }

/-- `SET column = value`; an enum is stored by its value. -/
def SetupJobRow.set (row : SetupJobRow) : JobColumn → SetupJobRow
  | .createdByUserId value => { row with createdByUserId := value }
  | .serverName value => { row with serverName := value }
  | .host value => { row with host := value }
  | .sshPort value => { row with sshPort := value }
  | .sshUsername value => { row with sshUsername := value }
  | .authMethod value => { row with authMethod := value.value }
  | .updatedAt value => { row with updatedAt := value }
  | .status value => { row with status := value.value }
  | .secretEncrypted value => { row with secretEncrypted := value }
  | .regionNote value => { row with regionNote := value }
  | .installAwg value => { row with installAwg := value }
  | .availableForNewDevices value => { row with availableForNewDevices := value }
  | .verifyBeforeInstall value => { row with verifyBeforeInstall := value }
  | .currentStep value => { row with currentStep := value }
  | .errorMessage value => { row with errorMessage := value }
  | .resultPayload value => { row with resultPayload := value }
  | .serverNodeId value => { row with serverNodeId := value }
  | .startedAt value => { row with startedAt := value }
  | .finishedAt value => { row with finishedAt := value }

def JobColumn.cells : JobColumn → List Cell
  | createdByUserId value => [.string 36 value]
  | serverName value => [.string 100 value]
  | host value => [.string 255 value]
  | sshPort value => [.integer value]
  | sshUsername value => [.string 64 value]
  | authMethod value => [.string 30 value.value]
  | status value => [.string 30 value.value]
  | secretEncrypted value => Cell.nullable .text value
  | regionNote value => Cell.nullable (.string 200) value
  | currentStep value => [.string 100 value]
  | errorMessage value => Cell.nullable .text value
  | serverNodeId value => Cell.nullable (.string 36) value
  | updatedAt _ | installAwg _ | availableForNewDevices _ | verifyBeforeInstall _
  | resultPayload _ | startedAt _ | finishedAt _ => []

/-- A column that is set leaves the other columns as they are. -/
theorem SetupJobRow.mem_cells_set {row : SetupJobRow} {column : JobColumn} {cell : Cell}
    (h : cell ∈ (row.set column).cells) : cell ∈ row.cells ∨ cell ∈ column.cells := by
  cases column <;>
    simp only [set, cells, JobColumn.cells, List.mem_append, List.mem_cons, List.not_mem_nil,
      or_false] at h ⊢ <;> tauto

@[simp] theorem SetupJobRow.set_id (row : SetupJobRow) (column : JobColumn) :
    (row.set column).id = row.id := by
  cases column <;> rfl

theorem SetupJobRow.foldl_set_id (values : List JobColumn) (row : SetupJobRow) :
    (values.foldl set row).id = row.id := by
  induction values generalizing row with
  | nil => rfl
  | cons column values ih => rw [List.foldl_cons, ih, set_id]

structure SetupJobEventRow where
  id : Text
  setupJobId : Text
  level : Text
  step : Text
  message : Text
  createdAt : Time
  eventMetadata : Doc

def SetupJobEventRow.cells (row : SetupJobEventRow) : List Cell :=
  [.string 36 row.id, .string 36 row.setupJobId, .string 20 row.level, .string 50 row.step,
    .text row.message]

def setupEventRow (event : SetupJobEvent) : SetupJobEventRow :=
  { event with level := event.level.value, eventMetadata := event.metadata }

/-- `metadata or {}`. -/
def orEmpty (metadata : Doc) : Doc := if truthy metadata then metadata else .obj []

def SetupJobEventRow.setupEvent (row : SetupJobEventRow) : Option SetupJobEvent := do
  let level ← EventLevel.ofValue row.level
  return { row with level, metadata := orEmpty row.eventMetadata }

structure AuditLogEntryRow where
  id : Text
  action : Text
  createdAt : Time
  actorUserId : Option Text
  targetType : Option Text
  targetId : Option Text
  entryMetadata : Doc
  ipAddress : Option Text
  userAgent : Option Text

def AuditLogEntryRow.cells (row : AuditLogEntryRow) : List Cell :=
  [.string 36 row.id, .string 100 row.action] ++ nullable (.string 36) row.actorUserId ++
    nullable (.string 60) row.targetType ++ nullable (.string 36) row.targetId ++
    nullable (.string 80) row.ipAddress ++ nullable .text row.userAgent

def auditRow (entry : AuditLogEntry) : AuditLogEntryRow :=
  { entry with entryMetadata := entry.metadata }

def AuditLogEntryRow.audit (row : AuditLogEntryRow) : Option AuditLogEntry :=
  some { row with metadata := orEmpty row.entryMetadata }

structure LoginFailureRow where
  key : Text
  attemptedAt : Time

def LoginFailureRow.cells (row : LoginFailureRow) : List Cell := [.string 160 row.key]

end Rows

/-- The values that a call gives to the database. -/
def StorageCall.cells (lower : Text → Text) : StorageCall → List Cell
  | addUser user | saveUser user => (userRow user).cells
  | getUser userId => [.text userId]
  | getUserByLogin login => [.text (lower (strip login))]
  | addSession session | saveSession session => session.cells
  | getSessionByTokenHash tokenHash => [.text tokenHash]
  | revokeSessionsForUser userId _ => [.text userId]
  | addServerNode node | saveServerNode node => (serverNodeRow node).cells
  | getServerNode nodeId => [.text nodeId]
  | addDevice device | saveDevice device => (deviceRow device).cells
  | getDevice deviceId => [.text deviceId]
  | listDevicesForUser userId | countDevicesTowardLimit userId => [.text userId]
  | countActiveDevicesForServer serverNodeId => [.text serverNodeId]
  | setIssue issue | saveIssue issue => issue.cells
  | getIssue deviceId | dropIssue deviceId => [.text deviceId]
  | addSetupJob job | saveSetupJob job => (setupJobRow job).cells
  | getSetupJob jobId => [.text jobId]
  | claimNextSetupJob _ currentStep => (JobColumn.currentStep currentStep).cells
  | transitionSetupJob jobId _ value values =>
    .text jobId :: (value :: values).flatMap JobColumn.cells
  | addSetupEvent event => (setupEventRow event).cells
  | listSetupEvents jobId => [.text jobId]
  | addAuditEntry entry => (auditRow entry).cells
  | listAuditEntries limit => [.integer limit]
  | recordLoginFailure key at' => LoginFailureRow.cells ⟨key, at'⟩
  | countLoginFailures key _ | clearLoginFailures key => [.text key]
  | listUsers | hasAdmin | listServerNodes | listSetupJobs => []

/-- The values fit the columns of the database. -/
def StorageCall.Fits (dialect : Dialect) (lower : Text → Text) (c : StorageCall) : Prop :=
  ∀ cell ∈ c.cells lower, dialect.takes cell = true

instance (dialect : Dialect) (lower : Text → Text) (c : StorageCall) :
    Decidable (c.Fits dialect lower) :=
  inferInstanceAs (Decidable (∀ cell ∈ c.cells lower, dialect.takes cell = true))

/-- What a statement demands of its values before it runs: an `UPDATE` looks at the lengths of the
values only where it finds a row for them. -/
def StorageCall.Runs (dialect : Dialect) (lower : Text → Text) : StorageCall → Prop
  | claimNextSetupJob at' currentStep => ∀ cell ∈ (claimNextSetupJob at' currentStep).cells lower,
      dialect.takes cell.parameter = true
  | transitionSetupJob jobId expectedStatuses value values =>
    ∀ cell ∈ (transitionSetupJob jobId expectedStatuses value values).cells lower,
      dialect.takes cell.parameter = true
  | c => c.Fits dialect lower

theorem StorageCall.Fits.runs {dialect : Dialect} {lower : Text → Text} {c : StorageCall}
    (h : c.Fits dialect lower) : c.Runs dialect lower := by
  cases c with
  | claimNextSetupJob | transitionSetupJob => exact fun cell hcell => dialect.takes_parameter (h cell hcell)
  | _ => exact h

/-- The tables of the database. The rows of sessions and of issues have the very fields of these. -/
structure DatabaseStorage where
  users : RowTable UserRow.id UserRow.login := {}
  sessions : RowTable Session.id Session.tokenHash := {}
  serverNodes : RowTable ServerNodeRow.id ServerNodeRow.id := {}
  devices : RowTable DeviceRow.id DeviceRow.id := {}
  issues : RowTable DeviceConfigIssue.id DeviceConfigIssue.deviceId := {}
  setupJobs : RowTable SetupJobRow.id SetupJobRow.id := {}
  setupEvents : RowTable SetupJobEventRow.id SetupJobEventRow.id := {}
  audit : RowTable AuditLogEntryRow.id AuditLogEntryRow.id := {}
  loginFailures : List LoginFailureRow := []

section Results
variable {α ρ : Type}

/-- A row that is no record raises. -/
def orValueError : Option α → Except Exc α
  | some a => .ok a
  | none => .error (.other (lit "ValueError"))

/-- `_record(row) if row else None`, for the first row that the database finds. -/
def Fetched (decode : ρ → Option α) (rows : List ρ) (r : Except Exc (Option α)) : Prop :=
  ∃ row, First rows row ∧ r = match row with
    | none => .ok none
    | some row => (orValueError (decode row)).map some

/-- `[_record(row) for row in rows]`, for the rows in their order. -/
def Listed (decode : ρ → Option α) (le : ρ → ρ → Prop) (rows : List ρ)
    (r : Except Exc (List α)) : Prop :=
  ∃ out, OrderedBy le rows out ∧ r = orValueError (out.mapM decode)

end Results

namespace DatabaseStorage
variable (dialect : Dialect) (lower : Text → Text) (db : DatabaseStorage)

/-- A session is committed at its end, and rolled back if it raises. -/
def commit {α : Type} (db' : DatabaseStorage) : Except Exc α → DatabaseStorage
  | .ok _ => db'
  | .error _ => db

/-- `session.merge` raises if a unique column has the value in another row. -/
def merged {T : Type} (store : T → DatabaseStorage) : Option T → Except Exc Unit × DatabaseStorage
  | some t => (.ok (), store t)
  | none => (.error (.other (lit "IntegrityError")), db)

section Users

def saveUser (user : User) : Except Exc Unit × DatabaseStorage :=
  db.merged (fun users => { db with users }) (db.users.merge (userRow user))

def addUser (user : User) : Except Exc Unit × DatabaseStorage := db.saveUser user

def GetUser (userId : Text) : Except Exc (Option User) → Prop :=
  Fetched UserRow.user (db.users.rows.filter (·.id = userId))

def GetUserByLogin (login : Text) : Except Exc (Option User) → Prop :=
  let normalized := lower (strip login)
  Fetched UserRow.user (db.users.rows.filter (·.login = normalized))

def ListUsers : Except Exc (List User) → Prop :=
  Listed UserRow.user (fun u v => u.createdAt ≤ v.createdAt) db.users.rows

def hasAdmin : Bool := db.users.rows.countP (·.role = lit "admin") ≠ 0

end Users

section Sessions

def saveSession (item : Session) : Except Exc Unit × DatabaseStorage :=
  db.merged (fun sessions => { db with sessions }) (db.sessions.merge item)

def addSession (session : Session) : Except Exc Unit × DatabaseStorage := db.saveSession session

def GetSessionByTokenHash (tokenHash : Text) : Except Exc (Option Session) → Prop :=
  Fetched some (db.sessions.rows.filter (·.tokenHash = tokenHash))

def revokeSessionsForUser (userId : Text) (at' : Time) : DatabaseStorage :=
  { db with
    sessions := db.sessions.update (fun row => row.userId = userId && row.revokedAt = none)
      (fun row => { row with revokedAt := some at' }) fun _ => ⟨rfl, rfl⟩ }

end Sessions

section ServerNodes

def saveServerNode (node : ServerNode) : Except Exc Unit × DatabaseStorage :=
  db.merged (fun serverNodes => { db with serverNodes }) (db.serverNodes.merge (serverNodeRow node))

def addServerNode (node : ServerNode) : Except Exc Unit × DatabaseStorage := db.saveServerNode node

def GetServerNode (nodeId : Text) : Except Exc (Option ServerNode) → Prop :=
  Fetched ServerNodeRow.serverNode (db.serverNodes.rows.filter (·.id = nodeId))

def ListServerNodes : Except Exc (List ServerNode) → Prop :=
  Listed ServerNodeRow.serverNode (fun n m => n.createdAt ≤ m.createdAt) db.serverNodes.rows

end ServerNodes

section Devices

def saveDevice (device : Device) : Except Exc Unit × DatabaseStorage :=
  db.merged (fun devices => { db with devices }) (db.devices.merge (deviceRow device))

def addDevice (device : Device) : Except Exc Unit × DatabaseStorage := db.saveDevice device

def GetDevice (deviceId : Text) : Except Exc (Option Device) → Prop :=
  Fetched DeviceRow.device (db.devices.rows.filter (·.id = deviceId))

def ListDevicesForUser (userId : Text) : Except Exc (List Device) → Prop :=
  Listed DeviceRow.device (fun d e => e.createdAt ≤ d.createdAt)
    (db.devices.rows.filter (·.userId = userId))

def counted : List Text := [DeviceStatus.provisioning.value, DeviceStatus.active.value]

def countDevicesTowardLimit (userId : Text) : Nat :=
  db.devices.rows.countP fun row => row.userId = userId && row.status ∈ counted

def countActiveDevicesForServer (serverNodeId : Text) : Nat :=
  db.devices.rows.countP fun row => row.serverNodeId = serverNodeId && row.status ∈ counted

end Devices

section Issues

/-- `if old and old.id != issue.id: session.delete(old)`. -/
def deleteOld (issue : DeviceConfigIssue) :
    Option DeviceConfigIssue → RowTable DeviceConfigIssue.id DeviceConfigIssue.deviceId
  | some old => if old.id ≠ issue.id then db.issues.delete (·.id = old.id) else db.issues
  | none => db.issues

/-- An issue takes the place of the one for its device. -/
def SaveIssue (issue : DeviceConfigIssue) (r : Except Exc Unit × DatabaseStorage) : Prop :=
  ∃ old, First (db.issues.rows.filter (·.deviceId = issue.deviceId)) old ∧
    r = db.merged (fun issues => { db with issues }) ((db.deleteOld issue old).merge issue)

def SetIssue (issue : DeviceConfigIssue) : Except Exc Unit × DatabaseStorage → Prop :=
  db.SaveIssue issue

def GetIssue (deviceId : Text) : Except Exc (Option DeviceConfigIssue) → Prop :=
  Fetched some (db.issues.rows.filter (·.deviceId = deviceId))

def dropIssue (deviceId : Text) : DatabaseStorage :=
  { db with issues := db.issues.delete (·.deviceId = deviceId) }

end Issues

section SetupJobs

def saveSetupJob (job : SetupJob) : Except Exc Unit × DatabaseStorage :=
  db.merged (fun setupJobs => { db with setupJobs }) (db.setupJobs.merge (setupJobRow job))

def addSetupJob (job : SetupJob) : Except Exc Unit × DatabaseStorage := db.saveSetupJob job

def GetSetupJob (jobId : Text) : Except Exc (Option SetupJob) → Prop :=
  Fetched SetupJobRow.setupJob (db.setupJobs.rows.filter (·.id = jobId))

def ListSetupJobs : Except Exc (List SetupJob) → Prop :=
  Listed SetupJobRow.setupJob (fun i j => j.createdAt ≤ i.createdAt) db.setupJobs.rows

/-- A statement that the database refuses raises, and the session is rolled back. -/
def Refused {α : Type} (r : Except Exc α) (db' : DatabaseStorage) : Prop :=
  (∃ x, r = .error x) ∧ db' = db

/-- `UPDATE setup_jobs SET … WHERE … RETURNING`. -/
def UpdateSetupJobs (p : SetupJobRow → Bool) (f : SetupJobRow → SetupJobRow)
    (hf : ∀ row, (f row).id = row.id) (r : Except Exc (Option SetupJob)) (db' : DatabaseStorage) :
    Prop :=
  if ∀ row ∈ db.setupJobs.rows, p row = true → ∀ cell ∈ (f row).cells, dialect.takes cell = true then
    Fetched SetupJobRow.setupJob ((db.setupJobs.rows.filter p).map f) r ∧
      db' = db.commit
        { db with setupJobs := db.setupJobs.update p f fun row => ⟨hf row, hf row⟩ } r
  else db.Refused r db'

def ClaimNextSetupJob (at' : Time) (currentStep : Text) (r : Except Exc (Option SetupJob))
    (db' : DatabaseStorage) : Prop :=
  let queued (row : SetupJobRow) : Bool := row.status = SetupJobStatus.queued.value
  ∃ out, OrderedBy (fun i j => i.createdAt ≤ j.createdAt) (db.setupJobs.rows.filter queued) out ∧
    let candidate := out.head?.map SetupJobRow.id
    db.UpdateSetupJobs dialect (fun row => candidate = some row.id && queued row)
      (fun row => { row with
        status := SetupJobStatus.checkingSsh.value, currentStep, startedAt := some at'
        updatedAt := at' }) (fun _ => rfl) r db'

def TransitionSetupJob (jobId : Text) (expectedStatuses : List SetupJobStatus)
    (values : List JobColumn) : Except Exc (Option SetupJob) → DatabaseStorage → Prop :=
  db.UpdateSetupJobs dialect (fun row => row.id = jobId && row.status ∈ expectedStatuses.map (·.value))
    (values.foldl SetupJobRow.set) (SetupJobRow.foldl_set_id values)

def addSetupEvent (event : SetupJobEvent) : Except Exc Unit × DatabaseStorage :=
  db.merged (fun setupEvents => { db with setupEvents }) (db.setupEvents.merge (setupEventRow event))

def ListSetupEvents (jobId : Text) : Except Exc (List SetupJobEvent) → Prop :=
  Listed SetupJobEventRow.setupEvent (fun e f => e.createdAt ≤ f.createdAt)
    (db.setupEvents.rows.filter (·.setupJobId = jobId))

end SetupJobs

section Audit

def addAuditEntry (entry : AuditLogEntry) : Except Exc Unit × DatabaseStorage :=
  db.merged (fun audit => { db with audit }) (db.audit.merge (auditRow entry))

/-- The newest entries, the newest first. -/
def ListAuditEntries (limit : Nat) (r : Except Exc (List AuditLogEntry)) : Prop :=
  ∃ out, OrderedBy (fun e f => f.createdAt ≤ e.createdAt) db.audit.rows out ∧
    r = orValueError ((out.take limit).mapM AuditLogEntryRow.audit)

end Audit

section LoginFailures

def recordLoginFailure (key : Text) (at' : Time) : DatabaseStorage :=
  { db with loginFailures := db.loginFailures ++ [⟨key, at'⟩] }

/-- The count prunes the failures of every key. -/
def countLoginFailures (key : Text) (since : Time) : Nat × DatabaseStorage :=
  let rows := db.loginFailures.filter fun row => !(row.attemptedAt < since : Bool)
  (rows.countP (·.key = key), { db with loginFailures := rows })

def clearLoginFailures (key : Text) : DatabaseStorage :=
  { db with loginFailures := db.loginFailures.filter fun row => !(row.key = key : Bool) }

end LoginFailures

/-- What a statement may return that the database does not refuse, and the database after it. -/
def Executed : (c : StorageCall) → Except Exc c.Ret → DatabaseStorage → Prop
  | .addUser user, r, db' => (r, db') = db.addUser user
  | .saveUser user, r, db' => (r, db') = db.saveUser user
  | .getUser userId, r, db' => db.GetUser userId r ∧ db' = db
  | .getUserByLogin login, r, db' => db.GetUserByLogin lower login r ∧ db' = db
  | .listUsers, r, db' => db.ListUsers r ∧ db' = db
  | .hasAdmin, r, db' => r = .ok db.hasAdmin ∧ db' = db
  | .addSession session, r, db' => (r, db') = db.addSession session
  | .saveSession session, r, db' => (r, db') = db.saveSession session
  | .getSessionByTokenHash tokenHash, r, db' => db.GetSessionByTokenHash tokenHash r ∧ db' = db
  | .revokeSessionsForUser userId at', r, db' => r = .ok () ∧ db' = db.revokeSessionsForUser userId at'
  | .addServerNode node, r, db' => (r, db') = db.addServerNode node
  | .saveServerNode node, r, db' => (r, db') = db.saveServerNode node
  | .getServerNode nodeId, r, db' => db.GetServerNode nodeId r ∧ db' = db
  | .listServerNodes, r, db' => db.ListServerNodes r ∧ db' = db
  | .addDevice device, r, db' => (r, db') = db.addDevice device
  | .saveDevice device, r, db' => (r, db') = db.saveDevice device
  | .getDevice deviceId, r, db' => db.GetDevice deviceId r ∧ db' = db
  | .listDevicesForUser userId, r, db' => db.ListDevicesForUser userId r ∧ db' = db
  | .countDevicesTowardLimit userId, r, db' => r = .ok (db.countDevicesTowardLimit userId) ∧ db' = db
  | .countActiveDevicesForServer serverNodeId, r, db' =>
    r = .ok (db.countActiveDevicesForServer serverNodeId) ∧ db' = db
  | .setIssue issue, r, db' => db.SetIssue issue (r, db')
  | .saveIssue issue, r, db' => db.SaveIssue issue (r, db')
  | .getIssue deviceId, r, db' => db.GetIssue deviceId r ∧ db' = db
  | .dropIssue deviceId, r, db' => r = .ok () ∧ db' = db.dropIssue deviceId
  | .addSetupJob job, r, db' => (r, db') = db.addSetupJob job
  | .saveSetupJob job, r, db' => (r, db') = db.saveSetupJob job
  | .getSetupJob jobId, r, db' => db.GetSetupJob jobId r ∧ db' = db
  | .listSetupJobs, r, db' => db.ListSetupJobs r ∧ db' = db
  | .claimNextSetupJob at' currentStep, r, db' => db.ClaimNextSetupJob dialect at' currentStep r db'
  | .transitionSetupJob jobId expectedStatuses value values, r, db' =>
    db.TransitionSetupJob dialect jobId expectedStatuses (value :: values) r db'
  | .addSetupEvent event, r, db' => (r, db') = db.addSetupEvent event
  | .listSetupEvents jobId, r, db' => db.ListSetupEvents jobId r ∧ db' = db
  | .addAuditEntry entry, r, db' => (r, db') = db.addAuditEntry entry
  | .listAuditEntries limit, r, db' => db.ListAuditEntries limit r ∧ db' = db
  | .recordLoginFailure key at', r, db' => r = .ok () ∧ db' = db.recordLoginFailure key at'
  | .countLoginFailures key since, r, db' =>
    r = .ok (db.countLoginFailures key since).1 ∧ db' = (db.countLoginFailures key since).2
  | .clearLoginFailures key, r, db' => r = .ok () ∧ db' = db.clearLoginFailures key

/-- What a call may return, and the database after it. -/
def Call (c : StorageCall) (r : Except Exc c.Ret) (db' : DatabaseStorage) : Prop :=
  (c.Runs dialect lower ∧ db.Executed dialect lower c r db') ∨
    ¬ c.Runs dialect lower ∧ db.Refused r db'

/-- A run of calls, with what each of them returned. -/
inductive Run : DatabaseStorage → List ((c : StorageCall) × Except Exc c.Ret) → Prop
  | nil (db : DatabaseStorage) : Run db []
  | cons {db db' : DatabaseStorage} {c : StorageCall} {r : Except Exc c.Ret}
      {answers : List ((c : StorageCall) × Except Exc c.Ret)} (h : db.Call dialect lower c r db')
      (hrun : Run db' answers) : Run db (⟨c, r⟩ :: answers)

end DatabaseStorage
end VpnControl.Backend
