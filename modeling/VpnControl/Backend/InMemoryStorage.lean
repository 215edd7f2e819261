import VpnControl.Backend.Models
import VpnControl.Lib.Table

namespace VpnControl.Backend
open Strings Json

/-- A column of a setup job that a transition can set: not its id, nor its creation time. -/
inductive JobColumn where
  | createdByUserId (value : Text)
  | serverName (value : Text)
  | host (value : Text)
  | sshPort (value : Int)
  | sshUsername (value : Text)
  | authMethod (value : AuthMethod)
  | updatedAt (value : Time)
  | status (value : SetupJobStatus)
  | secretEncrypted (value : Option Text)
  | regionNote (value : Option Text)
  | installAwg (value : Bool)
  | availableForNewDevices (value : Bool)
  | verifyBeforeInstall (value : Bool)
  | currentStep (value : Text)
  | errorMessage (value : Option Text)
  | resultPayload (value : Option Doc)
  | serverNodeId (value : Option Text)
  | startedAt (value : Option Time)
  | finishedAt (value : Option Time)

/-- `setattr(job, field_name, value)`. -/
def SetupJob.setattr (job : SetupJob) : JobColumn → SetupJob
  | .createdByUserId value => { job with createdByUserId := value }
  | .serverName value => { job with serverName := value }
  | .host value => { job with host := value }
  | .sshPort value => { job with sshPort := value }
  | .sshUsername value => { job with sshUsername := value }
  | .authMethod value => { job with authMethod := value }
  | .updatedAt value => { job with updatedAt := value }
  | .status value => { job with status := value }
  | .secretEncrypted value => { job with secretEncrypted := value }
  | .regionNote value => { job with regionNote := value }
  | .installAwg value => { job with installAwg := value }
  | .availableForNewDevices value => { job with availableForNewDevices := value }
  | .verifyBeforeInstall value => { job with verifyBeforeInstall := value }
  | .currentStep value => { job with currentStep := value }
  | .errorMessage value => { job with errorMessage := value }
  | .resultPayload value => { job with resultPayload := value }
  | .serverNodeId value => { job with serverNodeId := value }
  | .startedAt value => { job with startedAt := value }
  | .finishedAt value => { job with finishedAt := value }

/-- A call of a storage. A transition sets some column: there is no `UPDATE` that sets none. -/
inductive StorageCall where
  | addUser (user : User)
  | saveUser (user : User)
  | getUser (userId : Text)
  | getUserByLogin (login : Text)
  | listUsers
  | hasAdmin
  | addSession (session : Session)
  | saveSession (session : Session)
  | getSessionByTokenHash (tokenHash : Text)
  | revokeSessionsForUser (userId : Text) (at' : Time)
  | addServerNode (node : ServerNode)
  | saveServerNode (node : ServerNode)
  | getServerNode (nodeId : Text)
  | listServerNodes
  | addDevice (device : Device)
  | saveDevice (device : Device)
  | getDevice (deviceId : Text)
  | listDevicesForUser (userId : Text)
  | countDevicesTowardLimit (userId : Text)
  | countActiveDevicesForServer (serverNodeId : Text)
  | setIssue (issue : DeviceConfigIssue)
  | saveIssue (issue : DeviceConfigIssue)
  | getIssue (deviceId : Text)
  | dropIssue (deviceId : Text)
  | addSetupJob (job : SetupJob)
  | saveSetupJob (job : SetupJob)
  | getSetupJob (jobId : Text)
  | listSetupJobs
  | claimNextSetupJob (at' : Time) (currentStep : Text)
  | transitionSetupJob (jobId : Text) (expectedStatuses : List SetupJobStatus) (value : JobColumn)
      (values : List JobColumn)
  | addSetupEvent (event : SetupJobEvent)
  | listSetupEvents (jobId : Text)
  | addAuditEntry (entry : AuditLogEntry)
  | listAuditEntries (limit : Nat)
  | recordLoginFailure (key : Text) (at' : Time)
  | countLoginFailures (key : Text) (since : Time)
  | clearLoginFailures (key : Text)

/-- What a call returns. -/
abbrev StorageCall.Ret : StorageCall → Type
  | getUser _ | getUserByLogin _ => Option User
  | listUsers => List User
  | hasAdmin => Bool
  | getSessionByTokenHash _ => Option Session
  | getServerNode _ => Option ServerNode
  | listServerNodes => List ServerNode
  | getDevice _ => Option Device
  | listDevicesForUser _ => List Device
  | countDevicesTowardLimit _ | countActiveDevicesForServer _ => Nat
  | getIssue _ => Option DeviceConfigIssue
  | getSetupJob _ => Option SetupJob
  | listSetupJobs => List SetupJob
  | claimNextSetupJob .. | transitionSetupJob .. => Option SetupJob
  | listSetupEvents _ => List SetupJobEvent
  | listAuditEntries _ => List AuditLogEntry
  | countLoginFailures .. => Nat
  | _ => Unit

/-- A dict of lists. -/
abbrev ListDict (α : Type) : Type := Table (Prod.fst : Text × List α → Text)

namespace ListDict
variable {α : Type} (d : ListDict α)

/-- `d.get(key, [])`. -/
def items (key : Text) : List α := ((d.get key).map (·.2)).getD []

/-- `d.setdefault(key, [])`. -/
def setDefault (key : Text) : ListDict α := d.put (key, d.items key)

/-- `d.setdefault(key, []).append(item)`. -/
def append (key : Text) (item : α) : ListDict α := d.put (key, d.items key ++ [item])

theorem items_put (key : Text) (xs : List α) (key' : Text) :
    items (d.put (key, xs)) key' = if key' = key then xs else d.items key' := by
  rw [items, Table.get_put]
  split
  · rfl
  · rfl

theorem items_setDefault (key key' : Text) : (d.setDefault key).items key' = d.items key' := by
  rw [setDefault, items_put]
  split
  · rename_i h
    rw [h]
  · rfl

theorem items_append (key : Text) (item : α) (key' : Text) :
    (d.append key item).items key' = d.items key' ++ if key' = key then [item] else [] := by
  rw [append, items_put]
  split
  · rename_i h
    rw [h]
  · rw [List.append_nil]

theorem items_erase (key key' : Text) :
    items (d.erase key) key' = if key' = key then [] else d.items key' := by
  rw [items, Table.get_erase]
  split
  · rfl
  · rfl

theorem exists_of_mem_items {d : ListDict α} {key : Text} {item : α} (h : item ∈ d.items key) :
    ∃ items ∈ d.values, item ∈ items.2 := by
  rw [items] at h
  cases hget : d.get key with
  | none =>
    rw [hget] at h
    cases h
  | some items =>
    rw [hget] at h
    exact ⟨items, (Table.get_eq_some_iff.mp hget).1, h⟩

end ListDict

/-- The storage in memory: sessions by the hash of their token, issues by their device. -/
structure InMemoryStorage where
  users : Table User.id := {}
  sessions : Table Session.tokenHash := {}
  serverNodes : Table ServerNode.id := {}
  devices : Table Device.id := {}
  issues : Table DeviceConfigIssue.deviceId := {}
  setupJobs : Table SetupJob.id := {}
  setupEvents : ListDict SetupJobEvent := {}
  audit : List AuditLogEntry := []
  loginFailures : ListDict Time := {}

namespace InMemoryStorage
variable (lower : Text → Text) (s : InMemoryStorage)

section Users

def addUser (user : User) : InMemoryStorage := { s with users := s.users.put user }

def saveUser (user : User) : InMemoryStorage := { s with users := s.users.put user }

def getUser (userId : Text) : Option User := s.users.get userId

def getUserByLogin (login : Text) : Option User :=
  let normalized := lower (strip login)
  s.users.values.find? (·.login = normalized)

def listUsers : List User := s.users.values.mergeSort fun u v => u.createdAt ≤ v.createdAt

def hasAdmin : Bool := s.users.values.any fun u => u.role.value = lit "admin"

end Users

section Sessions

def addSession (session : Session) : InMemoryStorage :=
  { s with sessions := s.sessions.put session }

def saveSession (session : Session) : InMemoryStorage :=
  { s with sessions := s.sessions.put session }

def getSessionByTokenHash (tokenHash : Text) : Option Session := s.sessions.get tokenHash

def revokeSessionsForUser (userId : Text) (at' : Time) : InMemoryStorage :=
  { s with
    sessions := s.sessions.map
      (fun session =>
        if session.userId = userId ∧ session.revokedAt = none then
          { session with revokedAt := some at' }
        else session)
      fun session => by
        split
        · rfl
        · rfl }

end Sessions

section ServerNodes

def addServerNode (node : ServerNode) : InMemoryStorage :=
  { s with serverNodes := s.serverNodes.put node }

def saveServerNode (node : ServerNode) : InMemoryStorage :=
  { s with serverNodes := s.serverNodes.put node }

def getServerNode (nodeId : Text) : Option ServerNode := s.serverNodes.get nodeId

def listServerNodes : List ServerNode :=
  s.serverNodes.values.mergeSort fun n m => n.createdAt ≤ m.createdAt

end ServerNodes

section Devices

def addDevice (device : Device) : InMemoryStorage := { s with devices := s.devices.put device }

def saveDevice (device : Device) : InMemoryStorage := { s with devices := s.devices.put device }

def getDevice (deviceId : Text) : Option Device := s.devices.get deviceId

/-- The devices of a user, the newest first. -/
def listDevicesForUser (userId : Text) : List Device :=
  (s.devices.values.filter (·.userId = userId)).mergeSort fun d e => e.createdAt ≤ d.createdAt

/-- The statuses that take up a place. -/
def counted : List DeviceStatus := [.provisioning, .active]

def countDevicesTowardLimit (userId : Text) : Nat :=
  s.devices.values.countP fun d => d.userId = userId && d.status ∈ counted

def countActiveDevicesForServer (serverNodeId : Text) : Nat :=
  s.devices.values.countP fun d => d.serverNodeId = serverNodeId && d.status ∈ counted

end Devices

section Issues

def setIssue (issue : DeviceConfigIssue) : InMemoryStorage := { s with issues := s.issues.put issue }

def saveIssue (issue : DeviceConfigIssue) : InMemoryStorage := { s with issues := s.issues.put issue }

def getIssue (deviceId : Text) : Option DeviceConfigIssue := s.issues.get deviceId

def dropIssue (deviceId : Text) : InMemoryStorage := { s with issues := s.issues.erase deviceId }

end Issues

section SetupJobs

def addSetupJob (job : SetupJob) : InMemoryStorage :=
  { s with setupJobs := s.setupJobs.put job, setupEvents := s.setupEvents.setDefault job.id }

def saveSetupJob (job : SetupJob) : InMemoryStorage :=
  { s with setupJobs := s.setupJobs.put job, setupEvents := s.setupEvents.setDefault job.id }

def getSetupJob (jobId : Text) : Option SetupJob := s.setupJobs.get jobId

/-- The newest first. -/
def listSetupJobs : List SetupJob :=
  s.setupJobs.values.mergeSort fun i j => j.createdAt ≤ i.createdAt

def nextQueuedSetupJob : Option SetupJob :=
  let queued := s.setupJobs.values.filter (·.status = .queued)
  (queued.mergeSort fun i j => i.createdAt ≤ j.createdAt).head?

def claimNextSetupJob (at' : Time) (currentStep : Text) : Option SetupJob × InMemoryStorage :=
  match s.nextQueuedSetupJob with
  | none => (none, s)
  | some job =>
    let job := { job with
      status := .checkingSsh, currentStep, startedAt := some at', updatedAt := at' }
    (some job, s.saveSetupJob job)

def transitionSetupJob (jobId : Text) (expectedStatuses : List SetupJobStatus)
    (values : List JobColumn) : Option SetupJob × InMemoryStorage :=
  match s.setupJobs.get jobId with
  | none => (none, s)
  | some job =>
    if job.status ∉ expectedStatuses then (none, s)
    else
      let job := values.foldl SetupJob.setattr job
      (some job, s.saveSetupJob job)

def addSetupEvent (event : SetupJobEvent) : InMemoryStorage :=
  { s with setupEvents := s.setupEvents.append event.setupJobId event }

def listSetupEvents (jobId : Text) : List SetupJobEvent := s.setupEvents.items jobId

end SetupJobs

section Audit

def addAuditEntry (entry : AuditLogEntry) : InMemoryStorage := { s with audit := s.audit ++ [entry] }

/-- `reversed(self._audit[-limit:])`; the slice from `-0` on is the whole list. -/
def listAuditEntries (limit : Nat) : List AuditLogEntry :=
  (if limit = 0 then s.audit else s.audit.drop (s.audit.length - limit)).reverse

end Audit

section LoginFailures

def recordLoginFailure (key : Text) (at' : Time) : InMemoryStorage :=
  { s with loginFailures := s.loginFailures.append key at' }

/-- The count prunes the failures of its key. -/
def countLoginFailures (key : Text) (since : Time) : Nat × InMemoryStorage :=
  let fresh := (s.loginFailures.items key).filter (since ≤ ·)
  (fresh.length, { s with loginFailures := s.loginFailures.put (key, fresh) })

def clearLoginFailures (key : Text) : InMemoryStorage :=
  { s with loginFailures := s.loginFailures.erase key }

end LoginFailures

/-- What a call returns, and the storage after it. -/
def call : (c : StorageCall) → c.Ret × InMemoryStorage
  | .addUser user => ((), s.addUser user)
  | .saveUser user => ((), s.saveUser user)
  | .getUser userId => (s.getUser userId, s)
  | .getUserByLogin login => (s.getUserByLogin lower login, s)
  | .listUsers => (s.listUsers, s)
  | .hasAdmin => (s.hasAdmin, s)
  | .addSession session => ((), s.addSession session)
  | .saveSession session => ((), s.saveSession session)
  | .getSessionByTokenHash tokenHash => (s.getSessionByTokenHash tokenHash, s)
  | .revokeSessionsForUser userId at' => ((), s.revokeSessionsForUser userId at')
  | .addServerNode node => ((), s.addServerNode node)
  | .saveServerNode node => ((), s.saveServerNode node)
  | .getServerNode nodeId => (s.getServerNode nodeId, s)
  | .listServerNodes => (s.listServerNodes, s)
  | .addDevice device => ((), s.addDevice device)
  | .saveDevice device => ((), s.saveDevice device)
  | .getDevice deviceId => (s.getDevice deviceId, s)
  | .listDevicesForUser userId => (s.listDevicesForUser userId, s)
  | .countDevicesTowardLimit userId => (s.countDevicesTowardLimit userId, s)
  | .countActiveDevicesForServer serverNodeId => (s.countActiveDevicesForServer serverNodeId, s)
  | .setIssue issue => ((), s.setIssue issue)
  | .saveIssue issue => ((), s.saveIssue issue)
  | .getIssue deviceId => (s.getIssue deviceId, s)
  | .dropIssue deviceId => ((), s.dropIssue deviceId)
  | .addSetupJob job => ((), s.addSetupJob job)
  | .saveSetupJob job => ((), s.saveSetupJob job)
  | .getSetupJob jobId => (s.getSetupJob jobId, s)
  | .listSetupJobs => (s.listSetupJobs, s)
  | .claimNextSetupJob at' currentStep => s.claimNextSetupJob at' currentStep
  | .transitionSetupJob jobId expectedStatuses value values =>
    s.transitionSetupJob jobId expectedStatuses (value :: values)
  | .addSetupEvent event => ((), s.addSetupEvent event)
  | .listSetupEvents jobId => (s.listSetupEvents jobId, s)
  | .addAuditEntry entry => ((), s.addAuditEntry entry)
  | .listAuditEntries limit => (s.listAuditEntries limit, s)
  | .recordLoginFailure key at' => ((), s.recordLoginFailure key at')
  | .countLoginFailures key since => s.countLoginFailures key since
  | .clearLoginFailures key => ((), s.clearLoginFailures key)

/-- What the calls of a list return one after the other. -/
def answers : InMemoryStorage → List StorageCall → List ((c : StorageCall) × c.Ret)
  | _, [] => []
  | s, c :: calls => ⟨c, (s.call lower c).1⟩ :: answers (s.call lower c).2 calls

end InMemoryStorage
end VpnControl.Backend
