import VpnControl.Backend.Models
import VpnControl.Lib.Table
import Mathlib.Data.List.Sort

namespace VpnControl.Backend
open Strings Json

/-- What the storage holds: sessions by the hash of their token, issues by their device. -/
structure Store where
  users : Table User.id := {}
  sessions : Table Session.tokenHash := {}
  serverNodes : Table ServerNode.id := {}
  devices : Table Device.id := {}
  issues : Table DeviceConfigIssue.deviceId := {}
  setupJobs : Table SetupJob.id := {}
  setupEvents : List SetupJobEvent := []
  audit : List AuditLogEntry := []
  loginFailures : List (Text × Time) := []

/-- Provisioning and active devices count, for a user's limit and for a node's load. -/
def Device.counted (d : Device) : Bool := d.status = .provisioning || d.status = .active

/-- A field that a transition of a setup job sets. -/
inductive JobValue where
  | status (value : SetupJobStatus)
  | currentStep (value : Text)
  | errorMessage (value : Text)
  | serverNodeId (value : Text)
  | resultPayload (value : Doc)
  | secretEncrypted (value : Option Text)
  | finishedAt (value : Time)
  | updatedAt (value : Time)

def SetupJob.set (job : SetupJob) : JobValue → SetupJob
  | .status value => { job with status := value }
  | .currentStep value => { job with currentStep := value }
  | .errorMessage value => { job with errorMessage := some value }
  | .serverNodeId value => { job with serverNodeId := some value }
  | .resultPayload value => { job with resultPayload := some value }
  | .secretEncrypted value => { job with secretEncrypted := value }
  | .finishedAt value => { job with finishedAt := some value }
  | .updatedAt value => { job with updatedAt := value }

namespace Store
variable (s : Store)

def saveUser (user : User) : Store := { s with users := s.users.put user }

def getUser (userId : Text) : Option User := s.users.get userId

def getUserByLogin (login : Text) : Option User := s.users.values.find? (·.login = login)

def saveSession (session : Session) : Store := { s with sessions := s.sessions.put session }

def getSessionByTokenHash (tokenHash : Text) : Option Session := s.sessions.get tokenHash

def revokeSession (userId : Text) (at' : Time) (session : Session) : Session :=
  if session.userId = userId ∧ session.revokedAt = none then { session with revokedAt := some at' }
  else session

def revokeSessionsForUser (userId : Text) (at' : Time) : Store :=
  { s with
    sessions := s.sessions.map (revokeSession userId at') fun session => by
      rw [revokeSession]
      split <;> rfl }

def saveServerNode (node : ServerNode) : Store :=
  { s with serverNodes := s.serverNodes.put node }

def getServerNode (nodeId : Text) : Option ServerNode := s.serverNodes.get nodeId

def listServerNodes : List ServerNode :=
  s.serverNodes.values.mergeSort fun n m => n.createdAt ≤ m.createdAt

def saveDevice (device : Device) : Store := { s with devices := s.devices.put device }

def getDevice (deviceId : Text) : Option Device := s.devices.get deviceId

def countDevicesTowardLimit (userId : Text) : Nat :=
  s.devices.count fun d => d.userId = userId && d.counted

def countActiveDevicesForServer (serverNodeId : Text) : Nat :=
  s.devices.count fun d => d.serverNodeId = serverNodeId && d.counted

def saveIssue (issue : DeviceConfigIssue) : Store :=
  { s with issues := s.issues.put issue }

def getIssue (deviceId : Text) : Option DeviceConfigIssue := s.issues.get deviceId

def dropIssue (deviceId : Text) : Store := { s with issues := s.issues.erase deviceId }

def saveSetupJob (job : SetupJob) : Store := { s with setupJobs := s.setupJobs.put job }

def getSetupJob (jobId : Text) : Option SetupJob := s.setupJobs.get jobId

def listSetupJobs : List SetupJob :=
  s.setupJobs.values.mergeSort fun i j => j.createdAt ≤ i.createdAt

def queuedSetupJobs : List SetupJob := s.setupJobs.values.filter (·.status = .queued)

/-- What a claim may pick: one of the oldest queued jobs. Of two that are equally old the
one in memory takes the one added first; the database may take either. -/
def IsNextQueued : Option SetupJob → Prop
  | none => s.queuedSetupJobs = []
  | some job => job ∈ s.queuedSetupJobs ∧ ∀ other ∈ s.queuedSetupJobs, job.createdAt ≤ other.createdAt

def nextQueuedSetupJob : Option SetupJob :=
  (s.queuedSetupJobs.mergeSort fun i j => i.createdAt ≤ j.createdAt).head?

def claim (job : SetupJob) (at' : Time) (currentStep : Text) : SetupJob :=
  { job with status := .checkingSsh, currentStep, startedAt := some at', updatedAt := at' }

/-- A guarded transition: it happens if the status is an expected one. -/
def transitionSetupJob (jobId : Text) (expectedStatuses : List SetupJobStatus)
    (values : List JobValue) : Option SetupJob × Store :=
  match s.getSetupJob jobId with
  | none => (none, s)
  | some job =>
    if job.status ∈ expectedStatuses then
      let job := values.foldl SetupJob.set job
      (some job, s.saveSetupJob job)
    else (none, s)

def addSetupEvent (event : SetupJobEvent) : Store := { s with setupEvents := s.setupEvents ++ [event] }

def addAuditEntry (entry : AuditLogEntry) : Store := { s with audit := s.audit ++ [entry] }

def recordLoginFailure (key : Text) (at' : Time) : Store :=
  { s with loginFailures := s.loginFailures ++ [(key, at')] }

def countLoginFailures (key : Text) (since : Time) : Nat :=
  s.loginFailures.countP fun (k, at') => k = key && since ≤ at'

def clearLoginFailures (key : Text) : Store :=
  { s with loginFailures := s.loginFailures.filter fun (k, _) => k ≠ key }

/-- No record of the storage has this id, and no issue is for it. -/
structure Fresh (id : Text) : Prop where
  user : s.users.get id = none
  serverNode : s.serverNodes.get id = none
  device : s.devices.get id = none
  issue : ∀ issue ∈ s.issues.values, issue.id ≠ id
  issueDevice : s.issues.get id = none
  setupJob : s.setupJobs.get id = none

end Store

theorem Store.isNextQueued_nextQueuedSetupJob (s : Store) : s.IsNextQueued s.nextQueuedSetupJob := by
  have hperm := List.mergeSort_perm s.queuedSetupJobs fun i j => decide (i.createdAt ≤ j.createdAt)
  have htrans : ∀ i j l : SetupJob, decide (i.createdAt ≤ j.createdAt) = true →
      decide (j.createdAt ≤ l.createdAt) = true → decide (i.createdAt ≤ l.createdAt) = true := by
    intro i j l hij hjl
    rw [decide_eq_true_eq] at hij hjl ⊢
    exact Nat.le_trans hij hjl
  have htotal : ∀ i j : SetupJob,
      (decide (i.createdAt ≤ j.createdAt) || decide (j.createdAt ≤ i.createdAt)) = true := by
    intro i j
    rw [Bool.or_eq_true, decide_eq_true_eq, decide_eq_true_eq]
    exact Nat.le_total _ _
  have hsorted := List.pairwise_mergeSort htrans htotal s.queuedSetupJobs
  rw [nextQueuedSetupJob]
  cases hjobs : s.queuedSetupJobs.mergeSort fun i j => decide (i.createdAt ≤ j.createdAt) with
  | nil =>
    rw [hjobs] at hperm
    exact hperm.symm.eq_nil
  | cons job jobs =>
    rw [hjobs] at hperm hsorted
    refine ⟨hperm.subset (by simp), fun other hother => ?_⟩
    rcases List.mem_cons.mp (hperm.symm.subset hother) with rfl | hmem
    · exact Nat.le_refl _
    · simpa using List.rel_of_pairwise_cons hsorted hmem

end VpnControl.Backend
