import VpnControl.Backend.Storage
import VpnControl.Lib.EventLoop

namespace VpnControl.Backend
open Strings Json Effects Prog

inductive StorageKind where
  | memory
  | database
  deriving DecidableEq, Repr

structure AgentCredentials where
  keyId : Text
  secret : Text
  baseUrl : Text
  deriving DecidableEq, Repr

/-- A text of the payload may hold a lone surrogate, which is no `Char`: it stands there as U+FFFD,
and the name of its field is in `surrogates`. -/
structure AgentResponse where
  statusCode : Nat
  payload : Doc
  surrogates : List Text := []

/-- A value of a payload, and whether its text holds a lone surrogate. -/
structure WireValue where
  value : Doc
  surrogate : Bool := false

@[match_pattern] abbrev WireValue.text (s : Text) : WireValue := ⟨.str s, false⟩

/-- The columns of a device that take a value from the agent. -/
inductive DeviceColumn where
  | publicKey
  | clientIp
  deriving DecidableEq, Repr

/-- A request to the agent of a node. -/
structure Request where
  baseUrl : Option Text
  method : Text
  path : Text
  headers : List (Text × Text)
  body : Text
  deriving DecidableEq, Repr

inductive SetupPhase where
  | checkSsh
  | installAgent
  | installVpn
  deriving DecidableEq, Repr

/-- What the setup worker starts as a task of its own. -/
inductive Operation where
  | runner (phase : SetupPhase) (job : SetupJob) (credentials : AgentCredentials) (sshSecret : Text)
  | healthCheck (nodeId : Text)

/-- What a task of the setup worker ends with; only a health check returns a node. -/
abbrev OperationOutcome : Type := Except Exc (Option ServerNode)

/-- An asyncio task around an operation. -/
structure AsyncTask where
  operation : Operation
  started : Bool := false
  cancelRequested : Bool := false
  outcome : Option OperationOutcome := none

/-- A task ends once. -/
def AsyncTask.settle (outcome : OperationOutcome) (task : AsyncTask) : AsyncTask :=
  { task with outcome := task.outcome.or (some outcome) }

/-- What the services ask of the storage, of the process and of asyncio. -/
inductive Op where
  | getUser (userId : Text)
  | saveUser (user : User)
  | getUserByLogin (login : Text)
  | revokeSessionsForUser (userId : Text) (at' : Time)
  | saveSession (session : Session)
  | getSessionByTokenHash (tokenHash : Text)
  | recordLoginFailure (key : Text) (at' : Time)
  | countLoginFailures (key : Text) (since : Time)
  | clearLoginFailures (key : Text)
  | getServerNode (nodeId : Text)
  | listServerNodes
  | saveServerNode (node : ServerNode)
  | getDevice (deviceId : Text)
  | saveDevice (device : Device)
  | bindColumn (column : DeviceColumn) (value : WireValue)
  | countDevicesTowardLimit (userId : Text)
  | countActiveDevicesForServer (serverNodeId : Text)
  | getIssue (deviceId : Text)
  | saveIssue (issue : DeviceConfigIssue)
  | dropIssue (deviceId : Text)
  | getSetupJob (jobId : Text)
  | listSetupJobs
  | listSetupEvents (jobId : Text)
  | saveSetupJob (job : SetupJob)
  | claimNextSetupJob (at' : Time) (currentStep : Text)
  | transitionSetupJob (jobId : Text) (expectedStatuses : List SetupJobStatus) (values : List JobValue)
  | addSetupEvent (event : SetupJobEvent)
  | addAuditEntry (entry : AuditLogEntry)
  | now
  | utcNow
  | uuid
  | encrypt (value : Text)
  | decrypt (value : Text)
  | generateAgentKeyId
  | generateAgentSecret
  | hashPassword (password : Text)
  | generateSessionToken
  | nodeObject (node : ServerNode)
  | assignNode (node : ServerNode)
  | getSecret (jobId : Text)
  | putSecret (jobId secret : Text)
  | popSecret (jobId : Text)
  | acquire
  | release
  | request (request : Request)
  | runnerStep (phase : SetupPhase) (job : SetupJob) (credentials : AgentCredentials)
      (sshSecret : Text)
  | sleep
  | ensureFuture (operation : Operation)
  | begin (task : Nat)
  | settle (task : Nat) (outcome : OperationOutcome)
  | wait (task : Nat)
  | cancelTask (task : Nat)
  | join (task : Nat)
  | result (task : Nat)
  | pending

namespace Op

/-- The values the operations return when they do not raise. -/
abbrev Ans : Op → Type
  | getUser _ => Option User
  | getUserByLogin _ => Option User
  | getSessionByTokenHash _ => Option Session
  | countLoginFailures .. => Nat
  | getServerNode _ => Option ServerNode
  | listServerNodes => List ServerNode
  | getDevice _ => Option Device
  | countDevicesTowardLimit _ => Nat
  | countActiveDevicesForServer _ => Nat
  | getIssue _ => Option DeviceConfigIssue
  | getSetupJob _ => Option SetupJob
  | listSetupJobs => List SetupJob
  | listSetupEvents _ => List SetupJobEvent
  | claimNextSetupJob .. => Option SetupJob
  | transitionSetupJob .. => Option SetupJob
  | now => Time
  | utcNow => Text
  | uuid => Text
  | encrypt _ => Text
  | decrypt _ => Text
  | generateAgentKeyId => Text
  | generateAgentSecret => Text
  | hashPassword _ => Text
  | generateSessionToken => Text
  | nodeObject _ => ServerNode
  | getSecret _ => Option Text
  | request _ => AgentResponse
  | ensureFuture _ => Nat
  | begin _ => Operation
  | wait _ => Bool
  | join _ => Option ServerNode
  | result _ => Option ServerNode
  | _ => Unit

abbrev Res (e : Op) : Type := Except Exc e.Ans

/-- The awaits: only at these another task gets the turn. -/
def suspends : Op → Bool
  | acquire | request _ | runnerStep .. | sleep | begin _ | wait _ | join _ | pending => true
  | _ => false

/-- The operations of the storage. -/
def ofStorage : Op → Bool
  | getUser _ | saveUser _ | getUserByLogin _ | revokeSessionsForUser .. | saveSession _
  | getSessionByTokenHash _ | recordLoginFailure .. | countLoginFailures .. | clearLoginFailures _
  | getServerNode _ | listServerNodes
  | saveServerNode _ | getDevice _ | saveDevice _ | countDevicesTowardLimit _
  | countActiveDevicesForServer _ | getIssue _ | saveIssue _ | dropIssue _ | getSetupJob _
  | listSetupJobs | listSetupEvents _ | saveSetupJob _ | claimNextSetupJob .. | transitionSetupJob .. | addSetupEvent _
  | addAuditEntry _ => true
  | _ => false

/-- The operations on the process itself, which never raise. -/
def safe : Op → Bool
  | now | utcNow | uuid | encrypt _ | generateAgentKeyId | generateAgentSecret | hashPassword _
  | generateSessionToken | nodeObject _
  | assignNode _ | getSecret _ | putSecret .. | popSecret _ | release | ensureFuture _ | settle ..
  | cancelTask _ | pending => true
  | _ => false

end Op

/-- A coroutine of the backend. -/
abbrev Task (α : Type) : Type := Prog Op Op.Res Exc α

def ask (e : Op) : Task e.Ans := do
  let r ← perform e
  lift r

def raise {α : Type} (e : AppError) : Task α := fail (.app e)

/-- `try: p finally: cleanup`. -/
def tryFinally {α : Type} (p : Task α) (cleanup : Task Unit) : Task α := do
  let r ← p.attempt
  cleanup
  lift r

/-- `async with self._storage.lock: p`. -/
def withStorageLock {α : Type} (p : Task α) : Task α := do
  ask .acquire
  tryFinally p (ask .release)

/-- One backend process: its storage and clock, the holder of the storage lock, the SSH secrets
held in memory and the tasks started by the setup worker; around it, the agents. -/
structure World (ω : Type) where
  store : Store := {}
  now : Time := 0
  lock : Option Nat := none
  ephemeralSshSecrets : Table (Prod.fst : Text × Text → Text) := {}
  tasks : List AsyncTask := []
  agents : ω

/-- Encryption at rest: the ciphertexts of a text, and the text of a ciphertext. -/
structure SecretBox where
  encrypts : Text → Text → Prop
  decrypt : Text → Option Text

/-- What the backend runs on: the kind of its storage, the values that a database takes for a
column (its driver binds them and they fit), the secret box, what a request does to the agents and
is answered, and what other operations may raise, such as the saving of a row that the database
refuses. -/
structure Platform (ω : Type) where
  kind : StorageKind
  binds : DeviceColumn → WireValue → Prop
  box : SecretBox
  exchange : ω → Request → Except Exc AgentResponse → ω → Prop
  raises : Op → Exc → Prop

def setTask (tasks : List AsyncTask) (t : Nat) (f : AsyncTask → AsyncTask) : List AsyncTask :=
  tasks.modify t f

namespace Platform
variable {ω : Type} (P : Platform ω)

/-- In memory an object of a node is the stored one; from the database it is a copy. -/
def nodeObject (s : Store) (node : ServerNode) : ServerNode :=
  match P.kind with
  | .memory => (s.getServerNode node.id).getD node
  | .database => node

/-- Assignments to the fields of a node: in memory the stored object changes with them. -/
def assignNode (s : Store) (node : ServerNode) : Store :=
  match P.kind with
  | .memory => s.saveServerNode node
  | .database => s

/-- In memory a device takes any value. -/
def Takes (column : DeviceColumn) (value : WireValue) : Prop :=
  P.kind = .memory ∨ P.binds column value

/-- The events of a job: in memory as they were added, from the database by their time. -/
def listSetupEvents (s : Store) (jobId : Text) : List SetupJobEvent :=
  let events := s.setupEvents.filter (·.setupJobId = jobId)
  match P.kind with
  | .memory => events
  | .database => events.mergeSort fun e f => e.createdAt ≤ f.createdAt

/-- The failures that a count of those since `since` leaves: in memory the older ones of its key
go, in the database the older ones of every key. -/
def pruneLoginFailures (s : Store) (key : Text) (since : Time) : Store :=
  { s with
    loginFailures := s.loginFailures.filter fun (k, at') =>
      match P.kind with
      | .memory => k ≠ key || since ≤ at'
      | .database => since ≤ at' }

/-- What an operation of task `i` returns, and the world it leaves. -/
def effect (i : Nat) (w : World ω) : (e : Op) → e.Ans → World ω → Prop
  | .getUser userId, r, w' => r = w.store.getUser userId ∧ w' = w
  | .saveUser user, _, w' => w' = { w with store := w.store.saveUser user }
  | .revokeSessionsForUser userId at', _, w' =>
    w' = { w with store := w.store.revokeSessionsForUser userId at' }
  | .getUserByLogin login, r, w' => r = w.store.getUserByLogin login ∧ w' = w
  | .saveSession session, _, w' => w' = { w with store := w.store.saveSession session }
  | .getSessionByTokenHash tokenHash, r, w' =>
    r = w.store.getSessionByTokenHash tokenHash ∧ w' = w
  | .recordLoginFailure key at', _, w' =>
    w' = { w with store := w.store.recordLoginFailure key at' }
  | .countLoginFailures key since, r, w' => r = w.store.countLoginFailures key since ∧
    w' = { w with store := P.pruneLoginFailures w.store key since }
  | .clearLoginFailures key, _, w' => w' = { w with store := w.store.clearLoginFailures key }
  | .getServerNode nodeId, r, w' => r = w.store.getServerNode nodeId ∧ w' = w
  | .listServerNodes, r, w' => r = w.store.listServerNodes ∧ w' = w
  | .saveServerNode node, _, w' => w' = { w with store := w.store.saveServerNode node }
  | .getDevice deviceId, r, w' => r = w.store.getDevice deviceId ∧ w' = w
  | .saveDevice device, _, w' => w' = { w with store := w.store.saveDevice device }
  | .bindColumn column value, _, w' => P.Takes column value ∧ w' = w
  | .countDevicesTowardLimit userId, r, w' => r = w.store.countDevicesTowardLimit userId ∧ w' = w
  | .countActiveDevicesForServer nodeId, r, w' =>
    r = w.store.countActiveDevicesForServer nodeId ∧ w' = w
  | .getIssue deviceId, r, w' => r = w.store.getIssue deviceId ∧ w' = w
  | .saveIssue issue, _, w' => w' = { w with store := w.store.saveIssue issue }
  | .dropIssue deviceId, _, w' => w' = { w with store := w.store.dropIssue deviceId }
  | .getSetupJob jobId, r, w' => r = w.store.getSetupJob jobId ∧ w' = w
  | .listSetupJobs, r, w' => r = w.store.listSetupJobs ∧ w' = w
  | .listSetupEvents jobId, r, w' => r = P.listSetupEvents w.store jobId ∧ w' = w
  | .saveSetupJob job, _, w' => w' = { w with store := w.store.saveSetupJob job }
  | .claimNextSetupJob at' currentStep, r, w' => ∃ next, w.store.IsNextQueued next ∧
    match next with
    | none => r = none ∧ w' = w
    | some job => r = some (Store.claim job at' currentStep) ∧
      w' = { w with store := w.store.saveSetupJob (Store.claim job at' currentStep) }
  | .transitionSetupJob jobId expectedStatuses values, r, w' =>
    r = (w.store.transitionSetupJob jobId expectedStatuses values).1 ∧
      w' = { w with store := (w.store.transitionSetupJob jobId expectedStatuses values).2 }
  | .addSetupEvent event, _, w' => w' = { w with store := w.store.addSetupEvent event }
  | .addAuditEntry entry, _, w' => w' = { w with store := w.store.addAuditEntry entry }
  | .now, r, w' => r = w.now ∧ w' = w
  | .utcNow, _, w' => w' = w
  | .uuid, r, w' => w.store.Fresh r ∧ w' = w
  | .encrypt value, r, w' => P.box.encrypts value r ∧ w' = w
  | .decrypt value, r, w' => P.box.decrypt value = some r ∧ w' = w
  | .generateAgentKeyId, _, w' => w' = w
  | .generateAgentSecret, _, w' => w' = w
  | .hashPassword _, _, w' => w' = w
  | .generateSessionToken, r, w' => r.all Strings.isASCII = true ∧ w' = w
  | .nodeObject node, r, w' => r = P.nodeObject w.store node ∧ w' = w
  | .assignNode node, _, w' => w' = { w with store := P.assignNode w.store node }
  | .getSecret jobId, r, w' => r = (w.ephemeralSshSecrets.get jobId).map (·.2) ∧ w' = w
  | .putSecret jobId secret, _, w' =>
    w' = { w with ephemeralSshSecrets := w.ephemeralSshSecrets.put (jobId, secret) }
  | .popSecret jobId, _, w' =>
    w' = { w with ephemeralSshSecrets := w.ephemeralSshSecrets.erase jobId }
  | .acquire, _, w' => w.lock = none ∧ w' = { w with lock := some i }
  | .release, _, w' => w' = { w with lock := none }
  | .request request, r, w' =>
    ∃ agents, P.exchange w.agents request (.ok r) agents ∧ w' = { w with agents }
  | .runnerStep .., _, w' => w' = w
  | .sleep, _, w' => w' = w
  | .ensureFuture operation, r, w' =>
    r = w.tasks.length ∧ w' = { w with tasks := w.tasks ++ [{ operation }] }
  | .begin t, r, w' => ∃ task, w.tasks[t]? = some task ∧ task.started = false ∧
    r = task.operation ∧ w' = { w with tasks := setTask w.tasks t ({ · with started := true }) }
  | .settle t outcome, _, w' => w' = { w with tasks := setTask w.tasks t (AsyncTask.settle outcome) }
  | .wait t, r, w' => (∃ task, w.tasks[t]? = some task ∧ r = task.outcome.isSome) ∧ w' = w
  | .cancelTask t, _, w' =>
    w' = { w with tasks := setTask w.tasks t ({ · with cancelRequested := true }) }
  | .join t, r, w' => (∃ task, w.tasks[t]? = some task ∧ task.outcome = some (.ok r)) ∧ w' = w
  | .result t, r, w' => (∃ task, w.tasks[t]? = some task ∧ task.outcome = some (.ok r)) ∧ w' = w
  -- a wait that nothing ends
  | .pending, _, _ => False

/-- How an operation can raise: a request as the agents and the net let it, a decryption if
it fails, a value that the driver does not take, a join and a result with what the task raised, the others as the platform lets them.
A task that is cancelled before it began never begins; who is cancelled while it joins a task
hears of it when that one is done, since asyncio passes the cancellation on. -/
def failure (w : World ω) : Op → Exc → World ω → Prop
  | .request request, x, w' =>
    ∃ agents, P.exchange w.agents request (.error x) agents ∧ w' = { w with agents }
  | .join t, x, w' => w' = w ∧ ∃ task, w.tasks[t]? = some task ∧ task.outcome.isSome = true ∧
    (task.outcome = some (.error x) ∨ P.raises (.join t) x)
  | .result t, x, w' =>
    w' = w ∧ ∃ task, w.tasks[t]? = some task ∧ task.outcome = some (.error x)
  | .begin t, x, w' => ∃ task, w.tasks[t]? = some task ∧ task.started = false ∧
    task.cancelRequested = true ∧ x = .cancelled ∧
    w' = { w with tasks := setTask w.tasks t ({ · with started := true }) }
  | .decrypt value, x, w' =>
    P.box.decrypt value = none ∧ x = .other (lit "ValueError") ∧ w' = w
  | .bindColumn column value, x, w' =>
    ¬ P.Takes column value ∧ (∃ kind, x = .other kind) ∧ w' = w
  | e, x, w' => e.safe = false ∧ P.raises e x ∧ w' = w

/-- No operation of the storage raises. -/
def StorageWorks : Prop := ∀ e x, e.ofStorage = true → ¬ P.raises e x

def env (i : Nat) : Env (World ω) Op Op.Res
  | w, e, .ok r, w' => P.effect i w e r w'
  | w, e, .error x, w' => P.failure w e x w'

def kernel : Kernel (World ω) Op Op.Res := ⟨Op.suspends, P.env⟩

end Platform

section Turn
variable {ω : Type} {P : Platform ω} {c : Contract (World ω)} {i : Nat} {w₀ w : World ω}
  {α β : Type} {Q : TurnPost (World ω) Exc α}

theorem turn_ask_now {e : Op} (he : e.suspends = false) {Q : TurnPost (World ω) Exc e.Ans} :
    turn P.kernel c i (ask e) Q w₀ w ↔ (∀ r w', P.effect i w e r w' → Q (.ok r) w₀ w') ∧
      ∀ x w', P.failure w e x w' → Q (.error x) w₀ w' := by
  have hask : (ask e : Task e.Ans) = .op e fun r => lift r := by
    rw [ask]
    rfl
  rw [hask, turn_op_now he]
  simp only [turn_lift]
  constructor
  · exact fun h => ⟨fun r w' hr => h (.ok r) w' hr, fun x w' hx => h (.error x) w' hx⟩
  · intro h r w' hr
    cases r with
    | ok a => exact h.1 a w' hr
    | error x => exact h.2 x w' hr

/-- An operation without an await in front of the rest of a turn. -/
theorem turn_ask_seq {e : Op} (he : e.suspends = false) {f : e.Ans → Task β}
    {Q : TurnPost (World ω) Exc β}
    (hok : ∀ r w', P.effect i w e r w' → turn P.kernel c i (f r) Q w₀ w')
    (herr : ∀ x w', P.failure w e x w' → Q (.error x) w₀ w') :
    turn P.kernel c i (ask e >>= f) Q w₀ w := by
  rw [turn_bind, turn_ask_now he]
  exact ⟨hok, herr⟩

theorem turn_ask_suspended {K : Kernel (World ω) Op Op.Res} {e : Op} (hK : K.env = P.env)
    (he : K.suspends e = true) {Q : TurnPost (World ω) Exc e.Ans} :
    turn K c i (ask e) Q w₀ w ↔ c.Leaves i w₀ w ∧ ∀ w₁, c.inv w₁ → c.rely i w w₁ →
      (∀ r w', P.effect i w₁ e r w' → Q (.ok r) w₁ w') ∧
        ∀ x w', P.failure w₁ e x w' → Q (.error x) w₁ w' := by
  have hask : (ask e : Task e.Ans) = .op e fun r => lift r := by
    rw [ask]
    rfl
  rw [hask, turn_op_wait he, hK]
  simp only [turn_lift]
  apply and_congr_right
  intro _
  constructor
  · exact fun h w₁ hinv hrely =>
      ⟨fun r w' hr => h w₁ hinv hrely (.ok r) w' hr, fun x w' hx => h w₁ hinv hrely (.error x) w' hx⟩
  · intro h w₁ hinv hrely r w' hr
    cases r with
    | ok a => exact (h w₁ hinv hrely).1 a w' hr
    | error x => exact (h w₁ hinv hrely).2 x w' hr

theorem turn_ask_wait {e : Op} (he : e.suspends = true) {Q : TurnPost (World ω) Exc e.Ans} :
    turn P.kernel c i (ask e) Q w₀ w ↔ c.Leaves i w₀ w ∧ ∀ w₁, c.inv w₁ → c.rely i w w₁ →
      (∀ r w', P.effect i w₁ e r w' → Q (.ok r) w₁ w') ∧
        ∀ x w', P.failure w₁ e x w' → Q (.error x) w₁ w' :=
  turn_ask_suspended rfl he

theorem turn_ask_preemptive {e : Op} {Q : TurnPost (World ω) Exc e.Ans} :
    turn P.kernel.preemptive c i (ask e) Q w₀ w ↔ c.Leaves i w₀ w ∧ ∀ w₁, c.inv w₁ → c.rely i w w₁ →
      (∀ r w', P.effect i w₁ e r w' → Q (.ok r) w₁ w') ∧
        ∀ x w', P.failure w₁ e x w' → Q (.error x) w₁ w' :=
  turn_ask_suspended rfl rfl

end Turn
end VpnControl.Backend
