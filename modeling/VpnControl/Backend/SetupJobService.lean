import VpnControl.Backend.ServerService

namespace VpnControl.Backend
open Strings Json Effects Prog

/-- The label of a step for the UI. -/
def SetupJobStatus.label : SetupJobStatus → Text
  | draft => lit "Черновик"
  | queued => lit "В очереди"
  | checkingSsh => lit "Проверяем SSH-подключение"
  | installingAgent => lit "Устанавливаем агент"
  | installingVpn => lit "Устанавливаем VPN"
  | verifying => lit "Проверяем узел"
  | success => lit "Готово"
  | failed => lit "Ошибка"
  | cancelled => lit "Отменено"

def nonTerminalStatuses : List SetupJobStatus :=
  [.draft, .queued, .checkingSsh, .installingAgent, .installingVpn, .verifying]

theorem mem_nonTerminalStatuses {status : SetupJobStatus} :
    status ∈ nonTerminalStatuses ↔ status.isTerminal = false := by
  cases status <;> simp [nonTerminalStatuses, SetupJobStatus.isTerminal]

/-- What an admin asks for when creating a job. -/
structure SetupJobCreate where
  serverName : Text
  host : Text
  sshPort : Int := 22
  sshUsername : Text := lit "root"
  authMethod : AuthMethod
  secret : Text
  regionNote : Option Text := none
  installAwg : Bool := true
  availableForNewDevices : Bool := true
  verifyBeforeInstall : Bool := true

namespace Services
variable (b : Services)

def getEphemeralSshSecret (jobId : Text) : Task (Option Text) := ask (.getSecret jobId)

def forgetEphemeralSshSecret (jobId : Text) : Task Unit := ask (.popSecret jobId)

def addEvent (job : SetupJob) (level : EventLevel) (step message : Text)
    (metadata : List (Text × Doc) := []) : Task Unit := do
  let id : Text ← ask .uuid
  let createdAt : Time ← ask .now
  ask (.addSetupEvent
    { id, setupJobId := job.id, level, step, message, createdAt, metadata := .obj metadata })

def blankSecret : AppError where
  code := .secretRequired
  message := lit "Нужен SSH-ключ или пароль для подключения"
  status := 400

def workerDisabled (message : Text) : AppError where
  code := .validationError
  message
  status := 409

/-- `create` once the job is built: its secret is kept in memory, and forgotten again if the
job cannot be stored. -/
def enqueue (actor : User) (job : SetupJob) (secret : Text) : Task SetupJob := do
  -- the password is there before the job can be claimed, and dropped if it is not stored
  ask (.putSecret job.id secret)
  let stored ← (ask (.saveSetupJob job)).attempt
  match stored with
  -- `except Exception` does not catch a cancellation
  | .error .cancelled => fail .cancelled
  | .error x => do
    forgetEphemeralSshSecret job.id
    fail x
  | .ok _ => do
    addEvent job .info job.status.value
      (lit "Задача поставлена в очередь; SSH-пароль хранится только в памяти процесса")
    auditLog
      { action := lit "setup_job_created", actorUserId := some actor.id
        targetType := some (lit "setup_job"), targetId := some job.id
        metadata := [(lit "server_name", .str job.serverName), (lit "host", .str job.host)] }
    return job

def createJob (actor : User) (form : SetupJobCreate) : Task SetupJob :=
  if strip form.secret = [] then raise blankSecret
  else if !b.settings.setupWorkerEnabled then
    raise (workerDisabled (lit <|
      "Воркер установки выключен; пароль не будет сохранён — включи " ++
        "SETUP_WORKER_ENABLED и создай задачу заново"))
  else do
    let now : Time ← ask .now
    let id : Text ← ask .uuid
    enqueue actor
      { id, createdByUserId := actor.id, serverName := strip form.serverName
        host := strip form.host, sshPort := form.sshPort, sshUsername := strip form.sshUsername
        authMethod := form.authMethod, createdAt := now, updatedAt := now, secretEncrypted := none
        regionNote := form.regionNote, installAwg := form.installAwg
        availableForNewDevices := form.availableForNewDevices
        verifyBeforeInstall := form.verifyBeforeInstall, status := .queued
        currentStep := SetupJobStatus.queued.label }
      form.secret

def getJob (jobId : Text) : Task SetupJob := do
  let job : Option SetupJob ← ask (.getSetupJob jobId)
  match job with
  | none => raise (notFound (lit "Задача установки не найдена"))
  | some job => ret job

def listJobs : Task (List SetupJob) := ask .listSetupJobs

def jobEvents (jobId : Text) : Task (List SetupJobEvent) := do
  let _ ← getJob jobId
  ask (.listSetupEvents jobId)

/-- Creating a job queues it at once, so that `start` changes nothing. -/
def startJob (jobId : Text) : Task SetupJob := do
  let job ← getJob jobId
  if !b.settings.setupWorkerEnabled then
    raise (workerDisabled
      (lit "Воркер установки выключен; включи SETUP_WORKER_ENABLED, чтобы запустить задачу"))
  else if job.status.isTerminal then
    raise { code := .validationError, message := lit "Задача уже завершена — создай новую", status := 409 }
  -- a draft has no password
  else if job.status = .draft then
    raise
      { code := .secretRequired
        message := lit "SSH-пароль не хранится; создай новую задачу и введи пароль заново"
        status := 409 }
  else return job

def cancelValues (now : Time) : List JobValue :=
  [.status .cancelled, .currentStep SetupJobStatus.cancelled.label, .finishedAt now, .updatedAt now,
    .secretEncrypted none]

def cancelJob (actor : User) (jobId : Text) : Task SetupJob := do
  let _ ← getJob jobId
  let now : Time ← ask .now
  let job : Option SetupJob ← ask (.transitionSetupJob jobId nonTerminalStatuses (cancelValues now))
  match job with
  -- terminal already
  | none =>
    raise { code := .validationError, message := lit "Задача уже завершена", status := 409 }
  | some job => do
    forgetEphemeralSshSecret jobId
    addEvent job .warning (lit "cancelled") (lit "Задача отменена")
    auditLog
      { action := lit "setup_job_cancelled", actorUserId := some actor.id
        targetType := some (lit "setup_job"), targetId := some job.id }
    return job

def claimNext : Task (Option SetupJob) := do
  let now : Time ← ask .now
  let job : Option SetupJob ← ask (.claimNextSetupJob now SetupJobStatus.checkingSsh.label)
  match job with
  | none => return none
  | some job => do
    addEvent job .info SetupJobStatus.checkingSsh.value (lit "Подготовка SSH preflight")
    return some job

def setStep (jobId : Text) (expectedStatuses : List SetupJobStatus) (status : SetupJobStatus)
    (message : Text) : Task (Option SetupJob) := do
  let now : Time ← ask .now
  let job : Option SetupJob ← ask (.transitionSetupJob jobId expectedStatuses
    [.status status, .currentStep status.label, .updatedAt now])
  match job with
  | none => return none
  | some job => do
    addEvent job .info status.value message
    return some job

def successValues (serverNodeId : Text) (now : Time) : List JobValue :=
  [.status .success, .currentStep SetupJobStatus.success.label, .serverNodeId serverNodeId,
    .finishedAt now, .updatedAt now, .secretEncrypted none,
    .resultPayload (.obj [(lit "server_node_id", .str serverNodeId)])]

def finishSuccess (jobId serverNodeId : Text) : Task (Option SetupJob) := do
  let now : Time ← ask .now
  let job : Option SetupJob ←
    ask (.transitionSetupJob jobId [.verifying] (successValues serverNodeId now))
  forgetEphemeralSshSecret jobId
  match job with
  -- cancelled meanwhile: nothing is recorded
  | none => return none
  | some job => do
    addEvent job .info (lit "success") (lit "Узел установлен и подключён")
    auditLog
      { action := lit "setup_job_succeeded", targetType := some (lit "setup_job")
        targetId := some job.id, metadata := [(lit "server_node_id", .str serverNodeId)] }
    return some job

def failureValues (errorMessage : Text) (now : Time) : List JobValue :=
  [.status .failed, .currentStep SetupJobStatus.failed.label, .errorMessage errorMessage,
    .finishedAt now, .updatedAt now, .secretEncrypted none]

def finishFailed (jobId errorMessage : Text) : Task (Option SetupJob) := do
  let now : Time ← ask .now
  let job : Option SetupJob ←
    ask (.transitionSetupJob jobId nonTerminalStatuses (failureValues errorMessage now))
  forgetEphemeralSshSecret jobId
  match job with
  -- terminal already; the password is dropped all the same
  | none => return none
  | some job => do
    addEvent job .error (lit "failed") errorMessage
    auditLog
      { action := lit "setup_job_failed", targetType := some (lit "setup_job")
        targetId := some job.id, metadata := [(lit "error", .str errorMessage)] }
    return some job

end Services
end VpnControl.Backend
