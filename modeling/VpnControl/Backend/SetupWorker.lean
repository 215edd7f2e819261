import VpnControl.Backend.SetupJobService

namespace VpnControl.Backend
open Strings Json Effects Prog

/-- `with suppress(asyncio.CancelledError): p`. -/
def suppressCancelled {α : Type} (p : Task α) : Task Unit := do
  let r ← p.attempt
  match r with
  | .ok _ => return ()
  | .error .cancelled => return ()
  | .error x => fail x

namespace Services
variable (b : Services)

/-- The polling of `_run_cancellable`, at most `polls` times, as long as neither the task `t` is
done nor the job cancelled. -/
def poll (jobId : Text) (t : Nat) : Nat → Task (Bool × Option ServerNode)
  | 0 => do
    -- the polls that are looked at end here
    ask .pending
    return (false, none)
  | polls + 1 => do
    let done : Bool ← ask (.wait t)
    if done then
      let checked : Option ServerNode ← ask (.result t)
      return (true, checked)
    else
      let job ← getJob jobId
      -- cancelled by a user: the operation is cancelled and awaited
      if job.status = .cancelled then
        ask (.cancelTask t)
        suppressCancelled (ask (.join t))
        return (false, none)
      else poll jobId t polls

/-- What `_run_cancellable` does when the polling is cancelled. -/
def stopOperation (t : Nat) : Except Exc (Bool × Option ServerNode) →
    Task (Bool × Option ServerNode)
  | .error .cancelled => do
    ask (.cancelTask t)
    suppressCancelled (ask (.join t))
    fail .cancelled
  | r => lift r

/-- `_run_cancellable`: whether the operation was completed, and what it returned. -/
def runCancellable (polls : Nat) (jobId : Text) (operation : Operation) :
    Task (Bool × Option ServerNode) := do
  let t : Nat ← ask (.ensureFuture operation)
  let r ← (poll jobId t polls).attempt
  stopOperation t r

/-- `_run_job` up to its first step: whether it goes on. -/
def preflight (polls : Nat) (job : SetupJob) (credentials : AgentCredentials) (sshSecret : Text) :
    Task Bool :=
  if job.verifyBeforeInstall then do
    let (completed, _) ← runCancellable polls job.id (.runner .checkSsh job credentials sshSecret)
    return completed
  else do
    addEvent job .warning SetupJobStatus.checkingSsh.value
      (lit "SSH preflight пропущен по настройке")
    return true

/-- The steps of `_run_job` with an installation of the VPN: the job if it goes on. -/
def installVpn (polls : Nat) (job : SetupJob) (credentials : AgentCredentials) (sshSecret : Text) :
    Task (Option SetupJob) := do
  let nextJob ← setStep job.id [.installingAgent] .installingVpn (lit "Проверяем VPN-окружение")
  match nextJob with
  -- the job is not where it should be any more
  | none => return none
  | some job => do
    addEvent job .info SetupJobStatus.installingAgent.value (lit "Агент установлен")
    let (completed, _) ← runCancellable polls job.id (.runner .installVpn job credentials sshSecret)
    if !completed then return none
    else
      let nextJob ← setStep job.id [.installingVpn] .verifying (lit "Проверяем доступность агента")
      match nextJob with
      | none => return none
      | some job => do
        addEvent job .info SetupJobStatus.installingVpn.value (lit "VPN-окружение проверено")
        return some job

/-- The step of `_run_job` without an installation of the VPN. -/
def skipVpn (job : SetupJob) : Task (Option SetupJob) := do
  let nextJob ← setStep job.id [.installingAgent] .verifying (lit "Проверяем доступность агента")
  match nextJob with
  | none => return none
  | some job => do
    addEvent job .info SetupJobStatus.installingAgent.value (lit "Агент установлен")
    addEvent job .info SetupJobStatus.installingVpn.value
      (lit "Проверка VPN-окружения пропущена по настройке")
    return some job

def checkFailedMessage (checked : ServerNode) : Text :=
  lit "Агент установлен, но health-check не прошёл: " ++
    if optional checked.lastError then checked.lastError.getD [] else lit "нет ответа"

/-- The end of `_run_job`: the node is created, checked, and opened for devices. -/
def verifyNode (polls : Nat) (job : SetupJob) (credentials : AgentCredentials) : Task Unit := do
  let node ← createFromSetup job credentials.baseUrl credentials.keyId credentials.secret
  let (completed, checked) ← runCancellable polls job.id (.healthCheck node.id)
  -- cancelled meanwhile; the node stays closed to new devices
  if !completed then return ()
  else
    match checked with
    -- `checked.status` of a health check without a node
    | none => fail (.other (lit "AttributeError"))
    | some checked =>
      if !checked.selectable then fail (.setupStep (checkFailedMessage checked))
      else
        let finished ← finishSuccess job.id node.id
        match finished with
        | none => return ()
        | some _ => do
          let _ ← activateAfterSetup node.id job.availableForNewDevices
          return ()

/-- `_run_job` after its first step. -/
def install (polls : Nat) (preflightPerformed : Bool) (job : SetupJob)
    (credentials : AgentCredentials) (sshSecret : Text) : Task Unit := do
  if preflightPerformed then
    addEvent job .info SetupJobStatus.checkingSsh.value (lit "SSH preflight успешно выполнен")
  let (completed, _) ← runCancellable polls job.id (.runner .installAgent job credentials sshSecret)
  -- cancelled meanwhile
  if !completed then return ()
  else
    let nextJob ←
      -- without the VPN step the job goes on to the verification
      if job.installAwg then installVpn polls job credentials sshSecret else skipVpn job
    match nextJob with
    | none => return ()
    | some job => verifyNode polls job credentials

/-- The `try` block of `_run_job`: its variable `job` in the end, and how the block ends. The
first step may leave None in the variable; later ones leave a job with the same id. -/
def tryInstall (polls : Nat) (job : SetupJob) (credentials : AgentCredentials) (sshSecret : Text) :
    Task (Option SetupJob × Except Exc Unit) := do
  let checked ← (preflight polls job credentials sshSecret).attempt
  match checked with
  | .error x => return (some job, .error x)
  | .ok false => return (some job, .ok ())
  | .ok true => do
    let step ← (setStep job.id [.checkingSsh] .installingAgent (lit "Устанавливаем агент")).attempt
    match step with
    | .error x => return (some job, .error x)
    | .ok none => return (none, .ok ())
    | .ok (some next) => do
      let r ← (install polls job.verifyBeforeInstall next credentials sshSecret).attempt
      return (some next, r)

/-- `job.id`. -/
def jobId : Option SetupJob → Task Text
  | none => fail (.other (lit "AttributeError"))
  | some job => ret job.id

/-- The `except` blocks of `_run_job`. -/
def exceptFailed (job : Option SetupJob) : Except Exc Unit → Task Unit
  | .error (.setupStep message) => do
    let id ← jobId job
    let _ ← finishFailed id message
    return ()
  | .error (.app e) => do
    let id ← jobId job
    let _ ← finishFailed id e.message
    return ()
  | r => lift r

def secretLost : Text :=
  lit "SSH-пароль больше недоступен; создай новую задачу и введи пароль заново"

def newCredentials (job : SetupJob) : Task AgentCredentials := do
  let keyId : Text ← ask .generateAgentKeyId
  let secret : Text ← ask .generateAgentSecret
  return { keyId, secret, baseUrl := (b.settings.setupAgentBaseUrl job.host).rdropWhile (· == '/') }

/-- `_run_job`. -/
def runJob (polls : Nat) (job : SetupJob) : Task Unit := do
  let sshSecret ← getEphemeralSshSecret job.id
  match sshSecret with
  -- the password is not in this process, which need not be the one that took it
  | none => do
    let _ ← finishFailed job.id secretLost
    return ()
  | some sshSecret => do
    let credentials ← b.newCredentials job
    let (job, r) ← tryInstall polls job credentials sshSecret
    tryFinally (exceptFailed job r) do
      -- `finally`: after the step to the agent `job` may be `None`, and then this raises
      let id ← jobId job
      forgetEphemeralSshSecret id

/-- `_loop`, as far as it goes round `rounds` times. -/
def loop (polls : Nat) : Nat → Task Unit
  -- the rounds that are looked at end here; the loop itself never does
  | 0 => ask .pending
  | rounds + 1 => do
    let job ← withStorageLock claimNext
    match job with
    | none => do
      ask .sleep
      loop polls rounds
    | some job => do
      let r ← (b.runJob polls job).attempt
      match r with
      | .ok _ => loop polls rounds
      -- `stop` cancels the task: the job fails and the cancellation is passed on
      | .error .cancelled => do
        let _ ← finishFailed job.id (lit "Установка прервана остановкой воркера")
        fail .cancelled
      -- any other exception is logged, and the loop goes on
      | .error _ => do
        let _ ← finishFailed job.id (lit "Внутренняя ошибка установки")
        loop polls rounds

/-- What the operation of a task does. -/
def operate : Operation → Task (Option ServerNode)
  | .runner phase job credentials sshSecret => do
    ask (.runnerStep phase job credentials sshSecret)
    return none
  | .healthCheck nodeId => do
    let node ← b.healthCheck nodeId none
    return some node

/-- The task `t` that `_run_cancellable` started. -/
def operationTask (t : Nat) : Task Unit := do
  let begun ← (ask (.begin t)).attempt
  match begun with
  | .error x => ask (.settle t (.error x))
  | .ok operation => do
    let r ← (b.operate operation).attempt
    ask (.settle t r)

end Services

/-- A call of the setup job service, the loop of a setup worker, or a task it started. -/
inductive SetupCall where
  | create (actor : User) (form : SetupJobCreate)
  | get (jobId : Text)
  | list
  | events (jobId : Text)
  | start (jobId : Text)
  | cancel (actor : User) (jobId : Text)
  | work (polls rounds : Nat)
  | operation (t : Nat)

inductive SetupReply where
  | job (job : SetupJob)
  | jobs (jobs : List SetupJob)
  | events (events : List SetupJobEvent)
  | done

def Services.setupCall (b : Services) : SetupCall → Task SetupReply
  | .create actor form => do
    let job ← b.createJob actor form
    return .job job
  | .get jobId => do
    let job ← getJob jobId
    return .job job
  | .list => do
    let jobs ← listJobs
    return .jobs jobs
  | .events jobId => do
    let events ← jobEvents jobId
    return .events events
  | .start jobId => do
    let job ← b.startJob jobId
    return .job job
  | .cancel actor jobId => do
    let job ← cancelJob actor jobId
    return .job job
  | .work polls rounds => do
    b.loop polls rounds
    return .done
  | .operation t => do
    b.operationTask t
    return .done

end VpnControl.Backend
