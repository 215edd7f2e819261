import VpnControl.Deploy.DeployAgent
import VpnControl.Backend.Platform
import VpnControl.Awg.ClientConfig

namespace VpnControl.Deploy
open Strings Effects Prog Backend

/-- What the runner takes from `Settings`. -/
structure RunnerSettings where
  scriptPath : Text
  setupAgentListen : Text := lit "127.0.0.1:8090"
  setupAgentAllowIps : List Text := []
  deriving DecidableEq

inductive Phase where
  | preflight
  | install
  | inspect
  deriving DecidableEq, Repr

/-- What the runner does for each step of the worker. -/
def phaseOf : SetupPhase → Phase
  | .checkSsh => .preflight
  | .installAgent => .install
  | .installVpn => .inspect

def sshPasswordEnv : Text := lit "VPN_AGENT_DEPLOY_SSH_PASSWORD"

def hmacSecretEnv : Text := lit "VPN_AGENT_DEPLOY_HMAC_SECRET"

/-- What the runner asks of the operating system; `communicate` waits for the script to end, with
the time it may take. -/
inductive RunnerOp where
  | mkstemp
  | fchmod (path : Text)
  | writeKey (path content : Text)
  | close (path : Text)
  | isFile (path : Text)
  | createSubprocess (command : List Text) (env : List (Text × Text))
  | communicate (seconds : Option Nat)
  | killpg (signal : Text)
  | remove (path : Text)
  deriving DecidableEq

/-- The status of the script, if it ended in time. -/
inductive Waited where
  | exited (returncode : Int)
  | timeout
  deriving DecidableEq, Repr

def RunnerOp.Ans : RunnerOp → Type
  | mkstemp => Text
  | isFile _ => Bool
  | communicate _ => Waited
  | _ => Unit

/-- Every call can raise, and every one that waits can be cancelled. -/
abbrev RunnerOp.Res (e : RunnerOp) : Type := Except Exc e.Ans

abbrev Runner := Prog RunnerOp RunnerOp.Res Exc

namespace Runner

def ask (e : RunnerOp) : Runner e.Ans := .op e lift

/-- `except kind: pass`. -/
def suppress (kind : Text) (p : Runner Unit) : Runner Unit := do
  let r ← p.attempt
  match r with
  | .error (.other k) => if k = kind then return () else fail (.other k)
  | r => lift r

variable (settings : RunnerSettings)

/-- How the script logs in: the secret itself is in no argument. -/
def authenticationArgs (job : SetupJob) (identityFile : Option Text) : Except Exc (List Text) :=
  match job.authMethod, identityFile with
  | .sshKey, none => .error (.setupStep (lit "Не удалось подготовить временный SSH-ключ"))
  | .sshKey, some path => .ok [lit "--identity-file", path]
  | .password, _ => .ok ([lit "--password-env", sshPasswordEnv] ++
    if job.sshUsername ≠ lit "root" then [lit "--reuse-password-for-sudo"] else [])

def agentAllowIps : Text :=
  let allowIps := join settings.setupAgentAllowIps [',']
  if allowIps = [] then lit "ssh-source" else allowIps

def phaseArgs (job : SetupJob) (credentials : AgentCredentials) : Phase → List Text
  | .preflight => [lit "--preflight-only"]
  | .inspect => [lit "--inspect-only"]
  | .install =>
    [lit "--install-service", lit "--service-name", lit "vpn-agent",
      lit "--listen", settings.setupAgentListen, lit "--endpoint-host", job.host,
      lit "--hmac-key-id", credentials.keyId, lit "--hmac-secret-env", hmacSecretEnv,
      lit "--allow-ip", agentAllowIps settings, lit "--skip-inspect"]

/-- `build_command`. -/
def buildCommand (job : SetupJob) (credentials : AgentCredentials) (phase : Phase)
    (identityFile : Option Text) : Except Exc (List Text) := do
  let authentication ← authenticationArgs job identityFile
  return [lit "/bin/bash", settings.scriptPath] ++ [lit "--user", job.sshUsername, lit "--host", job.host,
    lit "--ssh-port", Awg.intLiteral job.sshPort] ++ authentication ++
    phaseArgs settings job credentials phase

/-- The variables of the script: what the backend has, without secrets but those for this run. -/
def scriptEnvironment (environ : List (Text × Text)) (job : SetupJob) (credentials : AgentCredentials)
    (sshSecret : Text) (phase : Phase) : List (Text × Text) :=
  let env := unset (unset environ sshPasswordEnv) hmacSecretEnv
  let env := if phase = .install then assign env hmacSecretEnv credentials.secret else env
  if job.authMethod = .password then assign env sshPasswordEnv sshSecret else env

/-- The key is written to a file that only its owner can read. -/
def writeIdentity (sshSecret : Text) (path : Text) : Runner Unit := do
  let r ← (do
    ask (.fchmod path)
    ask (.writeKey path sshSecret)).attempt
  match r with
  | .ok _ => return ()
  | .error .cancelled => fail .cancelled
  | .error x => do
    suppress (lit "OSError") (ask (.close path))
    fail x

/-- `_terminate_process_group`. -/
def terminateProcessGroup : Runner Unit := do
  suppress (lit "ProcessLookupError") (ask (.killpg (lit "SIGTERM")))
  let waited ← ask (.communicate (some 15))
  match waited with
  | .exited _ => return ()
  | .timeout => do
    suppress (lit "ProcessLookupError") (ask (.killpg (lit "SIGKILL")))
    let _ ← ask (.communicate none)

def failureMessage : Phase → Text
  | .preflight => lit "Не удалось выполнить SSH preflight"
  | .install => lit "Не удалось установить агент на VPS"
  | .inspect => lit "Не удалось проверить VPN-окружение"

/-- The script is started and waited for; behind a time limit or a cancellation it is ended. -/
def runProcess (timeoutSeconds : Nat) (phase : Phase) (command : List Text)
    (env : List (Text × Text)) : Runner Unit := do
  let present ← ask (.isFile settings.scriptPath)
  if !present then fail (.setupStep (lit "Скрипт установки агента не найден"))
  else
    ask (.createSubprocess command env)
    -- `communicate` under `wait_for`
    let r ← (ask (.communicate (some timeoutSeconds))).attempt
    match r with
    | .ok .timeout => do
      terminateProcessGroup
      fail (.setupStep (lit "Время операции установки истекло"))
    -- the process group is ended before the cancellation is passed on
    | .error .cancelled => do
      terminateProcessGroup
      fail .cancelled
    | .error x => fail x
    | .ok (.exited 0) => return ()
    | .ok (.exited _) => fail (.setupStep (failureMessage phase))

/-- The key file is removed whatever comes. -/
def withoutIdentity (identityPath : Option Text) (body : Runner Unit) : Runner Unit := do
  let r ← body.attempt
  match identityPath with
  | none => lift r
  | some path => do
    suppress (lit "FileNotFoundError") (ask (.remove path))
    lift r

/-- `_run_script`. -/
def runScript (environ : List (Text × Text)) (timeoutSeconds : Nat) (job : SetupJob)
    (credentials : AgentCredentials) (sshSecret : Text) (phase : Phase) : Runner Unit := do
  let env := scriptEnvironment environ job credentials sshSecret phase
  match job.authMethod with
  | .sshKey => do
    -- the private key, in a file of its own that is removed in the end
    let path ← ask .mkstemp
    withoutIdentity (some path) do
      writeIdentity sshSecret path
      let command ← lift (buildCommand settings job credentials phase (some path))
      runProcess settings timeoutSeconds phase command env
  | .password =>
    withoutIdentity none do
      let command ← lift (buildCommand settings job credentials phase none)
      runProcess settings timeoutSeconds phase command env

section Runs
variable {environ : List (Text × Text)} {timeoutSeconds : Nat} {job : SetupJob}
  {credentials : AgentCredentials} {sshSecret : Text} {phase : Phase} {identityFile : Option Text}

/-- What a run does between the making and the removal of the key file: the only program that it
starts is the script, with the command line and the variables for the job. -/
def Works (environ : List (Text × Text)) (job : SetupJob) (credentials : AgentCredentials)
    (sshSecret : Text) (phase : Phase) (identityFile : Option Text) : RunnerOp → Prop
  | .createSubprocess command env =>
    buildCommand settings job credentials phase identityFile = .ok command ∧
      env = scriptEnvironment environ job credentials sshSecret phase
  | .mkstemp | .remove _ => False
  | _ => True

variable {settings}

theorem uses_ask {P : RunnerOp → Prop} {e : RunnerOp} (h : P e) : (ask e).Uses P :=
  ⟨h, fun r => uses_lift r⟩

theorem uses_suppress {P : RunnerOp → Prop} {kind : Text} {p : Runner Unit} (h : p.Uses P) :
    (suppress kind p).Uses P := by
  refine uses_bind (uses_attempt h) ?_
  rintro (x | a)
  · cases x with
    | other k =>
      change (if _ then _ else _ : Runner Unit).Uses P
      split <;> trivial
    | _ => trivial
  · trivial

theorem uses_writeIdentity (path : Text) : (writeIdentity sshSecret path).Uses
    (Works settings environ job credentials sshSecret phase identityFile) := by
  refine uses_bind (uses_attempt (uses_bind (uses_ask trivial) fun _ => uses_ask trivial)) ?_
  rintro (x | a)
  · cases x with
    | cancelled => trivial
    | _ => exact uses_bind (uses_suppress (uses_ask trivial)) fun _ => trivial
  · trivial

theorem uses_terminateProcessGroup : terminateProcessGroup.Uses
    (Works settings environ job credentials sshSecret phase identityFile) := by
  refine uses_bind (uses_suppress (uses_ask trivial)) fun _ => uses_bind (uses_ask trivial) fun waited => ?_
  cases waited with
  | exited _ => trivial
  | timeout =>
    exact uses_bind (uses_suppress (uses_ask trivial)) fun _ => uses_bind (uses_ask trivial) fun _ => trivial

theorem uses_runProcess {command : List Text}
    (h : buildCommand settings job credentials phase identityFile = .ok command) :
    (runProcess settings timeoutSeconds phase command
      (scriptEnvironment environ job credentials sshSecret phase)).Uses
        (Works settings environ job credentials sshSecret phase identityFile) := by
  refine uses_bind (uses_ask trivial) fun present => ?_
  cases present with
  | false => trivial
  | true =>
    refine uses_bind (uses_ask ⟨h, rfl⟩) fun _ => uses_bind (uses_attempt (uses_ask trivial)) ?_
    rintro (x | waited)
    · cases x with
      | cancelled => exact uses_bind uses_terminateProcessGroup fun _ => trivial
      | _ => trivial
    · cases waited with
      | timeout => exact uses_bind uses_terminateProcessGroup fun _ => trivial
      | exited returncode => cases returncode with
        | ofNat n => cases n <;> trivial
        | negSucc n => trivial

theorem uses_started : (do
      let command ← lift (buildCommand settings job credentials phase identityFile)
      runProcess settings timeoutSeconds phase command
        (scriptEnvironment environ job credentials sshSecret phase) : Runner Unit).Uses
      (Works settings environ job credentials sshSecret phase identityFile) := by
  cases h : buildCommand settings job credentials phase identityFile with
  | error x => trivial
  | ok command => exact uses_runProcess h

/-- What the operations of a whole run are: the script is started with the key that was made, if
one is needed, and the key is removed in the end. -/
structure RunLog (settings : RunnerSettings) (environ : List (Text × Text)) (job : SetupJob)
    (credentials : AgentCredentials) (sshSecret : Text) (phase : Phase)
    (l : List (Sigma RunnerOp.Res)) : Prop where
  started : ∀ command env r, ⟨.createSubprocess command env, r⟩ ∈ l →
    env = scriptEnvironment environ job credentials sshSecret phase ∧
      ∃ identityFile, buildCommand settings job credentials phase identityFile = .ok command ∧
        ∀ path, identityFile = some path → ⟨.mkstemp, .ok path⟩ ∈ l
  removed : ∀ path, ⟨.mkstemp, .ok path⟩ ∈ l → ∃ r, l.getLast? = some ⟨.remove path, r⟩

variable {τ : Type} {env : Env τ RunnerOp RunnerOp.Res} {s : τ}

theorem wp_works {p : Runner Unit} {l : List (Sigma RunnerOp.Res)}
    (hp : p.Uses (Works settings environ job credentials sshSecret phase identityFile)) :
    wp (logged env) p (fun _ st => ∃ work, st.2 = l ++ work ∧ ∀ e ∈ work,
      Works settings environ job credentials sshSecret phase identityFile e.1) (s, l) := by
  refine wp_uses (P := Works settings environ job credentials sshSecret phase identityFile) ?_ hp
    ⟨[], by simp, by simp⟩
  rintro st e r st' he ⟨-, hst'⟩ ⟨work, hwork, hall⟩
  refine ⟨work ++ [⟨e, r⟩], by rw [hst', hwork, List.append_assoc], fun e' he' => ?_⟩
  rcases List.mem_append.mp he' with hmem | hmem
  · exact hall e' hmem
  · obtain rfl := List.mem_singleton.mp hmem
    exact he

/-- Removing the key file is the last operation, whatever comes of it. -/
theorem wp_removed {path : Text} {r : Except Exc Unit} {l : List (Sigma RunnerOp.Res)} :
    wp (logged env) (do
        suppress (lit "FileNotFoundError") (ask (.remove path))
        lift r : Runner Unit)
      (fun _ st => ∃ r', st.2 = l ++ [⟨.remove path, r'⟩]) (s, l) := by
  refine wp_seq (P := fun _ st => ∃ r', st.2 = l ++ [⟨.remove path, r'⟩]) ?_ ?_ fun _ _ h => h
  · refine wp_seq_attempt (P := fun _ st => ∃ r', st.2 = l ++ [⟨.remove path, r'⟩]) ?_ ?_
    · rintro r' st ⟨-, hst⟩
      exact (wp_lift _).mpr ⟨r', hst⟩
    · rintro (x | a) st h
      · cases x with
        | other k =>
          change wp _ (if _ then _ else _) _ _
          split
          · exact h
          · exact h
        | _ => exact h
      · exact h
  · exact fun _ _ h => (wp_lift r).mpr h

theorem runLog_works {work : List (Sigma RunnerOp.Res)}
    (h : ∀ e ∈ work, Works settings environ job credentials sshSecret phase none e.1) :
    RunLog settings environ job credentials sshSecret phase work where
  started command env' r hmem := by
    obtain ⟨hcommand, henv⟩ := h _ hmem
    exact ⟨henv, none, hcommand, fun path hpath => by cases hpath⟩
  removed path hmem := absurd (h _ hmem) id

theorem runLog_key {path : Text} {work : List (Sigma RunnerOp.Res)} {r : RunnerOp.Res (.remove path)}
    (h : ∀ e ∈ work, Works settings environ job credentials sshSecret phase (some path) e.1) :
    RunLog settings environ job credentials sshSecret phase
      ([⟨.mkstemp, .ok path⟩] ++ work ++ [⟨.remove path, r⟩]) where
  started command env' r' hmem := by
    simp only [List.mem_append, List.mem_singleton] at hmem
    rcases hmem with (hmem | hmem) | hmem
    · cases hmem
    · obtain ⟨hcommand, henv⟩ := h _ hmem
      refine ⟨henv, some path, hcommand, fun path' hpath => ?_⟩
      cases hpath
      simp
    · cases hmem
  removed path' hmem := by
    simp only [List.mem_append, List.mem_singleton] at hmem
    rcases hmem with (hmem | hmem) | hmem
    · cases hmem
      exact ⟨r, List.getLast?_concat⟩
    · exact absurd (h _ hmem) id
    · cases hmem

/-- Every run of a step of the worker, whatever the operating system answers and whenever it is
cancelled. -/
theorem wp_runScript : wp (logged env)
    (runScript settings environ timeoutSeconds job credentials sshSecret phase)
    (fun _ st => RunLog settings environ job credentials sshSecret phase st.2) (s, []) := by
  rw [runScript]
  cases job.authMethod with
  | password =>
    refine wp_seq_attempt (wp_works uses_started) ?_
    rintro r st ⟨work, hwork, hall⟩
    refine (wp_lift r).mpr ?_
    rw [hwork]
    exact runLog_works hall
  | sshKey =>
    rintro (x | path) st ⟨-, hst⟩
    · refine ⟨fun _ _ _ hmem => ?_, fun _ hmem => ?_⟩ <;>
        (rw [hst] at hmem; cases List.mem_singleton.mp hmem)
    · obtain ⟨s', l⟩ := st
      obtain rfl : l = _ := hst
      have hbody : (do
          writeIdentity sshSecret path
          let command ← lift (buildCommand settings job credentials phase (some path))
          runProcess settings timeoutSeconds phase command
            (scriptEnvironment environ job credentials sshSecret phase) : Runner Unit).Uses
          (Works settings environ job credentials sshSecret phase (some path)) :=
        uses_bind (uses_writeIdentity path) fun _ => uses_started
      refine wp_seq_attempt (wp_works hbody) ?_
      rintro r ⟨s'', l⟩ ⟨work, hwork, hall⟩
      obtain rfl : l = _ := hwork
      refine wp_mono wp_removed ?_
      rintro _ st ⟨r', hst⟩
      rw [hst]
      exact runLog_key hall

end Runs
end Runner
end VpnControl.Deploy
