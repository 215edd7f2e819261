import VpnControl.Agent.Docker
import VpnControl.Lib.Program

namespace VpnControl.Deploy
open Strings Effects Prog

inductive SudoMode where
  | auto
  | yes
  | no
  deriving DecidableEq, Repr

def SudoMode.value : SudoMode → Text
  | auto => lit "auto"
  | yes => lit "yes"
  | no => lit "no"

/-- The variables of `deploy-agent.sh`, and those that it was started with and has not unset. -/
structure Shell where
  environment : List (Text × Text)
  remoteUser : Text := []
  remoteHost : Text := []
  sshPort : Text := lit "22"
  sshPassword : Text := []
  sshPasswordEnv : Text := []
  askPassword : Bool := false
  askpassHelper : Text := []
  identityFile : Text := []
  remotePath : Text := lit "/usr/local/bin/vpn-agent"
  remoteTmpDir : Text := lit "/tmp"
  goarchValue : Text := lit "amd64"
  localBinary : Text := []
  skipBuild : Bool := false
  skipInspect : Bool := false
  preflightOnly : Bool := false
  inspectOnly : Bool := false
  sudoMode : SudoMode := .auto
  sudoPassword : Text := []
  askSudoPassword : Bool := false
  reusePasswordForSudo : Bool := false
  container : Text := lit "amnezia-awg2"
  interface : Text := lit "awg0"
  configPath : Text := lit "/opt/amnezia/awg/awg0.conf"
  clientsTablePath : Text := lit "/opt/amnezia/awg/clientsTable"
  lockPath : Text := lit "/var/lock/vpn-agent.lock"
  endpointHost : Text := []
  installService : Bool := false
  serviceName : Text := lit "vpn-agent"
  listen : Text := lit "127.0.0.1:8090"
  hmacKeyId : Text := []
  hmacSecret : Text := []
  hmacSecretEnv : Text := []
  allowIps : Text := lit "127.0.0.1,::1"
  allowNoAuth : Bool := false
  keepArtifact : Bool := false
  verbose : Bool := false
  buildDir : Text := []
  remoteAccessReady : Bool := false
  remoteCleanupPaths : List Text := []
  remoteWorkDir : Text := []
  localSecretFiles : List Text := []
  resultPath : Text := []
  deriving DecidableEq

section Variables

def flag (b : Bool) : Text := if b then ['1'] else ['0']

/-- The variables of the script by their names. -/
def Shell.variables (sh : Shell) : List (Text × Text) :=
  [(lit "REMOTE_USER", sh.remoteUser), (lit "REMOTE_HOST", sh.remoteHost),
    (lit "SSH_PORT", sh.sshPort), (lit "SSH_PASSWORD", sh.sshPassword),
    (lit "SSH_PASSWORD_ENV", sh.sshPasswordEnv), (lit "ASK_PASSWORD", flag sh.askPassword),
    (lit "ASKPASS_HELPER", sh.askpassHelper), (lit "IDENTITY_FILE", sh.identityFile),
    (lit "REMOTE_PATH", sh.remotePath), (lit "REMOTE_TMP_DIR", sh.remoteTmpDir),
    (lit "GOARCH_VALUE", sh.goarchValue), (lit "LOCAL_BINARY", sh.localBinary),
    (lit "SKIP_BUILD", flag sh.skipBuild), (lit "SKIP_INSPECT", flag sh.skipInspect),
    (lit "PREFLIGHT_ONLY", flag sh.preflightOnly), (lit "INSPECT_ONLY", flag sh.inspectOnly),
    (lit "SUDO_MODE", sh.sudoMode.value), (lit "SUDO_PASSWORD", sh.sudoPassword),
    (lit "ASK_SUDO_PASSWORD", flag sh.askSudoPassword),
    (lit "REUSE_PASSWORD_FOR_SUDO", flag sh.reusePasswordForSudo), (lit "CONTAINER", sh.container),
    (lit "INTERFACE", sh.interface), (lit "CONFIG_PATH", sh.configPath),
    (lit "CLIENTS_TABLE_PATH", sh.clientsTablePath), (lit "LOCK_PATH", sh.lockPath),
    (lit "ENDPOINT_HOST", sh.endpointHost), (lit "INSTALL_SERVICE", flag sh.installService),
    (lit "SERVICE_NAME", sh.serviceName), (lit "LISTEN", sh.listen),
    (lit "HMAC_KEY_ID", sh.hmacKeyId), (lit "HMAC_SECRET", sh.hmacSecret),
    (lit "HMAC_SECRET_ENV", sh.hmacSecretEnv), (lit "ALLOW_IPS", sh.allowIps),
    (lit "ALLOW_NO_AUTH", flag sh.allowNoAuth), (lit "KEEP_ARTIFACT", flag sh.keepArtifact),
    (lit "VERBOSE", flag sh.verbose), (lit "BUILD_DIR", sh.buildDir),
    (lit "REMOTE_ACCESS_READY", flag sh.remoteAccessReady),
    (lit "REMOTE_WORK_DIR", sh.remoteWorkDir), (lit "RESULT_PATH", sh.resultPath)]

/-- The other names that the script assigns to: those of its own place, of its lists and of the
`local` variables of its functions. -/
def otherVariables : List Text :=
  ["SCRIPT_NAME", "SCRIPT_DIR", "AGENT_DIR", "REMOTE_CLEANUP_PATHS", "LOCAL_SECRET_FILES", "SSH_ARGS",
    "SCP_ARGS", "value", "command", "target", "input", "dest", "source", "destination", "sudo", "status",
    "cleanup_command", "path", "secret_file", "out", "token", "binary", "remote_tmp", "content",
    "suffix", "mode", "file", "service_path", "env_dir", "env_path", "remote_env_tmp",
    "remote_service_tmp", "allow_no_auth_value", "env_content", "service_content", "env_file",
    "service_file", "connection", "source_ip"].map lit

/-- The variables that bash itself keeps. -/
def keptByBash (name : Text) : Bool :=
  (["PWD", "OLDPWD", "SHLVL", "_", "IFS", "OPTIND", "PPID", "SHELLOPTS", "LINENO", "RANDOM", "SECONDS",
    "LINES", "COLUMNS"].map lit).contains name || lit "BASH" <+: name

/-- What the programs inherit. A variable that the script was started with is handed on, with its
new value after an assignment; what bash keeps and what has the name of another variable of the
script is left out here. -/
def Shell.exported (sh : Shell) : List (Text × Text) :=
  (sh.environment.filter fun v => !keptByBash v.1 && !otherVariables.contains v.1).map fun v =>
    (v.1, ((sh.variables.find? (·.1 = v.1)).map (·.2)).getD v.2)

def ownNames : List Text := ({ environment := [] } : Shell).variables.map (·.1) ++ otherVariables

/-- The script is started with no variable that has the name of one of its own. -/
def Apart (environment : List (Text × Text)) : Prop := ∀ v ∈ environment, v.1 ∉ ownNames

instance (environment : List (Text × Text)) : Decidable (Apart environment) :=
  inferInstanceAs (Decidable (∀ v ∈ environment, v.1 ∉ ownNames))

theorem Shell.exported_of_apart {sh : Shell} (h : Apart sh.environment) :
    sh.exported = sh.environment.filter fun v => !keptByBash v.1 := by
  have hother : ∀ v ∈ sh.environment, otherVariables.contains v.1 = false := fun v hv => by
    rw [Bool.eq_false_iff, Ne, List.contains_iff_mem]
    exact fun hmem => h v hv (List.mem_append_right _ hmem)
  have hown : ∀ v ∈ sh.environment, sh.variables.find? (·.1 = v.1) = none := fun v hv => by
    rw [List.find?_eq_none]
    intro own hself hname
    refine h v hv (List.mem_append_left _ ?_)
    rw [← of_decide_eq_true hname]
    exact (List.mem_map_of_mem hself : _ ∈ sh.variables.map (·.1))
  have hfilter : (sh.environment.filter fun v => !keptByBash v.1 && !otherVariables.contains v.1) =
      sh.environment.filter fun v => !keptByBash v.1 :=
    List.filter_congr fun v hv => by rw [hother v hv, Bool.not_false, Bool.and_true]
  rw [exported, hfilter]
  refine (List.map_congr_left fun v hv => ?_).trans (List.map_id _)
  rw [hown v (List.mem_of_mem_filter hv)]
  rfl

end Variables

/-- How the script ends before its last line: by `die`, or with a status. -/
inductive Exit where
  | die (message : Text)
  | status (code : Nat)
  deriving DecidableEq, Repr

section Options

/-- The options that take a value. -/
inductive ValueOption where
  | user | host | password | passwordEnv | identityFile | sshPort | sudoPassword | remotePath
  | remoteTmpDir | arch | binary | container | interface | configPath | clientsTablePath | lockPath
  | endpointHost | serviceName | listen | hmacKeyId | hmacSecret | hmacSecretEnv | allowIp
  deriving DecidableEq, Repr

def valueOptions : List (Text × ValueOption) :=
  [(lit "--user", .user), (lit "--host", .host), (lit "--password", .password),
    (lit "--password-env", .passwordEnv), (lit "--identity-file", .identityFile),
    (lit "-i", .identityFile), (lit "--ssh-port", .sshPort), (lit "-p", .sshPort),
    (lit "--sudo-password", .sudoPassword), (lit "--remote-path", .remotePath),
    (lit "--remote-tmp-dir", .remoteTmpDir), (lit "--arch", .arch), (lit "--binary", .binary),
    (lit "--container", .container), (lit "--interface", .interface),
    (lit "--config-path", .configPath), (lit "--clients-table-path", .clientsTablePath),
    (lit "--lock-path", .lockPath), (lit "--endpoint-host", .endpointHost),
    (lit "--service-name", .serviceName), (lit "--listen", .listen),
    (lit "--hmac-key-id", .hmacKeyId), (lit "--hmac-secret", .hmacSecret),
    (lit "--hmac-secret-env", .hmacSecretEnv), (lit "--allow-ip", .allowIp)]

def ValueOption.set (value : Text) (sh : Shell) : ValueOption → Shell
  | user => { sh with remoteUser := value }
  | host => { sh with remoteHost := value }
  | password => { sh with sshPassword := value }
  | passwordEnv => { sh with sshPasswordEnv := value }
  | identityFile => { sh with identityFile := value }
  | sshPort => { sh with sshPort := value }
  | sudoPassword => { sh with sudoPassword := value }
  | remotePath => { sh with remotePath := value }
  | remoteTmpDir => { sh with remoteTmpDir := value }
  | arch => { sh with goarchValue := value }
  | binary => { sh with localBinary := value }
  | container => { sh with container := value }
  | interface => { sh with interface := value }
  | configPath => { sh with configPath := value }
  | clientsTablePath => { sh with clientsTablePath := value }
  | lockPath => { sh with lockPath := value }
  | endpointHost => { sh with endpointHost := value }
  | serviceName => { sh with serviceName := value }
  | listen => { sh with listen := value }
  | hmacKeyId => { sh with hmacKeyId := value }
  | hmacSecret => { sh with hmacSecret := value }
  | hmacSecretEnv => { sh with hmacSecretEnv := value }
  | allowIp => { sh with allowIps := value }

/-- The options that stand alone. -/
inductive SwitchOption where
  | askPassword | useSudo | noSudo | askSudoPassword | reusePasswordForSudo | skipBuild | skipInspect
  | preflightOnly | inspectOnly | keepArtifact | installService | allowNoAuth | verbose
  deriving DecidableEq, Repr

def switchOptions : List (Text × SwitchOption) :=
  [(lit "--ask-password", .askPassword), (lit "--sudo", .useSudo), (lit "--no-sudo", .noSudo),
    (lit "--ask-sudo-password", .askSudoPassword),
    (lit "--reuse-password-for-sudo", .reusePasswordForSudo), (lit "--skip-build", .skipBuild),
    (lit "--skip-inspect", .skipInspect), (lit "--preflight-only", .preflightOnly),
    (lit "--inspect-only", .inspectOnly), (lit "--keep-artifact", .keepArtifact),
    (lit "--install-service", .installService), (lit "--allow-no-auth", .allowNoAuth),
    (lit "--verbose", .verbose)]

def SwitchOption.set (sh : Shell) : SwitchOption → Shell
  | askPassword => { sh with askPassword := true }
  | useSudo => { sh with sudoMode := .yes }
  | noSudo => { sh with sudoMode := .no }
  | askSudoPassword => { sh with askSudoPassword := true }
  | reusePasswordForSudo => { sh with reusePasswordForSudo := true }
  | skipBuild => { sh with skipBuild := true }
  | skipInspect => { sh with skipInspect := true }
  | preflightOnly => { sh with preflightOnly := true }
  | inspectOnly => { sh with inspectOnly := true }
  | keepArtifact => { sh with keepArtifact := true }
  | installService => { sh with installService := true }
  | allowNoAuth => { sh with allowNoAuth := true }
  | verbose => { sh with verbose := true }

def findOption {α : Type} (options : List (Text × α)) (name : Text) : Option α :=
  (options.find? (·.1 = name)).map (·.2)

/-- `parse_args`. -/
def parseArgs : List Text → Shell → Except Exit Shell
  | [], sh => .ok sh
  | name :: rest, sh =>
    match findOption valueOptions name with
    | some option =>
      match rest with
      -- `shift 2` fails when there is one argument left
      | [] => .error (.status 1)
      | value :: rest => parseArgs rest (option.set value sh)
    | none =>
      match findOption switchOptions name with
      | some option => parseArgs rest (option.set sh)
      | none =>
        if name = lit "-h" ∨ name = lit "--help" then .error (.status 0)
        else .error (.die (lit "unknown argument: " ++ name))

end Options

section Patterns

def isLetter (c : Char) : Bool := ('A' ≤ c && c ≤ 'Z') || ('a' ≤ c && c ≤ 'z')

def isDigit (c : Char) : Bool := '0' ≤ c && c ≤ '9'

/-- `^[A-Za-z_][A-Za-z0-9_]*$` -/
def isVariableName : Text → Bool
  | [] => false
  | c :: s => (isLetter c || c == '_') && s.all fun c => isLetter c || isDigit c || c == '_'

/-- `^[A-Za-z_][A-Za-z0-9_.-]{0,63}$` -/
def isUser : Text → Bool
  | [] => false
  | c :: s => (isLetter c || c == '_') && s.length ≤ 63 &&
    s.all fun c => isLetter c || isDigit c || c == '_' || c == '.' || c == '-'

/-- `^[A-Za-z0-9][A-Za-z0-9._:-]*$` -/
def isHost : Text → Bool
  | [] => false
  | c :: s => (isLetter c || isDigit c) &&
    s.all fun c => isLetter c || isDigit c || c == '.' || c == '_' || c == ':' || c == '-'

/-- `^[0-9]+$` -/
def isNumber (s : Text) : Bool := !s.isEmpty && s.all isDigit

/-- `^[A-Za-z0-9_.@-]+$` -/
def isServiceName (s : Text) : Bool :=
  !s.isEmpty && s.all fun c =>
    isLetter c || isDigit c || c == '_' || c == '.' || c == '@' || c == '-'

/-- `^[0-9A-Fa-f:.]+$` -/
def isSourceIP (s : Text) : Bool :=
  !s.isEmpty && s.all fun c =>
    isDigit c || ('A' ≤ c && c ≤ 'F') || ('a' ≤ c && c ≤ 'f') || c == ':' || c == '.'

end Patterns

/-- What the script has done by the outside. -/
inductive Op where
  /-- A program, with its arguments, the variables it inherits and its input. -/
  | command (words : List Text) (environment : List (Text × Text)) (input : Option Text)
  /-- `printf '%s' "$content" > "$path"`. -/
  | write (path content : Text)
  | isFile (path : Text)
  | isDirectory (path : Text)
  | hasCommand (name : Text)
  /-- `read -r -s -p`. -/
  | read (prompt : Text)
  /-- A line of the script's own output. -/
  | log (text : Text)
  deriving DecidableEq

/-- The output of an operation, or its status when it fails or a signal arrives. -/
abbrev Op.Res (_ : Op) : Type := Except Nat Text

/-- The script from some line on: it ends with its variables as they are then. -/
abbrev Script := StateT Shell (Prog Op Op.Res (Exit × Shell))

namespace Script
variable {α : Type}

def stop (e : Exit) : Script α := fun sh => .fail (e, sh)

def attempt (e : Op) : Script (Except Nat Text) := fun sh => .op e fun r => .ret (r, sh)

/-- Under `set -e` a command that fails ends the script. -/
def run (e : Op) : Script Text := do
  let r ← attempt e
  match r with
  | .ok output => return output
  | .error status => stop (.status status)

/-- A command in a condition. -/
def test (e : Op) : Script Bool := do
  let r ← attempt e
  return r.isOk

/-- `[[ condition ]] || die message`. -/
def require (condition : Bool) (message : Text) : Script Unit :=
  if condition then pure () else stop (.die message)

/-- `local` lines of the log, behind its name. -/
def log (text : Text) : Script Unit := do
  let _ ← attempt (.log (lit "[deploy-agent] " ++ text ++ ['\n']))

end Script

section Texts

/-- `${!name-}`. -/
def lookup (environment : List (Text × Text)) (name : Text) : Text :=
  ((environment.find? (·.1 = name)).map (·.2)).getD []

def unset (environment : List (Text × Text)) (name : Text) : List (Text × Text) :=
  environment.filter (·.1 ≠ name)

/-- `name=value command`. -/
def assign (environment : List (Text × Text)) (name value : Text) : List (Text × Text) :=
  unset environment name ++ [(name, value)]

/-- `$(command)` leaves out the newlines at the end. -/
def substituted (output : Text) : Text := output.rdropWhile (· == '\n')

def shellQuote (value : Text) : Text :=
  '\'' :: (value.flatMap (fun c => if c = '\'' then ['\'', '\\', '\'', '\''] else [c]) ++ ['\''])

def envQuote (value : Text) : Text :=
  '"' :: (value.flatMap (fun c => if c = '\\' ∨ c = '"' then ['\\', c] else [c]) ++ ['"'])

/-- `dirname`. -/
def dirname (path : Text) : Text :=
  let stripped := path.rdropWhile (· == '/')
  let parent := (stripped.rdropWhile (· != '/')).rdropWhile (· == '/')
  if path = [] ∨ stripped ≠ [] ∧ '/' ∉ stripped then ['.']
  else if parent = [] then ['/']
  else parent

/-- `${path##*/}`. -/
def lastSegment (path : Text) : Text := path.rtakeWhile (· != '/')

/-- `${dir%/}`. -/
def withoutSlash (dir : Text) : Text := if dir.getLast? = some '/' then dir.dropLast else dir

end Texts

namespace Script

/-- `--password-env` or `--hmac-secret-env`: the value of that variable, which the programs that
the script runs do not inherit. -/
def loadEnvironmentSecret (option name given : Text) : Script Text := do
  if name = [] then return given
  require (given = []) (option ++ lit " and " ++ option ++ lit "-env cannot be combined")
  require (isVariableName name) (option ++ lit "-env must be an environment variable name")
  let value := lookup (← get).environment name
  require (value ≠ []) (lit "environment variable " ++ name ++ lit " is empty or unset")
  modify fun sh => { sh with environment := unset sh.environment name }
  return value

def loadEnvironmentSecrets : Script Unit := do
  let sh ← get
  let sshPassword ← loadEnvironmentSecret (lit "--password") sh.sshPasswordEnv sh.sshPassword
  modify fun sh => { sh with sshPassword }
  let hmacSecret ← loadEnvironmentSecret (lit "--hmac-secret") sh.hmacSecretEnv sh.hmacSecret
  modify fun sh => { sh with hmacSecret }

/-- A file that an option names has to exist. -/
def requireFile (path message : Text) : Script Unit := do
  if path ≠ [] then
    let found ← test (.isFile path)
    require found (message ++ path)

/-- `validate_args`, up to the options that exclude each other. -/
def validateValues : Script Unit := do
  let sh ← get
  require (sh.remoteUser ≠ []) (lit "--user is required")
  require (sh.remoteHost ≠ []) (lit "--host is required")
  require (isUser sh.remoteUser) (lit "--user contains unsupported characters")
  require (isHost sh.remoteHost) (lit "--host contains unsupported characters")
  require (isNumber sh.sshPort) (lit "--ssh-port must be a number")
  require (sh.remotePath ≠ []) (lit "--remote-path cannot be empty")
  require (sh.remoteTmpDir ≠ []) (lit "--remote-tmp-dir cannot be empty")
  require (sh.goarchValue ≠ []) (lit "--arch cannot be empty")
  require (sh.container ≠ []) (lit "--container cannot be empty")
  require (sh.interface ≠ []) (lit "--interface cannot be empty")
  require (sh.configPath ≠ []) (lit "--config-path cannot be empty")
  require (sh.clientsTablePath ≠ []) (lit "--clients-table-path cannot be empty")
  require (sh.lockPath ≠ []) (lit "--lock-path cannot be empty")
  require (sh.serviceName ≠ []) (lit "--service-name cannot be empty")
  require (isServiceName sh.serviceName) (lit "--service-name contains unsupported characters")

def validateModes : Script Unit := do
  let sh ← get
  require (!(sh.preflightOnly && sh.inspectOnly))
    (lit "--preflight-only and --inspect-only cannot be combined")
  if sh.preflightOnly || sh.inspectOnly then
    require (!sh.installService) (lit "inspection modes cannot install a service")
  else require (!sh.skipBuild || sh.localBinary ≠ []) (lit "--skip-build requires --binary")

def validateSecrets : Script Unit := do
  let sh ← get
  require (sh.identityFile = [] || (sh.sshPassword = [] && !sh.askPassword))
    (lit "--identity-file cannot be combined with password authentication: password mode disables pubkey authentication")
  require (!sh.allowNoAuth || sh.hmacSecret = [])
    (lit "--allow-no-auth is only meaningful when --hmac-secret is empty")
  require (!sh.installService || sh.hmacSecret ≠ [] || sh.allowNoAuth)
    (lit "--install-service with empty --hmac-secret requires --allow-no-auth, or provide --hmac-secret")

def validateArgs : Script Unit := do
  validateValues
  validateModes
  let sh ← get
  requireFile sh.localBinary (lit "binary does not exist: ")
  requireFile sh.identityFile (lit "identity file does not exist: ")
  validateSecrets
  if sh.endpointHost = [] then modify fun sh => { sh with endpointHost := sh.remoteHost }

/-- `read` of a password, which ends with a line that is not echoed. -/
def prompt (what : Text) : Script Text := do
  let sh ← get
  let password ← run (.read (what ++ lit " password for " ++ sh.remoteUser ++ '@' :: sh.remoteHost ++ lit ": "))
  let _ ← attempt (.log ['\n'])
  return password

def promptSshPassword : Script Unit := do
  let sh ← get
  if sh.askPassword && sh.sshPassword = [] then
    let sshPassword ← prompt (lit "SSH")
    modify fun sh => { sh with sshPassword }

def promptSudoPassword : Script Unit := do
  let sh ← get
  if sh.askSudoPassword && sh.sudoPassword = [] then
    let sudoPassword ← prompt (lit "sudo")
    modify fun sh => { sh with sudoPassword }

def reuseSshPassword : Script Unit := do
  let sh ← get
  if sh.reusePasswordForSudo then
    require (sh.sshPassword ≠ []) (lit "--reuse-password-for-sudo requires --password or --ask-password")
    modify fun sh => { sh with sudoPassword := sh.sshPassword }

def promptPasswords : Script Unit := do
  promptSshPassword
  reuseSshPassword
  promptSudoPassword

/-- A program with the variables that it inherits. -/
def program (words : List Text) : Script Text := do
  let sh ← get
  run (.command words sh.exported none)

def needCmd (name : Text) : Script Unit := do
  let found ← test (.hasCommand name)
  require found (lit "missing required command: " ++ name)

def ensureBuildDir : Script Unit := do
  if (← get).buildDir = [] then
    let output ← program [lit "mktemp", lit "-d"]
    modify fun sh => { sh with buildDir := substituted output }

def writeTempFile (content suffix mode : Text) : Script Unit := do
  ensureBuildDir
  let file := (← get).buildDir ++ '/' :: suffix
  let _ ← run (.write file [])
  let _ ← program [lit "chmod", mode, file]
  let _ ← run (.write file content)
  modify fun sh => { sh with resultPath := file }

def askpassHelper : Text :=
  lit "#!/bin/sh\nprintf \"%s\\\\n\" \"$\x7bVPN_AGENT_DEPLOY_ASKPASS_SECRET-\x7d\"\n"

def prepareAskpassHelper : Script Unit := do
  writeTempFile askpassHelper (lit "ssh-askpass.sh") (lit "0700")
  modify fun sh => { sh with askpassHelper := sh.resultPath }

def initTools : Script Unit := do
  needCmd (lit "ssh")
  needCmd (lit "scp")
  if (← get).sshPassword ≠ [] then prepareAskpassHelper
  let sh ← get
  if !sh.preflightOnly && !sh.inspectOnly && !sh.skipBuild && sh.localBinary = [] then
    needCmd (lit "go")

end Script

namespace Shell
variable (sh : Shell)

/-- The options of `ssh` and `scp`, behind the port. -/
def connectionOptions : List Text :=
  (if sh.sshPassword ≠ [] then
    [lit "-o", lit "PubkeyAuthentication=no", lit "-o", lit "PreferredAuthentications=password"]
  else [lit "-o", lit "BatchMode=yes"]) ++
  [lit "-o", lit "StrictHostKeyChecking=accept-new", lit "-o", lit "ConnectTimeout=10"] ++
  if sh.identityFile ≠ [] then [lit "-i", sh.identityFile] else []

def sshArgs : List Text := lit "-p" :: sh.sshPort :: sh.connectionOptions

def scpArgs : List Text :=
  lit "-P" :: sh.sshPort :: sh.connectionOptions ++ [lit "-o", lit "User=" ++ sh.remoteUser]

def remoteTarget : Text := sh.remoteUser ++ '@' :: sh.remoteHost

def scpDestination (dest : Text) : Text :=
  if ':' ∈ sh.remoteHost then '[' :: sh.remoteHost ++ lit "]:" ++ dest
  else sh.remoteHost ++ ':' :: dest

/-- What `ssh` and `scp` inherit: the password for the helper only if there is one. -/
def connectionEnvironment : List (Text × Text) :=
  if sh.sshPassword ≠ [] then
    let display := lookup sh.environment (lit "DISPLAY")
    let display := if display = [] then lit "vpn-agent" else display
    assign (assign (assign (assign sh.exported (lit "VPN_AGENT_DEPLOY_ASKPASS_SECRET") sh.sshPassword)
      (lit "SSH_ASKPASS") sh.askpassHelper) (lit "SSH_ASKPASS_REQUIRE") (lit "force"))
      (lit "DISPLAY") display
  else sh.exported

def sshCommand (command : Text) (input : Option Text) : Op :=
  .command (lit "ssh" :: sh.sshArgs ++ [lit "-l", sh.remoteUser, lit "--", sh.remoteHost, command])
    sh.connectionEnvironment input

def effectiveSudoMode : Bool :=
  match sh.sudoMode with
  | .yes => true
  | .no => false
  | .auto => sh.remoteUser ≠ lit "root"

def envDir : Text := lit "/etc/vpn-agent"

def envPath : Text := envDir ++ '/' :: sh.serviceName ++ lit ".env"

def servicePath : Text := lit "/etc/systemd/system/" ++ sh.serviceName ++ lit ".service"

/-- The variables of the service. -/
def envVariables : List (Text × Text) :=
  [(lit "VPN_AGENT_BIN", sh.remotePath), (lit "VPN_AGENT_CONTAINER", sh.container),
    (lit "VPN_AGENT_INTERFACE", sh.interface), (lit "VPN_AGENT_CONFIG_PATH", sh.configPath),
    (lit "VPN_AGENT_CLIENTS_TABLE_PATH", sh.clientsTablePath),
    (lit "VPN_AGENT_LOCK_PATH", sh.lockPath), (lit "VPN_AGENT_ENDPOINT_HOST", sh.endpointHost),
    (lit "VPN_AGENT_LISTEN", sh.listen), (lit "VPN_AGENT_KEY_ID", sh.hmacKeyId),
    (lit "VPN_AGENT_SECRET", sh.hmacSecret), (lit "VPN_AGENT_ALLOW_IPS", sh.allowIps),
    (lit "VPN_AGENT_ALLOW_NO_AUTH", if sh.allowNoAuth then lit "1" else [])]

def envContent : Text :=
  join (sh.envVariables.map fun e => e.1 ++ '=' :: envQuote e.2) ['\n']

end Shell

/-- What the unit has a shell execute. -/
def execStart : Text :=
  lit "exec \"$VPN_AGENT_BIN\" serve --container \"$VPN_AGENT_CONTAINER\" --interface \"$VPN_AGENT_INTERFACE\" --config-path \"$VPN_AGENT_CONFIG_PATH\" --clients-table-path \"$VPN_AGENT_CLIENTS_TABLE_PATH\" --lock-path \"$VPN_AGENT_LOCK_PATH\" --endpoint-host \"$VPN_AGENT_ENDPOINT_HOST\" --listen \"$VPN_AGENT_LISTEN\" --allow-ip \"$VPN_AGENT_ALLOW_IPS\" $\x7bVPN_AGENT_ALLOW_NO_AUTH:+--allow-no-auth\x7d"

def serviceContent (envPath : Text) : Text :=
  lit "[Unit]\nDescription=vpn-agent\nAfter=docker.service\nRequires=docker.service\n\n[Service]\nType=simple\nEnvironmentFile=" ++
    envPath ++ lit "\nExecStart=/bin/sh -lc '" ++ execStart ++
    lit "'\nRestart=on-failure\nRestartSec=3\n\n[Install]\nWantedBy=multi-user.target"

namespace Script

/-- `--verbose`. -/
def logConnection (program command : Text) : Script Unit := do
  let sh ← get
  if sh.verbose then log (program ++ ' ' :: sh.remoteTarget ++ ' ' :: command)

def remoteExec (command : Text) : Script Text := do
  logConnection (lit "ssh") command
  let sh ← get
  run (sh.sshCommand command none)

def remoteExecStdin (input command : Text) : Script Text := do
  logConnection (lit "ssh") command
  let sh ← get
  run (sh.sshCommand command (some input))

def remoteCopy (source dest : Text) : Script Unit := do
  let sh ← get
  if sh.verbose then log (lit "scp " ++ source ++ ' ' :: sh.remoteTarget ++ ':' :: dest)
  let _ ← run (.command (lit "scp" :: sh.scpArgs ++ [lit "--", source, sh.scpDestination dest])
    sh.connectionEnvironment none)

def remoteExecPrivileged (command : Text) : Script Unit := do
  let sh ← get
  if !sh.effectiveSudoMode then
    let _ ← remoteExec command
  else if sh.sudoPassword ≠ [] then
    let _ ← remoteExecStdin (sh.sudoPassword ++ ['\n'])
      (lit "sudo -S -p '' sh -lc " ++ shellQuote command)
  else
    let _ ← remoteExec (lit "sudo -n sh -lc " ++ shellQuote command)

def buildBinary : Script Unit := do
  let sh ← get
  -- a binary that is there already is not built
  if sh.localBinary ≠ [] then
    modify fun sh => { sh with resultPath := sh.localBinary }
  else
    ensureBuildDir
    let sh ← get
    let out := sh.buildDir ++ lit "/vpn-agent-linux-" ++ sh.goarchValue
    log (lit "building linux/" ++ sh.goarchValue ++ lit " binary")
    let _ ← run (.command [lit "go", lit "build", lit "-o", out, lit "./cmd/vpn-agent"]
      (assign (assign (assign sh.exported (lit "GOOS") (lit "linux")) (lit "GOARCH") sh.goarchValue)
        (lit "CGO_ENABLED") (lit "0")) none)
    modify fun sh => { sh with resultPath := out }

def prepareRemoteWorkDir : Script Unit := do
  if (← get).remoteWorkDir = [] then
    ensureBuildDir
    let sh ← get
    let dir := withoutSlash sh.remoteTmpDir ++ lit "/vpn-agent-deploy-" ++ lastSegment sh.buildDir
    modify fun sh => { sh with remoteWorkDir := dir }
    let _ ← remoteExec (lit "umask 077 && mkdir -m 0700 " ++ shellQuote dir)
    modify fun sh => { sh with remoteCleanupPaths := sh.remoteCleanupPaths ++ [dir] }

def installBinary (binary : Text) : Script Unit := do
  prepareRemoteWorkDir
  let sh ← get
  let remoteTmp := sh.remoteWorkDir ++ lit "/vpn-agent"
  log (lit "uploading binary to " ++ sh.remoteTarget ++ ':' :: remoteTmp)
  remoteCopy binary remoteTmp
  log (lit "installing binary to " ++ sh.remotePath)
  remoteExecPrivileged (lit "mkdir -p " ++ shellQuote (dirname sh.remotePath) ++
    lit " && install -m 0755 " ++ shellQuote remoteTmp ++ ' ' :: shellQuote sh.remotePath ++
    lit " && rm -f " ++ shellQuote remoteTmp)

def resolveAgentAllowIps : Script Unit := do
  if (← get).allowIps = lit "ssh-source" then
    let output ← remoteExec (lit "printf \"%s\" \"$SSH_CONNECTION\"")
    let sourceIp := (substituted output).takeWhile (· != ' ')
    require (isSourceIP sourceIp) (lit "could not determine SSH source IP for agent allowlist")
    modify fun sh => { sh with allowIps := sourceIp }
    log (lit "agent allowlist detected from SSH connection")

def installService : Script Unit := do
  resolveAgentAllowIps
  prepareRemoteWorkDir
  let sh ← get
  let remoteEnvTmp := sh.remoteWorkDir ++ '/' :: sh.serviceName ++ lit ".env"
  let remoteServiceTmp := sh.remoteWorkDir ++ '/' :: sh.serviceName ++ lit ".service"
  -- the file with the agent secret; removed by the cleanup
  writeTempFile (sh.envContent ++ ['\n']) (sh.serviceName ++ lit ".env") (lit "0600")
  let envFile := (← get).resultPath
  modify fun sh => { sh with localSecretFiles := sh.localSecretFiles ++ [envFile] }
  writeTempFile (serviceContent sh.envPath ++ ['\n']) (sh.serviceName ++ lit ".service") (lit "0600")
  let serviceFile := (← get).resultPath
  log (lit "uploading systemd unit and env file")
  -- made with its mode before anything is in it
  let _ ← remoteExec (lit "umask 077 && : > " ++ shellQuote remoteEnvTmp ++ lit " && chmod 0600 " ++
    shellQuote remoteEnvTmp)
  remoteCopy envFile remoteEnvTmp
  remoteCopy serviceFile remoteServiceTmp
  log (lit "installing systemd service " ++ sh.serviceName)
  remoteExecPrivileged (lit "mkdir -p " ++ shellQuote Shell.envDir ++ lit " && install -m 0600 " ++
    shellQuote remoteEnvTmp ++ ' ' :: shellQuote sh.envPath ++ lit " && install -m 0644 " ++
    shellQuote remoteServiceTmp ++ ' ' :: shellQuote sh.servicePath ++ lit " && rm -f " ++
    shellQuote remoteEnvTmp ++ ' ' :: shellQuote remoteServiceTmp ++
    lit " && systemctl daemon-reload && systemctl enable " ++ shellQuote sh.serviceName ++
    lit " && systemctl restart " ++ shellQuote sh.serviceName)

def verifySshPreflight : Script Unit := do
  log (lit "checking SSH access")
  let _ ← remoteExec (lit "command -v sh >/dev/null")

def verifyRemoteBasics : Script Unit := do
  log (lit "checking remote host")
  let _ ← remoteExec (lit "command -v docker >/dev/null && docker --version")
  let path := shellQuote (← get).remotePath
  remoteExecPrivileged (lit "test -x " ++ path ++ lit " && " ++ path ++ lit " --help >/dev/null")

def runInspect : Script Unit := do
  let sh ← get
  if sh.skipInspect then log (lit "skipping inspect")
  else
    log (lit "running remote inspect")
    remoteExecPrivileged (shellQuote sh.remotePath ++ lit " inspect --container " ++
      shellQuote sh.container ++ lit " --interface " ++ shellQuote sh.interface ++
      lit " --config-path " ++ shellQuote sh.configPath ++ lit " --clients-table-path " ++
      shellQuote sh.clientsTablePath ++ lit " --lock-path " ++ shellQuote sh.lockPath)

def printSummary : Script Unit := do
  let sh ← get
  let target := lit "  ssh -p " ++ sh.sshPort ++ ' ' :: sh.remoteTarget
  let service := if sh.installService then
      lit "  service:      " ++ sh.serviceName ++ lit "\n  listen:       " ++ sh.listen ++
        lit "\n\nUseful remote commands:\n" ++ target ++ lit " 'systemctl status " ++ sh.serviceName ++
        lit " --no-pager'\n"
    else lit "\nUseful remote command:\n"
  let _ ← attempt (.log (lit "\n[deploy-agent] deployment completed\n  target:       " ++ sh.remoteTarget ++
    lit "\n  binary:       " ++ sh.remotePath ++ lit "\n  container:    " ++ sh.container ++
    lit "\n  interface:    " ++ sh.interface ++ lit "\n  config:       " ++ sh.configPath ++
    lit "\n  clientsTable: " ++ sh.clientsTablePath ++ '\n' :: service ++ target ++ lit " '" ++
    sh.remotePath ++ lit " peers'\n"))

/-- `cleanup`, in which a command that fails does not end anything. -/
def cleanup : Script Unit := do
  let sh ← get
  if sh.remoteAccessReady && sh.remoteCleanupPaths ≠ [] then
    let _ ← attempt (sh.sshCommand
      (lit "rm -rf --" ++ sh.remoteCleanupPaths.flatMap fun path => ' ' :: shellQuote path) none)
  for file in sh.localSecretFiles do
    let _ ← attempt (.command [lit "rm", lit "-f", file] sh.exported none)
  if sh.buildDir ≠ [] && !sh.keepArtifact then
    let present ← test (.isDirectory sh.buildDir)
    if present then
      let _ ← attempt (.command [lit "rm", lit "-rf", sh.buildDir] sh.exported none)

/-- `trap cleanup EXIT`. -/
def withTrap (body : Script Unit) : Script Unit := fun sh => do
  let r ← (body sh).attempt
  match r with
  | .ok ((), sh) => cleanup sh
  | .error (e, sh) => do
    let ((), sh) ← cleanup sh
    .fail (e, sh)

def deploy : Script Unit := do
  initTools
  modify fun sh => { sh with remoteAccessReady := true }
  let sh ← get
  -- the three modes: preflight, inspect, and the installation
  if sh.preflightOnly then
    verifySshPreflight
    log (lit "SSH preflight completed")
  else if sh.inspectOnly then
    verifyRemoteBasics
    runInspect
    log (lit "remote inspect completed")
  else
    buildBinary
    let binary := (← get).resultPath
    installBinary binary
    verifyRemoteBasics
    if sh.installService then installService
    runInspect
    printSummary

/-- `main` up to its traps. -/
def prepare (args : List Text) : Script Unit := do
  match parseArgs args (← get) with
  | .error e => stop e
  | .ok sh =>
    set sh
    loadEnvironmentSecrets
    validateArgs
    promptPasswords

def main (args : List Text) : Script Unit := do
  prepare args
  withTrap deploy

end Script

/-- `deploy-agent.sh` with these arguments and variables. -/
def deployAgent (args : List Text) (environment : List (Text × Text)) :
    Prog Op Op.Res (Exit × Shell) (Unit × Shell) := Script.main args { environment }

end VpnControl.Deploy
