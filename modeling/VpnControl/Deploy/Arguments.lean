import VpnControl.Deploy.Runner
import VpnControl.Backend.SetupHost
import VpnControl.Awg.ShareURI

namespace VpnControl.Deploy
open Strings Effects Prog Backend

/-- `x`, started with the variables `sh`, ends with `a` and the variables `sh'`, and asks nothing of
the outside. -/
def Script.Returns {α : Type} (x : Script α) (sh : Shell) (a : α) (sh' : Shell) : Prop :=
  x sh = ret (a, sh')

/-- The same, but the outside is asked: it answers as `env` lets it, and stays as it is. -/
def Script.Yields {σ α : Type} (env : Env σ Op Op.Res) (w : σ) (x : Script α) (sh : Shell) (a : α)
    (sh' : Shell) : Prop :=
  wp env (x sh) (fun r w' => r = .ok (a, sh') ∧ w' = w) w

section Rules
variable {σ α β : Type} {env : Env σ Op Op.Res} {w : σ} {sh sh' sh'' : Shell}

namespace Script

theorem returns_bind {x : Script α} {f : α → Script β} {a : α} {b : β} (hx : x.Returns sh a sh')
    (hf : (f a).Returns sh' b sh'') : (x >>= f).Returns sh b sh'' := by
  change x sh >>= (fun r => f r.1 r.2) = ret (b, sh'')
  rw [show x sh = ret (a, sh') from hx]
  exact hf

theorem returns_pure (a : α) : (pure a : Script α).Returns sh a sh := rfl

theorem returns_get : (get : Script Shell).Returns sh sh sh := rfl

theorem returns_set (sh' : Shell) : (set sh' : Script PUnit).Returns sh ⟨⟩ sh' := rfl

theorem returns_modify (f : Shell → Shell) : (modify f : Script PUnit).Returns sh ⟨⟩ (f sh) := rfl

theorem returns_require {condition : Bool} (h : condition = true) (message : Text) :
    (require condition message).Returns sh () sh := by
  rw [require, if_pos h]
  exact returns_pure ()

theorem Returns.yields {x : Script α} {a : α} (h : x.Returns sh a sh') : x.Yields env w sh a sh' := by
  unfold Yields
  rw [show x sh = ret (a, sh') from h]
  exact ⟨rfl, rfl⟩

theorem yields_bind {x : Script α} {f : α → Script β} {a : α} {b : β}
    (hx : x.Yields env w sh a sh') (hf : (f a).Yields env w sh' b sh'') :
    (x >>= f).Yields env w sh b sh'' := by
  apply wp_seq hx
  · rintro r w' ⟨⟨⟩, rfl⟩
    exact hf
  · rintro e w' ⟨⟨⟩, -⟩

theorem yields_requireFile {path : Text} (h : path ≠ [] → ∀ r w', env w (.isFile path) r w' →
    r.isOk = true ∧ w' = w) (message : Text) :
    (requireFile path message).Yields env w sh () sh := by
  unfold requireFile
  split
  · rename_i hpath
    intro r w' hr
    obtain ⟨hok, rfl⟩ := h hpath r w' hr
    exact (returns_require hok _).yields
  · exact (returns_pure ()).yields

end Script
end Rules

section Options
variable {name value : Text} {rest : List Text} {sh : Shell}

theorem parseArgs_value {option : ValueOption} (h : findOption valueOptions name = some option) :
    parseArgs (name :: value :: rest) sh = parseArgs rest (option.set value sh) := by
  rw [parseArgs, h]

theorem parseArgs_switch {option : SwitchOption} (hvalue : findOption valueOptions name = none)
    (h : findOption switchOptions name = some option) :
    parseArgs (name :: rest) sh = parseArgs rest (option.set sh) := by
  rw [parseArgs, hvalue, h]

end Options

section Environment
variable {environment : List (Text × Text)} {name other value : Text}

theorem unset_unset : unset (unset environment name) name = unset environment name := by
  simp [unset, List.filter_filter]

theorem unset_comm : unset (unset environment name) other = unset (unset environment other) name := by
  simp [unset, List.filter_filter, Bool.and_comm]

theorem unset_assign : unset (assign environment name value) name = unset environment name := by
  simp [unset, assign, List.filter_append, List.filter_filter]

theorem unset_assign_of_ne (h : other ≠ name) :
    unset (assign environment name value) other = assign (unset environment other) name value := by
  have hsplit : unset (unset environment name ++ [(name, value)]) other =
      unset (unset environment name) other ++ unset [(name, value)] other := List.filter_append ..
  have hkeep : unset [(name, value)] other = [(name, value)] := by simp [unset, h.symm]
  rw [assign, assign, hsplit, hkeep, unset_comm]

theorem lookup_assign : lookup (assign environment name value) name = value := by
  have hnone : (unset environment name).find? (·.1 = name) = none := by simp [unset]
  rw [lookup, assign, List.find?_append, hnone]
  simp

end Environment

section Job

/-- The pattern that `SetupJobCreateIn` demands of a user name. -/
def acceptsUsername : Text → Bool
  | [] => false
  | c :: name => (isLetter c || c == '_') && name.length ≤ 63 &&
    name.all fun c => isLetter c || isDigit c || c == '_' || c == '.' || c == '-'

/-- A job that `SetupJobCreateIn` lets through, and its secret. -/
structure Accepted (job : SetupJob) (sshSecret : Text) : Prop where
  host : acceptsHost job.host = true
  username : acceptsUsername job.sshUsername = true
  port : 1 ≤ job.sshPort ∧ job.sshPort ≤ 65535
  secret : sshSecret ≠ []

/-- The variables that say how to log in. -/
def Shell.authenticated (sh : Shell) (job : SetupJob) (identityFile : Text) : Shell :=
  match job.authMethod with
  | .sshKey => { sh with identityFile }
  | .password =>
    { sh with
      sshPasswordEnv := Deploy.sshPasswordEnv, reusePasswordForSudo := job.sshUsername ≠ lit "root" }

/-- The variables that say what to do. -/
def Shell.phased (sh : Shell) (settings : RunnerSettings) (job : SetupJob)
    (credentials : AgentCredentials) : Phase → Shell
  | .preflight => { sh with preflightOnly := true }
  | .inspect => { sh with inspectOnly := true }
  | .install =>
    { sh with
      installService := true, serviceName := lit "vpn-agent", listen := settings.setupAgentListen
      endpointHost := job.host, hmacKeyId := credentials.keyId, hmacSecretEnv := Deploy.hmacSecretEnv
      allowIps := Runner.agentAllowIps settings, skipInspect := true }

/-- The variables of the script behind its options, for a job. -/
def Runner.parsed (settings : RunnerSettings) (environment : List (Text × Text)) (job : SetupJob)
    (credentials : AgentCredentials) (phase : Phase) (identityFile : Text) : Shell :=
  (({ environment, remoteUser := job.sshUsername, remoteHost := job.host
      sshPort := Awg.intLiteral job.sshPort } : Shell).authenticated job identityFile).phased settings
    job credentials phase

/-- The variables of the script when it begins to work: the secrets are in them, and no longer
among those that it hands on. -/
def Runner.shellFor (settings : RunnerSettings) (environ : List (Text × Text)) (job : SetupJob)
    (credentials : AgentCredentials) (sshSecret : Text) (phase : Phase) (identityFile : Text) : Shell :=
  let password := if job.authMethod = .password then sshSecret else []
  { Runner.parsed settings (unset (unset environ sshPasswordEnv) hmacSecretEnv) job credentials phase
      identityFile with
    endpointHost := job.host
    sshPassword := password
    sudoPassword := if job.sshUsername = lit "root" then [] else password
    hmacSecret := if phase = .install then credentials.secret else [] }

theorem isUser_of_acceptsUsername {name : Text} (h : acceptsUsername name = true) :
    isUser name = true := by
  cases name with
  | nil => cases h
  | cons c name => exact h

theorem isHost_of_acceptsHost {host : Text} (h : acceptsHost host = true) : isHost host = true := by
  cases host with
  | nil => cases h
  | cons c host =>
    simp only [acceptsHost, Bool.and_eq_true, List.all_eq_true] at h
    obtain ⟨⟨hhead, -⟩, hrest⟩ := h
    simp only [isHost, Bool.and_eq_true, List.all_eq_true]
    exact ⟨hhead, hrest⟩

end Job

/-- What `validate_args` asks of the variables, apart from the files. -/
structure Shell.Valid (sh : Shell) : Prop where
  user : isUser sh.remoteUser = true
  host : isHost sh.remoteHost = true
  port : isNumber sh.sshPort = true
  install : sh.remotePath ≠ [] ∧ sh.remoteTmpDir ≠ [] ∧ sh.goarchValue ≠ []
  agent : sh.container ≠ [] ∧ sh.interface ≠ [] ∧ sh.configPath ≠ [] ∧ sh.clientsTablePath ≠ [] ∧
    sh.lockPath ≠ []
  service : isServiceName sh.serviceName = true
  modes : (sh.preflightOnly && sh.inspectOnly) = false
  inspection : (sh.preflightOnly || sh.inspectOnly) = true → sh.installService = false
  binary : sh.skipBuild = true → sh.localBinary ≠ []
  identity : sh.identityFile ≠ [] → sh.sshPassword = [] ∧ sh.askPassword = false
  unsigned : sh.allowNoAuth = true → sh.hmacSecret = []
  signed : sh.installService = true → sh.hmacSecret ≠ [] ∨ sh.allowNoAuth = true

section Valid
variable {σ : Type} {env : Env σ Op Op.Res} {w : σ} {sh : Shell}

theorem ne_nil_of_isUser {s : Text} (h : isUser s = true) : s ≠ [] := by
  rintro rfl
  cases h

theorem ne_nil_of_isHost {s : Text} (h : isHost s = true) : s ≠ [] := by
  rintro rfl
  cases h

theorem ne_nil_of_isServiceName {s : Text} (h : isServiceName s = true) : s ≠ [] := by
  rintro rfl
  cases h

namespace Script

theorem returns_validateValues (h : sh.Valid) : validateValues.Returns sh () sh := by
  obtain ⟨hpath, htmp, harch⟩ := h.install
  obtain ⟨hcontainer, hinterface, hconfig, htable, hlock⟩ := h.agent
  unfold validateValues
  refine returns_bind returns_get ?_
  refine returns_bind (returns_require (decide_eq_true (ne_nil_of_isUser h.user)) _) ?_
  refine returns_bind (returns_require (decide_eq_true (ne_nil_of_isHost h.host)) _) ?_
  refine returns_bind (returns_require h.user _) ?_
  refine returns_bind (returns_require h.host _) ?_
  refine returns_bind (returns_require h.port _) ?_
  refine returns_bind (returns_require (decide_eq_true hpath) _) ?_
  refine returns_bind (returns_require (decide_eq_true htmp) _) ?_
  refine returns_bind (returns_require (decide_eq_true harch) _) ?_
  refine returns_bind (returns_require (decide_eq_true hcontainer) _) ?_
  refine returns_bind (returns_require (decide_eq_true hinterface) _) ?_
  refine returns_bind (returns_require (decide_eq_true hconfig) _) ?_
  refine returns_bind (returns_require (decide_eq_true htable) _) ?_
  refine returns_bind (returns_require (decide_eq_true hlock) _) ?_
  refine returns_bind (returns_require (decide_eq_true (ne_nil_of_isServiceName h.service)) _) ?_
  exact returns_require h.service _

theorem returns_validateModes (h : sh.Valid) : validateModes.Returns sh () sh := by
  unfold validateModes
  refine returns_bind returns_get ?_
  refine returns_bind (returns_require (by simp only [h.modes, Bool.not_false]) _) ?_
  split
  · rename_i hmode
    exact returns_require (by simp only [h.inspection hmode, Bool.not_false]) _
  · apply returns_require
    cases hskip : sh.skipBuild
    · rfl
    · simpa using h.binary hskip

theorem returns_validateSecrets (h : sh.Valid) : validateSecrets.Returns sh () sh := by
  unfold validateSecrets
  refine returns_bind returns_get ?_
  refine returns_bind (returns_require ?_ _) ?_
  · by_cases hidentity : sh.identityFile = []
    · simp [hidentity]
    · simp [h.identity hidentity]
  refine returns_bind (returns_require ?_ _) (returns_require ?_ _)
  · cases hunsigned : sh.allowNoAuth
    · rfl
    · simp [h.unsigned hunsigned]
  · cases hinstall : sh.installService
    · rfl
    · simpa using h.signed hinstall

theorem yields_validateArgs (h : sh.Valid)
    (hfile : ∀ path, path = sh.localBinary ∨ path = sh.identityFile → path ≠ [] →
      ∀ r w', env w (.isFile path) r w' → r.isOk = true ∧ w' = w) :
    validateArgs.Yields env w sh ()
      { sh with endpointHost := if sh.endpointHost = [] then sh.remoteHost else sh.endpointHost } := by
  unfold validateArgs
  refine yields_bind (returns_validateValues h).yields ?_
  refine yields_bind (returns_validateModes h).yields ?_
  refine yields_bind returns_get.yields ?_
  refine yields_bind (yields_requireFile (hfile _ (.inl rfl)) _) ?_
  refine yields_bind (yields_requireFile (hfile _ (.inr rfl)) _) ?_
  refine yields_bind (returns_validateSecrets h).yields ?_
  split
  · exact (returns_modify _).yields
  · exact (returns_pure _).yields

theorem returns_loadEnvironmentSecret_nil (option given : Text) :
    (loadEnvironmentSecret option [] given).Returns sh given sh := by
  unfold loadEnvironmentSecret
  exact returns_pure given

theorem returns_loadEnvironmentSecret (sh : Shell) {name value : Text} (hname : isVariableName name = true)
    (hvalue : lookup sh.environment name = value) (hne : value ≠ []) (option : Text) :
    (loadEnvironmentSecret option name []).Returns sh value
      { sh with environment := unset sh.environment name } := by
  have hnil : name ≠ [] := by
    rintro rfl
    cases hname
  unfold loadEnvironmentSecret
  rw [if_neg hnil]
  refine returns_bind (returns_require (by simp) _) ?_
  refine returns_bind (returns_require hname _) ?_
  refine returns_bind returns_get ?_
  rw [hvalue]
  refine returns_bind (returns_require (decide_eq_true hne) _) ?_
  exact returns_bind (returns_modify _) (returns_pure _)

end Script
end Valid

section BuildCommand
variable {settings : RunnerSettings} {environ environment : List (Text × Text)} {job : SetupJob}
  {credentials : AgentCredentials} {sshSecret : Text} {phase : Phase} {identityFile : Option Text}
  {command : List Text}

/-- The options that name a program's place on the host and the way to get there. -/
theorem parseArgs_connection {rest : List Text} :
    parseArgs (lit "--user" :: job.sshUsername :: lit "--host" :: job.host :: lit "--ssh-port" ::
      Awg.intLiteral job.sshPort :: rest) { environment } =
      parseArgs rest
        { environment, remoteUser := job.sshUsername, remoteHost := job.host
          sshPort := Awg.intLiteral job.sshPort } := by
  have huser : findOption valueOptions (lit "--user") = some .user := by decide +kernel
  have hhost : findOption valueOptions (lit "--host") = some .host := by decide +kernel
  have hport : findOption valueOptions (lit "--ssh-port") = some .sshPort := by decide +kernel
  rw [parseArgs_value huser, parseArgs_value hhost, parseArgs_value hport]
  simp only [ValueOption.set]

theorem parseArgs_authentication {path : Text} {authentication rest : List Text} {sh : Shell}
    (hidentity : job.authMethod = .sshKey → identityFile = some path)
    (h : Runner.authenticationArgs job identityFile = .ok authentication)
    (hsh : sh.reusePasswordForSudo = false) :
    parseArgs (authentication ++ rest) sh = parseArgs rest (sh.authenticated job path) := by
  unfold Runner.authenticationArgs at h
  unfold Shell.authenticated
  cases hauth : job.authMethod with
  | sshKey =>
    have hfile : findOption valueOptions (lit "--identity-file") = some .identityFile := by
      decide +kernel
    simp only [hauth, hidentity hauth] at h
    cases h
    simp only [List.cons_append, List.nil_append]
    rw [parseArgs_value hfile, ValueOption.set]
  | password =>
    have hpassword : findOption valueOptions (lit "--password-env") = some .passwordEnv := by
      decide +kernel
    have hnone : findOption valueOptions (lit "--reuse-password-for-sudo") = none := by decide +kernel
    have hreuse : findOption switchOptions (lit "--reuse-password-for-sudo") =
        some .reusePasswordForSudo := by decide +kernel
    simp only [hauth] at h
    cases h
    simp only [List.cons_append, List.nil_append]
    rw [parseArgs_value hpassword]
    split
    · rename_i hroot
      rw [List.singleton_append, parseArgs_switch hnone hreuse]
      simp [ValueOption.set, SwitchOption.set, hroot]
    · rename_i hroot
      simp [ValueOption.set, hroot, hsh]

theorem parseArgs_phase (sh : Shell) :
    parseArgs (Runner.phaseArgs settings job credentials phase) sh =
      .ok (sh.phased settings job credentials phase) := by
  cases phase with
  | preflight =>
    have hmode : findOption valueOptions (lit "--preflight-only") = none ∧
        findOption switchOptions (lit "--preflight-only") = some .preflightOnly := by decide +kernel
    rw [Runner.phaseArgs, parseArgs_switch hmode.1 hmode.2, parseArgs]
    rfl
  | inspect =>
    have hmode : findOption valueOptions (lit "--inspect-only") = none ∧
        findOption switchOptions (lit "--inspect-only") = some .inspectOnly := by decide +kernel
    rw [Runner.phaseArgs, parseArgs_switch hmode.1 hmode.2, parseArgs]
    rfl
  | install =>
    have hinstall : findOption valueOptions (lit "--install-service") = none ∧
        findOption switchOptions (lit "--install-service") = some .installService := by decide +kernel
    have hservice : findOption valueOptions (lit "--service-name") = some .serviceName := by
      decide +kernel
    have hlisten : findOption valueOptions (lit "--listen") = some .listen := by decide +kernel
    have hendpoint : findOption valueOptions (lit "--endpoint-host") = some .endpointHost := by
      decide +kernel
    have hkey : findOption valueOptions (lit "--hmac-key-id") = some .hmacKeyId := by decide +kernel
    have hsecret : findOption valueOptions (lit "--hmac-secret-env") = some .hmacSecretEnv := by
      decide +kernel
    have hallow : findOption valueOptions (lit "--allow-ip") = some .allowIp := by decide +kernel
    have hskip : findOption valueOptions (lit "--skip-inspect") = none ∧
        findOption switchOptions (lit "--skip-inspect") = some .skipInspect := by decide +kernel
    rw [Runner.phaseArgs, parseArgs_switch hinstall.1 hinstall.2, parseArgs_value hservice,
      parseArgs_value hlisten, parseArgs_value hendpoint, parseArgs_value hkey,
      parseArgs_value hsecret, parseArgs_value hallow, parseArgs_switch hskip.1 hskip.2, parseArgs]
    simp only [ValueOption.set, SwitchOption.set, Shell.phased]

/-- The script reads its options as the runner means them. -/
theorem parseArgs_buildCommand (environment : List (Text × Text)) {path : Text}
    (hidentity : job.authMethod = .sshKey → identityFile = some path)
    (hcommand : Runner.buildCommand settings job credentials phase identityFile = .ok command) :
    parseArgs (command.drop 2) { environment } =
      .ok (Runner.parsed settings environment job credentials phase path) := by
  unfold Runner.buildCommand at hcommand
  cases hauth : Runner.authenticationArgs job identityFile with
  | error x =>
    rw [hauth] at hcommand
    cases hcommand
  | ok authentication =>
    rw [hauth] at hcommand
    cases hcommand
    rw [List.append_assoc, List.append_assoc]
    simp only [List.cons_append, List.drop_succ_cons, List.drop_zero, List.nil_append]
    rw [parseArgs_connection, parseArgs_authentication hidentity hauth rfl, parseArgs_phase]
    rfl

end BuildCommand
section Prompts
variable {sh : Shell}

namespace Script

/-- Both secrets are taken out of the variables that the programs inherit. -/
theorem returns_loadEnvironmentSecrets {middle final : List (Text × Text)}
    {passwordEnv secretEnv password secret : Text} (hpasswordEnv : sh.sshPasswordEnv = passwordEnv)
    (hpasswordGiven : sh.sshPassword = []) (hsecretEnv : sh.hmacSecretEnv = secretEnv)
    (hsecretGiven : sh.hmacSecret = [])
    (hpassword : (loadEnvironmentSecret (lit "--password") passwordEnv []).Returns sh password
      { sh with environment := middle })
    (hsecret : (loadEnvironmentSecret (lit "--hmac-secret") secretEnv []).Returns
      { sh with environment := middle, sshPassword := password } secret
      { sh with environment := final, sshPassword := password }) :
    loadEnvironmentSecrets.Returns sh ()
      { sh with environment := final, sshPassword := password, hmacSecret := secret } := by
  have hgiven : loadEnvironmentSecret (lit "--password") sh.sshPasswordEnv sh.sshPassword =
      loadEnvironmentSecret (lit "--password") passwordEnv [] := by rw [hpasswordEnv, hpasswordGiven]
  have hgiven' : loadEnvironmentSecret (lit "--hmac-secret") sh.hmacSecretEnv sh.hmacSecret =
      loadEnvironmentSecret (lit "--hmac-secret") secretEnv [] := by rw [hsecretEnv, hsecretGiven]
  unfold loadEnvironmentSecrets
  refine returns_bind returns_get ?_
  rw [hgiven, hgiven']
  refine returns_bind hpassword ?_
  refine returns_bind (returns_modify _) ?_
  exact returns_bind hsecret (returns_modify _)

/-- Without a terminal the only password is the one that was handed over. -/
theorem returns_promptPasswords (sh : Shell) (hask : sh.askPassword = false) (hsudo : sh.askSudoPassword = false)
    (hreuse : sh.reusePasswordForSudo = true → sh.sshPassword ≠ []) :
    promptPasswords.Returns sh ()
      { sh with sudoPassword := if sh.reusePasswordForSudo then sh.sshPassword else sh.sudoPassword } := by
  have hssh : promptSshPassword.Returns sh () sh := by
    unfold promptSshPassword
    refine returns_bind returns_get ?_
    rw [if_neg (by simp [hask])]
    exact returns_pure _
  have hshared : reuseSshPassword.Returns sh ()
      { sh with sudoPassword := if sh.reusePasswordForSudo then sh.sshPassword else sh.sudoPassword } := by
    unfold reuseSshPassword
    refine returns_bind returns_get ?_
    split
    · rename_i hon
      refine returns_bind (returns_require (decide_eq_true (hreuse hon)) _) ?_
      exact returns_modify _
    · exact returns_pure _
  unfold promptPasswords
  refine returns_bind hssh (returns_bind hshared ?_)
  unfold promptSudoPassword
  refine returns_bind returns_get ?_
  rw [if_neg (by simp [hsudo])]
  exact returns_pure _

end Script
end Prompts

section ScriptEnvironment
variable {environ : List (Text × Text)} {job : SetupJob} {credentials : AgentCredentials}
  {sshSecret : Text} {phase : Phase}

/-- What the backend has, without the variables of the script. -/
def Runner.bareEnvironment (environ : List (Text × Text)) : List (Text × Text) :=
  unset (unset environ sshPasswordEnv) hmacSecretEnv

/-- The variables of the script but the password. -/
def Runner.signedEnvironment (environ : List (Text × Text)) (credentials : AgentCredentials)
    (phase : Phase) : List (Text × Text) :=
  if phase = .install then assign (bareEnvironment environ) hmacSecretEnv credentials.secret
  else bareEnvironment environ

theorem sshPasswordEnv_ne_hmacSecretEnv : sshPasswordEnv ≠ hmacSecretEnv := by decide +kernel

namespace Runner

theorem unset_bareEnvironment_password :
    unset (bareEnvironment environ) sshPasswordEnv = bareEnvironment environ := by
  rw [bareEnvironment, unset_comm, unset_unset]

theorem unset_bareEnvironment_secret :
    unset (bareEnvironment environ) hmacSecretEnv = bareEnvironment environ := by
  rw [bareEnvironment, unset_unset]

theorem unset_signedEnvironment :
    unset (signedEnvironment environ credentials phase) sshPasswordEnv =
      signedEnvironment environ credentials phase := by
  unfold signedEnvironment
  split
  · rw [unset_assign_of_ne sshPasswordEnv_ne_hmacSecretEnv, unset_bareEnvironment_password]
  · exact unset_bareEnvironment_password

theorem scriptEnvironment_eq :
    scriptEnvironment environ job credentials sshSecret phase =
      if job.authMethod = .password then
        assign (signedEnvironment environ credentials phase) sshPasswordEnv sshSecret
      else signedEnvironment environ credentials phase := rfl

end Runner
end ScriptEnvironment

section Prepared
variable {σ : Type} {env : Env σ Op Op.Res} {w : σ} {settings : RunnerSettings}
  {environ environment : List (Text × Text)} {job : SetupJob} {credentials : AgentCredentials}
  {sshSecret path : Text} {phase : Phase} {identityFile : Option Text} {command : List Text}

/-- What the variables are behind the runner's options: those that it sets, and those that keep the
values that they start with. -/
structure Shell.ParsedFor (sh : Shell) (environment : List (Text × Text)) (job : SetupJob) (phase : Phase)
    (path : Text) : Prop where
  environment : sh.environment = environment
  remoteUser : sh.remoteUser = job.sshUsername
  remoteHost : sh.remoteHost = job.host
  sshPort : sh.sshPort = Awg.intLiteral job.sshPort
  identityFile : sh.identityFile = if job.authMethod = .password then [] else path
  sshPasswordEnv : sh.sshPasswordEnv =
    if job.authMethod = .password then Deploy.sshPasswordEnv else []
  reusePasswordForSudo : sh.reusePasswordForSudo =
    (decide (job.authMethod = .password) && decide (job.sshUsername ≠ lit "root"))
  hmacSecretEnv : sh.hmacSecretEnv = if phase = .install then Deploy.hmacSecretEnv else []
  endpointHost : sh.endpointHost = if phase = .install then job.host else []
  installService : sh.installService = decide (phase = .install)
  preflightOnly : sh.preflightOnly = decide (phase = .preflight)
  inspectOnly : sh.inspectOnly = decide (phase = .inspect)
  secrets : sh.sshPassword = [] ∧ sh.sudoPassword = [] ∧ sh.hmacSecret = []
  switches : sh.askPassword = false ∧ sh.askSudoPassword = false ∧ sh.skipBuild = false ∧
    sh.allowNoAuth = false
  localBinary : sh.localBinary = []
  install : sh.remotePath = lit "/usr/local/bin/vpn-agent" ∧ sh.remoteTmpDir = lit "/tmp" ∧
    sh.goarchValue = lit "amd64"
  agent : sh.container = lit "amnezia-awg2" ∧ sh.interface = lit "awg0" ∧
    sh.configPath = lit "/opt/amnezia/awg/awg0.conf" ∧
    sh.clientsTablePath = lit "/opt/amnezia/awg/clientsTable" ∧
    sh.lockPath = lit "/var/lock/vpn-agent.lock"
  serviceName : sh.serviceName = lit "vpn-agent"

theorem Runner.parsed_fields (settings : RunnerSettings) (environment : List (Text × Text))
    (job : SetupJob) (credentials : AgentCredentials) (phase : Phase) (path : Text) :
    (parsed settings environment job credentials phase path).ParsedFor environment job phase path := by
  unfold parsed Shell.authenticated
  cases hauth : job.authMethod <;> cases phase <;> constructor <;> simp [Shell.phased, hauth]

theorem isNumber_port (h : 1 ≤ job.sshPort) : isNumber (Awg.intLiteral job.sshPort) = true := by
  obtain ⟨n, hn⟩ := Int.eq_ofNat_of_zero_le (show 0 ≤ job.sshPort by omega)
  obtain ⟨hne, hall, -⟩ := Awg.decimal_digits n
  rw [hn]
  change isNumber (Netip.decimal n) = true
  simp only [isNumber, Bool.and_eq_true, Bool.not_eq_true', List.isEmpty_eq_false_iff]
  exact ⟨hne, hall⟩

theorem Runner.parsed_environment (environment other : List (Text × Text)) :
    { parsed settings environment job credentials phase path with environment := other } =
      parsed settings other job credentials phase path := by
  unfold parsed Shell.authenticated
  cases job.authMethod <;> cases phase <;> rfl

theorem isVariableName_sshPasswordEnv : isVariableName sshPasswordEnv = true := by decide +kernel

theorem isVariableName_hmacSecretEnv : isVariableName hmacSecretEnv = true := by decide +kernel

/-- The variables with the secrets in them. -/
def Runner.loaded (settings : RunnerSettings) (environ : List (Text × Text)) (job : SetupJob)
    (credentials : AgentCredentials) (sshSecret : Text) (phase : Phase) (path : Text) : Shell :=
  { parsed settings (bareEnvironment environ) job credentials phase path with
    sshPassword := if job.authMethod = .password then sshSecret else []
    hmacSecret := if phase = .install then credentials.secret else [] }

namespace Script

theorem returns_loadPassword {sh : Shell} (haccepted : Accepted job sshSecret)
    (henvironment : sh.environment =
      Runner.scriptEnvironment environ job credentials sshSecret phase) :
    (loadEnvironmentSecret (lit "--password")
      (if job.authMethod = .password then sshPasswordEnv else []) []).Returns sh
      (if job.authMethod = .password then sshSecret else [])
      { sh with environment := Runner.signedEnvironment environ credentials phase } := by
  rw [Runner.scriptEnvironment_eq] at henvironment
  by_cases hauth : job.authMethod = .password
  · simp only [if_pos hauth] at henvironment ⊢
    have hload := returns_loadEnvironmentSecret sh
      isVariableName_sshPasswordEnv (henvironment ▸ lookup_assign) haccepted.secret (lit "--password")
    rwa [henvironment, unset_assign, Runner.unset_signedEnvironment] at hload
  · simp only [if_neg hauth] at henvironment ⊢
    rw [← henvironment]
    exact returns_loadEnvironmentSecret_nil _ _

theorem returns_loadSecret {sh : Shell} (hsecret : phase = .install → credentials.secret ≠ [])
    (henvironment : sh.environment = Runner.signedEnvironment environ credentials phase) :
    (loadEnvironmentSecret (lit "--hmac-secret")
      (if phase = .install then hmacSecretEnv else []) []).Returns sh
      (if phase = .install then credentials.secret else [])
      { sh with environment := Runner.bareEnvironment environ } := by
  unfold Runner.signedEnvironment at henvironment
  by_cases hphase : phase = .install
  · simp only [if_pos hphase] at henvironment ⊢
    have hload := returns_loadEnvironmentSecret sh
      isVariableName_hmacSecretEnv (henvironment ▸ lookup_assign) (hsecret hphase) (lit "--hmac-secret")
    rwa [henvironment, unset_assign, Runner.unset_bareEnvironment_secret] at hload
  · simp only [if_neg hphase] at henvironment ⊢
    rw [← henvironment]
    exact returns_loadEnvironmentSecret_nil _ _

theorem returns_loadSecrets (haccepted : Accepted job sshSecret)
    (hsecret : phase = .install → credentials.secret ≠ []) :
    loadEnvironmentSecrets.Returns
      (Runner.parsed settings (Runner.scriptEnvironment environ job credentials sshSecret phase) job
        credentials phase path) ()
      (Runner.loaded settings environ job credentials sshSecret phase path) := by
  have h := Runner.parsed_fields settings
    (Runner.scriptEnvironment environ job credentials sshSecret phase) job credentials phase path
  have hloaded := returns_loadEnvironmentSecrets h.sshPasswordEnv h.secrets.1 h.hmacSecretEnv h.secrets.2.2
    (returns_loadPassword haccepted h.environment) (returns_loadSecret hsecret rfl)
  rw [Runner.loaded, ← Runner.parsed_environment
    (Runner.scriptEnvironment environ job credentials sshSecret phase) (Runner.bareEnvironment environ)]
  exact hloaded

end Script

theorem Runner.valid_loaded (haccepted : Accepted job sshSecret)
    (hsecret : phase = .install → credentials.secret ≠ []) :
    (loaded settings environ job credentials sshSecret phase path).Valid := by
  have h := parsed_fields settings (bareEnvironment environ) job credentials phase path
  obtain ⟨hask, -, hskip, hauth⟩ := h.switches
  exact {
    user := h.remoteUser ▸ isUser_of_acceptsUsername haccepted.username
    host := h.remoteHost ▸ isHost_of_acceptsHost haccepted.host
    port := h.sshPort ▸ isNumber_port haccepted.port.1
    install := by simp only [loaded, h.install]; decide +kernel
    agent := by simp only [loaded, h.agent]; decide +kernel
    service := by simp only [loaded, h.serviceName]; decide +kernel
    modes := by simp only [loaded, h.preflightOnly, h.inspectOnly]; cases phase <;> rfl
    inspection := by
      simp only [loaded, h.preflightOnly, h.inspectOnly, h.installService]
      cases phase <;> simp
    binary := fun hbinary => by simp [loaded, hskip] at hbinary
    identity := by simp only [loaded, h.identityFile, hask]; split <;> simp_all
    unsigned := fun hunsigned => by simp [loaded, hauth] at hunsigned
    signed := by
      simp only [loaded, h.installService, decide_eq_true_eq]
      intro hphase
      rw [if_pos hphase]
      exact .inl (hsecret hphase) }

/-- Only a key is read from a file. -/
theorem Runner.isFile_loaded {file : Text}
    (hfile : ∀ r w', env w (.isFile path) r w' → r.isOk = true ∧ w' = w)
    (h : file = (loaded settings environ job credentials sshSecret phase path).localBinary ∨
      file = (loaded settings environ job credentials sshSecret phase path).identityFile)
    (hne : file ≠ []) : ∀ r w', env w (.isFile file) r w' → r.isOk = true ∧ w' = w := by
  have hparsed := parsed_fields settings (bareEnvironment environ) job credentials phase path
  rcases h with rfl | rfl
  · exact absurd hparsed.localBinary hne
  · have hpath : (loaded settings environ job credentials sshSecret phase path).identityFile = path := by
      by_cases hauth : job.authMethod = .password
      · exact absurd (hparsed.identityFile.trans (if_pos hauth)) hne
      · exact hparsed.identityFile.trans (if_neg hauth)
    rw [hpath]
    exact hfile

/-- A run that installs nothing takes the host for the clients' endpoint too. -/
theorem Runner.endpointHost_loaded :
    (if (loaded settings environ job credentials sshSecret phase path).endpointHost = [] then
      (loaded settings environ job credentials sshSecret phase path).remoteHost
    else (loaded settings environ job credentials sshSecret phase path).endpointHost) = job.host := by
  have h := parsed_fields settings (bareEnvironment environ) job credentials phase path
  simp only [loaded, h.endpointHost, h.remoteHost]
  by_cases hphase : phase = .install <;> simp [hphase]

theorem Runner.sudoPassword_loaded :
    (if (loaded settings environ job credentials sshSecret phase path).reusePasswordForSudo then
      (loaded settings environ job credentials sshSecret phase path).sshPassword
    else (loaded settings environ job credentials sshSecret phase path).sudoPassword) =
      if job.sshUsername = lit "root" then [] else if job.authMethod = .password then sshSecret else [] := by
  have h := parsed_fields settings (bareEnvironment environ) job credentials phase path
  simp only [loaded, h.reusePasswordForSudo, h.secrets.2.1]
  by_cases hroot : job.sshUsername = lit "root" <;> by_cases hauth : job.authMethod = .password <;>
    simp [hroot, hauth]

/-- The password that `sudo` is to have again is there. -/
theorem Runner.sshPassword_loaded (haccepted : Accepted job sshSecret)
    (h : (loaded settings environ job credentials sshSecret phase path).reusePasswordForSudo = true) :
    (loaded settings environ job credentials sshSecret phase path).sshPassword ≠ [] := by
  have hparsed := parsed_fields settings (bareEnvironment environ) job credentials phase path
  simp only [loaded, hparsed.reusePasswordForSudo, Bool.and_eq_true, decide_eq_true_eq] at h ⊢
  rw [if_pos h.1]
  exact haccepted.secret

/-- A command line with a key names its file. -/
theorem Runner.identityFile_of_buildCommand
    (hcommand : buildCommand settings job credentials phase identityFile = .ok command) :
    job.authMethod = .sshKey → identityFile = some (identityFile.getD []) := by
  intro hauth
  cases identityFile with
  | some path => rfl
  | none =>
    simp only [buildCommand, authenticationArgs, hauth] at hcommand
    cases hcommand

/-- The script, started by the runner, comes to work with the variables that the runner means: for
every step of the worker and both ways to log in, no check stops it. -/
theorem yields_prepare (haccepted : Accepted job sshSecret)
    (hsecret : phase = .install → credentials.secret ≠ [])
    (hidentity : job.authMethod = .sshKey → identityFile = some path)
    (hfile : ∀ r w', env w (.isFile path) r w' → r.isOk = true ∧ w' = w)
    (hcommand : Runner.buildCommand settings job credentials phase identityFile = .ok command) :
    (Script.prepare (command.drop 2)).Yields env w
      { environment := Runner.scriptEnvironment environ job credentials sshSecret phase } ()
      (Runner.shellFor settings environ job credentials sshSecret phase path) := by
  have hparsed := parseArgs_buildCommand
    (Runner.scriptEnvironment environ job credentials sshSecret phase) hidentity hcommand
  have hswitches := (Runner.parsed_fields settings (Runner.bareEnvironment environ) job credentials phase
    path).switches
  have hprompt := Script.returns_promptPasswords
    { Runner.loaded settings environ job credentials sshSecret phase path with
      endpointHost := job.host } hswitches.1 hswitches.2.1 (Runner.sshPassword_loaded haccepted)
  simp only [Runner.sudoPassword_loaded] at hprompt
  unfold Script.prepare
  refine Script.yields_bind Script.returns_get.yields ?_
  rw [hparsed]
  refine Script.yields_bind (Script.returns_set _).yields ?_
  refine Script.yields_bind (Script.returns_loadSecrets haccepted hsecret).yields ?_
  refine Script.yields_bind (Script.yields_validateArgs (Runner.valid_loaded haccepted hsecret)
    fun _ => Runner.isFile_loaded hfile) ?_
  rw [Runner.endpointHost_loaded]
  exact hprompt.yields

end Prepared

/-- The sixth address of a block that is kept for documents. -/
def exampleJob : SetupJob where
  id := lit "job"
  createdByUserId := lit "admin"
  serverName := lit "Riga"
  host := lit "203.0.113.6"
  sshPort := 22
  sshUsername := lit "deploy"
  authMethod := .password
  createdAt := 0
  updatedAt := 0

def exampleCredentials : AgentCredentials where
  keyId := lit "key"
  secret := lit "secret"
  baseUrl := defaultAgentBaseUrl exampleJob.host

theorem Apart.unset {environ : List (Text × Text)} (h : Apart environ) (name : Text) :
    Apart (unset environ name) := fun v hv => h v (List.mem_of_mem_filter hv)

theorem Apart.bareEnvironment {environ : List (Text × Text)} (h : Apart environ) :
    Apart (Runner.bareEnvironment environ) := (h.unset _).unset _

/-- The script is there, and ends well. -/
def exampleSystem : Responder Unit RunnerOp RunnerOp.Res
  | _, .mkstemp => some (.ok (lit "/tmp/vpn-agent-1.key"), ())
  | _, .isFile _ => some (.ok true, ())
  | _, .communicate _ => some (.ok (.exited 0), ())
  | _, .fchmod _ | _, .writeKey .. | _, .close _ | _, .createSubprocess .. | _, .killpg _
  | _, .remove _ => some (.ok (), ())

/-- The same job, with a key. -/
def exampleKeyJob : SetupJob := { exampleJob with authMethod := .sshKey }

end VpnControl.Deploy
