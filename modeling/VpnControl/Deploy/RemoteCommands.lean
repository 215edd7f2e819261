import VpnControl.Deploy.DeployAgent
import VpnControl.Agent.Scripts

namespace VpnControl.Deploy
open Strings Effects Prog ShellWords
open VpnControl.Agent (leading)

/-- A command with quoted values: each stands behind a text, and a last text behind all of them. -/
def rendered : List (Text × Text) → Text → Text
  | [], last => last
  | (l, value) :: parts, last => l ++ shellQuote value ++ rendered parts last

/-- The texts of a command around its values: they end where a word can start, and each but the
first starts with a blank. -/
def Template (literals : List Text) (last : Text) : Prop :=
  (∀ l ∈ literals, (leading l).isSome = true) ∧ (∀ l ∈ literals.tail, l.head? = some ' ') ∧
    (literals ≠ [] → last.head?.all isDelimiter = true) ∧ (tokenize last).isSome = true

/-- The tokens of a command: those of its texts, and each value as one word. -/
def tokens : List (Text × Text) → Text → List Token
  | [], last => (tokenize last).getD []
  | (l, value) :: parts, last => (leading l).getD [] ++ .word value true :: tokens parts last

theorem shellQuote_eq (value : Text) : shellQuote value = Agent.shellQuote value := by
  unfold Agent.shellQuote
  split
  · rename_i h
    rw [h]
    rfl
  · rfl

theorem delimits_rendered {parts : List (Text × Text)} {last : Text}
    (hblank : ∀ l ∈ parts.map (·.1), l.head? = some ' ') (hlast : last.head?.all isDelimiter = true) :
    Delimits (rendered parts last) := by
  cases parts with
  | nil =>
    intro c hc
    rw [rendered, Option.mem_def] at hc
    rwa [hc] at hlast
  | cons part parts =>
    rw [rendered, List.append_assoc]
    exact Agent.delimits_append (hblank part.1 List.mem_cons_self) _

/-- No value is more than one word, and none changes what another part of the command means. -/
theorem tokenize_rendered {parts : List (Text × Text)} {last : Text}
    (h : Template (parts.map (·.1)) last) :
    tokenize (rendered parts last) = some (tokens parts last) := by
  induction parts with
  | nil =>
    obtain ⟨toks, htoks⟩ := Option.isSome_iff_exists.mp h.2.2.2
    rw [rendered, tokens, htoks]
    rfl
  | cons part parts ih =>
    obtain ⟨hleading, hblank, hlast, hends⟩ := h
    rw [List.map_cons] at hleading hblank hlast
    have hlast' := hlast (List.cons_ne_nil _ _)
    obtain ⟨before, hbefore⟩ := Option.isSome_iff_exists.mp (hleading _ List.mem_cons_self)
    have hparts : Template (parts.map (·.1)) last :=
      ⟨fun l hl => hleading l (List.mem_cons_of_mem _ hl),
        fun l hl => hblank l (List.mem_of_mem_tail hl), fun _ => hlast', hends⟩
    rw [rendered, tokens, shellQuote_eq, List.append_assoc,
      Agent.tokenize_value hbefore (delimits_rendered hblank hlast'), ih hparts, hbefore]
    rfl

/-- The texts of the commands that the script has executed on the host, around their values. -/
def templates : List (List Text × Text) :=
  [([], lit "command -v sh >/dev/null"),
    ([], lit "command -v docker >/dev/null && docker --version"),
    ([], lit "printf \"%s\" \"$SSH_CONNECTION\""),
    ([lit "umask 077 && mkdir -m 0700 "], []),
    ([lit "mkdir -p ", lit " && install -m 0755 ", lit " ", lit " && rm -f "], []),
    ([lit "umask 077 && : > ", lit " && chmod 0600 "], []),
    ([lit "mkdir -p ", lit " && install -m 0600 ", lit " ", lit " && install -m 0644 ", lit " ",
      lit " && rm -f ", lit " ", lit " && systemctl daemon-reload && systemctl enable ",
      lit " && systemctl restart "], []),
    ([lit "test -x ", lit " && "], lit " --help >/dev/null"),
    ([[], lit " inspect --container ", lit " --interface ", lit " --config-path ",
      lit " --clients-table-path ", lit " --lock-path "], [])]

theorem template_of_mem : ∀ t ∈ templates, Template t.1 t.2 := by
  unfold Template
  decide +kernel

/-- The commands that the script means: one of the templates, the removal of its directories, and
one of them for `sudo`. -/
inductive Intended : Text → Prop
  | plain {parts : List (Text × Text)} {last : Text} (h : (parts.map (·.1), last) ∈ templates) :
    Intended (rendered parts last)
  | remove (path : Text) (paths : List Text) :
    Intended (rendered ((lit "rm -rf -- ", path) :: paths.map fun p => (lit " ", p)) [])
  | privileged {l command : Text} (hl : l ∈ [lit "sudo -S -p '' sh -lc ", lit "sudo -n sh -lc "])
    (h : Intended command) : Intended (rendered [(l, command)] [])

/-- What a command that the script means is to the shell on the host. -/
theorem Intended.tokenize {command : Text} (h : Intended command) :
    ∃ parts last, command = rendered parts last ∧ tokenize command = some (tokens parts last) := by
  cases h with
  | plain h => exact ⟨_, _, rfl, tokenize_rendered (template_of_mem _ h)⟩
  | remove path paths =>
    refine ⟨_, _, rfl, tokenize_rendered ?_⟩
    have hspace : (leading (lit " ")).isSome = true ∧ (lit " ").head? = some ' ' ∧
        (leading (lit "rm -rf -- ")).isSome = true := by decide +kernel
    have hmem : ∀ l ∈ (paths.map fun p => (lit " ", p)).map (·.1), l = lit " " := by simp
    refine ⟨?_, fun l hl => hmem l hl ▸ hspace.2.1, fun _ => rfl, rfl⟩
    intro l hl
    rcases List.mem_cons.mp hl with rfl | hl
    · exact hspace.2.2
    · exact hmem l hl ▸ hspace.1
  | privileged hl h =>
    refine ⟨_, _, rfl, tokenize_rendered ?_⟩
    have hall : ∀ l ∈ [lit "sudo -S -p '' sh -lc ", lit "sudo -n sh -lc "], (leading l).isSome = true := by
      decide +kernel
    refine ⟨?_, by simp, fun _ => rfl, rfl⟩
    intro l' hl'
    rw [List.mem_singleton.mp hl']
    exact hall _ hl

/-- What `ssh` has the host execute is a command that the script means. -/
def Op.Intended (e : Op) : Prop :=
  ∀ words environment input, e = .command words environment input → words.head? = some (lit "ssh") →
    ∃ command, words.getLast? = some command ∧ Deploy.Intended command

namespace Script
variable {α β : Type}

/-- A script that has the host execute what it means, and nothing else. -/
def Sends (x : Script α) : Prop := ∀ sh, (x sh).Uses Op.Intended

theorem sends_bind {x : Script α} {f : α → Script β} (hx : Sends x) (hf : ∀ a, Sends (f a)) :
    Sends (x >>= f) := fun sh => uses_bind (hx sh) fun r => hf r.1 r.2

theorem sends_pure (a : α) : Sends (pure a : Script α) := fun _ => trivial

theorem sends_stop (e : Exit) : Sends (stop e : Script α) := fun _ => trivial

theorem sends_get : Sends get := fun _ => trivial

theorem sends_modify (f : Shell → Shell) : Sends (modify f) := fun _ => trivial

theorem sends_attempt {e : Op} (h : e.Intended) : Sends (attempt e) := fun _ => ⟨h, fun _ => trivial⟩

theorem sends_run {e : Op} (h : e.Intended) : Sends (run e) := by
  refine sends_bind (sends_attempt h) fun r => ?_
  cases r with
  | ok output => exact sends_pure output
  | error status => exact sends_stop _

theorem sends_test {e : Op} (h : e.Intended) : Sends (test e) :=
  sends_bind (sends_attempt h) fun _ => sends_pure _

theorem sends_require (condition : Bool) (message : Text) : Sends (require condition message) := by
  unfold require
  split
  · exact sends_pure ()
  · exact sends_stop _

theorem sends_if {c : Prop} [Decidable c] {x y : Script α} (hx : c → Sends x) (hy : Sends y) :
    Sends (if c then x else y) := by
  split
  · rename_i hc
    exact hx hc
  · exact hy

theorem sends_ite {c : Prop} [Decidable c] {x y : Script α} (hx : Sends x) (hy : Sends y) :
    Sends (if c then x else y) := sends_if (fun _ => hx) hy

theorem sends_forIn {σ τ : Type} (xs : List σ) (b : τ) (f : σ → τ → Script (ForInStep τ))
    (hf : ∀ a b, Sends (f a b)) : Sends (forIn xs b f) := by
  induction xs generalizing b with
  | nil => exact sends_pure b
  | cons a xs ih =>
    rw [List.forIn_cons]
    refine sends_bind (hf a b) fun r => ?_
    cases r with
    | done b => exact sends_pure b
    | yield b => exact ih b

/-- A program on the machine of the script. -/
theorem intended_local {program : Text} {args : List Text} {environment : List (Text × Text)}
    {input : Option Text} (h : program ≠ lit "ssh") :
    (Op.command (program :: args) environment input).Intended := by
  rintro words environment input ⟨⟩ hssh
  exact absurd (Option.some.inj hssh) h

theorem intended_other {e : Op} (h : ∀ words environment input, e ≠ .command words environment input) :
    e.Intended := fun _ _ _ he => absurd he (h _ _ _)

theorem intended_sshCommand {command : Text} (h : Intended command) (sh : Shell) (input : Option Text) :
    (sh.sshCommand command input).Intended := by
  rintro words environment input ⟨⟩ -
  exact ⟨command, by rw [List.getLast?_append]; rfl, h⟩

theorem sends_log (text : Text) : Sends (log text) :=
  sends_bind (sends_attempt (intended_other (by simp))) fun _ => sends_pure ()

theorem sends_requireFile (path message : Text) : Sends (requireFile path message) :=
  sends_ite (sends_bind (sends_test (intended_other (by simp))) fun _ => sends_require _ _) (sends_pure _)

theorem sends_loadEnvironmentSecret (option name given : Text) :
    Sends (loadEnvironmentSecret option name given) :=
  sends_ite (sends_pure _) (sends_bind (sends_require _ _) fun _ => sends_bind (sends_require _ _) fun _ =>
    sends_bind sends_get fun _ => sends_bind (sends_require _ _) fun _ =>
      sends_bind (sends_modify _) fun _ => sends_pure _)

theorem sends_loadEnvironmentSecrets : Sends loadEnvironmentSecrets :=
  sends_bind sends_get fun _ => sends_bind (sends_loadEnvironmentSecret _ _ _) fun _ =>
    sends_bind (sends_modify _) fun _ => sends_bind (sends_loadEnvironmentSecret _ _ _) fun _ =>
      sends_modify _

theorem sends_validateArgs : Sends validateArgs := by
  have hvalues : Sends validateValues := by
    refine sends_bind sends_get fun sh => ?_
    repeat' first
      | exact sends_require _ _
      | refine sends_bind (sends_require _ _) fun _ => ?_
  have hmodes : Sends validateModes := sends_bind sends_get fun _ =>
    sends_bind (sends_require _ _) fun _ => sends_ite (sends_require _ _) (sends_require _ _)
  have hsecrets : Sends validateSecrets := sends_bind sends_get fun _ =>
    sends_bind (sends_require _ _) fun _ => sends_bind (sends_require _ _) fun _ => sends_require _ _
  exact sends_bind hvalues fun _ => sends_bind hmodes fun _ => sends_bind sends_get fun _ =>
    sends_bind (sends_requireFile _ _) fun _ => sends_bind (sends_requireFile _ _) fun _ =>
      sends_bind hsecrets fun _ => sends_ite (sends_modify _) (sends_pure _)

theorem sends_prompt (what : Text) : Sends (prompt what) :=
  sends_bind sends_get fun _ => sends_bind (sends_run (intended_other (by simp))) fun _ =>
    sends_bind (sends_attempt (intended_other (by simp))) fun _ => sends_pure _

theorem sends_promptPasswords : Sends promptPasswords :=
  sends_bind (sends_bind sends_get fun _ => sends_ite
      (sends_bind (sends_prompt _) fun _ => sends_modify _) (sends_pure _)) fun _ =>
    sends_bind (sends_bind sends_get fun _ => sends_ite
        (sends_bind (sends_require _ _) fun _ => sends_modify _) (sends_pure _)) fun _ =>
      sends_bind sends_get fun _ => sends_ite
        (sends_bind (sends_prompt _) fun _ => sends_modify _) (sends_pure _)

theorem sends_program {name : Text} {args : List Text} (h : name ≠ lit "ssh") :
    Sends (program (name :: args)) :=
  sends_bind sends_get fun _ => sends_run (intended_local h)

theorem sends_needCmd (name : Text) : Sends (needCmd name) :=
  sends_bind (sends_test (intended_other (by simp))) fun _ => sends_require _ _

theorem sends_ensureBuildDir : Sends ensureBuildDir :=
  sends_bind sends_get fun _ => sends_ite
    (sends_bind (sends_program (by simp [lit_eq])) fun _ => sends_modify _) (sends_pure _)

theorem sends_writeTempFile (content suffix mode : Text) : Sends (writeTempFile content suffix mode) :=
  sends_bind sends_ensureBuildDir fun _ => sends_bind sends_get fun _ =>
    sends_bind (sends_run (intended_other (by simp))) fun _ =>
      sends_bind (sends_program (by simp [lit_eq])) fun _ =>
        sends_bind (sends_run (intended_other (by simp))) fun _ => sends_modify _

theorem sends_initTools : Sends initTools := by
  have htool : Sends (do
      let sh ← get
      if !sh.preflightOnly && !sh.inspectOnly && !sh.skipBuild && sh.localBinary = [] then
        needCmd (lit "go")) :=
    sends_bind sends_get fun _ => sends_ite (sends_needCmd _) (sends_pure _)
  have hhelper : Sends prepareAskpassHelper :=
    sends_bind (sends_writeTempFile _ _ _) fun _ => sends_modify _
  exact sends_bind (sends_needCmd _) fun _ => sends_bind (sends_needCmd _) fun _ =>
    sends_bind sends_get fun _ => sends_ite (sends_bind hhelper fun _ => htool) htool

theorem sends_logConnection (program command : Text) : Sends (logConnection program command) :=
  sends_bind sends_get fun _ => sends_ite (sends_log _) (sends_pure _)

theorem sends_remoteExec {command : Text} (h : Intended command) : Sends (remoteExec command) :=
  sends_bind (sends_logConnection _ _) fun _ => sends_bind sends_get fun sh =>
    sends_run (intended_sshCommand h sh none)

theorem sends_remoteExecStdin (input : Text) {command : Text} (h : Intended command) :
    Sends (remoteExecStdin input command) :=
  sends_bind (sends_logConnection _ _) fun _ => sends_bind sends_get fun sh =>
    sends_run (intended_sshCommand h sh _)

theorem sends_remoteCopy (source dest : Text) : Sends (remoteCopy source dest) := by
  have hcopy : ∀ sh : Shell, Sends (do
      let _ ← run (.command (lit "scp" :: sh.scpArgs ++ [lit "--", source, sh.scpDestination dest])
        sh.connectionEnvironment none)
      pure ()) := fun sh =>
    sends_bind (sends_run (intended_local (by simp [lit_eq]))) fun _ => sends_pure ()
  exact sends_bind sends_get fun sh => sends_ite (sends_bind (sends_log _) fun _ => hcopy sh) (hcopy sh)

theorem sends_remoteExecPrivileged {command : Text} (h : Intended command) :
    Sends (remoteExecPrivileged command) := by
  have hsudo : ∀ l ∈ [lit "sudo -S -p '' sh -lc ", lit "sudo -n sh -lc "],
      Intended (l ++ shellQuote command) := by
    intro l hl
    have hrendered : l ++ shellQuote command = rendered [(l, command)] [] := by simp [rendered]
    rw [hrendered]
    exact .privileged hl h
  exact sends_bind sends_get fun _ => sends_ite (sends_bind (sends_remoteExec h) fun _ => sends_pure ())
    (sends_ite
      (sends_bind (sends_remoteExecStdin _ (hsudo _ List.mem_cons_self)) fun _ => sends_pure ())
      (sends_bind (sends_remoteExec (hsudo _ (List.mem_cons_of_mem _ List.mem_cons_self))) fun _ =>
        sends_pure ()))

theorem sends_buildBinary : Sends buildBinary :=
  sends_bind sends_get fun _ => sends_ite (sends_modify _)
    (sends_bind sends_ensureBuildDir fun _ => sends_bind sends_get fun _ =>
      sends_bind (sends_log _) fun _ => sends_bind (sends_run (intended_local (by simp [lit_eq]))) fun _ =>
        sends_modify _)

theorem sends_prepareRemoteWorkDir : Sends prepareRemoteWorkDir := by
  have hmkdir : ∀ dir, Intended (lit "umask 077 && mkdir -m 0700 " ++ shellQuote dir) := by
    intro dir
    have h : Intended (rendered [(lit "umask 077 && mkdir -m 0700 ", dir)] []) :=
      .plain (by simp [templates])
    simpa [rendered] using h
  exact sends_bind sends_get fun _ => sends_ite
    (sends_bind sends_ensureBuildDir fun _ => sends_bind sends_get fun _ =>
      sends_bind (sends_modify _) fun _ => sends_bind (sends_remoteExec (hmkdir _)) fun _ =>
        sends_modify _) (sends_pure _)

theorem lit_space : lit " " = [' '] := by simp [lit_eq]

theorem sends_installBinary (binary : Text) : Sends (installBinary binary) := by
  have hinstall : ∀ dir tmp path, Intended (lit "mkdir -p " ++ shellQuote dir ++
      lit " && install -m 0755 " ++ shellQuote tmp ++ ' ' :: shellQuote path ++
      lit " && rm -f " ++ shellQuote tmp) := by
    intro dir tmp path
    have h : Intended (rendered [(lit "mkdir -p ", dir), (lit " && install -m 0755 ", tmp),
      (lit " ", path), (lit " && rm -f ", tmp)] []) := .plain (by simp [templates])
    simpa [rendered, lit_space] using h
  exact sends_bind sends_prepareRemoteWorkDir fun _ => sends_bind sends_get fun _ =>
    sends_bind (sends_log _) fun _ => sends_bind (sends_remoteCopy _ _) fun _ =>
      sends_bind (sends_log _) fun _ => sends_remoteExecPrivileged (hinstall _ _ _)

theorem intended_constant {last : Text} (h : ([], last) ∈ templates) : Intended last := by
  have hconstant : Intended (rendered [] last) := .plain h
  exact hconstant

theorem sends_resolveAgentAllowIps : Sends resolveAgentAllowIps :=
  sends_bind sends_get fun _ => sends_ite
    (sends_bind (sends_remoteExec (intended_constant (by simp [templates]))) fun _ =>
      sends_bind (sends_require _ _) fun _ => sends_bind (sends_modify _) fun _ => sends_log _)
    (sends_pure _)

theorem sends_installService : Sends installService := by
  have hcreate : ∀ file, Intended (lit "umask 077 && : > " ++ shellQuote file ++ lit " && chmod 0600 " ++
      shellQuote file) := by
    intro file
    have h : Intended (rendered [(lit "umask 077 && : > ", file), (lit " && chmod 0600 ", file)] []) :=
      .plain (by simp [templates])
    simpa [rendered] using h
  have hinstall : ∀ dir tmp env tmp' unit name, Intended (lit "mkdir -p " ++ shellQuote dir ++
      lit " && install -m 0600 " ++ shellQuote tmp ++ ' ' :: shellQuote env ++
      lit " && install -m 0644 " ++ shellQuote tmp' ++ ' ' :: shellQuote unit ++ lit " && rm -f " ++
      shellQuote tmp ++ ' ' :: shellQuote tmp' ++
      lit " && systemctl daemon-reload && systemctl enable " ++ shellQuote name ++
      lit " && systemctl restart " ++ shellQuote name) := by
    intro dir tmp env tmp' unit name
    have h : Intended (rendered [(lit "mkdir -p ", dir), (lit " && install -m 0600 ", tmp), (lit " ", env),
      (lit " && install -m 0644 ", tmp'), (lit " ", unit), (lit " && rm -f ", tmp), (lit " ", tmp'),
      (lit " && systemctl daemon-reload && systemctl enable ", name),
      (lit " && systemctl restart ", name)] []) := .plain (by simp [templates])
    simpa [rendered, lit_space] using h
  refine sends_bind sends_resolveAgentAllowIps fun _ => sends_bind sends_prepareRemoteWorkDir fun _ => ?_
  refine sends_bind sends_get fun _ => sends_bind (sends_writeTempFile _ _ _) fun _ => ?_
  refine sends_bind sends_get fun _ => sends_bind (sends_modify _) fun _ => ?_
  refine sends_bind (sends_writeTempFile _ _ _) fun _ => sends_bind sends_get fun _ => ?_
  refine sends_bind (sends_log _) fun _ => sends_bind (sends_remoteExec (hcreate _)) fun _ => ?_
  refine sends_bind (sends_remoteCopy _ _) fun _ => sends_bind (sends_remoteCopy _ _) fun _ => ?_
  exact sends_bind (sends_log _) fun _ => sends_remoteExecPrivileged (hinstall _ _ _ _ _ _)

theorem sends_verifySshPreflight : Sends verifySshPreflight :=
  sends_bind (sends_log _) fun _ =>
    sends_bind (sends_remoteExec (intended_constant (by simp [templates]))) fun _ => sends_pure _

theorem sends_verifyRemoteBasics : Sends verifyRemoteBasics := by
  have htest : ∀ path, Intended (lit "test -x " ++ shellQuote path ++ lit " && " ++ shellQuote path ++
      lit " --help >/dev/null") := by
    intro path
    have h : Intended (rendered [(lit "test -x ", path), (lit " && ", path)] (lit " --help >/dev/null")) :=
      .plain (by simp [templates])
    simpa [rendered] using h
  exact sends_bind (sends_log _) fun _ =>
    sends_bind (sends_remoteExec (intended_constant (by simp [templates]))) fun _ =>
      sends_bind sends_get fun _ => sends_remoteExecPrivileged (htest _)

theorem sends_runInspect : Sends runInspect := by
  have hinspect : ∀ sh : Shell, Intended (shellQuote sh.remotePath ++ lit " inspect --container " ++
      shellQuote sh.container ++ lit " --interface " ++ shellQuote sh.interface ++
      lit " --config-path " ++ shellQuote sh.configPath ++ lit " --clients-table-path " ++
      shellQuote sh.clientsTablePath ++ lit " --lock-path " ++ shellQuote sh.lockPath) := by
    intro sh
    have h : Intended (rendered [([], sh.remotePath), (lit " inspect --container ", sh.container),
      (lit " --interface ", sh.interface), (lit " --config-path ", sh.configPath),
      (lit " --clients-table-path ", sh.clientsTablePath), (lit " --lock-path ", sh.lockPath)] []) :=
      .plain (by simp [templates])
    simpa [rendered] using h
  exact sends_bind sends_get fun _ => sends_ite (sends_log _)
    (sends_bind (sends_log _) fun _ => sends_remoteExecPrivileged (hinspect _))

theorem sends_printSummary : Sends printSummary :=
  sends_bind sends_get fun _ => sends_bind (sends_attempt (intended_other (by simp))) fun _ => sends_pure _

/-- The removal of some directories. -/
theorem intended_remove {paths : List Text} (h : paths ≠ []) :
    Intended (lit "rm -rf --" ++ paths.flatMap fun path => ' ' :: shellQuote path) := by
  cases paths with
  | nil => exact absurd rfl h
  | cons path paths =>
    have hrest : ∀ paths : List Text, rendered (paths.map fun p => (lit " ", p)) [] =
        paths.flatMap fun path => ' ' :: shellQuote path := by
      intro paths
      induction paths with
      | nil => rfl
      | cons path paths ih =>
        rw [List.map_cons, rendered, ih, lit_space]
        simp
    have hfirst : lit "rm -rf -- " = lit "rm -rf --" ++ [' '] := by simp [lit_eq]
    have hremove := Intended.remove path paths
    rw [rendered, hrest, hfirst] at hremove
    simpa using hremove

theorem sends_cleanup : Sends cleanup := by
  have hlocal : ∀ sh : Shell, Sends (do
      for file in sh.localSecretFiles do
        let _ ← attempt (.command [lit "rm", lit "-f", file] sh.exported none)
      if sh.buildDir ≠ [] && !sh.keepArtifact then
        let present ← test (.isDirectory sh.buildDir)
        if present then
          let _ ← attempt (.command [lit "rm", lit "-rf", sh.buildDir] sh.exported none)) := fun sh =>
    sends_bind (sends_forIn _ _ _ fun _ _ =>
      sends_bind (sends_attempt (intended_local (by simp [lit_eq]))) fun _ => sends_pure _) fun _ =>
      sends_ite (sends_bind (sends_test (intended_other (by simp))) fun _ => sends_ite
        (sends_bind (sends_attempt (intended_local (by simp [lit_eq]))) fun _ => sends_pure _)
        (sends_pure _)) (sends_pure _)
  refine sends_bind sends_get fun sh => sends_if (fun hpaths => ?_) (hlocal sh)
  have hne : sh.remoteCleanupPaths ≠ [] := by
    rw [Bool.and_eq_true, decide_eq_true_eq] at hpaths
    exact hpaths.2
  exact sends_bind (sends_attempt (intended_sshCommand (intended_remove hne) sh none)) fun _ => hlocal sh

theorem sends_withTrap {body : Script Unit} (h : Sends body) : Sends (withTrap body) := by
  intro sh
  refine uses_bind (uses_attempt (h sh)) fun r => ?_
  cases r with
  | ok r => exact sends_cleanup r.2
  | error r => exact uses_bind (sends_cleanup r.2) fun _ => trivial

theorem sends_deploy : Sends deploy := by
  refine sends_bind sends_initTools fun _ => sends_bind (sends_modify _) fun _ => ?_
  refine sends_bind sends_get fun _ => sends_ite ?_ (sends_ite ?_ ?_)
  · exact sends_bind sends_verifySshPreflight fun _ => sends_log _
  · exact sends_bind sends_verifyRemoteBasics fun _ => sends_bind sends_runInspect fun _ => sends_log _
  · have hend : Sends (do
        runInspect
        printSummary) := sends_bind sends_runInspect fun _ => sends_printSummary
    exact sends_bind sends_buildBinary fun _ => sends_bind sends_get fun _ =>
      sends_bind (sends_installBinary _) fun _ => sends_bind sends_verifyRemoteBasics fun _ =>
        sends_ite (sends_bind sends_installService fun _ => hend) hend

theorem sends_prepare (args : List Text) : Sends (prepare args) := by
  refine sends_bind sends_get fun sh => ?_
  split
  · exact sends_stop _
  · exact sends_bind (fun _ => trivial) fun _ => sends_bind sends_loadEnvironmentSecrets fun _ =>
      sends_bind sends_validateArgs fun _ => sends_promptPasswords

end Script

end VpnControl.Deploy
