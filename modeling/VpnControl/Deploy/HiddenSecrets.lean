import VpnControl.Deploy.Arguments
import VpnControl.Lib.RelatedPrograms

namespace VpnControl.Deploy
open Strings Effects Prog Backend

def masked (e : Text × Text) : Text × Text :=
  if e.1 = lit "VPN_AGENT_DEPLOY_ASKPASS_SECRET" then (e.1, []) else e

/-- What anyone on the machine can see of an operation: the words of a command and its variables,
but not the password for the helper, nor an input; the texts that are written, but not into a file
of variables. -/
def Op.visible : Op → Op
  | command words environment input => command words (environment.map masked) (input.map fun _ => [])
  | write path content => write path (if lit ".env" <:+ path then [] else content)
  | e => e

/-- The same variables but for the secrets, of which the same are there; none of them came from
the outside under its own name. -/
def Shell.Alike (sh sh' : Shell) : Prop :=
  ∃ sshPassword sudoPassword hmacSecret, sh' = { sh with sshPassword, sudoPassword, hmacSecret } ∧
    (sshPassword = [] ↔ sh.sshPassword = []) ∧ (sudoPassword = [] ↔ sh.sudoPassword = []) ∧
    (hmacSecret = [] ↔ sh.hmacSecret = []) ∧ Apart sh.environment

theorem Shell.Alike.exported {sh sh' : Shell} (h : sh.Alike sh') : sh'.exported = sh.exported := by
  obtain ⟨p, q, s, rfl, -, -, -, hapart⟩ := h
  rw [exported_of_apart hapart]
  exact exported_of_apart hapart

/-- Both runs end in the same way. -/
inductive Ends {α β : Type} (R : α → β → Prop) :
    Except (Exit × Shell) (α × Shell) → Except (Exit × Shell) (β × Shell) → Prop
  | ok {a : α} {b : β} {sh sh' : Shell} (h : R a b) (hsh : sh.Alike sh') :
    Ends R (.ok (a, sh)) (.ok (b, sh'))
  | error (e : Exit) {sh sh' : Shell} (hsh : sh.Alike sh') :
    Ends R (.error (e, sh)) (.error (e, sh'))

namespace Script

/-- From these variables the two scripts look alike. -/
def AlikeAt {α β : Type} (R : α → β → Prop) (x : Script α) (y : Script β) (sh sh' : Shell) : Prop :=
  (x sh).Related (sameView Op.visible) (Ends R) (y sh')

/-- A script that shows nothing of the secrets. -/
def Blind {α : Type} (x : Script α) : Prop := ∀ sh sh', sh.Alike sh' → AlikeAt Eq x x sh sh'

section Rules
variable {α β γ δ : Type} {R : α → β → Prop} {S : γ → δ → Prop} {sh sh' : Shell}

theorem alike_bind {x : Script α} {y : Script β} {f : α → Script γ} {g : β → Script δ}
    (hx : AlikeAt R x y sh sh')
    (hf : ∀ a b s s', R a b → s.Alike s' → AlikeAt S (f a) (g b) s s') :
    AlikeAt S (x >>= f) (y >>= g) sh sh' := by
  apply related_bind hx
  · rintro _ _ ⟨h, hsh⟩
    exact hf _ _ _ _ h hsh
  · intro x y h
    cases h with
    | error e hsh => exact .error e hsh

theorem blind_bind {x : Script α} {f : α → Script γ} (hx : Blind x) (hf : ∀ a, Blind (f a)) :
    Blind (x >>= f) := by
  intro sh sh' hsh
  apply alike_bind (hx sh sh' hsh)
  rintro a _ s s' rfl hs
  exact hf a s s' hs

theorem blind_pure (a : α) : Blind (pure a : Script α) := fun _ _ hsh => .ok rfl hsh

theorem blind_stop (e : Exit) : Blind (stop e : Script α) := fun _ _ hsh => .error e hsh

/-- What is done with the variables does not depend on the secrets. -/
theorem blind_get {f : Shell → Script γ}
    (hsame : ∀ sh sshPassword sudoPassword hmacSecret,
      f { sh with sshPassword, sudoPassword, hmacSecret } = f sh)
    (hf : ∀ sh, Blind (f sh)) : Blind (get >>= f) := by
  rintro sh sh' hsh
  have hshown : f sh' = f sh := by
    obtain ⟨p, q, s, rfl, -⟩ := hsh
    exact hsame sh p q s
  change AlikeAt Eq (f sh) (f sh') sh sh'
  rw [hshown]
  exact hf sh sh sh' hsh

theorem alike_get {f : Shell → Script γ} {g : Shell → Script δ}
    (h : AlikeAt S (f sh) (g sh') sh sh') : AlikeAt S (get >>= f) (get >>= g) sh sh' := h

theorem alike_set {s s' : Shell} {f : PUnit → Script γ} {g : PUnit → Script δ}
    (h : AlikeAt S (f ⟨⟩) (g ⟨⟩) s s') : AlikeAt S (set s >>= f) (set s' >>= g) sh sh' := h

theorem blind_get_alike {f : Shell → Script γ}
    (hf : ∀ sh sh', sh.Alike sh' → AlikeAt Eq (f sh) (f sh') sh sh') : Blind (get >>= f) :=
  fun sh sh' hsh => hf sh sh' hsh

theorem blind_modify {f : Shell → Shell} (hf : ∀ sh sh', sh.Alike sh' → (f sh).Alike (f sh')) :
    Blind (modify f) := fun sh sh' hsh => .ok rfl (hf sh sh' hsh)

/-- A change to variables that are no secrets. -/
theorem blind_set {f : Shell → Shell}
    (hf : ∀ sh sshPassword sudoPassword hmacSecret,
      f { sh with sshPassword, sudoPassword, hmacSecret } =
          { f sh with sshPassword, sudoPassword, hmacSecret } ∧
        (f sh).sshPassword = sh.sshPassword ∧ (f sh).sudoPassword = sh.sudoPassword ∧
        (f sh).hmacSecret = sh.hmacSecret ∧ (f sh).environment = sh.environment) :
    Blind (modify f) := by
  apply blind_modify
  rintro sh _ ⟨p, q, s, rfl, hp, hq, hs, hapart⟩
  obtain ⟨heq, hp', hq', hs', hsame⟩ := hf sh p q s
  exact ⟨p, q, s, heq, hp'.symm ▸ hp, hq'.symm ▸ hq, hs'.symm ▸ hs, hsame.symm ▸ hapart⟩

theorem alike_attempt {e e' : Op} (h : e.visible = e'.visible) (hsh : sh.Alike sh') :
    AlikeAt Eq (attempt e) (attempt e') sh sh' :=
  ⟨Eq, ⟨h, rfl⟩, fun _ _ hr => hr ▸ .ok rfl hsh⟩

theorem blind_attempt (e : Op) : Blind (attempt e) := fun _ _ => alike_attempt rfl

theorem alike_run {e e' : Op} (h : e.visible = e'.visible) (hsh : sh.Alike sh') :
    AlikeAt Eq (run e) (run e') sh sh' := by
  apply alike_bind (alike_attempt h hsh)
  rintro r _ s s' rfl hs
  cases r with
  | ok output => exact blind_pure output s s' hs
  | error status => exact blind_stop _ s s' hs

theorem blind_run (e : Op) : Blind (run e) := fun _ _ => alike_run rfl

theorem blind_test (e : Op) : Blind (test e) :=
  blind_bind (blind_attempt e) fun _ => blind_pure _

theorem blind_require (condition : Bool) (message : Text) : Blind (require condition message) := by
  unfold require
  split
  · exact blind_pure ()
  · exact blind_stop _

theorem alike_require {c c' : Bool} (h : c = c') (message : Text) (hsh : sh.Alike sh') :
    AlikeAt Eq (require c message) (require c' message) sh sh' := h ▸ blind_require c message sh sh' hsh

theorem blind_log (text : Text) : Blind (log text) :=
  blind_bind (blind_attempt _) fun _ => blind_pure ()

theorem blind_ite {c : Prop} [Decidable c] {x y : Script α} (hx : Blind x) (hy : Blind y) :
    Blind (if c then x else y) := by
  split
  · exact hx
  · exact hy

theorem blind_forIn {σ τ : Type} (xs : List σ) (b : τ) (f : σ → τ → Script (ForInStep τ))
    (hf : ∀ a b, Blind (f a b)) : Blind (forIn xs b f) := by
  induction xs generalizing b with
  | nil => exact blind_pure b
  | cons a xs ih =>
    rw [List.forIn_cons]
    apply blind_bind (hf a b)
    intro r
    cases r with
    | done b => exact blind_pure b
    | yield b => exact ih b

end Rules

theorem blind_requireFile (path message : Text) : Blind (requireFile path message) :=
  blind_ite (blind_bind (blind_test _) fun _ => blind_require _ _) (blind_pure _)

theorem blind_validateValues : Blind validateValues := by
  refine blind_get (fun _ _ _ _ => rfl) fun sh => ?_
  repeat' first
    | exact blind_require _ _
    | refine blind_bind (blind_require _ _) fun _ => ?_

theorem blind_validateModes : Blind validateModes :=
  blind_get (fun _ _ _ _ => rfl) fun _ => blind_bind (blind_require _ _) fun _ =>
    blind_ite (blind_require _ _) (blind_require _ _)

theorem blind_validateSecrets : Blind validateSecrets := by
  apply blind_get_alike
  rintro sh _ ⟨p, q, s, rfl, hp, hq, hs, hapart⟩
  have hsh : sh.Alike { sh with sshPassword := p, sudoPassword := q, hmacSecret := s } :=
    ⟨p, q, s, rfl, hp, hq, hs, hapart⟩
  refine alike_bind (alike_require (by simp only [hp]) _ hsh) ?_
  rintro _ _ s₁ s₁' - h₁
  refine alike_bind (alike_require (by simp only [hs]) _ h₁) ?_
  rintro _ _ s₂ s₂' - h₂
  exact alike_require (by simp only [ne_eq, hs]) _ h₂

theorem blind_validateArgs : Blind validateArgs :=
  blind_bind blind_validateValues fun _ => blind_bind blind_validateModes fun _ =>
    blind_get (fun _ _ _ _ => rfl) fun _ => blind_bind (blind_requireFile _ _) fun _ =>
      blind_bind (blind_requireFile _ _) fun _ => blind_bind blind_validateSecrets fun _ =>
        blind_ite (blind_set fun _ _ _ _ => ⟨rfl, rfl, rfl, rfl, rfl⟩) (blind_pure _)

theorem blind_prompt (what : Text) : Blind (prompt what) :=
  blind_get (fun _ _ _ _ => rfl) fun _ => blind_bind (blind_run _) fun _ =>
    blind_bind (blind_attempt _) fun _ => blind_pure _

theorem blind_promptSshPassword : Blind promptSshPassword := by
  apply blind_get_alike
  intro sh sh' hsh
  have hcondition : (sh'.askPassword && decide (sh'.sshPassword = [])) =
      (sh.askPassword && decide (sh.sshPassword = [])) := by
    obtain ⟨p, q, s, rfl, hp, -⟩ := hsh
    simp only [hp]
  rw [hcondition]
  refine blind_ite (blind_bind (blind_prompt _) fun password => blind_modify ?_) (blind_pure _) sh sh' hsh
  rintro sh _ ⟨p, q, s, rfl, -, hq, hs⟩
  exact ⟨password, q, s, rfl, Iff.rfl, hq, hs⟩

theorem blind_promptSudoPassword : Blind promptSudoPassword := by
  apply blind_get_alike
  intro sh sh' hsh
  have hcondition : (sh'.askSudoPassword && decide (sh'.sudoPassword = [])) =
      (sh.askSudoPassword && decide (sh.sudoPassword = [])) := by
    obtain ⟨p, q, s, rfl, -, hq, -⟩ := hsh
    simp only [hq]
  rw [hcondition]
  refine blind_ite (blind_bind (blind_prompt _) fun password => blind_modify ?_) (blind_pure _) sh sh' hsh
  rintro sh _ ⟨p, q, s, rfl, hp, -, hs, hapart⟩
  exact ⟨p, password, s, rfl, hp, Iff.rfl, hs, hapart⟩

theorem blind_reuseSshPassword : Blind reuseSshPassword := by
  apply blind_get_alike
  intro sh sh' hsh
  have hreuse : sh'.reusePasswordForSudo = sh.reusePasswordForSudo ∧
      decide (sh.sshPassword ≠ []) = decide (sh'.sshPassword ≠ []) := by
    obtain ⟨p, q, s, rfl, hp, -⟩ := hsh
    exact ⟨rfl, by simp only [ne_eq, hp]⟩
  rw [hreuse.1]
  split
  · refine alike_bind (alike_require hreuse.2 _ hsh) fun _ _ s s' _ hs => blind_modify ?_ s s' hs
    rintro sh _ ⟨p, q, s, rfl, hp, -, hs, hapart⟩
    exact ⟨p, p, s, rfl, hp, hp, hs, hapart⟩
  · exact blind_pure _ sh sh' hsh

theorem blind_promptPasswords : Blind promptPasswords :=
  blind_bind blind_promptSshPassword fun _ => blind_bind blind_reuseSshPassword fun _ =>
    blind_promptSudoPassword

theorem blind_program (words : List Text) : Blind (program words) :=
  blind_get_alike fun _ _ hsh => alike_run (by rw [hsh.exported]) hsh

theorem blind_needCmd (name : Text) : Blind (needCmd name) :=
  blind_bind (blind_test _) fun _ => blind_require _ _

theorem blind_ensureBuildDir : Blind ensureBuildDir :=
  blind_get (fun _ _ _ _ => rfl) fun _ => blind_ite
    (blind_bind (blind_program _) fun _ => blind_set fun _ _ _ _ => ⟨rfl, rfl, rfl, rfl, rfl⟩) (blind_pure _)

/-- A file of variables looks the same whatever is in it. -/
theorem alike_writeTempFile {content content' suffix : Text} {sh sh' : Shell}
    (h : lit ".env" <:+ suffix ∨ content = content') (mode : Text) (hsh : sh.Alike sh') :
    AlikeAt Eq (writeTempFile content suffix mode) (writeTempFile content' suffix mode) sh sh' := by
  have hvisible : ∀ dir : Text, (Op.write (dir ++ '/' :: suffix) content).visible =
      (Op.write (dir ++ '/' :: suffix) content').visible := by
    intro dir
    rcases h with hsuffix | rfl
    · have hfile : lit ".env" <:+ dir ++ '/' :: suffix :=
        hsuffix.trans ((List.suffix_cons _ _).trans (List.suffix_append _ _))
      simp only [Op.visible, if_pos hfile]
    · rfl
  refine alike_bind (blind_ensureBuildDir sh sh' hsh) fun _ _ s s' _ hs => ?_
  have hdir : s'.buildDir = s.buildDir := by
    obtain ⟨p, q, t, rfl, -⟩ := hs
    rfl
  change AlikeAt Eq (do
    let _ ← run (.write (s.buildDir ++ '/' :: suffix) [])
    let _ ← program [lit "chmod", mode, s.buildDir ++ '/' :: suffix]
    let _ ← run (.write (s.buildDir ++ '/' :: suffix) content)
    modify fun sh => { sh with resultPath := s.buildDir ++ '/' :: suffix }) (do
    let _ ← run (.write (s'.buildDir ++ '/' :: suffix) [])
    let _ ← program [lit "chmod", mode, s'.buildDir ++ '/' :: suffix]
    let _ ← run (.write (s'.buildDir ++ '/' :: suffix) content')
    modify fun sh => { sh with resultPath := s'.buildDir ++ '/' :: suffix }) s s'
  rw [hdir]
  refine alike_bind (blind_run _ s s' hs) fun _ _ s₁ s₁' _ h₁ => ?_
  refine alike_bind (blind_program _ s₁ s₁' h₁) fun _ _ s₂ s₂' _ h₂ => ?_
  refine alike_bind (alike_run (hvisible _) h₂) fun _ _ s₃ s₃' _ h₃ => ?_
  refine blind_set ?_ s₃ s₃' h₃
  exact fun _ _ _ _ => ⟨rfl, rfl, rfl, rfl, rfl⟩

theorem blind_writeTempFile (content suffix mode : Text) : Blind (writeTempFile content suffix mode) :=
  fun _ _ => alike_writeTempFile (.inr rfl) mode

theorem blind_prepareAskpassHelper : Blind prepareAskpassHelper :=
  blind_bind (blind_writeTempFile _ _ _) fun _ => blind_set fun _ _ _ _ => ⟨rfl, rfl, rfl, rfl, rfl⟩

theorem blind_initTools : Blind initTools := by
  refine blind_bind (blind_needCmd _) fun _ => blind_bind (blind_needCmd _) fun _ => ?_
  apply blind_get_alike
  intro sh sh' hsh
  have hpassword : sh'.sshPassword ≠ [] ↔ sh.sshPassword ≠ [] := by
    obtain ⟨p, q, s, rfl, hp, -⟩ := hsh
    exact not_congr hp
  have htool : Blind (do
      let sh ← get
      if !sh.preflightOnly && !sh.inspectOnly && !sh.skipBuild && sh.localBinary = [] then
        needCmd (lit "go")) :=
    blind_get (fun _ _ _ _ => rfl) fun _ => blind_ite (blind_needCmd _) (blind_pure _)
  simp only [hpassword]
  exact blind_ite (blind_bind blind_prepareAskpassHelper fun _ => htool) htool sh sh' hsh

theorem connectionOptions_alike {sh sh' : Shell} (hsh : sh.Alike sh') :
    sh'.connectionOptions = sh.connectionOptions := by
  obtain ⟨p, q, s, rfl, hp, -⟩ := hsh
  simp only [Shell.connectionOptions, ne_eq, hp]

theorem masked_name (e : Text × Text) : (masked e).1 = e.1 := by
  unfold masked
  split <;> rfl

theorem map_masked_unset (environment : List (Text × Text)) (name : Text) :
    (unset environment name).map masked = unset (environment.map masked) name := by
  simp only [unset, List.filter_map, Function.comp_def, masked_name]

theorem map_masked_assign {environment environment' : List (Text × Text)} {name value value' : Text}
    (h : environment.map masked = environment'.map masked)
    (hvalue : masked (name, value) = masked (name, value')) :
    (assign environment name value).map masked = (assign environment' name value').map masked := by
  simp only [assign, List.map_append, List.map_cons, List.map_nil, map_masked_unset, h, hvalue]

/-- The password for the helper is all that the connections differ in. -/
theorem connectionEnvironment_alike {sh sh' : Shell} (hsh : sh.Alike sh') :
    sh.connectionEnvironment.map masked = sh'.connectionEnvironment.map masked := by
  have hexported := hsh.exported
  obtain ⟨p, q, s, rfl, hp, -⟩ := hsh
  simp only [Shell.connectionEnvironment, ne_eq, hp, hexported]
  split
  · refine map_masked_assign (map_masked_assign (map_masked_assign (map_masked_assign rfl ?_) rfl) rfl) rfl
    simp [masked]
  · rfl

theorem visible_sshCommand {sh sh' : Shell} (hsh : sh.Alike sh') (command : Text)
    {input input' : Option Text} (hinput : (input.map fun _ => ([] : Text)) = input'.map fun _ => []) :
    (sh.sshCommand command input).visible = (sh'.sshCommand command input').visible := by
  have hargs : sh'.sshArgs = sh.sshArgs ∧ sh'.remoteUser = sh.remoteUser ∧
      sh'.remoteHost = sh.remoteHost := by
    have hoptions := connectionOptions_alike hsh
    obtain ⟨p, q, s, rfl, -⟩ := hsh
    exact ⟨congrArg (fun options => lit "-p" :: sh.sshPort :: options) hoptions, rfl, rfl⟩
  simp only [Shell.sshCommand, Op.visible, hargs.1, hargs.2.1, hargs.2.2, hinput,
    connectionEnvironment_alike hsh]

theorem blind_logConnection (program command : Text) : Blind (logConnection program command) :=
  blind_get (fun _ _ _ _ => rfl) fun _ => blind_ite (blind_log _) (blind_pure _)

theorem blind_remoteExec (command : Text) : Blind (remoteExec command) :=
  blind_bind (blind_logConnection _ _) fun _ => blind_get_alike fun _ _ hsh =>
    alike_run (visible_sshCommand hsh command rfl) hsh

theorem alike_remoteExecStdin {sh sh' : Shell} (input input' command : Text) (hsh : sh.Alike sh') :
    AlikeAt Eq (remoteExecStdin input command) (remoteExecStdin input' command) sh sh' :=
  alike_bind (blind_logConnection _ _ sh sh' hsh) fun _ _ _ _ _ hs =>
    alike_run (visible_sshCommand hs command rfl) hs

theorem blind_remoteCopy (source dest : Text) : Blind (remoteCopy source dest) := by
  apply blind_get_alike
  intro sh sh' hsh
  have hfields : sh'.verbose = sh.verbose ∧ sh'.remoteTarget = sh.remoteTarget ∧
      sh'.scpArgs = sh.scpArgs ∧ sh'.scpDestination dest = sh.scpDestination dest := by
    have hoptions := connectionOptions_alike hsh
    obtain ⟨p, q, s, rfl, -⟩ := hsh
    exact ⟨rfl, rfl, congrArg (fun options => lit "-P" :: sh.sshPort :: options ++
      [lit "-o", lit "User=" ++ sh.remoteUser]) hoptions, rfl⟩
  have hvisible : (Op.command (lit "scp" :: sh.scpArgs ++ [lit "--", source, sh.scpDestination dest])
      sh.connectionEnvironment none).visible =
      (Op.command (lit "scp" :: sh'.scpArgs ++ [lit "--", source, sh'.scpDestination dest])
        sh'.connectionEnvironment none).visible := by
    simp only [Op.visible, hfields.2.2.1, hfields.2.2.2, connectionEnvironment_alike hsh]
  have hcopy : ∀ s s', s.Alike s' → AlikeAt Eq
      (do
        let _ ← run (.command (lit "scp" :: sh.scpArgs ++ [lit "--", source, sh.scpDestination dest])
          sh.connectionEnvironment none)
        pure ())
      (do
        let _ ← run (.command (lit "scp" :: sh'.scpArgs ++ [lit "--", source, sh'.scpDestination dest])
          sh'.connectionEnvironment none)
        pure ()) s s' := fun s s' hs =>
    alike_bind (alike_run hvisible hs) fun _ _ s₁ s₁' _ h₁ => blind_pure () s₁ s₁' h₁
  rw [hfields.1, hfields.2.1]
  split
  · exact alike_bind (blind_log _ sh sh' hsh) fun _ _ s s' _ hs => hcopy s s' hs
  · exact hcopy sh sh' hsh

theorem blind_remoteExecPrivileged (command : Text) : Blind (remoteExecPrivileged command) := by
  have hexec : ∀ command, Blind (do
      let _ ← remoteExec command
      pure ()) := fun command => blind_bind (blind_remoteExec command) fun _ => blind_pure ()
  apply blind_get_alike
  intro sh sh' hsh
  have hmode : sh'.effectiveSudoMode = sh.effectiveSudoMode ∧
      (sh'.sudoPassword ≠ [] ↔ sh.sudoPassword ≠ []) := by
    obtain ⟨p, q, s, rfl, -, hq, -⟩ := hsh
    exact ⟨rfl, not_congr hq⟩
  simp only [hmode.1, hmode.2]
  split
  · exact hexec _ sh sh' hsh
  · split
    · exact alike_bind (alike_remoteExecStdin _ _ _ hsh) fun _ _ s s' _ hs => blind_pure () s s' hs
    · exact hexec _ sh sh' hsh

theorem blind_buildBinary : Blind buildBinary := by
  refine blind_get (fun _ _ _ _ => rfl) fun _ =>
    blind_ite (blind_set fun _ _ _ _ => ⟨rfl, rfl, rfl, rfl, rfl⟩) (blind_bind blind_ensureBuildDir fun _ => ?_)
  apply blind_get_alike
  intro sh sh' hsh
  have hfields : sh'.buildDir = sh.buildDir ∧ sh'.goarchValue = sh.goarchValue ∧
      sh'.exported = sh.exported := by
    have hexported := hsh.exported
    obtain ⟨p, q, s, rfl, -⟩ := hsh
    exact ⟨rfl, rfl, hexported⟩
  have hbuild : ∀ (message out : Text) (e : Op), Blind (do
      log message
      let _ ← run e
      modify fun sh => { sh with resultPath := out }) := fun _ _ _ =>
    blind_bind (blind_log _) fun _ => blind_bind (blind_run _) fun _ =>
      blind_set fun _ _ _ _ => ⟨rfl, rfl, rfl, rfl, rfl⟩
  simp only [hfields]
  exact hbuild _ _ _ sh sh' hsh

theorem blind_prepareRemoteWorkDir : Blind prepareRemoteWorkDir :=
  blind_get (fun _ _ _ _ => rfl) fun _ => blind_ite
    (blind_bind blind_ensureBuildDir fun _ => blind_get (fun _ _ _ _ => rfl) fun _ =>
      blind_bind (blind_set fun _ _ _ _ => ⟨rfl, rfl, rfl, rfl, rfl⟩) fun _ =>
        blind_bind (blind_remoteExec _) fun _ => blind_set fun _ _ _ _ => ⟨rfl, rfl, rfl, rfl, rfl⟩)
    (blind_pure _)

theorem blind_installBinary (binary : Text) : Blind (installBinary binary) :=
  blind_bind blind_prepareRemoteWorkDir fun _ => blind_get (fun _ _ _ _ => rfl) fun _ =>
    blind_bind (blind_log _) fun _ => blind_bind (blind_remoteCopy _ _) fun _ =>
      blind_bind (blind_log _) fun _ => blind_remoteExecPrivileged _

theorem blind_resolveAgentAllowIps : Blind resolveAgentAllowIps :=
  blind_get (fun _ _ _ _ => rfl) fun _ => blind_ite
    (blind_bind (blind_remoteExec _) fun _ => blind_bind (blind_require _ _) fun _ =>
      blind_bind (blind_set fun _ _ _ _ => ⟨rfl, rfl, rfl, rfl, rfl⟩) fun _ => blind_log _)
    (blind_pure _)

theorem blind_verifySshPreflight : Blind verifySshPreflight :=
  blind_bind (blind_log _) fun _ => blind_bind (blind_remoteExec _) fun _ => blind_pure _

theorem blind_verifyRemoteBasics : Blind verifyRemoteBasics :=
  blind_bind (blind_log _) fun _ => blind_bind (blind_remoteExec _) fun _ =>
    blind_get (fun _ _ _ _ => rfl) fun _ => blind_remoteExecPrivileged _

theorem blind_runInspect : Blind runInspect :=
  blind_get (fun _ _ _ _ => rfl) fun _ => blind_ite (blind_log _)
    (blind_bind (blind_log _) fun _ => blind_remoteExecPrivileged _)

theorem blind_printSummary : Blind printSummary :=
  blind_get (fun _ _ _ _ => rfl) fun _ => blind_bind (blind_attempt _) fun _ => blind_pure _

theorem blind_installService : Blind installService := by
  refine blind_bind blind_resolveAgentAllowIps fun _ => blind_bind blind_prepareRemoteWorkDir fun _ => ?_
  apply blind_get_alike
  intro sh sh' hsh
  have hname : sh'.serviceName = sh.serviceName ∧ sh'.remoteWorkDir = sh.remoteWorkDir ∧
      sh'.envPath = sh.envPath ∧ sh'.servicePath = sh.servicePath := by
    obtain ⟨p, q, s, rfl, -⟩ := hsh
    exact ⟨rfl, rfl, rfl, rfl⟩
  simp only [hname]
  refine alike_bind (alike_writeTempFile (.inl (List.suffix_append _ _)) _ hsh) fun _ _ s s' _ hs => ?_
  refine (blind_get (fun _ _ _ _ => rfl) fun _ => ?_ : Blind _) s s' hs
  refine blind_bind (blind_set fun _ _ _ _ => ⟨rfl, rfl, rfl, rfl, rfl⟩) fun _ => ?_
  refine blind_bind (blind_writeTempFile _ _ _) fun _ => blind_get (fun _ _ _ _ => rfl) fun _ => ?_
  refine blind_bind (blind_log _) fun _ => blind_bind (blind_remoteExec _) fun _ => ?_
  refine blind_bind (blind_remoteCopy _ _) fun _ => blind_bind (blind_remoteCopy _ _) fun _ => ?_
  exact blind_bind (blind_log _) fun _ => blind_remoteExecPrivileged _

theorem blind_cleanup : Blind cleanup := by
  apply blind_get_alike
  intro sh sh' hsh
  have hfields : sh'.remoteAccessReady = sh.remoteAccessReady ∧
      sh'.remoteCleanupPaths = sh.remoteCleanupPaths ∧ sh'.localSecretFiles = sh.localSecretFiles ∧
      sh'.buildDir = sh.buildDir ∧ sh'.keepArtifact = sh.keepArtifact ∧
      sh'.exported = sh.exported := by
    have hexported := hsh.exported
    obtain ⟨p, q, s, rfl, -⟩ := hsh
    exact ⟨rfl, rfl, rfl, rfl, rfl, hexported⟩
  have hlocal : Blind (do
      for file in sh.localSecretFiles do
        let _ ← attempt (.command [lit "rm", lit "-f", file] sh.exported none)
      if sh.buildDir ≠ [] && !sh.keepArtifact then
        let present ← test (.isDirectory sh.buildDir)
        if present then
          let _ ← attempt (.command [lit "rm", lit "-rf", sh.buildDir] sh.exported none)) :=
    blind_bind (blind_forIn _ _ _ fun _ _ => blind_bind (blind_attempt _) fun _ => blind_pure _) fun _ =>
      blind_ite (blind_bind (blind_test _) fun _ =>
        blind_ite (blind_bind (blind_attempt _) fun _ => blind_pure _) (blind_pure _)) (blind_pure _)
  simp only [hfields]
  split
  · exact alike_bind (alike_attempt (visible_sshCommand hsh _ rfl) hsh) fun _ _ s s' _ hs => hlocal s s' hs
  · exact hlocal sh sh' hsh

theorem blind_withTrap {body : Script Unit} (h : Blind body) : Blind (withTrap body) := by
  intro sh sh' hsh
  apply related_attempt (h sh sh' hsh)
  intro r r' hr
  cases hr with
  | ok h hs => exact blind_cleanup _ _ hs
  | error e hs =>
    apply related_bind (blind_cleanup _ _ hs)
    · rintro _ _ ⟨-, hs'⟩
      exact .error e hs'
    · intro x y hxy
      cases hxy with
      | error e hs' => exact .error e hs'

theorem blind_deploy : Blind deploy := by
  refine blind_bind blind_initTools fun _ => ?_
  refine blind_bind (blind_set fun _ _ _ _ => ⟨rfl, rfl, rfl, rfl, rfl⟩) fun _ => ?_
  refine blind_get (fun _ _ _ _ => rfl) fun _ => blind_ite ?_ (blind_ite ?_ ?_)
  · exact blind_bind blind_verifySshPreflight fun _ => blind_log _
  · exact blind_bind blind_verifyRemoteBasics fun _ => blind_bind blind_runInspect fun _ => blind_log _
  · refine blind_bind blind_buildBinary fun _ => blind_get (fun _ _ _ _ => rfl) fun _ => ?_
    refine blind_bind (blind_installBinary _) fun _ => blind_bind blind_verifyRemoteBasics fun _ => ?_
    have hend : Blind (do
        runInspect
        printSummary) := blind_bind blind_runInspect fun _ => blind_printSummary
    exact blind_ite (blind_bind blind_installService fun _ => hend) hend

theorem alike_returns {α β : Type} {R : α → β → Prop} {x : Script α} {y : Script β} {a : α} {b : β}
    {sh sh' s s' : Shell} (hx : x.Returns sh a s) (hy : y.Returns sh' b s') (h : R a b)
    (hs : s.Alike s') : AlikeAt R x y sh sh' := by
  unfold AlikeAt
  rw [show x sh = ret (a, s) from hx, show y sh' = ret (b, s') from hy]
  exact .ok h hs

end Script

section Job
variable {settings : RunnerSettings} {environ : List (Text × Text)} {job : SetupJob}
  {credentials : AgentCredentials} {sshSecret path : Text} {phase : Phase} {identityFile : Option Text}
  {command : List Text}

/-- With other secrets the variables are the same but for the secrets. -/
theorem Runner.alike_loaded {sshSecret' secret' : Text} (hapart : Apart environ) (h : sshSecret ≠ [])
    (h' : sshSecret' ≠ [])
    (hsecret : phase = .install → credentials.secret ≠ []) (hsecret' : phase = .install → secret' ≠ []) :
    (loaded settings environ job credentials sshSecret phase path).Alike
      (loaded settings environ job { credentials with secret := secret' } sshSecret' phase path) := by
  have hparsed : parsed settings (bareEnvironment environ) job { credentials with secret := secret' }
      phase path = parsed settings (bareEnvironment environ) job credentials phase path := by
    unfold parsed Shell.authenticated
    cases job.authMethod <;> cases phase <;> rfl
  refine ⟨_, _, _, by unfold loaded; rw [hparsed], ?_, Iff.rfl, ?_, ?_⟩
  · unfold loaded
    by_cases hauth : job.authMethod = .password <;> simp [hauth, h, h']
  · unfold loaded
    by_cases hphase : phase = .install
    · simp [hphase, hsecret hphase, hsecret' hphase]
    · simp [hphase]
  · change Apart (parsed settings (bareEnvironment environ) job credentials phase path).environment
    rw [(parsed_fields settings (bareEnvironment environ) job credentials phase path).environment]
    exact hapart.bareEnvironment

theorem Script.alike_loadSecrets {sshSecret' secret' : Text} (hapart : Apart environ)
    (haccepted : Accepted job sshSecret) (haccepted' : Accepted job sshSecret') (hsecret : phase = .install → credentials.secret ≠ [])
    (hsecret' : phase = .install → secret' ≠ []) :
    AlikeAt Eq loadEnvironmentSecrets loadEnvironmentSecrets
      (Runner.parsed settings (Runner.scriptEnvironment environ job credentials sshSecret phase) job
        credentials phase path)
      (Runner.parsed settings
        (Runner.scriptEnvironment environ job { credentials with secret := secret' } sshSecret' phase) job
        { credentials with secret := secret' } phase path) :=
  alike_returns (returns_loadSecrets haccepted hsecret) (returns_loadSecrets haccepted' hsecret') rfl
    (Runner.alike_loaded hapart haccepted.secret haccepted'.secret hsecret hsecret')

end Job

/-- How often a program is started. -/
def Op.starts (program : Text) (asked : List Op) : Nat :=
  asked.countP fun
    | .command words _ _ => words.head? = some program
    | _ => false

end VpnControl.Deploy
