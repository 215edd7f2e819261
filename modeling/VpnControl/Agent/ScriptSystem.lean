import VpnControl.Agent.ScriptRefinement
import VpnControl.Agent.LockedRuns
import VpnControl.Lib.SystemRefinement

namespace VpnControl.Agent
open Awg Strings UnixFiles Effects Prog System

section Proper

/-- The backups of a call bear names of backups. -/
def BackupSet.Proper (b : BackupSet) : Prop := b.configPath.Proper ∧ b.clientsTablePath.Proper

namespace Service
variable (s : Service) {P : Op → Prop} {backups : BackupSet}

theorem uses_rollback {α : Type} (hconfig : P (.restoreFile backups.configPath .config (lit "600")))
    (htable : P (.restoreFile backups.clientsTablePath .clientsTable (lit "600")))
    (hremove : P (.removeFile .clientsTable)) (hsync : P .syncConf) (cause : ServiceError) :
    (rollback backups cause : Docker α).Uses P := by
  refine uses_bind (uses_ask hconfig) fun _ => ?_
  refine uses_bind ?_ fun _ => uses_bind (uses_ask hsync) fun _ => trivial
  unfold restoreClientsTable
  split
  · exact uses_ask htable
  · exact uses_ask hremove

theorem uses_withRollback {p : Docker Unit} (hp : p.Uses P)
    (hrollback : ∀ cause, (rollback backups cause : Docker Unit).Uses P) :
    (withRollback backups p).Uses P := by
  refine uses_bind (uses_attempt hp) fun r => ?_
  cases r with
  | ok _ => trivial
  | error cause => exact hrollback cause

theorem isMode_600 : isMode (lit "600") = true := by
  simp only [lit_eq]
  decide

theorem proper_readState : s.readState.Uses Op.Proper := by
  refine uses_bind (uses_run (uses_ask trivial)) fun configText => ?_
  refine uses_bind (uses_lift _) fun cfg => ?_
  refine uses_bind (uses_run (uses_ask trivial)) fun tableText => ?_
  refine uses_bind (uses_ask trivial) fun iter => ?_
  refine uses_bind (uses_lift _) fun table => ?_
  exact uses_bind (uses_run (uses_ask trivial)) fun runtimeText => trivial

theorem proper_readTrimmed {file : FilePath} (h : file.Proper) :
    (s.readTrimmed file).Uses Op.Proper :=
  uses_bind (uses_run (uses_ask h)) fun _ => uses_bind uses_refuseIf fun _ => trivial

theorem proper_prepareIssue (req : IssueRequest) (endpointHost : Text) :
    (s.prepareIssue req endpointHost).Uses Op.Proper := by
  refine uses_bind s.proper_readState ?_
  rintro ⟨cfg, table, runtime⟩
  refine uses_bind (uses_lift _) fun _ => ?_
  refine uses_bind (uses_run (uses_ask trivial)) fun privateKey => ?_
  refine uses_bind (uses_run (uses_ask trivial)) fun publicKey => ?_
  refine uses_bind uses_refuseIf fun _ => ?_
  refine uses_bind (uses_lift _) fun clientIP => ?_
  refine uses_bind (s.proper_readTrimmed trivial) fun serverPublicKey => ?_
  refine uses_bind (s.proper_readTrimmed trivial) fun psk => ?_
  refine uses_bind (uses_lift _) fun _ => ?_
  refine uses_bind (uses_ask trivial) fun now => ?_
  refine uses_bind (uses_lift _) fun clientConfig => ?_
  exact uses_bind (uses_lift _) fun vpnURL => trivial

theorem proper_prepareRevoke (publicKey : Text) : (s.prepareRevoke publicKey).Uses Op.Proper := by
  refine uses_bind s.proper_readState ?_
  rintro ⟨cfg, table, runtime⟩
  refine uses_bind uses_refuseIf fun _ => ?_
  exact uses_bind (uses_lift _) fun _ => trivial

theorem proper_backup : backup.UsesTo Op.Proper BackupSet.Proper := by
  refine usesTo_bind (uses_ask trivial).usesTo fun now _ => ?_
  have hsuffix : lit ".bak." <+: lit ".bak." ++ now.utc ++ ['.'] ++ intLiteral now.unixNano := by
    rw [List.append_assoc, List.append_assoc]
    exact List.prefix_append ..
  refine usesTo_bind (uses_run (uses_ask trivial)).usesTo fun info _ => ?_
  refine usesTo_bind (uses_run (uses_ask ⟨trivial, hsuffix⟩)).usesTo fun _ _ => ?_
  exact usesTo_bind (uses_run (uses_ask ⟨trivial, hsuffix⟩)).usesTo fun _ _ => ⟨hsuffix, hsuffix⟩

theorem proper_mutate (cfg : Config) (table : ClientsTable)
    (verify : RuntimeStatus → Except ServiceError Unit) :
    (mutate cfg table verify).Uses Op.Proper := by
  have hwrite : (writeState cfg table).Uses Op.Proper :=
    uses_bind (uses_run (uses_ask ⟨.inl rfl, isMode_600⟩)) fun _ =>
      uses_bind (uses_lift _) fun _ => uses_run (uses_ask ⟨.inr rfl, isMode_600⟩)
  refine uses_bind hwrite fun _ => ?_
  refine uses_bind (uses_run (uses_ask trivial)) fun _ => ?_
  refine uses_bind (uses_run (uses_ask trivial)) fun text => ?_
  exact uses_lift _

theorem proper_guarded {α β : Type} {prepare : Docker α} (hprepare : prepare.Uses Op.Proper)
    {change : α → Docker Unit} (hchange : ∀ a, (change a).Uses Op.Proper) (answer : α → β) :
    (do
      let a ← prepare
      let backups ← backup
      withRollback backups (change a)
      return answer a : Docker β).Uses Op.Proper := by
  refine uses_bind hprepare fun a => UsesTo.uses (R := fun _ => True) ?_
  refine usesTo_bind proper_backup fun backups hb => Uses.usesTo ?_
  refine uses_bind (uses_withRollback (hchange a) fun cause => ?_) fun _ => trivial
  exact uses_rollback ⟨hb.1, trivial, isMode_600⟩ ⟨hb.2, trivial, isMode_600⟩ trivial trivial cause

theorem proper_issueLocked (req : IssueRequest) (endpointHost : Text) :
    (s.issueLocked req endpointHost).Uses Op.Proper :=
  proper_guarded (s.proper_prepareIssue req endpointHost) (fun r => proper_mutate r.1 r.2.1 _)
    fun r => r.2.2

theorem proper_revokeLocked (publicKey : Text) : (s.revokeLocked publicKey).Uses Op.Proper :=
  proper_guarded (s.proper_prepareRevoke publicKey)
    (fun _ => uses_bind (uses_lift _) fun _ => proper_mutate ..) fun _ => RevokeResult.mk true publicKey

/-- A call works on the service's own files only. -/
theorem proper_call (c : Call) : (s.call c).Uses (LockOp.Only Op.Proper) := by
  cases c with
  | issue req =>
    apply uses_map
    unfold issue
    simp only
    split
    · trivial
    · split
      · trivial
      · exact uses_withLock (s.proper_issueLocked req _)
  | revoke publicKey =>
    apply uses_map
    unfold revoke
    simp only
    split
    · trivial
    · exact uses_withLock (s.proper_revokeLocked _)

end Service
end Proper

section Recoverable

/-- The two files are as they were, or their backups hold what they were. -/
def Recoverable (before w : World) : Prop :=
  Unchanged before w ∨ ∃ backups, Backed before backups w

variable {allowed : (e : Op) → e.Res → Prop} {before : World}

namespace Service

theorem recoverable_guarded {α β : Type} {prepare : Docker α} (hprepare : prepare.Uses Op.ReadOnly)
    {change : α → Docker Unit} (hchange : ∀ a, (change a).Uses Op.SparesBackups) (answer : α → β) :
    always (dockerEnv allowed) (Recoverable before) (do
      let a ← prepare
      let backups ← backup
      withRollback backups (change a)
      return answer a) before := by
  have hspares : ∀ w (e : Op) r w', e.Spares → dockerEnv allowed w e r w' → Unchanged before w →
      Unchanged before w' := fun w e r w' he hstep hsame => hsame.step he hstep.1
  have hreads : prepare.Uses Op.Spares := hprepare.mono fun _ => Op.ReadOnly.spares
  refine always_bind (P := fun _ w => Unchanged before w)
    (always_mono (always_uses hspares hreads (.refl before)) fun _ => .inl)
    (wp_uses hspares hreads (.refl before)) fun a w hw => ?_
  refine always_bind (P := onOk fun backups w' => Backed before backups w')
    (always_mono (always_uses hspares uses_backup hw) fun _ => .inl)
    (wp_mono (onOk_backup w) fun out w' hbacked backups hout =>
      (hbacked backups hout).of_unchanged hw) fun backups w' hbacked => ?_
  -- from here on every operation spares the backups
  have hguarded : (withRollback backups (change a)).Uses Op.SparesBackups :=
    uses_withRollback (hchange a) fun cause => uses_rollback (by simp [Op.SparesBackups, Op.target])
      (by simp [Op.SparesBackups, Op.target]) (by simp [Op.SparesBackups, Op.target])
      (by simp [Op.SparesBackups, Op.target]) cause
  refine always_mono (always_uses (I := Backed before backups)
    (fun w e r w' he hstep hb => hb.step he hstep.1) (uses_bind hguarded fun _ => trivial)
    (hbacked backups rfl)) fun _ hb => .inr ⟨backups, hb⟩

variable (s : Service)

theorem recoverable_issueLocked (req : IssueRequest) (endpointHost : Text) :
    always (dockerEnv allowed) (Recoverable before) (s.issueLocked req endpointHost) before :=
  recoverable_guarded (s.uses_prepareIssue req endpointHost) (fun r => uses_mutate r.1 r.2.1 _)
    fun r => r.2.2

theorem recoverable_revokeLocked (publicKey : Text) :
    always (dockerEnv allowed) (Recoverable before) (s.revokeLocked publicKey) before :=
  recoverable_guarded (s.uses_prepareRevoke publicKey) (fun r => uses_removePeer publicKey r.1 r.2)
    fun _ => RevokeResult.mk true publicKey

end Service

/-- A critical section that will leave a good state, and until then can be undone from what
is on the disk. -/
def Undoable (fmt : FloatFormat) (first : Config) (c : Call) (h : History)
    (p : Prog Op Op.Res ServiceError Reply) (w : World) : Prop :=
  wp (dockerEnv KeyAnswers) p (fun out w' => Good fmt first w' (h ++ [(c, out)])) w ∧
    ∃ before, Good fmt first before h ∧
      always (dockerEnv KeyAnswers) (Recoverable before) p w

theorem discipline_undoable (fmt : FloatFormat) (first : Config) :
    Discipline (dockerEnv KeyAnswers) (fun _ _ => False) (Good fmt first) (Undoable fmt first) where
  op h hact := by
    obtain ⟨hw, before, hgood, halways⟩ := h
    exact ⟨hw _ _ hact, before, hgood, halways.2 _ _ hact⟩
  exit h hout := by
    obtain ⟨hw, -⟩ := h
    rw [eq_lift hout, wp_lift] at hw
    exact hw
  tickGood h := h.elim
  tickInside h := h.elim

theorem outside_undoable (s : Service) (first : Config) (c : Call) :
    Outside (Good s.fmt first) (Undoable s.fmt first) c (s.call c) := by
  cases c with
  | issue req =>
    unfold Service.call Service.issue
    simp only
    split
    · exact .ended (.error ServiceError.nameRequired)
    · split
      · exact .ended (.error ServiceError.endpointHostRequired)
      · rw [map_withLock]
        exact .before _ _ fun w h hgood => ⟨good_issue hgood req _, w, hgood,
          always_map _ (s.recoverable_issueLocked req _)⟩
  | revoke publicKey =>
    unfold Service.call Service.revoke
    simp only
    split
    · exact .ended (.error ServiceError.publicKeyRequired)
    · rw [map_withLock]
      exact .before _ _ fun w h hgood => ⟨good_revoke hgood _, w, hgood,
        always_map _ (s.recoverable_revokeLocked _)⟩

end Recoverable

section Runs
variable (go : GoTexts) (s : Service) (container : Text)

/-- A container whose client may fail in every run of `docker`, with the answers restricted to
those that are `allowed`. -/
def containerEnv (allowed : (e : Op) → e.Res → Prop) : Env Container Op Op.Res :=
  fun c e r c' => containerStep go s.opts container c e r c' ∧ allowed e r

/-- The steps of any number of agent processes on one container. -/
abbrev ContainerStep :
    System Container Op.Res Text ServiceError Reply Call →
      System Container Op.Res Text ServiceError Reply Call → Prop :=
  Step (containerEnv go s container KeyAnswers) (fun _ _ => False) s.call

variable {go s container}

/-- Runs from any state in which the calls work on the service's own files. -/
theorem view_containerRuns (hsep : s.opts.Separate container)
    {y₀ y : System Container Op.Res Text ServiceError Reply Call} (hproper : y₀.Using Op.Proper)
    (hrun : Relation.ReflTransGen (ContainerStep go s container) y₀ y) :
    Relation.ReflTransGen (AgentStep s) (y₀.view (Container.view s.opts))
      (y.view (Container.view s.opts)) := by
  have henv : ∀ (t : Container) (e : Op) (r : e.Res) (t' : Container), e.Proper →
      containerEnv go s container KeyAnswers t e r t' →
        dockerEnv KeyAnswers (t.view s.opts) e r (t'.view s.opts) :=
    fun _ _ _ _ he hstep => ⟨containerStep_refines hsep he hstep.1, hstep.2⟩
  exact view_runs henv (fun _ _ h => h) s.proper_call hproper hrun

theorem using_idle (c : Container) :
    ({ shared := c } : System Container Op.Res Text ServiceError Reply Call).Using Op.Proper := by
  intro i d p h
  cases h

/-- Whatever the scripts do in the container, failing or killed at any command, is a run of the
service over its files as it knows them. -/
theorem container_runs_refine (hsep : s.opts.Separate container) {c : Container}
    {y : System Container Op.Res Text ServiceError Reply Call}
    (hrun : Relation.ReflTransGen (ContainerStep go s container) { shared := c } y) :
    Relation.ReflTransGen (AgentStep s) { shared := c.view s.opts }
      (y.view (Container.view s.opts)) :=
  view_containerRuns hsep (using_idle c) hrun

/-- A service with the default paths. -/
def defaultService : Service where
  opts := defaultOptions
  envEndpointHost := []
  fmt := ClientsTable.Sample.floatFormat
  deflate := id

/-- A container with the default paths, a config with one client and the keys. -/
def defaultContainer : Container where
  files path :=
    if path = lit "/opt/amnezia/awg/awg0.conf" then some ⟨exampleText, lit "600"⟩
    else if path = lit "/opt/amnezia/awg/wireguard_server_public_key.key" then
      some ⟨lit "server\n", lit "600"⟩
    else if path = lit "/opt/amnezia/awg/wireguard_psk.key" then some ⟨lit "psk\n", lit "600"⟩
    else none
  applied := some exampleText

def undisturbedDefault : Handler Container Op Op.Res :=
  undisturbedContainer ⟨id, id, id, id⟩ defaultOptions (lit "amnezia-awg2")

theorem containerEnv_undisturbed (c : Container) (e : Op)
    (h : checked e (undisturbedDefault c e).1 = true) :
    containerEnv ⟨id, id, id, id⟩ defaultService (lit "amnezia-awg2") KeyAnswers c e
      (undisturbedDefault c e).1 (undisturbedDefault c e).2 :=
  ⟨DockerClient.containerStep_undisturbed _ _ _ c e, of_decide_eq_true h⟩

/-- A client is issued and then another one revoked; in the middle the config has been written
and the interface not yet synced. -/
def scriptSession : Option ((Docker Reply × Container) × (Docker Reply × Container) ×
    (Docker Reply × Container)) := do
  let x ← (issueSection defaultService).play undisturbedDefault checked 40 defaultContainer
  let y ← (revokeSection defaultService).play undisturbedDefault checked 9 x.2
  let z ← y.1.play undisturbedDefault checked 40 y.2
  return (x, y, z)

theorem scriptSession_outcomes :
    (scriptSession.any fun z => z.1.1.outcome.bind issuedKey = some (lit "public") ∧
      z.2.1.1.outcome.isNone ∧
      z.2.1.2.files defaultOptions.configPath ≠ z.1.2.files defaultOptions.configPath ∧
      z.2.2.1.outcome.bind revokedKey = some (lit "a")) = true := by
  decide +kernel

/-- What the two calls do to the container. -/
structure ScriptSession (r : IssueResult) (r' : RevokeResult) (c c' c'' : Container)
    (p p' p'' : Docker Reply) : Prop where
  issue : (issueSection defaultService).play undisturbedDefault checked 40 defaultContainer =
    some (p, c)
  issued : p.outcome = some (.ok (.issued r))
  issuedKey : r.publicKey = lit "public"
  change : (revokeSection defaultService).play undisturbedDefault checked 9 c = some (p', c')
  changed : c'.files defaultOptions.configPath ≠ c.files defaultOptions.configPath
  revoke : p'.play undisturbedDefault checked 40 c' = some (p'', c'')
  revoked : p''.outcome = some (.ok (.revoked r'))
  revokedKey : r'.publicKey = lit "a"

theorem scriptSession_played : ∃ r r' c c' c'' p p' p'', ScriptSession r r' c c' c'' p p' p'' := by
  obtain ⟨⟨⟨p, c⟩, ⟨p', c'⟩, p'', c''⟩, hsession, hkeys⟩ :=
    (Option.any_eq_true ..).mp scriptSession_outcomes
  simp only [scriptSession, Option.bind_eq_bind, Option.bind_eq_some_iff, Option.pure_def,
    Option.some.injEq, Prod.mk.injEq] at hsession
  obtain ⟨_, hissue, _, hchange, _, hrevoke, rfl, rfl, rfl⟩ := hsession
  simp only [decide_eq_true_eq] at hkeys
  obtain ⟨hissued, -, hchanged, hrevoked⟩ := hkeys
  obtain ⟨r, hout, hr⟩ := issued_of_issuedKey hissued
  obtain ⟨r', hout', hr'⟩ := revoked_of_revokedKey hrevoked
  exact ⟨r, r', c, c', c'', p, p', p'', hissue, hout, hr, hchange, hchanged, hrevoke, hout', hr'⟩

/-- The steps on the container with the default paths. -/
abbrev DefaultStep :
    System Container Op.Res Text ServiceError Reply Call →
      System Container Op.Res Text ServiceError Reply Call → Prop :=
  ContainerStep ⟨id, id, id, id⟩ defaultService (lit "amnezia-awg2")

section Session
variable {r : IssueResult} {r' : RevokeResult} {c c' c'' : Container} {p p' p'' : Docker Reply}

theorem ScriptSession.issue_runs (h : ScriptSession r r' c c' c'' p p' p'') :
    Relation.ReflTransGen DefaultStep { shared := defaultContainer }
      { shared := c, history := [(exampleIssue, .ok (.issued r))] } :=
  runs_call (i := 0) containerEnv_undisturbed (call_exampleIssue defaultService) rfl rfl h.issue
    h.issued

/-- One process has issued a client, and another one still has to do `p`. -/
def revoking (r : IssueResult) (c : Container) (p : Docker Reply) :
    System Container Op.Res Text ServiceError Reply Call where
  shared := c
  holder := some 1
  running := Function.update (fun _ => none) 1 (some (exampleRevoke, unlock p))
  history := [(exampleIssue, .ok (.issued r))]

theorem revoking_running : (revoking r c p).running 1 = some (exampleRevoke, unlock p) := by
  simp [revoking]

theorem revoking_runs {n : Nat} (h : p.play undisturbedDefault checked n c = some (p', c')) :
    Relation.ReflTransGen DefaultStep (revoking r c p) (revoking r c' p') := by
  have hruns : Relation.ReflTransGen DefaultStep (revoking r c p) _ :=
    runs_play containerEnv_undisturbed h revoking_running
  simp only [revoking, Function.update_idem] at hruns
  exact hruns

theorem ScriptSession.change_runs (h : ScriptSession r r' c c' c'' p p' p'') :
    Relation.ReflTransGen DefaultStep { shared := defaultContainer } (revoking r c' p') := by
  have hbegin : Relation.ReflTransGen DefaultStep
      { shared := c, history := [(exampleIssue, .ok (.issued r))] }
      (revoking r c (revokeSection defaultService)) :=
    runs_begin (i := 1) (call_exampleRevoke defaultService) rfl rfl
  exact (h.issue_runs.trans hbegin).trans (revoking_runs h.change)

theorem ScriptSession.revoke_runs (h : ScriptSession r r' c c' c'' p p' p'') :
    Relation.ReflTransGen DefaultStep { shared := defaultContainer }
      { shared := c'',
        history := [(exampleIssue, .ok (.issued r)), (exampleRevoke, .ok (.revoked r'))] } := by
  have hend : Relation.ReflTransGen DefaultStep (revoking r c'' p'') _ :=
    runs_end h.revoked revoking_running
  simp only [revoking, Function.update_idem, Function.update_eq_self] at hend
  exact (h.change_runs.trans (revoking_runs h.revoke)).trans hend

end Session

theorem container_runs_refine_revoked : ∃ r r' c,
    Relation.ReflTransGen (AgentStep defaultService)
      { shared := defaultContainer.view defaultOptions }
      { shared := c,
        history := [(exampleIssue, .ok (.issued r)), (exampleRevoke, .ok (.revoked r'))] } ∧
      r.publicKey = lit "public" ∧ r'.publicKey = lit "a" := by
  obtain ⟨r, r', _, _, c, _, _, _, h⟩ := scriptSession_played
  exact ⟨r, r', c.view defaultOptions, container_runs_refine (s := defaultService)
    separate_defaultOptions h.revoke_runs, h.issuedKey, h.revokedKey⟩

/-- At every instant of every run, the container holds a state that agrees with the calls that
are over: in its place, or in the backups of the call that is being made. -/
theorem recoverable_of_runs (hsep : s.opts.Separate container) {c : Container} {text : Text}
    {first : Config} (hfile : (c.files s.opts.configPath).map File.content = some text)
    (hparse : parseConfig text = .ok first) (hvalid : first.validate = .ok ())
    {y : System Container Op.Res Text ServiceError Reply Call}
    (hrun : Relation.ReflTransGen (ContainerStep go s container) { shared := c } y)
    (hrec : Recovered y.history) :
    ∃ before, Consistent s.fmt first before y.history ∧
      Recoverable before (y.shared.view s.opts) := by
  have hstart : (c.view s.opts).files .config = some text := by
    have hproper : FilePath.config.Proper := trivial
    rw [view_files hproper]
    exact hfile
  have hinv := invariant_reachable (discipline_undoable s.fmt first) (outside_undoable s first)
    (fun _ => consistent_start hstart hparse hvalid) (view_containerRuns hsep (using_idle c) hrun)
  unfold Invariant at hinv
  cases hh : y.holder with
  | none =>
    simp only [System.view, hh] at hinv
    exact ⟨_, hinv.1 hrec, .inl (.refl _)⟩
  | some i =>
    simp only [System.view, hh] at hinv
    obtain ⟨⟨d, p, -, -, before, hgood, halways⟩, -⟩ := hinv
    exact ⟨before, hgood hrec, always_start halways⟩

/-- In the middle of a revocation: the config in its place is no longer the one before. -/
theorem recoverable_of_runs_revoking : ∃ (r : IssueResult) (c c' : Container),
    c'.files defaultOptions.configPath ≠ c.files defaultOptions.configPath ∧
    Relation.ReflTransGen DefaultStep { shared := defaultContainer }
      { shared := c, history := [(exampleIssue, .ok (.issued r))] } ∧
    ∃ before, Consistent defaultService.fmt
        (exampleConfig [{ publicKey := lit "a", allowedIPs := [lit "10.8.1.2/32"] }]) before
        [(exampleIssue, .ok (.issued r))] ∧
      Recoverable before (c'.view defaultOptions) := by
  obtain ⟨r, _, c, c', _, _, p, _, h⟩ := scriptSession_played
  have hfile : (defaultContainer.files defaultService.opts.configPath).map File.content =
      some exampleText := by decide +kernel
  have hrec : Recovered [(exampleIssue, .ok (.issued r))] := by simp [Recovered]
  exact ⟨r, c, c', h.changed, h.issue_runs, recoverable_of_runs (s := defaultService)
    separate_defaultOptions hfile (by decide +kernel) (by decide +kernel) h.change_runs hrec⟩

end Runs
end VpnControl.Agent
