import VpnControl.Agent.Prepare

namespace VpnControl.Agent
open Awg Strings Effects Prog

/-- The operations of an execution with their answers. -/
abbrev Log : Type := List (Sigma Op.Res)

/-- The container, answering in any way, with a record of what it was asked. -/
abbrev recorded (allowed : (e : Op) → e.Res → Prop) : Env (World × Log) Op Op.Res :=
  logged (dockerEnv allowed)

/-- The two files that make up the state of the service have their content and existence
from before. -/
structure Unchanged (before after : World) : Prop where
  config : after.files .config = before.files .config
  clientsTable : after.files .clientsTable = before.files .clientsTable

theorem Unchanged.refl (w : World) : Unchanged w w := ⟨rfl, rfl⟩

/-- The operation writes neither of the two files. -/
def Op.Spares (e : Op) : Prop := e.target ≠ some .config ∧ e.target ≠ some .clientsTable

/-- The operation overwrites no backup. -/
def Op.SparesBackups (e : Op) : Prop :=
  ∀ suffix, e.target ≠ some (.configBackup suffix) ∧ e.target ≠ some (.clientsTableBackup suffix)

theorem Op.ReadOnly.spares {e : Op} (h : e.ReadOnly) : e.Spares := by
  simp [Op.Spares, h.1]

/-- The backups hold what the two files held in `before`. -/
structure Backed (before : World) (backups : BackupSet) (w : World) : Prop where
  config : w.files backups.configPath = before.files .config
  existed : backups.clientsTableExisted = (before.files .clientsTable).isSome
  clientsTable : backups.clientsTableExisted = true →
    w.files backups.clientsTablePath = before.files .clientsTable
  paths : ∃ suffix, backups.configPath = .configBackup suffix ∧
    backups.clientsTablePath = .clientsTableBackup suffix

theorem Backed.step {before w w' : World} {backups : BackupSet} {e : Op} {r : e.Res}
    (h : Backed before backups w) (he : e.SparesBackups) (hstep : dockerStep w e r w') :
    Backed before backups w' := by
  obtain ⟨suffix, hconfig, htable⟩ := h.paths
  have hc : w'.files backups.configPath = w.files backups.configPath := by
    rw [hconfig]
    exact dockerStep_frame hstep (he suffix).1
  have ht : w'.files backups.clientsTablePath = w.files backups.clientsTablePath := by
    rw [htable]
    exact dockerStep_frame hstep (he suffix).2
  exact ⟨by rw [hc, h.config], h.existed, fun hex => by rw [ht, h.clientsTable hex], h.paths⟩

theorem Backed.of_unchanged {before before' w : World} {backups : BackupSet}
    (h : Backed before' backups w) (hsame : Unchanged before before') : Backed before backups w :=
  ⟨by rw [h.config, hsame.config], by rw [h.existed, hsame.clientsTable],
    fun hex => by rw [h.clientsTable hex, hsame.clientsTable], h.paths⟩

theorem Unchanged.step {before w w' : World} {e : Op} {r : e.Res} (h : Unchanged before w)
    (he : e.Spares) (hstep : dockerStep w e r w') : Unchanged before w' :=
  ⟨by rw [dockerStep_frame hstep he.1, h.config], by rw [dockerStep_frame hstep he.2, h.clientsTable]⟩

section Rules
variable {allowed : (e : Op) → e.Res → Prop} {α β : Type}

/-- Errors come with the two files unwritten. -/
def Spared (before : World) (st : World × Log) : Prop :=
  Unchanged before st.1 ∧ ∀ e ∈ st.2, e.1.Spares

theorem spared_uses {before : World} {p : Docker α} (hp : p.Uses Op.Spares) {st : World × Log}
    (hst : Spared before st) : wp (recorded allowed) p (fun _ => Spared before) st := by
  apply wp_uses (P := Op.Spares) _ hp hst
  rintro st e r st' he ⟨⟨hstep, -⟩, hlog⟩ ⟨hsame, hops⟩
  refine ⟨hsame.step he hstep, ?_⟩
  rw [hlog]
  simpa [or_imp, forall_and] using ⟨hops, he⟩

theorem backed_uses {before : World} {backups : BackupSet} {p : Docker α}
    (hp : p.Uses Op.SparesBackups) {st : World × Log} (hst : Backed before backups st.1) :
    wp (recorded allowed) p (fun _ st' => Backed before backups st'.1) st := by
  apply wp_uses (P := Op.SparesBackups) (I := fun st : World × Log => Backed before backups st.1) _ hp hst
  rintro st e r st' he ⟨⟨hstep, -⟩, -⟩ h
  exact h.step he hstep

theorem onOk_recorded {P : α → World → Prop} {p : Docker α} {st : World × Log}
    (h : wp (dockerEnv allowed) p (onOk P) st.1) :
    wp (recorded allowed) p (onOk fun a st' => P a st'.1) st :=
  wp_refine Prod.fst (fun _ _ _ _ hstep => hstep.1) h

end Rules

namespace Service
variable {allowed : (e : Op) → e.Res → Prop} (s : Service)

theorem uses_backup : backup.Uses Op.Spares := by
  refine uses_bind (uses_ask (by simp [Op.Spares, Op.target])) fun now => ?_
  refine uses_bind (uses_run (uses_ask (by simp [Op.Spares, Op.target]))) fun info => ?_
  refine uses_bind (uses_run (uses_ask (by simp [Op.Spares, Op.target]))) fun _ => ?_
  exact uses_bind (uses_run (uses_ask (by simp [Op.Spares, Op.target]))) fun _ => trivial

theorem onOk_backup (w : World) :
    wp (dockerEnv allowed) backup (onOk fun backups w' => Backed w backups w') w := by
  refine wp_onOk_bind (Reads.onOk (reads_ask (e := .now) ⟨rfl, by simp⟩)) ?_
  rintro now w ⟨rfl, -⟩
  refine wp_onOk_bind (Reads.onOk (reads_fileInfo .clientsTable)) ?_
  rintro info w ⟨rfl, hinfo⟩
  refine wp_onOk_bind (onOk_backupFile _ _ _) ?_
  rintro _ w₁ rfl
  refine wp_onOk_bind (onOk_backupFile _ _ _) ?_
  rintro _ w₂ rfl
  apply wp_onOk_ret
  refine ⟨?_, hinfo, fun hex => ?_, _, rfl, rfl⟩
  · rw [World.put_of_ne _ (by simp), World.put_self, backupContent]
    cases w.files .config <;> rfl
  · rw [World.put_self, backupContent, World.put_of_ne _ (by simp)]
    change info.fileExists = true at hex
    rw [hinfo, Option.isSome_iff_exists] at hex
    obtain ⟨text, htext⟩ := hex
    rw [htext]

theorem uses_writeState (cfg : Config) (table : ClientsTable) :
    (writeState cfg table).Uses Op.SparesBackups :=
  uses_bind (uses_run (uses_ask (by simp [Op.SparesBackups, Op.target]))) fun _ =>
    uses_bind (uses_lift _) fun _ => uses_run (uses_ask (by simp [Op.SparesBackups, Op.target]))

theorem uses_mutate (cfg : Config) (table : ClientsTable)
    (verify : RuntimeStatus → Except ServiceError Unit) :
    (mutate cfg table verify).Uses Op.SparesBackups := by
  refine uses_bind (uses_writeState cfg table) fun _ => ?_
  refine uses_bind (uses_run (uses_ask (by simp [Op.SparesBackups, Op.target]))) fun _ => ?_
  refine uses_bind (uses_run (uses_ask (by simp [Op.SparesBackups, Op.target]))) fun text => ?_
  exact uses_lift _

theorem uses_removePeer (publicKey : Text) (cfg : Config) (table : ClientsTable) :
    (removePeer publicKey cfg table).Uses Op.SparesBackups :=
  uses_bind (uses_lift _) fun _ => uses_mutate ..

/-- What a rollback adds to the record, from the answers it got. -/
def rollbackLog (backups : BackupSet) (restoreConfig restoreClients sync : Except Text Unit) : Log :=
  [⟨.restoreFile backups.configPath .config (lit "600"), restoreConfig⟩,
    if backups.clientsTableExisted then
      ⟨.restoreFile backups.clientsTablePath .clientsTable (lit "600"), restoreClients⟩
    else ⟨.removeFile .clientsTable, restoreClients⟩,
    ⟨.syncConf, sync⟩]

/-- The rollback was the last thing that happened: its three operations with their
answers, the error made of these, and what each success means for the state. -/
structure RollbackRan (before : World) (x : ServiceError) (w : World) (log : Log) : Prop where
  ran : ∃ earlier backups cause restoreConfig restoreClients sync,
    log = earlier ++ rollbackLog backups restoreConfig restoreClients sync ∧
    backups.clientsTableExisted = (before.files .clientsTable).isSome ∧
    x = rollbackError cause restoreConfig restoreClients sync ∧
    (restoreConfig = .ok () → w.files .config = before.files .config) ∧
    (restoreClients = .ok () → w.files .clientsTable = before.files .clientsTable) ∧
    (sync = .ok () → w.applied = w.files .config)

/-- The second operation of a rollback brings back the clients table, or its absence. -/
theorem wp_restoreClientsTable {before : World} {backups : BackupSet} {st : World × Log}
    (h : Backed before backups st.1) :
    wp (recorded allowed) (restoreClientsTable backups) (fun out st' =>
      ∃ r e, out = .ok r ∧ st'.2 = st.2 ++ [e] ∧
        (e = if backups.clientsTableExisted then
          ⟨.restoreFile backups.clientsTablePath .clientsTable (lit "600"), r⟩
        else ⟨.removeFile .clientsTable, r⟩) ∧
        st'.1.files .config = st.1.files .config ∧
        (r = .ok () → st'.1.files .clientsTable = before.files .clientsTable)) st := by
  unfold restoreClientsTable
  by_cases hex : backups.clientsTableExisted = true
  · simp only [hex, if_true]
    rintro r ⟨w', l'⟩ ⟨⟨hstep, -⟩, rfl⟩
    refine ⟨r, _, rfl, rfl, rfl, dockerStep_frame hstep (by simp [Op.target]), ?_⟩
    rintro rfl
    obtain ⟨-, rfl⟩ := hstep
    rw [World.put_self, h.clientsTable hex]
  · simp only [hex]
    rintro r ⟨w', l'⟩ ⟨⟨hstep, -⟩, rfl⟩
    refine ⟨r, _, rfl, rfl, rfl, dockerStep_frame hstep (by simp [Op.target]), ?_⟩
    rintro rfl
    have hnone : before.files .clientsTable = none := by
      rw [h.existed] at hex
      simpa using hex
    rcases hstep with ⟨-, hne⟩ | rfl
    · exact absurd rfl hne
    · rw [World.put_self, hnone]

theorem wp_rollback {α : Type} {before : World} {backups : BackupSet} {st : World × Log}
    (h : Backed before backups st.1) (cause : ServiceError) :
    wp (recorded allowed) (rollback backups cause : Docker α) (fun out st' =>
      ∃ x, out = .error x ∧ RollbackRan before x st'.1 st'.2) st := by
  obtain ⟨suffix, hconfig, htable⟩ := h.paths
  rintro restoreConfig ⟨w₁, l₁⟩ ⟨⟨h₁, -⟩, rfl⟩
  have hc₁ : restoreConfig = .ok () → w₁.files .config = before.files .config := by
    rintro rfl
    obtain ⟨-, rfl⟩ := h₁
    rw [World.put_self, h.config]
  have hb₁ : Backed before backups w₁ := h.step (by simp [Op.SparesBackups, Op.target]) h₁
  apply wp_seq (wp_restoreClientsTable hb₁)
  · rintro restoreClients ⟨w₂, l₂⟩ ⟨_, _, ⟨⟩, rfl, rfl, hc₂, ht₂⟩
    rintro sync ⟨w₃, l₃⟩ ⟨⟨h₃, -⟩, rfl⟩
    have hc₃ : w₃.files .config = w₂.files .config := dockerStep_frame h₃ (by simp [Op.target])
    have ht₃ : w₃.files .clientsTable = w₂.files .clientsTable :=
      dockerStep_frame h₃ (by simp [Op.target])
    refine ⟨_, rfl, st.2, backups, cause, restoreConfig, restoreClients, sync, ?_, h.existed, rfl,
      fun hr => ?_, fun hr => ?_, ?_⟩
    · simp [rollbackLog]
    · rw [hc₃, hc₂, hc₁ hr]
    · rw [ht₃, ht₂ hr]
    · rintro rfl
      cases h₃
      rfl
  · rintro x st' ⟨r, e, ⟨⟩, -⟩

theorem wp_withRollback {before : World} {backups : BackupSet} {st : World × Log}
    (h : Backed before backups st.1) {p : Docker Unit} (hp : p.Uses Op.SparesBackups) :
    wp (recorded allowed) (withRollback backups p) (fun out st' =>
      ∀ x, out = .error x → RollbackRan before x st'.1 st'.2) st := by
  apply wp_seq_attempt (backed_uses hp h)
  intro r st' h'
  cases r with
  | ok _ =>
    rintro x ⟨⟩
  | error cause =>
    apply wp_mono (wp_rollback h' cause)
    rintro _ st'' ⟨x, rfl, hran⟩ _ ⟨⟩
    exact hran

/-- An error comes with the two files unwritten, or right after a rollback. -/
def ErrorsRevert {α : Type} (before : World) : Post (World × Log) ServiceError α :=
  onError fun x st => Spared before st ∨ RollbackRan before x st.1 st.2

/-- The shape of both calls: read, back up, and change under the guard of a rollback. -/
theorem wp_guarded {α β : Type} {before : World} {st : World × Log} (hst : Spared before st)
    {prepare : Docker α} (hprepare : prepare.Uses Op.ReadOnly) {change : α → Docker Unit}
    (hchange : ∀ a, (change a).Uses Op.SparesBackups) (answer : α → β) :
    wp (recorded allowed) (do
      let a ← prepare
      let backups ← backup
      withRollback backups (change a)
      return answer a) (ErrorsRevert before) st := by
  apply wp_seq (spared_uses (hprepare.mono fun _ => Op.ReadOnly.spares) hst)
  · intro a st₁ h₁
    apply wp_seq (wp_and (spared_uses uses_backup h₁) (onOk_recorded (onOk_backup st₁.1)))
    · rintro backups st₂ ⟨-, hbacked⟩
      have hb : Backed before backups st₂.1 := (hbacked backups rfl).of_unchanged h₁.1
      apply wp_seq (wp_withRollback hb (hchange a))
      · rintro _ st₃ - x ⟨⟩
      · rintro x st₃ hran _ ⟨⟩
        exact .inr (hran x rfl)
    · rintro x st₂ ⟨h₂, -⟩ _ ⟨⟩
      exact .inl h₂
  · rintro x st₁ h₁ _ ⟨⟩
    exact .inl h₁

theorem issueLocked_reverts {before : World} {st : World × Log} (hst : Spared before st)
    (req : IssueRequest) (endpointHost : Text) :
    wp (recorded allowed) (s.issueLocked req endpointHost) (ErrorsRevert before) st :=
  wp_guarded hst (s.uses_prepareIssue req endpointHost) (fun r => uses_mutate r.1 r.2.1 _) fun r => r.2.2

theorem revokeLocked_reverts {before : World} {st : World × Log} (hst : Spared before st)
    (publicKey : Text) :
    wp (recorded allowed) (s.revokeLocked publicKey) (ErrorsRevert before) st :=
  wp_guarded hst (s.uses_prepareRevoke publicKey) (fun r => uses_removePeer publicKey r.1 r.2)
    fun _ => RevokeResult.mk true publicKey

theorem spared_start (before : World) : Spared before (before, []) :=
  ⟨.refl before, by simp⟩

/-- A call by itself: what every error before the lock and both critical sections
ensure of errors, the call ensures. -/
theorem wp_call_onError {σ : Type} {env : Env σ Op Op.Res} {R : ServiceError → σ → Prop} {st : σ}
    (hstart : ∀ x, R x st)
    (hissue : ∀ req endpointHost, wp env (s.issueLocked req endpointHost) (onError R) st)
    (hrevoke : ∀ publicKey, wp env (s.revokeLocked publicKey) (onError R) st) (c : Call) :
    wp (lockEnv Text env) (s.call c) (onError R) st := by
  have herror : ∀ {α : Type} (x : ServiceError), onError (α := α) R (.error x) st := by
    rintro α x _ ⟨⟩
    exact hstart x
  cases c with
  | issue req =>
    apply wp_map_onError
    unfold issue
    simp only
    split
    · exact herror _
    · split
      · exact herror _
      · exact wp_withLock (fun _ => herror _) (hissue req _)
  | revoke publicKey =>
    apply wp_map_onError
    unfold revoke
    simp only
    split
    · exact herror _
    · exact wp_withLock (fun _ => herror _) (hrevoke _)

theorem call_reverts (c : Call) (before : World) :
    wp (lockEnv Text (recorded allowed)) (s.call c) (ErrorsRevert before) (before, []) :=
  s.wp_call_onError (fun _ => .inl (spared_start before))
    (s.issueLocked_reverts (spared_start before)) (s.revokeLocked_reverts (spared_start before)) c

end Service

/-- A call is atomic: however the container answers, an error comes with nothing written
to the two files, or after a rollback as the last thing done; and when the three
operations of the rollback succeed, the error says so, the two files have their content
and existence from before, and the interface was synced to the restored config. -/
def Atomic {α : Type} (p : Locked α) : Prop :=
  ∀ before : World, wp (lockEnv Text (recorded fun _ _ => True)) p (fun out st => ∀ x, out = .error x →
    (Unchanged before st.1 ∧ ∀ e ∈ st.2, e.1.Spares) ∨
    ∃ earlier backups restoreConfig restoreClients sync,
      st.2 = earlier ++ Service.rollbackLog backups restoreConfig restoreClients sync ∧
      backups.clientsTableExisted = (before.files .clientsTable).isSome ∧
      (restoreConfig = .ok () → restoreClients = .ok () → sync = .ok () →
        (∃ cause, x = .rolledBack cause ∧
          ∀ go, x.message go = cause.message go ++ lit "; rollback completed") ∧
        Unchanged before st.1 ∧ st.1.applied = before.files .config)) (before, [])

theorem atomic_call (s : Service) (c : Call) : Atomic (s.call c) := by
  intro before
  apply wp_mono (s.call_reverts c before)
  intro out st h x hx
  rcases h x hx with h | ⟨earlier, backups, cause, rc, rt, sync, hlog, hex, rfl, hc, ht, hs⟩
  · exact .inl h
  · refine .inr ⟨earlier, backups, rc, rt, sync, hlog, hex, ?_⟩
    rintro rfl rfl rfl
    exact ⟨⟨cause, rfl, fun _ => rfl⟩, ⟨hc rfl, ht rfl⟩, by rw [hs rfl, hc rfl]⟩

end VpnControl.Agent
