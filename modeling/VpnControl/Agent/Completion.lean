import VpnControl.Agent.Prepare

namespace VpnControl.Agent
open Awg Strings Effects Prog

/-- The two files after a change: the config and the clients table as rendered. -/
structure Written (allowed : (e : Op) → e.Res → Prop) (cfg : Config) (table : ClientsTable)
    (w : World) : Prop where
  config : w.files .config = some (renderConfig cfg)
  clientsTable : ∃ text, renderClientsTable table = .ok text ∧ w.files .clientsTable = some text
  answered : allowed (.writeFileAtomic .config (renderConfig cfg) (lit "600")) (.ok ())

namespace Service
variable {allowed : (e : Op) → e.Res → Prop} {w : World} (s : Service)

theorem onOk_mutate (cfg : Config) (table : ClientsTable)
    (verify : RuntimeStatus → Except ServiceError Unit) :
    wp (dockerEnv allowed) (mutate cfg table verify)
      (onOk fun _ w' => Written allowed cfg table w') w := by
  have hwrite : wp (dockerEnv allowed) (writeState cfg table)
      (onOk fun _ w' => Written allowed cfg table w') w := by
    refine wp_onOk_bind (onOk_writeFileAtomic _ _) ?_
    rintro _ w₁ ⟨rfl, hanswer⟩
    cases hrender : renderClientsTable table with
    | error x => exact fun a ha => by cases ha
    | ok text =>
      refine wp_mono (onOk_writeFileAtomic _ _) fun r w₂ h a ha => ?_
      obtain ⟨rfl, -⟩ := h a ha
      refine ⟨?_, ⟨text, hrender, World.put_self ..⟩, hanswer⟩
      rw [World.put_of_ne _ (by simp), World.put_self]
  refine wp_onOk_bind hwrite fun _ w₁ h₁ => ?_
  refine wp_onOk_bind onOk_syncConf ?_
  rintro _ w₂ rfl
  refine wp_onOk_bind (Reads.onOk reads_awgShow) ?_
  rintro text w₃ ⟨rfl, -⟩
  rw [wp_lift]
  exact fun _ _ => ⟨h₁.config, h₁.clientsTable, h₁.answered⟩

/-- A rollback never turns into a success. -/
theorem onOk_withRollback {P : Unit → World → Prop} {backups : BackupSet} {p : Docker Unit}
    (h : wp (dockerEnv allowed) p (onOk P) w) :
    wp (dockerEnv allowed) (withRollback backups p) (onOk P) w := by
  have hrollback : ∀ cause w', wp (dockerEnv allowed) (rollback backups cause) (onOk P) w' := by
    intro cause w'
    refine wp_onOk_bind (onOk_ask _) fun rc w₁ _ => ?_
    refine wp_onOk_bind (wp_onOk_true _) fun rt w₂ _ => ?_
    refine wp_onOk_bind (onOk_ask _) fun rs w₃ _ => ?_
    rintro _ ⟨⟩
  apply wp_seq_attempt h
  intro r w' hr
  cases r with
  | ok a =>
    apply wp_onOk_ret
    exact hr a rfl
  | error cause => exact hrollback cause w'

/-- What an issued peer leaves behind. -/
theorem onOk_issueLocked (req : IssueRequest) (endpointHost : Text) :
    wp (dockerEnv allowed) (s.issueLocked req endpointHost) (onOk fun result w' =>
      ∃ cfg table, Prepared allowed s.fmt w req.name cfg table result ∧
        Written allowed cfg table w') w := by
  unfold issueLocked
  refine wp_onOk_bind (Reads.onOk (s.reads_prepareIssue req endpointHost)) ?_
  rintro ⟨cfg, table, result⟩ w₁ ⟨rfl, hprepared⟩
  refine wp_onOk_bind (wp_onOk_true _) fun backups w₂ _ => ?_
  refine wp_onOk_bind (onOk_withRollback (onOk_mutate cfg table _)) fun _ w₃ h₃ => ?_
  exact wp_onOk_ret ⟨cfg, table, hprepared, h₃⟩

/-- What a revoked peer leaves behind. -/
theorem onOk_revokeLocked (publicKey : Text) :
    wp (dockerEnv allowed) (s.revokeLocked publicKey) (onOk fun result w' =>
      result.publicKey = publicKey ∧ ∃ cfg table, Holds s.fmt w cfg table ∧
        cfg.validate = .ok () ∧ cfg.findPeer publicKey ≠ none ∧
        Written allowed (cfg.removePeer publicKey).1 (table.remove publicKey).1 w') w := by
  unfold revokeLocked
  refine wp_onOk_bind (Reads.onOk (s.reads_prepareRevoke publicKey)) ?_
  rintro ⟨cfg, table⟩ w₁ ⟨rfl, hholds, hvalid, hpeer⟩
  refine wp_onOk_bind (wp_onOk_true _) fun backups w₂ _ => ?_
  have hremove : wp (dockerEnv allowed) (removePeer publicKey cfg table) (onOk fun _ w' =>
      Written allowed (cfg.removePeer publicKey).1 (table.remove publicKey).1 w') w₂ := by
    refine wp_onOk_bind (Reads.onOk reads_mapError) ?_
    rintro _ w₃ ⟨rfl, -⟩
    exact onOk_mutate _ _ _
  refine wp_onOk_bind (onOk_withRollback hremove) fun _ w₃ h₃ => ?_
  exact wp_onOk_ret ⟨rfl, cfg, table, hholds, hvalid, hpeer, h₃⟩

end Service
end VpnControl.Agent
