import VpnControl.Backend.SetupWorker

namespace VpnControl.Backend
open Strings Json Effects Prog

/-- A property that the parts of the worker have and that lasts when parts are put together. -/
structure OfParts (b : Services) (Φ : ∀ {α : Type}, Task α → Prop) : Prop where
  ret : ∀ {α : Type} (a : α), Φ (ret a : Task α)
  fail : ∀ {α : Type} (x : Exc), Φ (fail x : Task α)
  bind : ∀ {α β : Type} {p : Task α} {f : α → Task β}, Φ p → (∀ a, Φ (f a)) → Φ (p >>= f)
  attempt : ∀ {α : Type} {p : Task α}, Φ p → Φ p.attempt
  pending : Φ (ask .pending)
  sleep : Φ (ask .sleep)
  claim : Φ (withStorageLock Services.claimNext)
  getSecret : ∀ jobId, Φ (ask (.getSecret jobId))
  popSecret : ∀ jobId, Φ (ask (.popSecret jobId))
  newCredentials : ∀ job, Φ (b.newCredentials job)
  addEvent : ∀ job level step message, Φ (Services.addEvent job level step message)
  setStep : ∀ jobId expected {target : SetupJobStatus} message, target.isTerminal = false →
    Φ (Services.setStep jobId expected target message)
  finishFailed : ∀ jobId message, Φ (Services.finishFailed jobId message)
  finishSuccess : ∀ jobId nodeId, Φ (Services.finishSuccess jobId nodeId)
  createFromSetup : ∀ job baseUrl keyId secret,
    Φ (Services.createFromSetup job baseUrl keyId secret)
  activateAfterSetup : ∀ nodeId available, Φ (Services.activateAfterSetup nodeId available)
  runCancellable : ∀ polls jobId operation, Φ (Services.runCancellable polls jobId operation)

namespace OfParts
variable {b : Services} {Φ : ∀ {α : Type}, Task α → Prop} (h : OfParts b Φ)
include h

theorem lift {α : Type} (r : Except Exc α) : Φ (lift r : Task α) := by
  cases r
  · exact h.fail _
  · exact h.ret _

theorem preflight (polls : Nat) (job : SetupJob) (credentials : AgentCredentials)
    (sshSecret : Text) : Φ (Services.preflight polls job credentials sshSecret) := by
  unfold Services.preflight
  split
  · exact h.bind (h.runCancellable _ _ _) fun _ => h.ret _
  · exact h.bind (h.addEvent _ _ _ _) fun _ => h.ret _

theorem installVpn (polls : Nat) (job : SetupJob) (credentials : AgentCredentials)
    (sshSecret : Text) : Φ (Services.installVpn polls job credentials sshSecret) := by
  refine h.bind (h.setStep _ _ _ rfl) ?_
  rintro (_ | next)
  · exact h.ret _
  refine h.bind (h.addEvent _ _ _ _) fun _ => h.bind (h.runCancellable _ _ _) ?_
  rintro ⟨_ | _, -⟩
  · exact h.ret _
  refine h.bind (h.setStep _ _ _ rfl) ?_
  rintro (_ | last)
  · exact h.ret _
  · exact h.bind (h.addEvent _ _ _ _) fun _ => h.ret _

theorem skipVpn (job : SetupJob) : Φ (Services.skipVpn job) := by
  refine h.bind (h.setStep _ _ _ rfl) ?_
  rintro (_ | next)
  · exact h.ret _
  · exact h.bind (h.addEvent _ _ _ _) fun _ => h.bind (h.addEvent _ _ _ _) fun _ => h.ret _

theorem verifyNode (polls : Nat) (job : SetupJob) (credentials : AgentCredentials) :
    Φ (Services.verifyNode polls job credentials) := by
  refine h.bind (h.createFromSetup _ _ _ _) fun node => h.bind (h.runCancellable _ _ _) ?_
  rintro ⟨_ | _, _ | checked⟩
  · exact h.ret _
  · exact h.ret _
  · exact h.fail _
  change Φ (if (!checked.selectable) = true then _ else _)
  split
  · exact h.fail _
  · refine h.bind (h.finishSuccess _ _) ?_
    rintro (_ | finished)
    · exact h.ret _
    · exact h.bind (h.activateAfterSetup _ _) fun _ => h.ret _

theorem install (polls : Nat) (performed : Bool) (job : SetupJob) (credentials : AgentCredentials)
    (sshSecret : Text) : Φ (Services.install polls performed job credentials sshSecret) := by
  have hrest : Φ (Services.install polls false job credentials sshSecret) := by
    refine h.bind (h.runCancellable _ _ _) ?_
    rintro ⟨_ | _, -⟩
    · exact h.ret _
    have hgoes : ∀ next, Φ (match next with
        | none => pure ()
        | some job => Services.verifyNode polls job credentials) := by
      rintro (_ | next)
      · exact h.ret _
      · exact h.verifyNode _ _ _
    change Φ (if job.installAwg = true then _ else _)
    split
    · exact h.bind (h.installVpn _ _ _ _) hgoes
    · exact h.bind (h.skipVpn _) hgoes
  cases performed with
  | false => exact hrest
  | true => exact h.bind (h.addEvent _ _ _ _) fun _ => hrest

theorem tryInstall (polls : Nat) (job : SetupJob) (credentials : AgentCredentials)
    (sshSecret : Text) : Φ (Services.tryInstall polls job credentials sshSecret) := by
  refine h.bind (h.attempt (h.preflight _ _ _ _)) ?_
  rintro (x | _ | _)
  · exact h.ret _
  · exact h.ret _
  refine h.bind (h.attempt (h.setStep _ _ _ rfl)) ?_
  rintro (x | _ | next)
  · exact h.ret _
  · exact h.ret _
  · exact h.bind (h.attempt (h.install _ _ _ _ _)) fun _ => h.ret _

theorem jobId (job : Option SetupJob) : Φ (Services.jobId job) := by
  cases job
  · exact h.fail _
  · exact h.ret _

theorem exceptFailed (job : Option SetupJob) (r : Except Exc Unit) :
    Φ (Services.exceptFailed job r) := by
  have hfailed : ∀ message, Φ (Services.jobId job >>= fun id =>
      Services.finishFailed id message >>= fun _ => pure ()) :=
    fun message => h.bind (h.jobId job) fun id => h.bind (h.finishFailed id message) fun _ => h.ret _
  unfold Services.exceptFailed
  split
  · exact hfailed _
  · exact hfailed _
  · exact h.lift _

theorem runJob (polls : Nat) (job : SetupJob) : Φ (b.runJob polls job) := by
  refine h.bind (h.getSecret _) ?_
  rintro (_ | sshSecret)
  · exact h.bind (h.finishFailed _ _) fun _ => h.ret _
  refine h.bind (h.newCredentials job) fun credentials => h.bind (h.tryInstall _ _ _ _) ?_
  rintro ⟨last, r⟩
  refine h.bind (h.attempt (h.exceptFailed _ _)) fun out => ?_
  have hcleanup : Φ (Services.jobId last >>= fun id => Services.forgetEphemeralSshSecret id) :=
    h.bind (h.jobId last) fun id => h.popSecret id
  exact h.bind hcleanup fun _ => h.lift _

theorem loop (polls rounds : Nat) : Φ (b.loop polls rounds) := by
  induction rounds with
  | zero => exact h.pending
  | succ rounds ih =>
    refine h.bind h.claim ?_
    rintro (_ | job)
    · exact h.bind h.sleep fun _ => ih
    refine h.bind (h.attempt (h.runJob _ _)) ?_
    rintro (x | _)
    · cases x with
      | cancelled => exact h.bind (h.finishFailed _ _) fun _ => h.fail _
      | _ => exact h.bind (h.finishFailed _ _) fun _ => ih
    · exact ih

end OfParts
end VpnControl.Backend
