import VpnControl.Backend.NodeTurns
import VpnControl.Backend.WorkerParts

namespace VpnControl.Backend
open Strings Json Effects Prog

/-- The value ends a job. -/
def JobValue.ends : JobValue → Bool
  | status value => value.isTerminal
  | _ => false

/-- What has to follow on an operation: whoever ended a job forgets its SSH secret. -/
def Op.forgets : (e : Op) → e.Res → Option Op
  | transitionSetupJob jobId _ values, .ok (some _) =>
    if values.any JobValue.ends then some (popSecret jobId) else none
  | _, _ => none

/-- A job that is stored has not ended. -/
def Op.storesOpen : Op → Prop
  | saveSetupJob job => job.status.isTerminal = false
  | _ => True

/-- Operations that neither store a job nor change its status. -/
def Op.orderly : Op → Bool
  | saveSetupJob _ | transitionSetupJob .. => false
  | _ => true

/-- A task that forgets the secret of a job that it ends, and stores no job that has ended. -/
structure Tidy {α : Type} (p : Task α) : Prop where
  follows : p.Follows Op.forgets
  stores : p.Uses Op.storesOpen

section Tidy
variable {α β : Type}

theorem tidy_ret (a : α) : Tidy (ret a : Task α) := ⟨trivial, trivial⟩

theorem tidy_fail (x : Exc) : Tidy (fail x : Task α) := ⟨trivial, trivial⟩

theorem tidy_lift (r : Except Exc α) : Tidy (lift r : Task α) := by
  cases r
  · exact tidy_fail _
  · exact tidy_ret _

theorem tidy_bind {p : Task α} {f : α → Task β} (hp : Tidy p) (hf : ∀ a, Tidy (f a)) :
    Tidy (p >>= f) :=
  ⟨follows_bind hp.follows fun a => (hf a).follows, uses_bind hp.stores fun a => (hf a).stores⟩

theorem tidy_attempt {p : Task α} (hp : Tidy p) : Tidy p.attempt :=
  ⟨follows_attempt hp.follows, uses_attempt hp.stores⟩

theorem tidy_uses {p : Task α} (hp : p.Uses fun e => e.orderly = true) : Tidy p := by
  constructor
  · apply hp.follows
    intro e r he
    cases e with
    | transitionSetupJob => cases he
    | _ => rfl
  · apply hp.mono
    intro e he
    cases e with
    | saveSetupJob => cases he
    | _ => trivial

theorem tidy_ask {e : Op} (he : e.orderly = true) : Tidy (ask e) :=
  tidy_uses (uses_bind (uses_perform he) fun _ => uses_lift _)

theorem Plain.tidy {p : Task α} (hp : Plain p) : Tidy p := by
  apply tidy_uses
  apply hp.mono
  intro e he
  cases e with
  | saveSetupJob | transitionSetupJob => cases he
  | _ => rfl

/-- Ending a job and forgetting its secret. -/
theorem tidy_transition {jobId : Text} {expected : List SetupJobStatus} {values : List JobValue}
    {f : Option SetupJob → Task β}
    (hnext : ∀ job, values.any JobValue.ends = true → ∃ k, f (some job) = .op (.popSecret jobId) k)
    (hf : ∀ job, Tidy (f job)) : Tidy (ask (.transitionSetupJob jobId expected values) >>= f) := by
  have hrest : ∀ r : Except Exc (Option SetupJob), Tidy (lift r >>= f) :=
    fun r => tidy_bind (tidy_lift r) hf
  refine ⟨fun r => ⟨fun e' he' => ?_, (hrest r).follows⟩, trivial, fun r => (hrest r).stores⟩
  cases r with
  | error x => cases he'
  | ok job =>
    cases job with
    | none => cases he'
    | some job =>
      simp only [Op.forgets] at he'
      split at he'
      · rename_i hends
        cases he'
        exact hnext job hends
      · cases he'

theorem tidy_withStorageLock {p : Task α} (hp : Tidy p) : Tidy (withStorageLock p) :=
  tidy_bind (tidy_ask rfl) fun _ => tidy_bind (tidy_attempt hp) fun r =>
    tidy_bind (tidy_ask rfl) fun _ => tidy_lift r

theorem tidy_addEvent (job : SetupJob) (level : EventLevel) (step message : Text)
    (metadata : List (Text × Doc)) : Tidy (Services.addEvent job level step message metadata) :=
  (Services.plain_addEvent job level step message metadata).tidy

theorem tidy_auditLog (r : AuditRecord) : Tidy (auditLog r) := (plain_auditLog r).tidy

namespace Services
variable (b : Services)

theorem tidy_finishFailed (jobId message : Text) : Tidy (finishFailed jobId message) := by
  refine tidy_bind (tidy_ask rfl) fun now => tidy_transition (fun job _ => ⟨_, rfl⟩) ?_
  intro job
  refine tidy_bind (tidy_ask rfl) fun _ => ?_
  cases job with
  | none => exact tidy_ret _
  | some job =>
    exact tidy_bind (tidy_addEvent _ _ _ _ _) fun _ => tidy_bind (tidy_auditLog _) fun _ => tidy_ret _

theorem tidy_finishSuccess (jobId nodeId : Text) : Tidy (finishSuccess jobId nodeId) := by
  refine tidy_bind (tidy_ask rfl) fun now => tidy_transition (fun job _ => ⟨_, rfl⟩) ?_
  intro job
  refine tidy_bind (tidy_ask rfl) fun _ => ?_
  cases job with
  | none => exact tidy_ret _
  | some job =>
    exact tidy_bind (tidy_addEvent _ _ _ _ _) fun _ => tidy_bind (tidy_auditLog _) fun _ => tidy_ret _

theorem tidy_cancelJob (actor : User) (jobId : Text) : Tidy (cancelJob actor jobId) := by
  refine tidy_bind (plain_getJob jobId).tidy fun _ => tidy_bind (tidy_ask rfl) fun now => ?_
  refine tidy_transition (fun job _ => ⟨_, rfl⟩) fun job => ?_
  cases job with
  | none => exact tidy_fail _
  | some job =>
    exact tidy_bind (tidy_ask rfl) fun _ => tidy_bind (tidy_addEvent _ _ _ _ _) fun _ =>
      tidy_bind (tidy_auditLog _) fun _ => tidy_ret _

theorem tidy_setStep (jobId : Text) (expected : List SetupJobStatus) {target : SetupJobStatus}
    (message : Text) (htarget : target.isTerminal = false) :
    Tidy (setStep jobId expected target message) := by
  refine tidy_bind (tidy_ask rfl) fun now => tidy_transition ?_ fun job => ?_
  · intro job hends
    simp [JobValue.ends, htarget] at hends
  · cases job with
    | none => exact tidy_ret _
    | some job => exact tidy_bind (tidy_addEvent _ _ _ _ _) fun _ => tidy_ret _

theorem tidy_createJob (actor : User) (form : SetupJobCreate) : Tidy (b.createJob actor form) := by
  unfold createJob
  split
  · exact tidy_fail _
  split
  · exact tidy_fail _
  refine tidy_bind (tidy_ask rfl) fun now => tidy_bind (tidy_ask rfl) fun id =>
    tidy_bind (tidy_ask rfl) fun _ => ?_
  -- a new job is queued
  have hsave : ∀ job : SetupJob, job.status = .queued → Tidy (ask (.saveSetupJob job)) := by
    intro job hjob
    refine ⟨fun r => ⟨by rintro _ ⟨⟩, (tidy_lift r).follows⟩, ?_, fun r => (tidy_lift r).stores⟩
    change job.status.isTerminal = false
    rw [hjob]
    rfl
  refine tidy_bind (tidy_attempt (hsave _ rfl)) ?_
  rintro (x | _)
  · cases x with
    | cancelled => exact tidy_fail _
    | _ => exact tidy_bind (tidy_ask rfl) fun _ => tidy_fail _
  · exact tidy_bind (tidy_addEvent _ _ _ _ _) fun _ => tidy_bind (tidy_auditLog _) fun _ => tidy_ret _

theorem tidy_claimNext : Tidy claimNext := by
  refine tidy_bind (tidy_ask rfl) fun now => tidy_bind (tidy_ask rfl) ?_
  rintro (_ | job)
  · exact tidy_ret _
  · exact tidy_bind (tidy_addEvent _ _ _ _ _) fun _ => tidy_ret _

theorem tidy_runCancellable (polls : Nat) (jobId : Text) (operation : Operation) :
    Tidy (runCancellable polls jobId operation) := (plain_runCancellable polls jobId operation).tidy

theorem tidy_createFromSetup (job : SetupJob) (baseUrl keyId secret : Text) :
    Tidy (createFromSetup job baseUrl keyId secret) :=
  tidy_bind (tidy_ask rfl) fun _ => tidy_bind (tidy_ask rfl) fun _ => tidy_bind (tidy_ask rfl) fun _ =>
    tidy_bind (tidy_ask rfl) fun _ => tidy_ret _

theorem tidy_activateAfterSetup (nodeId : Text) (available : Bool) :
    Tidy (activateAfterSetup nodeId available) :=
  tidy_bind (plain_getServer nodeId).tidy fun _ => tidy_bind (tidy_ask rfl) fun _ =>
    tidy_bind (tidy_ask rfl) fun _ => tidy_ret _

theorem tidy_parts : OfParts b Tidy where
  ret := tidy_ret
  fail := tidy_fail
  bind := tidy_bind
  attempt := tidy_attempt
  pending := tidy_ask rfl
  sleep := tidy_ask rfl
  claim := tidy_withStorageLock tidy_claimNext
  getSecret _ := tidy_ask rfl
  popSecret _ := tidy_ask rfl
  newCredentials job := (plain_newCredentials b job).tidy
  addEvent _ _ _ _ := tidy_addEvent _ _ _ _ _
  setStep _ _ _ message h := tidy_setStep _ _ message h
  finishFailed := tidy_finishFailed
  finishSuccess := tidy_finishSuccess
  createFromSetup := tidy_createFromSetup
  activateAfterSetup := tidy_activateAfterSetup
  runCancellable := tidy_runCancellable

theorem tidy_healthCheck (nodeId : Text) (actorUserId : Option Text) :
    Tidy (b.healthCheck nodeId actorUserId) := by
  refine tidy_bind (plain_getServer nodeId).tidy fun node => tidy_bind (tidy_ask rfl) fun now => ?_
  refine tidy_bind (tidy_attempt (tidy_bind (plain_health b node).tidy fun _ =>
    tidy_bind (tidy_ask rfl) fun node => (plain_status b node).tidy)) ?_
  rintro (x | payload)
  · cases x with
    | app e =>
      change Tidy (if _ then _ else _)
      split
      · exact tidy_fail _
      · exact tidy_bind (tidy_ask rfl) fun _ => tidy_bind (tidy_ask rfl) fun _ =>
          tidy_bind (tidy_auditLog _) fun _ => tidy_ret _
    | _ => exact tidy_fail _
  · refine tidy_bind (tidy_ask rfl) fun node => tidy_bind (tidy_ask rfl) fun _ =>
      tidy_bind (tidy_lift _) fun status => tidy_bind (tidy_ask rfl) fun _ => ?_
    change Tidy (if _ then _ else _)
    split
    · exact tidy_bind (tidy_auditLog _) fun _ => tidy_ret _
    · exact tidy_ret _

theorem tidy_operationTask (t : Nat) : Tidy (b.operationTask t) := by
  refine tidy_bind (tidy_attempt (tidy_ask rfl)) ?_
  rintro (x | operation)
  · exact tidy_ask rfl
  refine tidy_bind (tidy_attempt ?_) fun r => tidy_ask rfl
  cases operation with
  | runner => exact tidy_bind (tidy_ask rfl) fun _ => tidy_ret _
  | healthCheck => exact tidy_bind (tidy_healthCheck b _ _) fun _ => tidy_ret _

theorem tidy_setupCall (call : SetupCall) : Tidy (b.setupCall call) := by
  have hcall : ∀ {α : Type} {p : Task α} (f : α → SetupReply), Tidy p →
      Tidy (p >>= fun a => pure (f a)) := fun f hp => tidy_bind hp fun a => tidy_ret (f a)
  cases call with
  | create actor form => exact hcall _ (tidy_createJob b actor form)
  | get jobId => exact hcall _ (plain_getJob jobId).tidy
  | list => exact hcall _ (tidy_ask rfl)
  | events jobId => exact hcall _ (tidy_bind (plain_getJob jobId).tidy fun _ => tidy_ask rfl)
  | start jobId =>
    refine hcall _ (tidy_bind (plain_getJob jobId).tidy fun job => ?_)
    change Tidy (if _ then _ else if _ then _ else if _ then _ else _)
    split
    · exact tidy_fail _
    split
    · exact tidy_fail _
    split
    · exact tidy_fail _
    · exact tidy_ret _
  | cancel actor jobId => exact hcall _ (tidy_cancelJob actor jobId)
  | work polls rounds => exact hcall (fun _ => .done) ((tidy_parts b).loop polls rounds)
  | operation t => exact hcall (fun _ => .done) (tidy_operationTask b t)

end Services
end Tidy
end VpnControl.Backend
