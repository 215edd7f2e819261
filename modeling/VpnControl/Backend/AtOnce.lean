import VpnControl.Backend.SetupWorker

namespace VpnControl.Backend
open Strings Json Effects Prog

/-- Operations that nobody waits for, and that take no job, no secret and no task in hand. -/
def Op.atOnce : Op → Bool
  | claimNextSetupJob .. | getSecret _ | ensureFuture _ | settle .. | cancelTask _ | result _ => false
  | e => !e.suspends

/-- A part of a task that gets done in one turn. -/
abbrev AtOnce {α : Type} (p : Task α) : Prop := p.Uses (·.atOnce = true)

section AtOnce
variable {α β : Type}

theorem atOnce_ask {e : Op} (he : e.atOnce = true) : AtOnce (ask e) :=
  uses_bind (uses_perform he) fun _ => uses_lift _

theorem atOnce_bind {p : Task α} {f : α → Task β} (hp : AtOnce p) (hf : ∀ a, AtOnce (f a)) :
    AtOnce (p >>= f) := uses_bind hp hf

theorem atOnce_ret (a : α) : AtOnce (ret a : Task α) := trivial

theorem atOnce_fail (x : Exc) : AtOnce (fail x : Task α) := trivial

theorem atOnce_auditLog (r : AuditRecord) : AtOnce (auditLog r) :=
  atOnce_bind (atOnce_ask rfl) fun _ => atOnce_bind (atOnce_ask rfl) fun _ => atOnce_ask rfl

namespace Services

theorem atOnce_addEvent (job : SetupJob) (level : EventLevel) (step message : Text)
    (metadata : List (Text × Doc)) : AtOnce (addEvent job level step message metadata) :=
  atOnce_bind (atOnce_ask rfl) fun _ => atOnce_bind (atOnce_ask rfl) fun _ => atOnce_ask rfl

theorem atOnce_getJob (jobId : Text) : AtOnce (getJob jobId) := by
  apply atOnce_bind (atOnce_ask rfl)
  rintro (_ | job)
  · exact atOnce_fail _
  · exact atOnce_ret _

theorem atOnce_getServer (nodeId : Text) : AtOnce (getServer nodeId) := by
  apply atOnce_bind (atOnce_ask rfl)
  rintro (_ | node)
  · exact atOnce_fail _
  · exact atOnce_ret _

theorem atOnce_setStep (jobId : Text) (expected : List SetupJobStatus) (status : SetupJobStatus)
    (message : Text) : AtOnce (setStep jobId expected status message) := by
  refine atOnce_bind (atOnce_ask rfl) fun now => atOnce_bind (atOnce_ask rfl) ?_
  rintro (_ | job)
  · exact atOnce_ret _
  · exact atOnce_bind (atOnce_addEvent _ _ _ _ _) fun _ => atOnce_ret _

theorem atOnce_finishFailed (jobId message : Text) : AtOnce (finishFailed jobId message) := by
  refine atOnce_bind (atOnce_ask rfl) fun now => atOnce_bind (atOnce_ask rfl) fun job =>
    atOnce_bind (atOnce_ask rfl) fun _ => ?_
  cases job with
  | none => exact atOnce_ret _
  | some job =>
    exact atOnce_bind (atOnce_addEvent _ _ _ _ _) fun _ =>
      atOnce_bind (atOnce_auditLog _) fun _ => atOnce_ret _

theorem atOnce_finishSuccess (jobId nodeId : Text) : AtOnce (finishSuccess jobId nodeId) := by
  refine atOnce_bind (atOnce_ask rfl) fun now => atOnce_bind (atOnce_ask rfl) fun job =>
    atOnce_bind (atOnce_ask rfl) fun _ => ?_
  cases job with
  | none => exact atOnce_ret _
  | some job =>
    exact atOnce_bind (atOnce_addEvent _ _ _ _ _) fun _ =>
      atOnce_bind (atOnce_auditLog _) fun _ => atOnce_ret _

theorem atOnce_createFromSetup (job : SetupJob) (baseUrl keyId secret : Text) :
    AtOnce (createFromSetup job baseUrl keyId secret) :=
  atOnce_bind (atOnce_ask rfl) fun _ => atOnce_bind (atOnce_ask rfl) fun _ =>
    atOnce_bind (atOnce_ask rfl) fun _ => atOnce_bind (atOnce_ask rfl) fun _ => atOnce_ret _

theorem atOnce_activateAfterSetup (nodeId : Text) (available : Bool) :
    AtOnce (activateAfterSetup nodeId available) :=
  atOnce_bind (atOnce_getServer nodeId) fun _ => atOnce_bind (atOnce_ask rfl) fun _ =>
    atOnce_bind (atOnce_ask rfl) fun _ => atOnce_ret _

theorem atOnce_newCredentials (b : Services) (job : SetupJob) : AtOnce (b.newCredentials job) :=
  atOnce_bind (atOnce_ask rfl) fun _ => atOnce_bind (atOnce_ask rfl) fun _ => atOnce_ret _

theorem atOnce_jobId (job : Option SetupJob) : AtOnce (Services.jobId job) := by
  cases job <;> trivial

theorem atOnce_skipVpn (job : SetupJob) : AtOnce (skipVpn job) := by
  refine atOnce_bind (atOnce_setStep _ _ _ _) ?_
  rintro (_ | next)
  · exact atOnce_ret _
  · exact atOnce_bind (atOnce_addEvent _ _ _ _ _) fun _ =>
      atOnce_bind (atOnce_addEvent _ _ _ _ _) fun _ => atOnce_ret _

theorem atOnce_exceptFailed (job : Option SetupJob) (r : Except Exc Unit) :
    AtOnce (exceptFailed job r) := by
  have hfailed : ∀ message, AtOnce (Services.jobId job >>= fun id => finishFailed id message >>=
      fun _ => pure ()) :=
    fun message => atOnce_bind (atOnce_jobId job) fun id =>
      atOnce_bind (atOnce_finishFailed id message) fun _ => atOnce_ret _
  unfold exceptFailed
  split
  · exact hfailed _
  · exact hfailed _
  · exact uses_lift _

theorem atOnce_forget (job : Option SetupJob) :
    AtOnce (Services.jobId job >>= fun id => forgetEphemeralSshSecret id) :=
  atOnce_bind (atOnce_jobId job) fun _ => atOnce_ask rfl

theorem atOnce_createJob (b : Services) (actor : User) (form : SetupJobCreate) :
    AtOnce (b.createJob actor form) := by
  unfold createJob
  split
  · exact atOnce_fail _
  split
  · exact atOnce_fail _
  refine atOnce_bind (atOnce_ask rfl) fun now => atOnce_bind (atOnce_ask rfl) fun id =>
    atOnce_bind (atOnce_ask rfl) fun _ => atOnce_bind (uses_attempt (atOnce_ask rfl)) ?_
  rintro (x | _)
  · cases x with
    | cancelled => exact atOnce_fail _
    | _ => exact atOnce_bind (atOnce_ask rfl) fun _ => atOnce_fail _
  · exact atOnce_bind (atOnce_addEvent _ _ _ _ _) fun _ =>
      atOnce_bind (atOnce_auditLog _) fun _ => atOnce_ret _

theorem atOnce_startJob (b : Services) (jobId : Text) : AtOnce (b.startJob jobId) := by
  refine atOnce_bind (atOnce_getJob jobId) fun job => ?_
  change AtOnce (if _ then _ else if _ then _ else if _ then _ else _)
  split
  · exact atOnce_fail _
  split
  · exact atOnce_fail _
  split
  · exact atOnce_fail _
  · exact atOnce_ret _

theorem atOnce_cancelJob (actor : User) (jobId : Text) : AtOnce (cancelJob actor jobId) := by
  refine atOnce_bind (atOnce_getJob jobId) fun _ => atOnce_bind (atOnce_ask rfl) fun now =>
    atOnce_bind (atOnce_ask rfl) ?_
  rintro (_ | job)
  · exact atOnce_fail _
  · exact atOnce_bind (atOnce_ask rfl) fun _ => atOnce_bind (atOnce_addEvent _ _ _ _ _) fun _ =>
      atOnce_bind (atOnce_auditLog _) fun _ => atOnce_ret _

end Services
end AtOnce

/-- What a health check does. -/
def Op.inquires : Op → Bool
  | request _ => true
  | saveSetupJob _ | transitionSetupJob .. | putSecret .. | popSecret _ => false
  | e => e.atOnce

abbrev Inquires {α : Type} (p : Task α) : Prop := p.Uses (·.inquires = true)

/-- What the task of an operation does. -/
def Op.operates : Op → Bool
  | begin _ | settle .. | request _ | runnerStep .. => true
  | saveSetupJob _ | transitionSetupJob .. | putSecret .. | popSecret _ => false
  | e => e.atOnce

abbrev Operates {α : Type} (p : Task α) : Prop := p.Uses (·.operates = true)

section Operates
variable {α β : Type} (b : Services)

theorem inquires_ask {e : Op} (he : e.inquires = true) : Inquires (ask e) :=
  uses_bind (uses_perform he) fun _ => uses_lift _

theorem inquires_bind {p : Task α} {f : α → Task β} (hp : Inquires p) (hf : ∀ a, Inquires (f a)) :
    Inquires (p >>= f) := uses_bind hp hf

theorem inquires_ret (a : α) : Inquires (ret a : Task α) := trivial

theorem inquires_fail (x : Exc) : Inquires (fail x : Task α) := trivial

theorem inquires_auditLog (r : AuditRecord) : Inquires (auditLog r) :=
  inquires_bind (inquires_ask rfl) fun _ => inquires_bind (inquires_ask rfl) fun _ =>
    inquires_ask rfl

theorem Inquires.operates {p : Task α} (hp : Inquires p) : Operates p := by
  apply hp.mono
  intro e he
  cases e <;> first | rfl | cases he

theorem operates_ask {e : Op} (he : e.operates = true) : Operates (ask e) :=
  uses_bind (uses_perform he) fun _ => uses_lift _

theorem operates_bind {p : Task α} {f : α → Task β} (hp : Operates p) (hf : ∀ a, Operates (f a)) :
    Operates (p >>= f) := uses_bind hp hf

theorem operates_ret (a : α) : Operates (ret a : Task α) := trivial

namespace Services

theorem inquires_request (node : ServerNode) (method path : Text) (bodyObj : Option Doc)
    (signed : Bool) : Inquires (b.request node method path bodyObj signed) := by
  have hsigned : ∀ body, Inquires (b.signedHeaders node method path body) := by
    intro body
    unfold signedHeaders
    split
    · exact inquires_fail _
    · exact inquires_bind (inquires_ask rfl) fun _ => inquires_bind (inquires_ask rfl) fun _ =>
        inquires_ret _
  have hheaders : ∀ body, Inquires (b.headers node method path body bodyObj.isSome signed) := by
    intro body
    cases signed with
    | true => exact inquires_bind (hsigned body) fun _ => inquires_ret _
    | false => exact inquires_ret _
  refine inquires_bind (hheaders _) fun headers =>
    inquires_bind (uses_attempt (inquires_ask rfl)) ?_
  rintro (x | response)
  · cases x <;> trivial
  · trivial

theorem inquires_healthCheck (nodeId : Text) (actorUserId : Option Text) :
    Inquires (b.healthCheck nodeId actorUserId) := by
  have hserver : Inquires (getServer nodeId) := by
    apply inquires_bind (inquires_ask rfl)
    rintro (_ | node)
    · exact inquires_fail _
    · exact inquires_ret _
  have hhealth : ∀ node, Inquires (b.health node) := fun node =>
    inquires_bind (inquires_request b node _ _ _ _) fun _ => uses_lift _
  have hstatus : ∀ node, Inquires (b.status node) := fun node =>
    inquires_bind (inquires_request b node _ _ _ _) fun _ => uses_lift _
  refine inquires_bind hserver fun node => inquires_bind (inquires_ask rfl) fun now =>
    inquires_bind (uses_attempt (inquires_bind (hhealth node) fun _ =>
      inquires_bind (inquires_ask rfl) fun node => hstatus node)) ?_
  rintro (x | payload)
  · cases x with
    | app e =>
      change Inquires (if _ then _ else _)
      split
      · exact inquires_fail _
      · exact inquires_bind (inquires_ask rfl) fun _ => inquires_bind (inquires_ask rfl) fun _ =>
          inquires_bind (inquires_auditLog _) fun _ => inquires_ret _
    | _ => exact inquires_fail _
  · refine inquires_bind (inquires_ask rfl) fun node => inquires_bind (inquires_ask rfl) fun _ =>
      inquires_bind (uses_lift _) fun status => inquires_bind (inquires_ask rfl) fun _ => ?_
    change Inquires (if _ then _ else _)
    split
    · exact inquires_bind (inquires_auditLog _) fun _ => inquires_ret _
    · exact inquires_ret _

theorem operates_operationTask (t : Nat) : Operates (b.operationTask t) := by
  refine operates_bind (uses_attempt (operates_ask rfl)) ?_
  rintro (x | operation)
  · exact operates_ask rfl
  refine operates_bind (uses_attempt ?_) fun r => operates_ask rfl
  cases operation with
  | runner => exact operates_bind (operates_ask rfl) fun _ => operates_ret _
  | healthCheck => exact operates_bind (inquires_healthCheck b _ _).operates fun _ => operates_ret _

end Services
end Operates
end VpnControl.Backend
