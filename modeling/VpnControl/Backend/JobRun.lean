import VpnControl.Backend.SetupSteps
import VpnControl.Backend.StoppedWorker

namespace VpnControl.Backend
open Strings Json Effects Prog

/-- The run of a claimed job, a cancellation of a job, or an operation. -/
inductive JobCall where
  | run (polls : Nat) (job : SetupJob)
  | cancel (actor : User) (jobId : Text)
  | operation (t : Nat)

def JobCall.others : JobCall → Bool
  | run .. => false
  | _ => true

def Services.jobCall (b : Services) : JobCall → Task Unit
  | .run polls job => b.runJob polls job
  | .cancel actor jobId => do
    let _ ← cancelJob actor jobId
    return ()
  | .operation t => b.operationTask t

/-- What an installation that fails raises. -/
def Exc.isFailure : Exc → Bool
  | app _ | setupStep _ => true
  | _ => false

/-- What the task of an operation may end with: success, where a health check returns its node,
or a failure, or a CancelledError if it was cancelled. -/
def AsyncTask.admits (task : AsyncTask) : OperationOutcome → Bool
  | .ok checked =>
    match task.operation with
    | .runner .. => true
    | .healthCheck _ => checked.isSome
  | .error .cancelled => task.cancelRequested
  | .error x => x.isFailure

/-- The status that values lead to. -/
def SetupJobStatus.after (status : SetupJobStatus) (values : List JobValue) : SetupJobStatus :=
  values.foldl (fun status value => match value with
    | .status status => status
    | _ => status) status

/-- What the run of a job knows: the status that it gave the job or found it in, which the job has
if it was not cancelled since, whether its secret is forgotten, and its operation, with whether
that one is a health check. -/
structure JobView where
  status : SetupJobStatus
  forgotten : Bool := false
  current : Option (Nat × Bool) := none

/-- Operations that concern neither jobs and secrets nor tasks. -/
def Op.indifferent : Op → Bool
  | now | uuid | encrypt _ | generateAgentKeyId | generateAgentSecret | getSecret _
  | addSetupEvent _ | addAuditEntry _ | getServerNode _ | saveServerNode _ => true
  | _ => false

def Operation.isCheck : Operation → Bool
  | .runner .. => false
  | .healthCheck _ => true

namespace JobView

/-- What the run of a job knows after an answer. -/
def after (g : JobView) : (e : Op) → e.Res → JobView
  | .transitionSetupJob _ _ values, .ok (some _) => { g with status := g.status.after values }
  | .transitionSetupJob _ expected _, .ok none =>
    if g.status ∈ expected then { g with status := .cancelled } else g
  | .getSetupJob _, .ok (some job) =>
    if job.status = .cancelled then { g with status := .cancelled } else g
  | .popSecret _, .ok _ => { g with forgotten := true }
  | .ensureFuture operation, .ok t => { g with current := some (t, operation.isCheck) }
  | .cancelTask _, .ok _ => { g with current := none }
  | _, _ => g

/-- What an answer has to be. -/
def Answered (g : JobView) (jobId : Text) : (e : Op) → e.Res → Prop
  | .transitionSetupJob _ expected _, .ok (some job) => g.status ∈ expected ∧ job.id = jobId
  | .transitionSetupJob _ expected _, .ok none => expected ≠ [.checkingSsh]
  | .getSetupJob _, .ok job => job ≠ none
  | .result t, .ok checked => g.current = some (t, true) → checked ≠ none
  | .result t, .error x => (∃ check, g.current = some (t, check)) → x.isFailure = true
  | .join _, .error x => x = .cancelled ∨ x.isFailure = true
  | .pending, _ => False
  | _, .error _ => False
  | _, .ok _ => True

end JobView

/-- What the run of the job `jobId` may do, and how it is answered if its first step finds the job
as it was claimed. -/
def runMonitor (jobId : Text) : Monitor JobView Op Op.Res where
  may _
    | .transitionSetupJob jobId' expected _ => jobId' = jobId ∧ .cancelled ∉ expected
    | .getSetupJob jobId' | .popSecret jobId' => jobId' = jobId
    | .ensureFuture _ | .cancelTask _ | .wait _ | .join _ | .result _ | .pending => True
    | e => e.indifferent = true
  next g e r g' := g.Answered jobId e r ∧ g' = g.after e r

section Obeys
variable {jobId : Text} {α β : Type} {g : JobView}

/-- A part of the run that changes nothing that concerns the job, and does not raise. -/
abbrev Sure (jobId : Text) (p : Task α) : Prop :=
  ∀ g, p.Obeys (runMonitor jobId) (fun r g' => g' = g ∧ ∃ a, r = .ok a) g

theorem sure_ret (a : α) : Sure jobId (ret a : Task α) := fun _ => ⟨rfl, a, rfl⟩

theorem sure_bind {p : Task α} {f : α → Task β} (hp : Sure jobId p) (hf : ∀ a, Sure jobId (f a)) :
    Sure jobId (p >>= f) := by
  intro g
  refine obeys_seq (hp g) ?_ ?_
  · rintro a _ ⟨rfl, -⟩
    exact hf a _
  · rintro x _ ⟨-, a, ha⟩
    cases ha

theorem sure_ask {e : Op} (he : e.indifferent = true) : Sure jobId (ask e) := by
  intro g
  have hmay : (runMonitor jobId).may g e := by
    cases e <;> first | exact he | cases he
  refine ⟨hmay, ?_⟩
  rintro r _ ⟨hanswered, rfl⟩
  apply obeys_lift
  rcases r with x | a
  · cases e <;> first | exact hanswered.elim | cases he
  · have hafter : g.after e (.ok a) = g := by
      cases e <;> first | rfl | cases he
    exact ⟨hafter, a, rfl⟩

theorem sure_auditLog (r : AuditRecord) : Sure jobId (auditLog r) :=
  sure_bind (sure_ask rfl) fun _ => sure_bind (sure_ask rfl) fun _ => sure_ask rfl

theorem sure_addEvent (job : SetupJob) (level : EventLevel) (step message : Text)
    (metadata : List (Text × Doc)) :
    Sure jobId (Services.addEvent job level step message metadata) :=
  sure_bind (sure_ask rfl) fun _ => sure_bind (sure_ask rfl) fun _ => sure_ask rfl

theorem sure_newCredentials (b : Services) (job : SetupJob) : Sure jobId (b.newCredentials job) :=
  sure_bind (sure_ask rfl) fun _ => sure_bind (sure_ask rfl) fun _ => sure_ret _

theorem sure_createFromSetup (job : SetupJob) (baseUrl keyId secret : Text) :
    Sure jobId (Services.createFromSetup job baseUrl keyId secret) :=
  sure_bind (sure_ask rfl) fun _ => sure_bind (sure_ask rfl) fun _ =>
    sure_bind (sure_ask rfl) fun _ => sure_bind (sure_ask rfl) fun _ => sure_ret _

/-- Something that does not concern the job in front of the rest. -/
theorem obeys_sure {p : Task α} {f : α → Task β} {Q : Post JobView Exc β} (hp : Sure jobId p)
    (hf : ∀ a, (f a).Obeys (runMonitor jobId) Q g) : (p >>= f).Obeys (runMonitor jobId) Q g := by
  refine obeys_seq (hp g) ?_ ?_
  · rintro a _ ⟨rfl, -⟩
    exact hf a
  · rintro x _ ⟨-, a, ha⟩
    cases ha

/-- A step: it is made, or the job was cancelled. -/
theorem obeys_setStep {source target : SetupJobStatus} {message : Text} (hg : g.status = source)
    (hsource : source ≠ .cancelled) :
    (Services.setStep jobId [source] target message).Obeys (runMonitor jobId)
      (fun r g' => ∃ next, r = .ok next ∧
        (∀ job, next = some job → job.id = jobId ∧ g'.status = target) ∧
        (next = none → source ≠ .checkingSsh ∧ g'.status = .cancelled)) g := by
  refine obeys_sure (sure_ask rfl) fun now => ⟨⟨rfl, by simpa using hsource.symm⟩, ?_⟩
  rintro r _ ⟨hanswered, rfl⟩
  rcases r with x | _ | job
  · exact hanswered.elim
  · refine ⟨none, rfl, by rintro _ ⟨⟩, fun _ => ⟨?_, ?_⟩⟩
    · rintro rfl
      exact hanswered rfl
    · simp [JobView.after, hg]
  · obtain ⟨-, hid⟩ := hanswered
    change (Services.addEvent job .info target.value message >>= fun _ => ret (some job)).Obeys _ _ _
    refine obeys_sure (sure_addEvent _ _ _ _ _) fun _ => ⟨some job, rfl, ?_, by rintro ⟨⟩⟩
    rintro _ ⟨⟩
    exact ⟨hid, rfl⟩

/-- The job is over, and its secret is forgotten. -/
def Over (g : JobView) : Prop := g.status.isTerminal = true ∧ g.forgotten = true

theorem cancelled_notMem_nonTerminal : SetupJobStatus.cancelled ∉ nonTerminalStatuses := by decide

/-- The end of a transition that ends the job. -/
theorem obeys_finish {expected : List SetupJobStatus} {values : List JobValue}
    (hexpected : .cancelled ∉ expected) (hterminal : (g.status.after values).isTerminal = true)
    (hother : g.status ∉ expected → g.status.isTerminal = true)
    {f : Option SetupJob → Task (Option SetupJob)} (hf : ∀ job, Sure jobId (f job)) :
    (ask (.transitionSetupJob jobId expected values) >>= fun job =>
      ask (.popSecret jobId) >>= fun _ => f job).Obeys (runMonitor jobId)
      (fun r g' => (∃ a, r = .ok a) ∧ Over g') g := by
  refine ⟨⟨rfl, hexpected⟩, ?_⟩
  rintro r g' ⟨hanswered, hg'⟩
  -- whether the transition is made or the job was cancelled, the job is over
  have hstatus : g'.status.isTerminal = true := by
    rw [hg']
    rcases r with x | _ | job
    · exact hanswered.elim
    · simp only [JobView.after]
      split
      · rfl
      · rename_i hmem
        exact hother hmem
    · exact hterminal
  have hpop : ∀ job, (ask (.popSecret jobId) >>= fun _ => f job).Obeys (runMonitor jobId)
      (fun r g' => (∃ a, r = .ok a) ∧ Over g') g' := by
    intro job
    refine ⟨rfl, ?_⟩
    rintro r _ ⟨hanswered, rfl⟩
    rcases r with x | _
    · exact hanswered.elim
    · refine obeys_mono (hf job { g' with forgotten := true }) ?_
      rintro r _ ⟨rfl, hok⟩
      exact ⟨hok, hstatus, rfl⟩
  rcases r with x | job
  · exact hanswered.elim
  · exact hpop job

theorem obeys_finishFailed (message : Text) :
    (Services.finishFailed jobId message).Obeys (runMonitor jobId)
      (fun r g' => (∃ a, r = .ok a) ∧ Over g') g := by
  refine obeys_sure (sure_ask rfl) fun now => ?_
  refine obeys_finish cancelled_notMem_nonTerminal rfl (fun h => ?_) fun job => ?_
  · rw [mem_nonTerminalStatuses] at h
    simpa using h
  · cases job with
    | none => exact sure_ret _
    | some job =>
      exact sure_bind (sure_addEvent _ _ _ _ _) fun _ => sure_bind (sure_auditLog _) fun _ => sure_ret _

theorem obeys_finishSuccess (nodeId : Text) (hg : g.status = .verifying ) :
    (Services.finishSuccess jobId nodeId).Obeys (runMonitor jobId)
      (fun r g' => (∃ a, r = .ok a) ∧ Over g') g := by
  refine obeys_sure (sure_ask rfl) fun now => ?_
  refine obeys_finish (by decide) rfl (fun h => absurd ?_ h) fun job => ?_
  · simp [hg]
  · cases job with
    | none => exact sure_ret _
    | some job =>
      exact sure_bind (sure_addEvent _ _ _ _ _) fun _ => sure_bind (sure_auditLog _) fun _ => sure_ret _

/-- What an operation ends with for the run of a job: it is completed, a health check with the
node, or the job was cancelled, or it failed. -/
def Completed (check : Bool) (g : JobView) (r : Except Exc (Bool × Option ServerNode))
    (g' : JobView) : Prop :=
  match r with
  | .ok (true, checked) => g'.status = g.status ∧ (check = true → checked ≠ none)
  | .ok (false, _) => g'.status = .cancelled
  | .error x => x.isFailure = true

theorem obeys_poll {polls t : Nat} (check : Bool) (hg : g.current = some (t, check)) :
    (Services.poll jobId t polls).Obeys (runMonitor jobId) (Completed check g) g := by
  -- by the number of polls: each waits, and looks at the job while the task runs on
  induction polls with
  | zero =>
    refine ⟨trivial, ?_⟩
    rintro r _ ⟨⟨⟩, -⟩
  | succ polls ih =>
    refine ⟨trivial, ?_⟩
    rintro r g₁ ⟨hanswered, hg₁⟩
    have hsame : g₁ = g := hg₁
    rw [hsame]
    rcases r with x | _ | _
    · exact hanswered.elim
    · refine ⟨rfl, ?_⟩
      rintro r g' ⟨hanswered, hg'⟩
      rcases r with x | _ | job
      · exact hanswered.elim
      · exact absurd rfl hanswered
      change (if job.status = .cancelled then _ else Services.poll jobId t polls : Task _).Obeys _ _ g'
      by_cases hcancelled : job.status = .cancelled
      -- the job was cancelled: the task is cancelled and joined, whatever that raises
      · rw [if_pos hcancelled]
        have hstatus : g'.status = .cancelled := by
          rw [hg', JobView.after]
          exact congrArg JobView.status (if_pos hcancelled)
        refine ⟨trivial, ?_⟩
        rintro r _ ⟨hanswered, rfl⟩
        rcases r with x | _
        · exact hanswered.elim
        · refine ⟨trivial, ?_⟩
          rintro r _ ⟨hanswered, rfl⟩
          rcases r with x | _
          · rcases hanswered with rfl | hfailure
            · exact hstatus
            · cases x with
              | app | setupStep => exact hfailure
              | _ => cases hfailure
          · exact hstatus
      -- not cancelled: the next poll
      · rw [if_neg hcancelled]
        have hsame : g' = g := by
          rw [hg']
          exact if_neg hcancelled
        rw [hsame]
        exact ih
    · refine ⟨trivial, ?_⟩
      rintro r _ ⟨hanswered, rfl⟩
      rcases r with x | checked
      · exact hanswered ⟨check, hg⟩
      · refine ⟨rfl, fun hcheck => hanswered ?_⟩
        subst hcheck
        exact hg

theorem obeys_runCancellable {polls : Nat} {operation : Operation} :
    (Services.runCancellable polls jobId operation).Obeys (runMonitor jobId)
      (Completed operation.isCheck g) g := by
  refine ⟨trivial, ?_⟩
  rintro r _ ⟨hanswered, rfl⟩
  rcases r with x | t
  · exact hanswered.elim
  refine obeys_seq_attempt (obeys_poll operation.isCheck rfl) ?_
  intro r g' hr
  rcases r with x | ⟨_ | _, checked⟩
  · cases x with
    | app | setupStep => exact hr
    | _ => cases hr
  · exact hr
  · exact hr

/-- What an installation ends with: the job is over, or the installation failed. -/
def Ends (r : Except Exc Unit) (g : JobView) : Prop :=
  match r with
  | .ok _ => g.status.isTerminal = true
  | .error x => x.isFailure = true

/-- What the VPN steps end with: the job to verify, or the job is over, or they failed. -/
def EndsVpn (jobId : Text) (r : Except Exc (Option SetupJob)) (g : JobView) : Prop :=
  match r with
  | .ok none => g.status.isTerminal = true
  | .ok (some job) => job.id = jobId ∧ g.status = .verifying
  | .error x => x.isFailure = true

/-- An operation in front of the rest of a part that gives up where the job was cancelled. -/
theorem obeys_completed {polls : Nat} {operation : Operation} {Q : Post JobView Exc β}
    {f : Bool × Option ServerNode → Task β}
    (hcompleted : ∀ checked g', g'.status = g.status →
      (operation.isCheck = true → checked ≠ none) → (f (true, checked)).Obeys (runMonitor jobId) Q g')
    (hcancelled : ∀ checked g', g'.status = .cancelled →
      (f (false, checked)).Obeys (runMonitor jobId) Q g')
    (hfailed : ∀ x g', x.isFailure = true → Q (.error x) g') :
    (Services.runCancellable polls jobId operation >>= f).Obeys (runMonitor jobId) Q g := by
  refine obeys_seq obeys_runCancellable ?_ fun x g' hx => hfailed x g' hx
  rintro ⟨_ | _, checked⟩ g' hr
  · exact hcancelled checked g' hr
  · exact hcompleted checked g' hr.1 hr.2

theorem obeys_preflight {polls : Nat} {job : SetupJob} {credentials : AgentCredentials}
    {sshSecret : Text} :
    (Services.preflight polls job credentials sshSecret).Obeys (runMonitor job.id)
      (fun r g' => match r with
        | .ok true => g'.status = g.status
        | .ok false => g'.status.isTerminal = true
        | .error x => x.isFailure = true) g := by
  unfold Services.preflight
  split
  · refine obeys_completed (fun _ g' hg' _ => hg') (fun _ g' hg' => ?_) fun x g' hx => hx
    change g'.status.isTerminal = true
    rw [hg']
    rfl
  · exact obeys_sure (sure_addEvent _ _ _ _ _) fun _ => rfl

theorem obeys_installVpn {polls : Nat} {job : SetupJob} {credentials : AgentCredentials}
    {sshSecret : Text} (hjob : job.id = jobId) (hg : g.status = .installingAgent) :
    (Services.installVpn polls job credentials sshSecret).Obeys (runMonitor jobId) (EndsVpn jobId)
      g := by
  subst hjob
  refine obeys_seq (obeys_setStep hg (by decide)) ?_ ?_
  · rintro next g₁ ⟨_, hnext, hsome, hnone⟩
    cases hnext
    rcases next with _ | next
    · change g₁.status.isTerminal = true
      rw [(hnone rfl).2]
      rfl
    obtain ⟨hid, hg₁⟩ := hsome next rfl
    refine obeys_sure (sure_addEvent _ _ _ _ _) fun _ => ?_
    rw [← hid]
    refine obeys_completed (fun _ g₂ hg₂ _ => ?_) (fun _ g₂ hg₂ => ?_) fun x g₂ hx => hx
    · refine obeys_seq (obeys_setStep (hg₂.trans hg₁) (by decide)) ?_ ?_
      · rintro last g₃ ⟨_, hlast, hsome, hnone⟩
        cases hlast
        rcases last with _ | last
        · change g₃.status.isTerminal = true
          rw [(hnone rfl).2]
          rfl
        · exact obeys_sure (sure_addEvent _ _ _ _ _) fun _ => hsome last rfl
      · rintro x g₃ ⟨_, hx, -⟩
        cases hx
    · change g₂.status.isTerminal = true
      rw [hg₂]
      rfl
  · rintro x g₁ ⟨_, hx, -⟩
    cases hx

theorem obeys_skipVpn {job : SetupJob} (hjob : job.id = jobId)
    (hg : g.status = .installingAgent) :
    (Services.skipVpn job).Obeys (runMonitor jobId) (EndsVpn jobId) g := by
  subst hjob
  refine obeys_seq (obeys_setStep hg (by decide)) ?_ ?_
  · rintro next g₁ ⟨_, hnext, hsome, hnone⟩
    cases hnext
    rcases next with _ | next
    · change g₁.status.isTerminal = true
      rw [(hnone rfl).2]
      rfl
    · exact obeys_sure (sure_addEvent _ _ _ _ _) fun _ =>
        obeys_sure (sure_addEvent _ _ _ _ _) fun _ => hsome next rfl
  · rintro x g₁ ⟨_, hx, -⟩
    cases hx

theorem obeys_activateAfterSetup {nodeId : Text} {available : Bool}
    (hg : g.status.isTerminal = true) :
    (Services.activateAfterSetup nodeId available >>= fun _ => ret ()).Obeys (runMonitor jobId) Ends
      g := by
  have hserver : (Services.getServer nodeId).Obeys (runMonitor jobId)
      (fun r g' => g' = g ∧ ∀ x, r = .error x → x.isFailure = true) g := by
    refine obeys_sure (sure_ask rfl) ?_
    rintro (_ | node)
    · exact ⟨rfl, by rintro _ ⟨⟩; rfl⟩
    · exact ⟨rfl, by rintro _ ⟨⟩⟩
  have hrest : (Services.activateAfterSetup nodeId available).Obeys (runMonitor jobId)
      (fun r g' => g' = g ∧ ∀ x, r = .error x → x.isFailure = true) g := by
    refine obeys_seq hserver ?_ ?_
    · rintro node _ ⟨rfl, -⟩
      refine obeys_sure (sure_ask rfl) fun now => obeys_sure (sure_ask rfl) fun _ => ?_
      exact ⟨rfl, by rintro _ ⟨⟩⟩
    · rintro x _ ⟨rfl, hx⟩
      exact ⟨rfl, fun x' hx' => hx x' hx'⟩
  refine obeys_seq hrest ?_ ?_
  · rintro _ _ ⟨rfl, -⟩
    exact hg
  · rintro x _ ⟨-, hx⟩
    exact hx x rfl

theorem obeys_verifyNode {polls : Nat} {job : SetupJob} {credentials : AgentCredentials}
    (hjob : job.id = jobId) (hg : g.status = .verifying) :
    (Services.verifyNode polls job credentials).Obeys (runMonitor jobId) Ends g := by
  subst hjob
  refine obeys_sure (sure_createFromSetup _ _ _ _) fun node => ?_
  refine obeys_completed (fun checked g₁ hg₁ hchecked => ?_) (fun _ g₁ hg₁ => ?_) fun x g₁ hx => hx
  · obtain ⟨checked, rfl⟩ := Option.ne_none_iff_exists'.mp (hchecked rfl)
    change (if (!checked.selectable) = true then _ else _ : Task Unit).Obeys _ _ _
    split
    · rfl
    · refine obeys_seq (obeys_finishSuccess node.id (hg₁.trans hg)) ?_ ?_
      · rintro (_ | finished) g₂ ⟨-, hover⟩
        · exact hover.1
        · exact obeys_activateAfterSetup hover.1
      · rintro x g₂ ⟨⟨_, hx⟩, -⟩
        cases hx
  · change g₁.status.isTerminal = true
    rw [hg₁]
    rfl

theorem obeys_install {polls : Nat} {performed : Bool} {job : SetupJob}
    {credentials : AgentCredentials} {sshSecret : Text} (hjob : job.id = jobId)
    (hg : g.status = .installingAgent) :
    (Services.install polls performed job credentials sshSecret).Obeys (runMonitor jobId) Ends g := by
  subst hjob
  have hrest : (Services.install polls false job credentials sshSecret).Obeys (runMonitor job.id)
      Ends g := by
    refine obeys_completed (fun _ g₁ hg₁ _ => ?_) (fun _ g₁ hg₁ => ?_) fun x g₁ hx => hx
    · change (if job.installAwg = true then _ else _ : Task Unit).Obeys _ _ _
      split
      · refine obeys_seq (obeys_installVpn rfl (hg₁.trans hg)) ?_ fun x g' h => h
        rintro (_ | next) g' h
        · exact h
        · exact obeys_verifyNode h.1 h.2
      · refine obeys_seq (obeys_skipVpn rfl (hg₁.trans hg)) ?_ fun x g' h => h
        rintro (_ | next) g' h
        · exact h
        · exact obeys_verifyNode h.1 h.2
    · change g₁.status.isTerminal = true
      rw [hg₁]
      rfl
  cases performed with
  | false => exact hrest
  | true => exact obeys_sure (sure_addEvent _ _ _ _ _) fun _ => hrest

theorem obeys_tryInstall {polls : Nat} {job : SetupJob} {credentials : AgentCredentials}
    {sshSecret : Text} (hg : g.status = .checkingSsh) :
    (Services.tryInstall polls job credentials sshSecret).Obeys (runMonitor job.id)
      (fun r g' => ∃ last end', r = .ok (some last, end') ∧ last.id = job.id ∧ Ends end' g') g := by
  refine obeys_seq_attempt obeys_preflight ?_
  rintro (x | _ | _) g₁ hr
  · exact ⟨job, .error x, rfl, rfl, hr⟩
  · exact ⟨job, .ok (), rfl, rfl, hr⟩
  refine obeys_seq_attempt (obeys_setStep (hr.trans hg) (by decide)) ?_
  rintro _ g₂ ⟨next, rfl, hsome, hnone⟩
  rcases next with _ | next
  · exact absurd rfl (hnone rfl).1
  · obtain ⟨hid, hg₂⟩ := hsome next rfl
    refine obeys_seq_attempt (obeys_install hid hg₂) ?_
    exact fun r g₃ hr => ⟨next, r, rfl, hid, hr⟩

theorem obeys_exceptFailed {job : SetupJob} {r : Except Exc Unit} (hr : Ends r g) :
    (Services.exceptFailed (some job) r).Obeys (runMonitor job.id)
      (fun r g' => r = .ok () ∧ g'.status.isTerminal = true) g := by
  have hfailed : ∀ message, (Services.finishFailed job.id message >>= fun _ => ret ()).Obeys
      (runMonitor job.id) (fun r g' => r = .ok () ∧ g'.status.isTerminal = true) g := by
    intro message
    refine obeys_seq (obeys_finishFailed message) ?_ ?_
    · rintro _ g' ⟨-, hover⟩
      exact ⟨rfl, hover.1⟩
    · rintro x g' ⟨⟨_, hx⟩, -⟩
      cases hx
  rcases r with x | _
  · cases x with
    | setupStep message => exact hfailed _
    | app e => exact hfailed _
    | _ => cases hr
  · exact ⟨rfl, hr⟩

/-- The run of a claimed job returns, and then the job is over and its secret is forgotten. -/
theorem obeys_runJob (b : Services) {polls : Nat} {job : SetupJob} (hg : g.status = .checkingSsh) :
    (b.runJob polls job).Obeys (runMonitor job.id) (fun r g' => r = .ok () ∧ Over g') g := by
  refine obeys_sure (sure_ask rfl) ?_
  rintro (_ | sshSecret)
  · refine obeys_seq (obeys_finishFailed _) ?_ ?_
    · rintro _ g' ⟨-, hover⟩
      exact ⟨rfl, hover⟩
    · rintro x g' ⟨⟨_, hx⟩, -⟩
      cases hx
  refine obeys_sure (sure_newCredentials b job) fun credentials => ?_
  refine obeys_seq (obeys_tryInstall hg) ?_ ?_
  · rintro _ g₁ ⟨last, r, ⟨⟩, hid, hr⟩
    rw [← hid]
    refine obeys_seq_attempt (obeys_exceptFailed hr) ?_
    rintro _ g₂ ⟨rfl, hterminal⟩
    refine ⟨rfl, ?_⟩
    rintro r _ ⟨hanswered, rfl⟩
    rcases r with x | _
    · exact hanswered.elim
    · exact ⟨rfl, hterminal, rfl⟩
  · rintro x g₁ ⟨_, _, hx, -⟩
    cases hx

end Obeys
/-- The platform does what is asked of it: no operation of the storage raises, and the worker is
not told to stop. -/
structure Platform.Undisturbed {ω : Type} (P : Platform ω) : Prop where
  storage : P.StorageWorks
  wait : ∀ t x, ¬ P.raises (.wait t) x
  join : ∀ t x, ¬ P.raises (.join t) x

/-- Operations end as an operation may, and the first step of the run finds the job as it was
claimed. -/
def Op.orderlyRun {ω : Type} (own : Bool) (w : World ω) : Op → Bool
  | settle t outcome => (w.tasks[t]?).all (·.admits outcome)
  | transitionSetupJob jobId [.checkingSsh] _ =>
    !own || (w.store.getSetupJob jobId).any (·.status == .checkingSsh)
  | _ => true

/-- What the others do while a job runs. -/
def Op.besideRun : Op → Prop
  | transitionSetupJob _ _ values => ∃ now, values = Services.cancelValues now
  | saveSetupJob _ | claimNextSetupJob .. | putSecret .. | ensureFuture _ | cancelTask _ => False
  | _ => True

section Run
variable {ω : Type} {P : Platform ω} {b : Services} {i j : Nat} {w w' : World ω} {jobId : Text}
  {g : JobView} {y : Loop (World ω) Op.Res Exc Unit JobCall}

/-- The task ended as an operation may. -/
def AsyncTask.Sound (task : AsyncTask) : Prop :=
  ∀ outcome, task.outcome = some outcome → task.admits outcome = true

/-- What the run of a job knows is true. -/
structure Knows (jobId : Text) (w : World ω) (g : JobView) : Prop where
  job : ∃ job, w.store.getSetupJob jobId = some job ∧ (job.status = g.status ∨ job.status = .cancelled)
  secret : g.forgotten = true → w.ephemeralSshSecrets.get jobId = none
  tasks : ∀ (t : Nat) (task : AsyncTask), w.tasks[t]? = some task → task.Sound
  current : ∀ t check, g.current = some (t, check) → ∃ task : AsyncTask, w.tasks[t]? = some task ∧
    task.operation.isCheck = check ∧ task.cancelRequested = false

/-- An operation that writes neither jobs nor secrets nor tasks. -/
theorem Knows.same (h : Knows jobId w g) (hjobs : w'.store.setupJobs = w.store.setupJobs)
    (hsecrets : w'.ephemeralSshSecrets = w.ephemeralSshSecrets) (htasks : w'.tasks = w.tasks) :
    Knows jobId w' g where
  job := by
    rw [Store.getSetupJob, hjobs]
    exact h.job
  secret := by
    rw [hsecrets]
    exact h.secret
  tasks := by
    rw [htasks]
    exact h.tasks
  current := by
    rw [htasks]
    exact h.current

theorem same_of_env (part : Part) {e : Op} {r : e.Res} (h : P.env j w e r w')
    (hwrites : e.writes ≠ some part) : part.Same w w' := by
  cases r with
  | ok a => exact (effect_frame h).2 part hwrites
  | error x => exact (failure_frame h).2 part hwrites

theorem status_foldl_set (values : List JobValue) (job : SetupJob) :
    (values.foldl SetupJob.set job).status = job.status.after values := by
  induction values generalizing job with
  | nil => rfl
  | cons value values ih =>
    rw [List.foldl_cons, ih, SetupJobStatus.after, SetupJobStatus.after, List.foldl_cons]
    cases value <;> rfl

/-- What becomes of a job by a transition of it. -/
theorem transition_own {s : Store} {job : SetupJob} (expected : List SetupJobStatus)
    (values : List JobValue) (hjob : s.getSetupJob jobId = some job) :
    (s.transitionSetupJob jobId expected values =
      (some (values.foldl SetupJob.set job), s.saveSetupJob (values.foldl SetupJob.set job)) ∧
      job.status ∈ expected) ∨
    (s.transitionSetupJob jobId expected values = (none, s) ∧ job.status ∉ expected) := by
  rw [Store.transitionSetupJob, hjob]
  by_cases hmem : job.status ∈ expected
  · exact .inl ⟨if_pos hmem, hmem⟩
  · exact .inr ⟨if_neg hmem, hmem⟩

theorem getSetupJob_foldl {s : Store} {job : SetupJob} {values : List JobValue}
    (hjob : s.getSetupJob jobId = some job) :
    (s.saveSetupJob (values.foldl SetupJob.set job)).getSetupJob jobId =
      some (values.foldl SetupJob.set job) := by
  have hid : (values.foldl SetupJob.set job).id = jobId := by
    rw [foldl_set_id]
    exact Table.key_of_get hjob
  rw [Store.getSetupJob, Store.saveSetupJob, ← hid]
  exact Table.get_put_self _ _

theorem transition_other {s : Store} {jobId' : Text} {expected : List SetupJobStatus}
    {values : List JobValue} (hne : jobId' ≠ jobId) :
    (s.transitionSetupJob jobId' expected values).2.getSetupJob jobId = s.getSetupJob jobId := by
  cases hjob : s.getSetupJob jobId' with
  | none => rw [Store.transitionSetupJob, hjob]
  | some job =>
    rcases transition_own expected values hjob with ⟨heq, -⟩ | ⟨heq, -⟩
    · have hid : (values.foldl SetupJob.set job).id = jobId' := by
        rw [foldl_set_id]
        exact Table.key_of_get hjob
      rw [heq, Store.getSetupJob, Store.saveSetupJob, Table.get_put, if_neg]
      · rfl
      · rw [hid]
        exact hne.symm
    · rw [heq]

/-- A change of one task that leaves its operation alone. -/
theorem Knows.setTask (h : Knows jobId w g) {n : Nat} {f : AsyncTask → AsyncTask}
    (htasks : w'.tasks = setTask w.tasks n f) (hjobs : w'.store.setupJobs = w.store.setupJobs)
    (hsecrets : w'.ephemeralSshSecrets = w.ephemeralSshSecrets)
    (hsound : ∀ task, w.tasks[n]? = some task → task.Sound → (f task).Sound)
    (hf : ∀ task, (f task).operation = task.operation ∧
      (f task).cancelRequested = task.cancelRequested) : Knows jobId w' g where
  job := by
    rw [Store.getSetupJob, hjobs]
    exact h.job
  secret := by
    rw [hsecrets]
    exact h.secret
  tasks := by
    intro t task ht
    rw [htasks, Backend.setTask, List.getElem?_modify] at ht
    obtain ⟨old, hold, heq⟩ := Option.map_eq_some_iff.mp ht
    split at heq
    · rename_i hn
      subst hn heq
      exact hsound old hold (h.tasks _ _ hold)
    · subst heq
      exact h.tasks _ _ hold
  current := by
    intro t check hcurrent
    obtain ⟨task, htask, hcheck, hcancel⟩ := h.current t check hcurrent
    rw [htasks, Backend.setTask, List.getElem?_modify, htask]
    refine ⟨_, rfl, ?_⟩
    split
    · rw [(hf task).1, (hf task).2]
      exact ⟨hcheck, hcancel⟩
    · exact ⟨hcheck, hcancel⟩

/-- What the others do leaves true what the run of a job knows. -/
theorem Knows.beside (h : Knows jobId w g) {e : Op} {r : e.Res} (he : e.besideRun)
    (hact : P.env j w e r w') (hr : e.orderlyRun false w = true) : Knows jobId w' g := by
  have hsame : e.writes ≠ some .jobs → e.writes ≠ some .secrets → e.writes ≠ some .tasks →
      Knows jobId w' g :=
    fun hjobs hsecrets htasks => h.same (same_of_env .jobs hact hjobs) (same_of_env .secrets hact hsecrets)
      (same_of_env .tasks hact htasks)
  -- others may only cancel the job, drop its secret, and drive the tasks
  cases e with
  | saveSetupJob | claimNextSetupJob | putSecret | ensureFuture | cancelTask => exact he.elim
  | transitionSetupJob jobId' expected values =>
    obtain ⟨now, rfl⟩ := he
    rcases r with x | r
    · obtain rfl : w' = w := hact.2.2
      exact h
    obtain ⟨-, rfl⟩ := hact
    refine ⟨?_, h.secret, h.tasks, h.current⟩
    obtain ⟨job, hjob, hstatus⟩ := h.job
    by_cases hid : jobId' = jobId
    · subst hid
      rcases transition_own expected (Services.cancelValues now) hjob with
        ⟨heq, -⟩ | ⟨heq, -⟩
      · refine ⟨_, ?_, .inr (status_foldl_set (Services.cancelValues now) job)⟩
        simp only [heq]
        exact getSetupJob_foldl hjob
      · refine ⟨job, ?_, hstatus⟩
        simp only [heq]
        exact hjob
    · exact ⟨job, (transition_other hid).trans hjob, hstatus⟩
  | popSecret jobId' =>
    rcases r with x | _
    · cases hact.1
    obtain rfl : w' = _ := hact
    refine ⟨h.job, fun hforgotten => ?_, h.tasks, h.current⟩
    rw [Table.get_erase, h.secret hforgotten, ite_self]
  | begin t =>
    refine h.setTask (n := t) (f := ({ · with started := true })) ?_
      (same_of_env .jobs hact (by simp [Op.writes]))
      (same_of_env .secrets hact (by simp [Op.writes])) (fun _ _ hsound => hsound)
      fun _ => ⟨rfl, rfl⟩
    rcases r with x | operation
    · obtain ⟨_, -, -, -, -, rfl⟩ := hact
      rfl
    · obtain ⟨_, -, -, -, rfl⟩ := hact
      rfl
  -- the first outcome of a task stays; a new one is one that its operation admits
  | settle t outcome =>
    rcases r with x | _
    · cases hact.1
    obtain rfl : w' = _ := hact
    refine h.setTask rfl rfl rfl (fun task htask hsound out hout => ?_) fun _ => ⟨rfl, rfl⟩
    rw [AsyncTask.settle] at hout
    cases hold : task.outcome with
    | none =>
      rw [hold] at hout
      cases hout
      have hadmits : (w.tasks[t]?).all (·.admits outcome) = true := hr
      rw [htask] at hadmits
      exact hadmits
    | some old =>
      rw [hold] at hout
      cases hout
      exact hsound _ hold
  | _ => exact hsame (by simp [Op.writes]) (by simp [Op.writes]) (by simp [Op.writes])

/-- What an operation of the run raises. -/
theorem Knows.raised (hP : P.Undisturbed) (h : Knows jobId w g) {e : Op} {x : Exc}
    (hmay : (runMonitor jobId).may g e) (hact : P.failure w e x w') :
    g.Answered jobId e (.error x) ∧ w' = w := by
  -- a task raises CancelledError only if its cancellation was requested
  have hadmits : ∀ (t : Nat) (task : AsyncTask), w.tasks[t]? = some task →
      task.outcome = some (.error x) → x.isFailure = true ∨
        x = .cancelled ∧ task.cancelRequested = true := by
    intro t task htask houtcome
    have hsound := h.tasks t task htask _ houtcome
    cases x with
    | cancelled => exact .inr ⟨rfl, hsound⟩
    | _ => exact .inl hsound
  cases e with
  | result t =>
    obtain ⟨rfl, task, htask, houtcome⟩ := hact
    refine ⟨?_, rfl⟩
    rintro ⟨check, hcurrent⟩
    obtain ⟨task', htask', -, hcancel⟩ := h.current t check hcurrent
    rw [htask, Option.some.injEq] at htask'
    subst htask'
    rcases hadmits t task htask houtcome with hx | ⟨-, hx⟩
    · exact hx
    · rw [hcancel] at hx
      cases hx
  | join t =>
    obtain ⟨rfl, task, htask, -, houtcome | hraises⟩ := hact
    · rcases hadmits t task htask houtcome with hx | ⟨hx, -⟩
      · exact ⟨.inr hx, rfl⟩
      · exact ⟨.inl hx, rfl⟩
    · exact absurd hraises (hP.join t x)
  | wait t => exact absurd hact.2.1 (hP.wait t x)
  | _ => first
    | exact absurd hact.2.1 (hP.storage _ x rfl)
    | exact absurd hact.1 Bool.noConfusion
    | cases hmay

/-- What an operation of the run does to what it knows. -/
theorem Knows.own (hP : P.Undisturbed) (h : Knows jobId w g) {e : Op} {r : e.Res}
    (hmay : (runMonitor jobId).may g e) (hact : P.env i w e r w') (hr : e.orderlyRun true w = true) :
    g.Answered jobId e r ∧ Knows jobId w' (g.after e r) := by
  -- an operation that raises changes nothing that is known
  rcases r with x | a
  · obtain ⟨hanswered, rfl⟩ := h.raised hP hmay hact
    have hsame : g.after e (.error x) = g := by
      cases e <;> rfl
    rw [hsame]
    exact ⟨hanswered, h⟩
  have hsame : e.writes ≠ some .jobs → e.writes ≠ some .secrets → e.writes ≠ some .tasks →
      Knows jobId w' g :=
    fun hjobs hsecrets htasks => h.same (same_of_env .jobs hact hjobs) (same_of_env .secrets hact hsecrets)
      (same_of_env .tasks hact htasks)
  obtain ⟨job, hjob, hstatus⟩ := h.job
  cases e with
  -- the status is as last seen unless someone cancelled meanwhile, which no expected list admits
  | transitionSetupJob jobId' expected values =>
    obtain ⟨rfl, hcancelled⟩ := hmay
    obtain ⟨rfl, rfl⟩ := hact
    have hmem : job.status ∈ expected → job.status = g.status := fun hmem =>
      hstatus.resolve_right fun hc => hcancelled (hc ▸ hmem)
    rcases transition_own expected values hjob with
      ⟨heq, hin⟩ | ⟨heq, hout⟩
    · rw [heq]
      refine ⟨⟨hmem hin ▸ hin, ?_⟩, ⟨_, getSetupJob_foldl hjob, .inl ?_⟩, h.secret, h.tasks, h.current⟩
      · rw [foldl_set_id]
        exact Table.key_of_get hjob
      · rw [status_foldl_set, hmem hin]
        rfl
    · rw [heq]
      have hfirst : expected ≠ [.checkingSsh] := by
        rintro rfl
        simp only [Op.orderlyRun, hjob, Option.any_some, Bool.not_true, Bool.false_or,
          beq_iff_eq] at hr
        exact hout (List.mem_singleton.mpr hr)
      refine ⟨hfirst, ⟨job, hjob, ?_⟩, ?_, h.tasks, ?_⟩
      · simp only [JobView.after]
        split
        · rename_i hin
          exact .inr (hstatus.resolve_left fun hs => hout (hs ▸ hin))
        · exact hstatus
      · simp only [JobView.after]
        split <;> exact h.secret
      · simp only [JobView.after]
        split <;> exact h.current
  -- a look at the job may show that it was cancelled
  | getSetupJob jobId' =>
    obtain rfl := hmay
    obtain ⟨rfl, rfl⟩ := hact
    rw [hjob]
    refine ⟨by rintro ⟨⟩, ?_⟩
    simp only [JobView.after]
    split
    · rename_i hcancelled
      exact ⟨⟨job, hjob, .inr hcancelled⟩, h.secret, h.tasks, h.current⟩
    · exact h
  | popSecret jobId' =>
    obtain rfl := hmay
    obtain rfl : w' = _ := hact
    refine ⟨trivial, h.job, fun _ => ?_, h.tasks, h.current⟩
    rw [Table.get_erase, if_pos rfl]
  | ensureFuture operation =>
    obtain ⟨rfl, rfl⟩ := hact
    refine ⟨trivial, h.job, h.secret, fun t task ht => ?_, ?_⟩
    · simp only [List.getElem?_append] at ht
      split at ht
      · exact h.tasks t task ht
      · rw [List.getElem?_singleton] at ht
        split at ht
        · cases ht
          rintro _ ⟨⟩
        · cases ht
    · rintro t check ⟨⟩
      exact ⟨{ operation }, by simp, rfl, rfl⟩
  -- a task that had ended keeps its outcome
  | cancelTask t =>
    obtain rfl : w' = _ := hact
    refine ⟨trivial, h.job, h.secret, fun t' task ht' => ?_, by rintro _ _ ⟨⟩⟩
    simp only [Backend.setTask, List.getElem?_modify] at ht'
    obtain ⟨old, hold, heq⟩ := Option.map_eq_some_iff.mp ht'
    split at heq
    · subst heq
      intro outcome houtcome
      have hsound := h.tasks t' old hold outcome houtcome
      rcases outcome with x | checked
      · cases x <;> first | rfl | exact hsound
      · exact hsound
    · subst heq
      exact h.tasks t' _ hold
  -- a health check that ended without an exception has a node to return
  | result t =>
    obtain ⟨⟨task, htask, houtcome⟩, rfl⟩ := hact
    refine ⟨fun hcurrent => ?_, h⟩
    obtain ⟨task', htask', hcheck, -⟩ := h.current t true hcurrent
    rw [htask, Option.some.injEq] at htask'
    subst htask'
    have hsound := h.tasks t task htask _ houtcome
    cases hoperation : task.operation with
    | runner =>
      rw [hoperation] at hcheck
      cases hcheck
    | healthCheck nodeId =>
      simp only [AsyncTask.admits, hoperation] at hsound
      exact Option.isSome_iff_ne_none.mp hsound
  | pending => exact hact.elim
  | _ => first
    | (cases hmay; done)
    | exact ⟨trivial, hsame (by simp [Op.writes]) (by simp [Op.writes]) (by simp [Op.writes])⟩

theorem tells_run (hP : P.Undisturbed) :
    Loop.Tells (P.kernel.answering fun j w e _ => e.orderlyRun (j = i) w = true) World.Tick
      (runMonitor jobId) (Knows jobId) Op.besideRun i where
  own h hmay hact := by
    obtain ⟨hanswered, hknows⟩ := h.own hP hmay hact.1 (by simpa using hact.2)
    exact ⟨_, ⟨hanswered, rfl⟩, hknows⟩
  others := by
    intro j w g e r w' hj he h hact
    exact h.beside he hact.1 (by simpa [hj] using hact.2)
  tick := by
    rintro w g _ h ⟨now, agents, rfl⟩
    exact h.same rfl rfl rfl

theorem Services.uses_beside (b : Services) {call : JobCall} (hcall : call.others = true) :
    (b.jobCall call).Uses Op.besideRun := by
  cases call with
  | run => cases hcall
  | cancel actor jobId =>
    have hask : ∀ {e : Op}, e.besideRun → (ask e).Uses Op.besideRun :=
      fun he => uses_bind (uses_perform he) fun _ => uses_lift _
    have hjob : (getJob jobId).Uses Op.besideRun := by
      refine uses_bind (hask trivial) ?_
      rintro (_ | job) <;> trivial
    have hevent : ∀ job, (addEvent job .warning (lit "cancelled") (lit "Задача отменена")).Uses
        Op.besideRun :=
      fun job => uses_bind (hask trivial) fun _ => uses_bind (hask trivial) fun _ => hask trivial
    have haudit : ∀ r, (auditLog r).Uses Op.besideRun :=
      fun r => uses_bind (hask trivial) fun _ => uses_bind (hask trivial) fun _ => hask trivial
    have hcancel : (cancelJob actor jobId).Uses Op.besideRun := by
      refine uses_bind hjob fun _ => uses_bind (hask trivial) fun now =>
        uses_bind (hask ⟨now, rfl⟩) ?_
      rintro (_ | job)
      · trivial
      · exact uses_bind (hask trivial) fun _ => uses_bind (hevent job) fun _ =>
          uses_bind (haudit _) fun _ => trivial
    exact uses_bind hcancel fun _ => trivial
  | operation t =>
    refine (operates_operationTask b t).mono fun e he => ?_
    cases e <;> trivial

/-- The run of a job waits for nothing but its operations. -/
def Op.isWait : Op → Bool
  | wait _ | join _ | pending => true
  | _ => false

theorem isWait_of_may {e : Op} (hmay : (runMonitor jobId).may g e) (he : e.suspends = true) :
    e.isWait = true := by
  cases e <;> first | rfl | (cases he; done) | cases hmay

/-- Whatever cancellations interleave with the run of a claimed job, and whether its operations
succeed or fail: if its first step finds the job as it was claimed, the run raises nothing, it
waits for nothing but its operations, and when it has returned, the job is over and its secret
forgotten. -/
theorem runJob_returns (hP : P.Undisturbed) {polls : Nat} {job stored : SetupJob}
    (hstored : w.store.getSetupJob job.id = some stored) (hclaimed : stored.status = .checkingSsh)
    (htasks : ∀ task ∈ w.tasks, task.Sound)
    (h : Relation.ReflTransGen (Loop.Step
      (P.kernel.answering fun j w e _ => e.orderlyRun (j = i) w = true) World.Tick b.jobCall)
      { shared := w } y)
    (hothers : ∀ j call p, j ≠ i → y.running j = some (call, p) → call.others = true)
    {p : Task Unit} (hi : y.running i = some (.run polls job, p)) :
    (∀ x, p ≠ .fail x) ∧
    (∀ e k, p = .op e k → e.suspends = true → e.isWait = true) ∧
    (p = .ret () → (∃ job', y.shared.store.getSetupJob job.id = some job' ∧
      job'.status.isTerminal = true) ∧ y.shared.ephemeralSshSecrets.get job.id = none) := by
  -- the claim put the job to checking_ssh, so the monitor starts with this status
  have hknows : Knows job.id w { status := .checkingSsh } := by
    exact ⟨⟨stored, hstored, .inl hclaimed⟩, by rintro ⟨⟩,
      fun t task ht => htasks task (List.mem_of_getElem? ht), by rintro t check ⟨⟩⟩
  have hrun : ∀ call q, y.running i = some (call, q) → (b.jobCall call).Obeys (runMonitor job.id)
      (fun r g => r = .ok () ∧ Over g) { status := .checkingSsh } := by
    intro call q hq
    rw [hi] at hq
    cases hq
    exact obeys_runJob b rfl
  obtain ⟨g, hy, -⟩ := Loop.watched_reachable (S := fun _ => True)
    (Q := fun _ r g => r = .ok () ∧ Over g) (tells_run hP) (fun _ _ _ _ _ _ _ _ _ => trivial) h hrun
    (fun j call p hj hp => b.uses_beside (hothers j call p hj hp)) (Loop.watched_begin hknows) trivial
  have hp := hy.own _ p hi
  refine ⟨?_, ?_, ?_⟩
  -- it never raises
  · rintro x rfl
    cases hp.1
  -- it only ever waits for its operations
  · rintro e k rfl he
    exact isWait_of_may hp.1 he
  -- it returned: the job is terminal, or was cancelled beside it
  · rintro rfl
    obtain ⟨-, hterminal, hforgotten⟩ := hp
    obtain ⟨job', hjob', hstatus⟩ := hy.tells.job
    refine ⟨⟨job', hjob', ?_⟩, hy.tells.secret hforgotten⟩
    rcases hstatus with hstatus | hstatus
    · rw [hstatus]
      exact hterminal
    · rw [hstatus]
      rfl

end Run
namespace Sample

/-- A job that a worker has claimed, with its secret. -/
def claimedJob : SetupJob where
  id := lit "j"
  createdByUserId := lit "u"
  serverName := lit "edge"
  host := lit "edge.example"
  sshPort := 22
  sshUsername := lit "root"
  authMethod := .password
  createdAt := 0
  updatedAt := 0
  status := .checkingSsh
  currentStep := SetupJobStatus.checkingSsh.label

def claimedWorld : World Unit where
  store := ({} : Store).saveSetupJob claimedJob
  ephemeralSshSecrets := ({} : Table (Prod.fst : Text × Text → Text)).put (lit "j", lit "hunter2")
  agents := ()

abbrev RunLoop := Loop (World Unit) Op.Res Exc Unit JobCall

/-- The operations end as they may; `own` are the tasks whose first step finds the job. -/
def playRun (own : Nat → Bool) (moves : List (Move JobCall (Option Exc))) : RunLoop :=
  Loop.play ((scenario .memory).platform.kernel.answering fun j w e _ =>
      e.orderlyRun (own j) w = true)
    (fun j fault => ((scenario .memory).answer j fault).answering fun w e _ =>
      e.orderlyRun (own j) w = true)
    services.jobCall moves { shared := claimedWorld }

theorem reachable_playRun (own : Nat → Bool) (moves : List (Move JobCall (Option Exc))) :
    Relation.ReflTransGen (Loop.Step ((scenario .memory).platform.kernel.answering fun j w e _ =>
      e.orderlyRun (own j) w = true) World.Tick services.jobCall) { shared := claimedWorld }
      (playRun own moves) := by
  apply Loop.play_reachable
  intro j fault w e r w' h
  exact env_answering ((scenario .memory).platform.env j)
    (fun _ _ _ _ => (scenario .memory).answer_env j fault) h

/-- The job runs, and check_ssh ends. -/
def checking : List (Move JobCall (Option Exc)) := acts 0 4 ++ [.start 2 (.operation 0)] ++ acts 2 3

/-- The job is cancelled after the second operation began. -/
def cancelledJobRun : RunLoop :=
  playRun (fun j => j = 0) (.start 0 (.run 3 claimedJob) :: (checking ++ acts 0 11 ++
    [.start 3 (.operation 1)] ++ acts 3 1 ++ [.start 1 (.cancel user (lit "j"))] ++ acts 1 10 ++
    acts 0 3 ++ acts 3 2 ++ acts 0 2))

/-- The job is cancelled before the run goes on. -/
def crashedJobRun : RunLoop :=
  playRun (fun _ => false) (.start 0 (.run 3 claimedJob) :: (checking ++
    [.start 1 (.cancel user (lit "j"))] ++ acts 1 10 ++ acts 0 4))

/-- A run that was begun is still there. -/
theorem playRun_running (own : Nat → Bool) (moves : List (Move JobCall (Option Exc))) :
    ∃ p, (playRun own (.start 0 (.run 3 claimedJob) :: moves)).running 0 =
      some (.run 3 claimedJob, p) := by
  have hplay : Relation.ReflTransGen (Loop.Step ((scenario .memory).platform.kernel.answering
      fun j w e _ => e.orderlyRun (own j) w = true) World.Tick services.jobCall)
      (({ shared := claimedWorld } : RunLoop).put ((scenario .memory).platform.kernel.answering
        fun j w e _ => e.orderlyRun (own j) w = true) claimedWorld 0 (.run 3 claimedJob)
        (services.jobCall (.run 3 claimedJob)))
      (playRun own (.start 0 (.run 3 claimedJob) :: moves)) := by
    apply Loop.play_reachable
    intro j fault w e r w' h
    exact env_answering ((scenario .memory).platform.env j)
      (fun _ _ _ _ => (scenario .memory).answer_env j fault) h
  exact Loop.running_reachable hplay (Loop.put_running_self _ _ _ _ _ _)

theorem undisturbed : (scenario .memory).platform.Undisturbed where
  storage _ _ _ h := by cases h
  wait _ _ h := by cases h
  join _ _ h := by cases h

theorem stored_claimedJob : claimedWorld.store.getSetupJob claimedJob.id = some claimedJob :=
  Table.get_put_self _ _

end Sample

theorem runJob_returns_cancelled :
    Sample.cancelledJobRun.running 0 = some (.run 3 Sample.claimedJob, .ret ()) ∧
    (∃ job', Sample.cancelledJobRun.shared.store.getSetupJob Sample.claimedJob.id = some job' ∧
      job'.status.isTerminal = true) ∧
    Sample.cancelledJobRun.shared.ephemeralSshSecrets.get Sample.claimedJob.id = none := by
  obtain ⟨p, hp⟩ := Sample.playRun_running (fun j => j = 0) (Sample.checking ++ Sample.acts 0 11 ++
    [.start 3 (.operation 1)] ++ Sample.acts 3 1 ++ [.start 1 (.cancel Sample.user (lit "j"))] ++
    Sample.acts 1 10 ++ Sample.acts 0 3 ++ Sample.acts 3 2 ++ Sample.acts 0 2)
  change Sample.cancelledJobRun.running 0 = _ at hp
  have hends : (Sample.cancelledJobRun.running 0).bind (Sample.outcomeOf ·.2) = some true := by
    decide +kernel
  rw [hp] at hends
  cases p with
  | fail | op => cases hends
  | ret a =>
    refine ⟨hp, (runJob_returns Sample.undisturbed Sample.stored_claimedJob rfl (by rintro _ ⟨⟩)
      (Sample.reachable_playRun _ _) (fun j call p hj hcall => ?_) hp).2.2 rfl⟩
    refine Loop.others_of_started [1, 2, 3] (fun j hj => ?_) (by decide +kernel) hj hcall
    exact Loop.play_running (by simp_all [Sample.checking, Sample.acts]) rfl

/-- Cancelled after its check of the SSH access ended and before it goes on, the run raises. -/
theorem cancelled_run_raises :
    (Sample.scenario .memory).platform.Undisturbed ∧
    Sample.claimedWorld.store.getSetupJob Sample.claimedJob.id = some Sample.claimedJob ∧
    Relation.ReflTransGen (Loop.Step ((Sample.scenario .memory).platform.kernel.answering
      fun _ w e _ => e.orderlyRun false w = true) World.Tick Sample.services.jobCall)
      { shared := Sample.claimedWorld } Sample.crashedJobRun ∧
    ∃ x, Sample.crashedJobRun.running 0 = some (.run 3 Sample.claimedJob, .fail x) := by
  refine ⟨Sample.undisturbed, Sample.stored_claimedJob, Sample.reachable_playRun _ _, ?_⟩
  obtain ⟨p, hp⟩ := Sample.playRun_running (fun _ => false) (Sample.checking ++
    [.start 1 (.cancel Sample.user (lit "j"))] ++ Sample.acts 1 10 ++ Sample.acts 0 4)
  change Sample.crashedJobRun.running 0 = _ at hp
  have hends : (Sample.crashedJobRun.running 0).bind (Sample.outcomeOf ·.2) = some false := by
    decide +kernel
  rw [hp] at hends
  cases p with
  | ret | op => cases hends
  | fail x => exact ⟨x, hp⟩

end VpnControl.Backend
