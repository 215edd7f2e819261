import VpnControl.Backend.JobRun
import VpnControl.Backend.SecretOwners

namespace VpnControl.Backend
open Strings Json Effects Prog

/-- The values give no secret to a job. -/
def JobValue.keepsSecret : JobValue → Bool
  | secretEncrypted value => value.isNone
  | _ => true

/-- The job is stored and has not ended. -/
def Store.Unfinished (s : Store) (jobId : Text) : Prop :=
  ∃ job, s.getSetupJob jobId = some job ∧ job.status.isTerminal = false

variable {ω : Type}

/-- No stored job has a secret, and the secrets in memory are those of jobs that have not ended. -/
structure Confined (w : World ω) : Prop where
  secretEncrypted : ∀ id job, w.store.getSetupJob id = some job → job.secretEncrypted = none
  held : ∀ id, w.ephemeralSshSecrets.get id ≠ none → w.store.Unfinished id

/-- The same, as long as the secret of one job is not looked at. -/
structure ConfinedBut (jobId : Text) (w : World ω) : Prop where
  secretEncrypted : ∀ id job, w.store.getSetupJob id = some job → job.secretEncrypted = none
  held : ∀ id, id ≠ jobId → w.ephemeralSshSecrets.get id ≠ none → w.store.Unfinished id

section Confined
variable {w w' : World ω} {jobId : Text}

theorem Confined.but (h : Confined w) (jobId : Text) : ConfinedBut jobId w :=
  ⟨h.secretEncrypted, fun id _ => h.held id⟩

theorem Confined.same (h : Confined w) (hjobs : w'.store.setupJobs = w.store.setupJobs)
    (hsecrets : w'.ephemeralSshSecrets = w.ephemeralSshSecrets) : Confined w' where
  secretEncrypted := by
    rw [funext fun id => show w'.store.getSetupJob id = w.store.getSetupJob id by
      rw [Store.getSetupJob, hjobs, Store.getSetupJob]]
    exact h.secretEncrypted
  held := by
    intro id hheld
    rw [hsecrets] at hheld
    rw [Store.Unfinished, Store.getSetupJob, hjobs]
    exact h.held id hheld

theorem foldl_secretEncrypted {values : List JobValue} {job : SetupJob}
    (hvalues : values.all JobValue.keepsSecret = true) (hjob : job.secretEncrypted = none) :
    (values.foldl SetupJob.set job).secretEncrypted = none := by
  induction values generalizing job with
  | nil => exact hjob
  | cons value values ih =>
    rw [List.all_cons, Bool.and_eq_true] at hvalues
    refine ih hvalues.2 ?_
    cases value with
    | secretEncrypted value => simpa [SetupJob.set, JobValue.keepsSecret] using hvalues.1
    | _ => exact hjob

/-- A transition that is refused changes nothing. -/
theorem transition_refused {s : Store} {expected : List SetupJobStatus} {values : List JobValue}
    (h : (s.transitionSetupJob jobId expected values).1 = none) :
    (s.transitionSetupJob jobId expected values).2 = s := by
  cases hjob : s.getSetupJob jobId with
  | none => rw [Store.transitionSetupJob, hjob]
  | some job =>
    rcases transition_own expected values hjob with ⟨heq, -⟩ | ⟨heq, -⟩
    · rw [heq] at h
      cases h
    · rw [heq]

/-- What a transition makes of the jobs: the job itself may have ended now. -/
theorem Confined.transition (h : Confined w) {expected : List SetupJobStatus}
    {values : List JobValue} (hvalues : values.all JobValue.keepsSecret = true) :
    ConfinedBut jobId { w with store := (w.store.transitionSetupJob jobId expected values).2 } where
  secretEncrypted := by
    intro id job hjob
    by_cases hid : id = jobId
    · subst hid
      cases hold : w.store.getSetupJob id with
      | none =>
        rw [Store.transitionSetupJob, hold] at hjob
        exact h.secretEncrypted id job hjob
      | some old =>
        rcases transition_own expected values hold with ⟨heq, -⟩ | ⟨heq, -⟩
        · simp only [heq, getSetupJob_foldl hold, Option.some.injEq] at hjob
          subst hjob
          exact foldl_secretEncrypted hvalues (h.secretEncrypted id old hold)
        · simp only [heq] at hjob
          exact h.secretEncrypted id job hjob
    · exact h.secretEncrypted id job ((transition_other (Ne.symm hid)).symm.trans hjob)
  held := by
    intro id hid hheld
    obtain ⟨job, hjob, hstatus⟩ := h.held id hheld
    exact ⟨job, (transition_other (Ne.symm hid)).trans hjob, hstatus⟩

/-- A transition that does not end the job. -/
theorem Confined.advance (h : Confined w) {expected : List SetupJobStatus} {values : List JobValue}
    (hvalues : values.all JobValue.keepsSecret = true) (hends : values.any JobValue.ends = false) :
    Confined { w with store := (w.store.transitionSetupJob jobId expected values).2 } where
  secretEncrypted := (h.transition hvalues : ConfinedBut jobId _).secretEncrypted
  held := by
    intro id hheld
    by_cases hid : id = jobId
    · subst hid
      obtain ⟨job, hjob, hstatus⟩ := h.held id hheld
      rcases transition_own expected values hjob with ⟨heq, -⟩ | ⟨heq, -⟩
      · simp only [heq]
        refine ⟨_, getSetupJob_foldl hjob, ?_⟩
        by_contra hterminal
        rw [Bool.not_eq_false] at hterminal
        rw [foldl_set_status hends hterminal] at hstatus
        cases hstatus
      · simp only [heq]
        exact ⟨job, hjob, hstatus⟩
    · exact (h.transition hvalues).held id hid hheld

theorem ConfinedBut.forget (h : ConfinedBut jobId w) :
    Confined { w with ephemeralSshSecrets := w.ephemeralSshSecrets.erase jobId } where
  secretEncrypted := h.secretEncrypted
  held := by
    intro id hheld
    rw [Table.get_erase] at hheld
    split at hheld
    · exact absurd rfl hheld
    · rename_i hid
      exact h.held id hid hheld

theorem Confined.keep (h : Confined w) (secret : Text) :
    ConfinedBut jobId { w with ephemeralSshSecrets := w.ephemeralSshSecrets.put (jobId, secret) } where
  secretEncrypted := h.secretEncrypted
  held := by
    intro id hid hheld
    rw [Table.get_put, if_neg hid] at hheld
    exact h.held id hheld

/-- A job that has not ended is stored, without a secret. -/
theorem ConfinedBut.save {job : SetupJob} (h : ConfinedBut job.id w)
    (hsecret : job.secretEncrypted = none) (hstatus : job.status.isTerminal = false) :
    Confined { w with store := w.store.saveSetupJob job } := by
  have hget : ∀ id, (w.store.saveSetupJob job).getSetupJob id =
      if id = job.id then some job else w.store.getSetupJob id := fun id => Table.get_put _ _ _
  constructor
  · intro id job' hjob'
    rw [hget] at hjob'
    split at hjob'
    · cases hjob'
      exact hsecret
    · exact h.secretEncrypted id job' hjob'
  · intro id hheld
    rw [Store.Unfinished, hget]
    split
    · exact ⟨job, rfl, hstatus⟩
    · rename_i hid
      exact h.held id hid hheld

end Confined

/-- Operations that leave the secrets where they belong. -/
def Op.confines : Op → Bool
  | putSecret .. | saveSetupJob _ | transitionSetupJob .. => false
  | _ => true

/-- Whenever no task has the turn, the secrets are where they belong. -/
def confinedContract (ω : Type) : Contract (World ω) where
  inv := Confined
  rely _ _ _ := True
  refl _ _ := trivial
  trans _ _ _ _ _ _ := trivial

/-- A task that leaves the secrets where they belong at every await and in the end. -/
abbrev Confines (P : Platform ω) (i : Nat) {α : Type} (p : Task α) : Prop :=
  ∀ w₀ w, Confined w →
    turn P.kernel (confinedContract ω) i p (fun _ _ w' => Confined w') w₀ w

section Confines
variable {P : Platform ω} {i : Nat} {w₀ w w' : World ω} {α β : Type}

theorem leaves_confined (h : Confined w) : (confinedContract ω).Leaves i w₀ w :=
  ⟨h, fun _ _ => trivial⟩

theorem Confined.step (h : Confined w) {e : Op} {r : e.Res} (he : e.confines = true)
    (hact : P.env i w e r w') : Confined w' := by
  have hsame : e.writes ≠ some .jobs → e.writes ≠ some .secrets → Confined w' :=
    fun hjobs hsecrets => h.same (same_of_env .jobs hact hjobs) (same_of_env .secrets hact hsecrets)
  cases e with
  | putSecret | saveSetupJob | transitionSetupJob => cases he
  | claimNextSetupJob at' currentStep =>
    rcases r with x | r
    · obtain rfl : w' = w := hact.2.2
      exact h
    obtain ⟨_ | job, hnext, hact⟩ := hact
    · obtain ⟨-, rfl⟩ := hact
      exact h
    · obtain ⟨-, rfl⟩ := hact
      have hjob := (mem_queuedSetupJobs.mp hnext.1).1
      have hbut : ConfinedBut (Store.claim job at' currentStep).id w := h.but job.id
      exact hbut.save (h.secretEncrypted _ job hjob) rfl
  | popSecret jobId =>
    rcases r with x | r
    · cases hact.1
    obtain rfl : w' = _ := hact
    exact (h.but jobId).forget
  | _ => exact hsame (by simp [Op.writes]) (by simp [Op.writes])

theorem confines_uses {p : Task α} (hp : p.Uses (·.confines = true)) : Confines P i p := by
  induction p with
  | ret a => exact fun w₀ w h => h
  | fail x => exact fun w₀ w h => h
  | op e k ih =>
    intro w₀ w h
    cases he : P.kernel.suspends e with
    | true =>
      rw [turn_op_wait he]
      exact ⟨leaves_confined h, fun w₁ hinv _ r w₂ hr => ih r (hp.2 r) w₁ w₂ (hinv.step hp.1 hr)⟩
    | false =>
      rw [turn_op_now he]
      exact fun r w₂ hr => ih r (hp.2 r) w₀ w₂ (h.step hp.1 hr)

theorem confines_ret (a : α) : Confines P i (ret a : Task α) := fun _ _ h => h

theorem confines_fail (x : Exc) : Confines P i (fail x : Task α) := fun _ _ h => h

theorem confines_ask {e : Op} (he : e.confines = true) : Confines P i (ask e) :=
  confines_uses (uses_bind (uses_perform he) fun r => uses_lift r)

theorem confines_bind {p : Task α} {f : α → Task β} (hp : Confines P i p)
    (hf : ∀ a, Confines P i (f a)) : Confines P i (p >>= f) :=
  fun w₀ w h => turn_seq (hp w₀ w h) (fun a w₀ w h => hf a w₀ w h) fun _ _ _ h => h

theorem confines_attempt {p : Task α} (hp : Confines P i p) : Confines P i p.attempt :=
  fun w₀ w h => turn_attempt.mpr (hp w₀ w h)

theorem Plain.confines {p : Task α} (hp : Plain p) : Confines P i p := by
  refine confines_uses (hp.mono fun e he => ?_)
  cases e with
  | putSecret | saveSetupJob | transitionSetupJob => cases he
  | _ => rfl

theorem turn_forget {jobId : Text} {p : Task α} (hp : Confines P i p) (h : ConfinedBut jobId w) :
    turn P.kernel (confinedContract ω) i (ask (.popSecret jobId) >>= fun _ => p)
      (fun _ _ w' => Confined w') w₀ w := by
  apply turn_ask_seq rfl
  · rintro _ _ rfl
    exact hp _ _ h.forget
  · rintro x _ ⟨⟨⟩, -⟩

/-- A transition that may end the job, and what follows on it. -/
theorem confines_ending {jobId : Text} {expected : List SetupJobStatus} {values : List JobValue}
    {f : Option SetupJob → Task β} (hvalues : values.all JobValue.keepsSecret = true)
    (hnone : Confines P i (f none))
    (hsome : ∀ job w₀ w, ConfinedBut jobId w →
      turn P.kernel (confinedContract ω) i (f (some job)) (fun _ _ w' => Confined w') w₀ w) :
    Confines P i (ask (.transitionSetupJob jobId expected values) >>= f) := by
  intro w₀ w h
  apply turn_ask_seq rfl
  · rintro r _ ⟨rfl, rfl⟩
    cases hr : (w.store.transitionSetupJob jobId expected values).1 with
    | none =>
      rw [transition_refused hr]
      exact hnone _ _ h
    | some job => exact hsome job _ _ (h.transition hvalues)
  · rintro x _ ⟨-, -, rfl⟩
    exact h

theorem confines_advance {jobId : Text} {expected : List SetupJobStatus} {values : List JobValue}
    (hvalues : values.all JobValue.keepsSecret = true) (hends : values.any JobValue.ends = false) :
    Confines P i (ask (.transitionSetupJob jobId expected values)) := by
  intro w₀ w h
  refine (turn_ask_now rfl).mpr ⟨?_, ?_⟩
  · rintro _ _ ⟨-, rfl⟩
    exact h.advance hvalues hends
  · rintro x _ ⟨-, -, rfl⟩
    exact h

namespace Services
variable (b : Services)

theorem confines_addEvent (job : SetupJob) (level : EventLevel) (step message : Text)
    (metadata : List (Text × Doc)) : Confines P i (addEvent job level step message metadata) :=
  (plain_addEvent job level step message metadata).confines

theorem confines_auditLog (r : AuditRecord) : Confines P i (auditLog r) := (plain_auditLog r).confines

theorem confines_finishFailed (jobId message : Text) :
    Confines P i (finishFailed jobId message) := by
  refine confines_bind (confines_ask rfl) fun now => confines_ending rfl ?_ fun job w₀ w h => ?_
  · exact confines_bind (confines_ask rfl) fun _ => confines_ret _
  · exact turn_forget (confines_bind (confines_addEvent _ _ _ _ _) fun _ =>
      confines_bind (confines_auditLog _) fun _ => confines_ret _) h

theorem confines_finishSuccess (jobId nodeId : Text) :
    Confines P i (finishSuccess jobId nodeId) := by
  refine confines_bind (confines_ask rfl) fun now => confines_ending rfl ?_ fun job w₀ w h => ?_
  · exact confines_bind (confines_ask rfl) fun _ => confines_ret _
  · exact turn_forget (confines_bind (confines_addEvent _ _ _ _ _) fun _ =>
      confines_bind (confines_auditLog _) fun _ => confines_ret _) h

theorem confines_cancelJob (actor : User) (jobId : Text) :
    Confines P i (cancelJob actor jobId) := by
  refine confines_bind (plain_getJob jobId).confines fun _ => confines_bind (confines_ask rfl)
    fun now => confines_ending rfl (confines_fail _) fun job w₀ w h => ?_
  exact turn_forget (confines_bind (confines_addEvent _ _ _ _ _) fun _ =>
    confines_bind (confines_auditLog _) fun _ => confines_ret _) h

theorem confines_setStep (jobId : Text) (expected : List SetupJobStatus) {target : SetupJobStatus}
    (message : Text) (htarget : target.isTerminal = false) :
    Confines P i (setStep jobId expected target message) := by
  refine confines_bind (confines_ask rfl) fun now =>
    confines_bind (confines_advance rfl (by simp [JobValue.ends, htarget])) ?_
  rintro (_ | job)
  · exact confines_ret _
  · exact confines_bind (confines_addEvent _ _ _ _ _) fun _ => confines_ret _

/-- The secret of a new job is in memory before the job is stored, within one turn; a storage that
raises does so as an ordinary error. -/
theorem confines_createJob (hsave : ∀ job, ¬ P.raises (.saveSetupJob job) .cancelled) (actor : User)
    (form : SetupJobCreate) : Confines P i (b.createJob actor form) := by
  unfold createJob
  split
  · exact confines_fail _
  split
  · exact confines_fail _
  refine confines_bind (confines_ask rfl) fun now => confines_bind (confines_ask rfl) fun id => ?_
  intro w₀ w h
  apply turn_ask_seq rfl
  · rintro _ _ rfl
    rw [turn_bind, turn_attempt, turn_ask_now rfl]
    refine ⟨?_, ?_⟩
    · rintro _ _ rfl
      refine confines_bind (confines_addEvent _ _ _ _ _) (fun _ =>
        confines_bind (confines_auditLog _) fun _ => confines_ret _) _ _ ?_
      exact (h.keep form.secret).save rfl rfl
    · rintro x _ ⟨-, hx, rfl⟩
      cases x with
      | cancelled => exact absurd hx (hsave _)
      | _ => exact turn_forget (confines_fail _) (h.keep form.secret)
  · rintro x _ ⟨⟨⟩, -⟩

theorem confines_claimNext : Confines P i (withStorageLock claimNext) := by
  have hclaim : Confines P i claimNext := by
    refine confines_bind (confines_ask rfl) fun now => confines_bind (confines_ask rfl) ?_
    rintro (_ | job)
    · exact confines_ret _
    · exact confines_bind (confines_addEvent _ _ _ _ _) fun _ => confines_ret _
  exact confines_bind (confines_ask rfl) fun _ => confines_bind (confines_attempt hclaim) fun r =>
    confines_bind (confines_ask rfl) fun _ => confines_uses (uses_lift r)

theorem confines_parts : OfParts b fun p => Confines P i p where
  ret := confines_ret
  fail := confines_fail
  bind := confines_bind
  attempt := confines_attempt
  pending := confines_ask rfl
  sleep := confines_ask rfl
  claim := confines_claimNext
  getSecret _ := confines_ask rfl
  popSecret _ := confines_ask rfl
  newCredentials job := (plain_newCredentials b job).confines
  addEvent _ _ _ _ := confines_addEvent _ _ _ _ _
  setStep _ _ _ message h := confines_setStep _ _ message h
  finishFailed := confines_finishFailed
  finishSuccess := confines_finishSuccess
  createFromSetup _ _ _ _ := confines_bind (confines_ask rfl) fun _ =>
    confines_bind (confines_ask rfl) fun _ => confines_bind (confines_ask rfl) fun _ =>
    confines_bind (confines_ask rfl) fun _ => confines_ret _
  activateAfterSetup nodeId _ := confines_bind (plain_getServer nodeId).confines fun _ =>
    confines_bind (confines_ask rfl) fun _ => confines_bind (confines_ask rfl) fun _ => confines_ret _
  runCancellable polls jobId operation := (plain_runCancellable polls jobId operation).confines

theorem confines_operationTask (t : Nat) : Confines P i (b.operationTask t) := by
  refine confines_uses ((operates_operationTask b t).mono fun e he => ?_)
  cases e with
  | putSecret | saveSetupJob | transitionSetupJob => cases he
  | _ => rfl

theorem confines_setupCall (hsave : ∀ job, ¬ P.raises (.saveSetupJob job) .cancelled)
    (call : SetupCall) : Confines P i (b.setupCall call) := by
  have hcall : ∀ {α : Type} {p : Task α} (f : α → SetupReply), Confines P i p →
      Confines P i (p >>= fun a => pure (f a)) :=
    fun f hp => confines_bind hp fun a => confines_ret (f a)
  cases call with
  | create actor form => exact hcall _ (confines_createJob b hsave actor form)
  | get jobId => exact hcall _ (plain_getJob jobId).confines
  | list => exact hcall _ (confines_ask rfl)
  | events jobId =>
    exact hcall _ (confines_bind (plain_getJob jobId).confines fun _ => confines_ask rfl)
  | start jobId =>
    refine hcall _ (confines_bind (plain_getJob jobId).confines fun job => ?_)
    change Confines P i (if _ then _ else if _ then _ else if _ then _ else _)
    split
    · exact confines_fail _
    split
    · exact confines_fail _
    split
    · exact confines_fail _
    · exact confines_ret _
  | cancel actor jobId => exact hcall _ (confines_cancelJob actor jobId)
  | work polls rounds => exact hcall (fun _ => .done) ((confines_parts b).loop polls rounds)
  | operation t => exact hcall (fun _ => .done) (confines_operationTask b t)

end Services

/-- Whenever no task has the turn, the secrets are where they belong. -/
theorem confined_reachable {b : Services} (hsave : ∀ job, ¬ P.raises (.saveSetupJob job) .cancelled)
    (hw : Confined w) {y : Loop (World ω) Op.Res Exc SetupReply SetupCall}
    (h : Relation.ReflTransGen (Loop.Step P.kernel World.Tick b.setupCall) { shared := w } y)
    (hturn : y.active = none) : Confined y.shared := by
  refine (Loop.invariant_reachable (c := confinedContract ω)
    (Q := fun _ _ _ _ w' => Confined w') ?_ ?_ ?_ hw h).inv hturn |>.1
  · exact fun i call r w₀ w h => leaves_confined h
  · rintro w _ ⟨now, agents, rfl⟩ h
    exact ⟨h.same rfl rfl, fun _ => trivial⟩
  · exact fun i call w h => b.confines_setupCall hsave call w w h

end Confines
end VpnControl.Backend
