import VpnControl.Backend.SetupTurns

namespace VpnControl.Backend
open Strings Json Effects Prog Function

variable {ω : Type} {D : Deployment ω} {managed : Text → Prop} {i : Nat} {C₀ C : Cluster ω}
  {α β : Type} {I : Cluster ω → Prop}

/-- Task `i` is at work on the stored job. -/
structure InHand (i : Nat) (jobId : Text) (C : Cluster ω) : Prop where
  stored : C.store.getSetupJob jobId ≠ none
  inHand : C.history.inHand i = some jobId

/-- Task `i` is at work on the job; if it missed the secret, its process has none. -/
structure Mine (D : Deployment ω) (i : Nat) (jobId : Text) (C : Cluster ω) : Prop
    extends InHand i jobId C where
  missed : C.history.missed i → ¬ C.Holds (D.processOf i) jobId

/-- The job is stored as one that the installation goes on with in the same way. -/
def Known (job : SetupJob) (C : Cluster ω) : Prop :=
  ∃ stored, C.store.getSetupJob job.id = some stored ∧ stored.installAwg = job.installAwg ∧
    stored.availableForNewDevices = job.availableForNewDevices

/-- The job is stored as a successful one. -/
def Succeeded (jobId : Text) (C : Cluster ω) : Prop :=
  ∃ stored, C.store.getSetupJob jobId = some stored ∧ stored.status = .success

theorem lasting_inHand (jobId : Text) : Lasting i (InHand (ω := ω) i jobId) :=
  fun _ _ h hC => ⟨h.stored hC.stored, h.inHand.trans hC.inHand⟩

theorem lasting_mine (jobId : Text) : Lasting i (Mine D i jobId) := by
  intro C C' h hC
  refine ⟨lasting_inHand jobId C C' h hC.toInHand, fun hmissed hholds => ?_⟩
  exact hC.missed (h.missed.mp hmissed) (h.secrets _ _ hC.stored hholds)

theorem lasting_known (job : SetupJob) : Lasting i (Known (ω := ω) job) := by
  rintro C C' h ⟨stored, hget, hinstall, havailable⟩
  obtain ⟨stored', hget', hprogress⟩ := h.jobs _ _ hget
  exact ⟨stored', hget', hprogress.installAwg.trans hinstall, hprogress.available.trans havailable⟩

theorem lasting_succeeded (jobId : Text) : Lasting i (Succeeded (ω := ω) jobId) := by
  rintro C C' h ⟨stored, hget, hstatus⟩
  obtain ⟨stored', hget', hprogress⟩ := h.jobs _ _ hget
  exact ⟨stored', hget', (hprogress.status.eq_of_terminal (by rw [hstatus]; rfl)).trans hstatus⟩

theorem lasting_verified (nodeId : Text) :
    Lasting i fun C : Cluster ω => Verified C.history nodeId :=
  fun _ _ h hC => hC.mono h.history.subset

section Legal

@[simp] theorem set_cancelValues (job : SetupJob) (now : Time) :
    (Services.cancelValues now).foldl SetupJob.set job = { job with
      status := .cancelled, currentStep := SetupJobStatus.cancelled.label, finishedAt := some now
      updatedAt := now, secretEncrypted := none } := by
  simp only [Services.cancelValues, List.foldl_cons, List.foldl_nil, SetupJob.set]

@[simp] theorem set_failureValues (job : SetupJob) (message : Text) (now : Time) :
    (Services.failureValues message now).foldl SetupJob.set job = { job with
      status := .failed, currentStep := SetupJobStatus.failed.label, errorMessage := some message
      finishedAt := some now, updatedAt := now, secretEncrypted := none } := by
  simp only [Services.failureValues, List.foldl_cons, List.foldl_nil, SetupJob.set]

@[simp] theorem set_successValues (job : SetupJob) (nodeId : Text) (now : Time) :
    (Services.successValues nodeId now).foldl SetupJob.set job = { job with
      status := .success, currentStep := SetupJobStatus.success.label, serverNodeId := some nodeId
      finishedAt := some now, updatedAt := now, secretEncrypted := none
      resultPayload := some (.obj [(lit "server_node_id", .str nodeId)]) } := by
  simp only [Services.successValues, List.foldl_cons, List.foldl_nil, SetupJob.set]

@[simp] theorem set_stepValues (job : SetupJob) (target : SetupJobStatus) (now : Time) :
    [JobValue.status target, .currentStep target.label, .updatedAt now].foldl SetupJob.set job =
      { job with status := target, currentStep := target.label, updatedAt := now } := by
  simp only [List.foldl_cons, List.foldl_nil, SetupJob.set]

theorem legal_cancel (now : Time) (jobId : Text) :
    Legal D i C jobId nonTerminalStatuses (Services.cancelValues now) where
  owner := .inl ⟨now, rfl⟩
  advance job _ hstatus _ := by
    rw [set_cancelValues]
    refine ⟨⟨reachesIn_one (.cancel (mem_nonTerminalStatuses.mp hstatus)), rfl, rfl, id⟩, ?_, ?_, ?_, rfl⟩
    · simp [SetupJobStatus.isTerminal]
    · rintro ⟨⟩
    · rintro ⟨⟩

theorem legal_failure {jobId : Text} (hmine : Mine D i jobId C) (message : Text) (now : Time) :
    Legal D i C jobId nonTerminalStatuses (Services.failureValues message now) where
  owner := .inr ⟨hmine.inHand, hmine.missed⟩
  advance job _ hstatus _ := by
    rw [set_failureValues]
    refine ⟨⟨reachesIn_one (.fail (mem_nonTerminalStatuses.mp hstatus)), rfl, rfl, id⟩, ?_, ?_, ?_, rfl⟩
    · simp [SetupJobStatus.isTerminal]
    · rintro ⟨⟩
    · simp

theorem legal_success {jobId nodeId : Text} (hmine : Mine D i jobId C)
    (hverified : Verified C.history nodeId) (now : Time) :
    Legal D i C jobId [.verifying] (Services.successValues nodeId now) where
  owner := .inr ⟨hmine.inHand, hmine.missed⟩
  advance job _ hstatus _ := by
    rw [set_successValues]
    have hverifying : job.status = .verifying := by simpa using hstatus
    have hmoves : ReachesIn job.installAwg 1 job.status .success := by
      rw [hverifying]
      exact reachesIn_one .succeed
    refine ⟨⟨hmoves, rfl, rfl, id⟩, ?_, ?_, ?_, rfl⟩
    · simp [SetupJobStatus.isTerminal]
    · exact fun _ => ⟨nodeId, rfl, hverified⟩
    · rintro ⟨⟩

theorem legal_step {jobId : Text} (hmine : Mine D i jobId C) {source target : SetupJobStatus}
    (hsource : source.isTerminal = false) (htarget : target.isTerminal = false)
    (hadvances : ∀ job, C.store.getSetupJob jobId = some job →
      Advances job.installAwg source target) (now : Time) :
    Legal D i C jobId [source] [.status target, .currentStep target.label, .updatedAt now] where
  owner := .inr ⟨hmine.inHand, hmine.missed⟩
  advance job hjob hstatus hsound := by
    rw [set_stepValues]
    have hsourced : job.status = source := by simpa using hstatus
    have hmoves : ReachesIn job.installAwg 1 job.status target := by
      rw [hsourced]
      exact reachesIn_one (hadvances job hjob)
    refine ⟨⟨hmoves, rfl, rfl, id⟩, ?_, ?_, ?_, hsound.secretEncrypted⟩
    · simpa [htarget, hsourced, hsource] using hsound.finished
    · intro h
      obtain rfl : target = .success := h
      cases htarget
    · intro h
      obtain rfl : target = .failed := h
      cases htarget

end Legal

/-- A transition that happened. -/
theorem transition_result {C' : Cluster ω} {jobId : Text} {expected : List SetupJobStatus}
    {values : List JobValue} {job : SetupJob}
    (h : D.step i C (.transitionSetupJob jobId expected values) (.ok (some job)) C') :
    ∃ old, old.status ∈ expected ∧ job = values.foldl SetupJob.set old ∧ job.id = jobId ∧
      C'.store.getSetupJob jobId = some job := by
  rcases D.step_jobs_cases h with ⟨-, -, hno⟩ | ⟨put, hwrite, hput⟩
  · exact absurd rfl (hno _ _ _ _)
  generalize hx : (⟨.transitionSetupJob jobId expected values, .ok (some job)⟩ : Sigma Op.Res) = x
    at hwrite
  cases hwrite with
  | save | claim => cases hx
  | @transition _ _ old values hget hstatus =>
    cases hx
    have hid : (values.foldl SetupJob.set old).id = jobId := by
      rw [foldl_set_id]
      exact Table.key_of_get hget
    refine ⟨_, hstatus, rfl, hid, ?_⟩
    rw [Store.getSetupJob, hput, Table.get_put, if_pos hid.symm]

/-- A legal change of a job's status. -/
theorem turn_transition (hI : Lasting i I) {jobId : Text} {expected : List SetupJobStatus}
    {values : List JobValue} (hlegal : ∀ C, I C → Legal D i C jobId expected values)
    (hC : Kept D managed i I C₀ C) :
    turn D.parallel (setupContract D managed) i (ask (.transitionSetupJob jobId expected values))
      (fun r C₀ C => Kept D managed i I C₀ C ∧ ∀ job, r = .ok (some job) →
        ∃ old, old.status ∈ expected ∧ job = values.foldl SetupJob.set old ∧ job.id = jobId ∧
          C.store.getSetupJob jobId = some job) C₀ C := by
  have hadmissible : ∀ C, SetupInv D managed C → I C →
      Admissible D managed i C (.transitionSetupJob jobId expected values) :=
    fun C _ hC => hlegal C hC
  refine turn_ask_admissible hI hadmissible ?_ hC
  intro C₁ r C₂ _ _ hstep hleaves hI₂
  refine ⟨⟨hleaves, hI₂ rfl⟩, fun job hr => ?_⟩
  subst hr
  exact transition_result hstep

namespace Services

theorem turn_setStep (hI : Lasting i I) {jobId : Text} {source target : SetupJobStatus}
    {message : Text} (hmine : ∀ C, I C → Mine D i jobId C) (hsource : source.isTerminal = false)
    (htarget : target.isTerminal = false)
    (hadvances : ∀ C, I C → ∀ job, C.store.getSetupJob jobId = some job →
      Advances job.installAwg source target) (hC : Kept D managed i I C₀ C) :
    turn D.parallel (setupContract D managed) i (setStep jobId [source] target message)
      (fun r C₀ C => Kept D managed i I C₀ C ∧ ∀ job, r = .ok (some job) →
        job.id = jobId ∧ Known job C) C₀ C := by
  refine turn_plain_seq hI (plain_ask rfl) hC (fun now C₀ C hC => ?_) fun x C₀ C hC =>
    ⟨hC, by rintro _ ⟨⟩⟩
  refine turn_seq (turn_transition hI
    (fun C hC => legal_step (hmine C hC) hsource htarget (hadvances C hC) now) hC) ?_ ?_
  · rintro (_ | job) C₀ C ⟨hC, hjob⟩
    · exact ⟨hC, by rintro _ ⟨⟩⟩
    · obtain ⟨old, -, -, hid, hget⟩ := hjob job rfl
      have hknown : Known job C := ⟨job, by rw [hid]; exact hget, rfl, rfl⟩
      refine turn_plain_seq (hI.and (lasting_known job)) (plain_addEvent _ _ _ _ _)
        ⟨hC.1, hC.2, hknown⟩ (fun _ C₀ C hC => ?_) fun x C₀ C hC => ?_
      · refine ⟨⟨hC.1, hC.2.1⟩, ?_⟩
        rintro _ ⟨⟩
        exact ⟨hid, hC.2.2⟩
      · exact ⟨⟨hC.1, hC.2.1⟩, by rintro _ ⟨⟩⟩
  · rintro x C₀ C ⟨hC, -⟩
    exact ⟨hC, by rintro _ ⟨⟩⟩

theorem turn_finishFailed (hI : Lasting i I) {jobId message : Text}
    (hmine : ∀ C, I C → Mine D i jobId C) (hC : Kept D managed i I C₀ C) :
    turn D.parallel (setupContract D managed) i (finishFailed jobId message)
      (fun _ => Kept D managed i I) C₀ C := by
  refine turn_plain_seq hI (plain_ask rfl) hC (fun now C₀ C hC => ?_) fun x C₀ C hC => hC
  refine turn_seq (turn_transition hI (fun C hC => legal_failure (hmine C hC) message now) hC) ?_
    fun x C₀ C h => h.1
  rintro job C₀ C ⟨hC, -⟩
  refine turn_plain hI (plain_bind (plain_forgetEphemeralSshSecret jobId) fun _ => ?_) hC
  cases job with
  | none => exact plain_ret _
  | some job =>
    exact plain_bind (plain_addEvent _ _ _ _ _) fun _ => plain_bind (plain_auditLog _) fun _ =>
      plain_ret _

theorem turn_finishSuccess (hI : Lasting i I) {jobId nodeId : Text}
    (hmine : ∀ C, I C → Mine D i jobId C) (hverified : ∀ C, I C → Verified C.history nodeId)
    (hC : Kept D managed i I C₀ C) :
    turn D.parallel (setupContract D managed) i (finishSuccess jobId nodeId)
      (fun r C₀ C => Kept D managed i I C₀ C ∧ ∀ job, r = .ok (some job) → Succeeded jobId C) C₀ C := by
  refine turn_plain_seq hI (plain_ask rfl) hC (fun now C₀ C hC => ?_) fun x C₀ C hC =>
    ⟨hC, by rintro _ ⟨⟩⟩
  refine turn_seq (turn_transition hI
    (fun C hC => legal_success (hmine C hC) (hverified C hC) now) hC) ?_ ?_
  · rintro job C₀ C ⟨hC, hjob⟩
    cases job with
    | none =>
      refine turn_plain_seq hI (plain_forgetEphemeralSshSecret jobId) hC (fun _ C₀ C hC => ?_)
        fun x C₀ C hC => ⟨hC, by rintro _ ⟨⟩⟩
      exact ⟨hC, by rintro _ ⟨⟩⟩
    | some job =>
      obtain ⟨old, -, rfl, -, hget⟩ := hjob job rfl
      have hsucceeded : Succeeded jobId C := by
        refine ⟨_, hget, ?_⟩
        rw [set_successValues]
      have hplain : Plain (forgetEphemeralSshSecret jobId >>= fun _ =>
          addEvent ((successValues nodeId now).foldl SetupJob.set old) .info (lit "success")
            (lit "Узел установлен и подключён") >>= fun _ => auditLog
              { action := lit "setup_job_succeeded", targetType := some (lit "setup_job")
                targetId := some ((successValues nodeId now).foldl SetupJob.set old).id
                metadata := [(lit "server_node_id", .str nodeId)] } >>= fun _ =>
            pure (some ((successValues nodeId now).foldl SetupJob.set old))) :=
        plain_bind (plain_forgetEphemeralSshSecret jobId) fun _ =>
          plain_bind (plain_addEvent _ _ _ _ _) fun _ => plain_bind (plain_auditLog _) fun _ =>
          plain_ret _
      refine turn_mono (turn_plain (hI.and (lasting_succeeded jobId)) hplain
        ⟨hC.1, hC.2, hsucceeded⟩) ?_
      rintro r C₀ C ⟨hleaves, hI, hsucceeded⟩
      exact ⟨⟨hleaves, hI⟩, fun _ _ => hsucceeded⟩
  · rintro x C₀ C ⟨hC, -⟩
    exact ⟨hC, by rintro _ ⟨⟩⟩

theorem turn_cancelJob (actor : User) (jobId : Text)
    (hC : Kept D managed i (fun _ => True) C₀ C) :
    turn D.parallel (setupContract D managed) i (cancelJob actor jobId)
      (fun _ => Kept D managed i fun _ => True) C₀ C := by
  refine turn_plain_seq lasting_true (plain_getJob jobId) hC (fun _ C₀ C hC => ?_) fun x C₀ C hC => hC
  refine turn_plain_seq lasting_true (plain_ask rfl) hC (fun now C₀ C hC => ?_) fun x C₀ C hC => hC
  refine turn_seq (turn_transition lasting_true (fun C _ => legal_cancel now jobId) hC) ?_
    fun x C₀ C h => h.1
  rintro job C₀ C ⟨hC, -⟩
  refine turn_plain lasting_true ?_ hC
  cases job with
  | none => exact plain_fail _
  | some job =>
    exact plain_bind (plain_forgetEphemeralSshSecret jobId) fun _ =>
      plain_bind (plain_addEvent _ _ _ _ _) fun _ => plain_bind (plain_auditLog _) fun _ =>
      plain_ret _

end Services
end VpnControl.Backend
