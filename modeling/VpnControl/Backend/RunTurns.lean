import VpnControl.Backend.NodeTurns

namespace VpnControl.Backend
open Strings Json Effects Prog Function

variable {ω : Type} {D : Deployment ω} {managed : Text → Prop} {i : Nat} {C₀ C : Cluster ω}
  {α β : Type} {I : Cluster ω → Prop}

/-- Task `i` is at work on the job `jobId`, which it last saw as `job`. -/
structure AtWork (D : Deployment ω) (i : Nat) (jobId : Text) (job : SetupJob) (C : Cluster ω) :
    Prop where
  mine : Mine D i jobId C
  id : job.id = jobId
  known : Known job C

theorem lasting_atWork (jobId : Text) (job : SetupJob) : Lasting i (AtWork D i jobId job) :=
  fun C C' h hC => ⟨lasting_mine jobId C C' h hC.mine, hC.id, lasting_known job C C' h hC.known⟩

theorem AtWork.advances {jobId : Text} {job stored : SetupJob} (h : AtWork D i jobId job C)
    (hstored : C.store.getSetupJob job.id = some stored) : stored.installAwg = job.installAwg := by
  obtain ⟨stored', hget, hinstall, -⟩ := h.known
  rw [hstored, Option.some.injEq] at hget
  exact hget ▸ hinstall

namespace Services

theorem turn_nextStep {jobId : Text} {job : SetupJob} {source target : SetupJobStatus}
    {message : Text} (hsource : source.isTerminal = false) (htarget : target.isTerminal = false)
    (hadvances : Advances job.installAwg source target)
    (hC : Kept D managed i (AtWork D i jobId job) C₀ C) :
    turn D.parallel (setupContract D managed) i (setStep job.id [source] target message)
      (fun r C₀ C => Kept D managed i (Mine D i jobId) C₀ C ∧ ∀ next, r = .ok (some next) →
        AtWork D i jobId next C) C₀ C := by
  refine turn_mono (turn_setStep (lasting_atWork jobId job) (fun C hC => hC.id ▸ hC.mine) hsource
    htarget (fun C hC stored hstored => ?_) hC) ?_
  · rw [hC.advances hstored]
    exact hadvances
  · rintro r C₀ C ⟨hC, hnext⟩
    refine ⟨⟨hC.1, hC.2.mine⟩, fun next hr => ?_⟩
    obtain ⟨hid, hknown⟩ := hnext next hr
    exact ⟨hC.2.mine, hid.trans hC.2.id, hknown⟩

theorem turn_installVpn {polls : Nat} {jobId : Text} {job : SetupJob}
    {credentials : AgentCredentials} {sshSecret : Text} (hinstall : job.installAwg = true)
    (hC : Kept D managed i (AtWork D i jobId job) C₀ C) :
    turn D.parallel (setupContract D managed) i (installVpn polls job credentials sshSecret)
      (fun r C₀ C => Kept D managed i (Mine D i jobId) C₀ C ∧ ∀ next, r = .ok (some next) →
        AtWork D i jobId next C) C₀ C := by
  refine turn_seq (turn_nextStep rfl rfl (.installVpn hinstall) hC) ?_ fun x C₀ C h =>
    ⟨h.1, by rintro _ ⟨⟩⟩
  rintro (_ | next) C₀ C ⟨hC, hnext⟩
  · exact ⟨hC, by rintro _ ⟨⟩⟩
  have hlasting := lasting_atWork (D := D) (i := i) jobId next
  refine turn_plain_seq hlasting (plain_addEvent _ _ _ _ _) ⟨hC.1, hnext next rfl⟩
    (fun _ C₀ C hC => ?_) fun x C₀ C hC => ⟨⟨hC.1, hC.2.mine⟩, by rintro _ ⟨⟩⟩
  refine turn_plain_seq hlasting (plain_runCancellable _ _ _) hC ?_ fun x C₀ C hC =>
    ⟨⟨hC.1, hC.2.mine⟩, by rintro _ ⟨⟩⟩
  rintro ⟨completed, checked⟩ C₀ C hC
  cases completed with
  | false => exact ⟨⟨hC.1, hC.2.mine⟩, by rintro _ ⟨⟩⟩
  | true =>
    refine turn_seq (turn_nextStep rfl rfl .verify hC) ?_ fun x C₀ C h => ⟨h.1, by rintro _ ⟨⟩⟩
    rintro (_ | last) C₀ C ⟨hC, hlast⟩
    · exact ⟨hC, by rintro _ ⟨⟩⟩
    refine turn_plain_seq (lasting_atWork jobId last) (plain_addEvent _ _ _ _ _)
      ⟨hC.1, hlast last rfl⟩ (fun _ C₀ C hC => ?_) fun x C₀ C hC =>
        ⟨⟨hC.1, hC.2.mine⟩, by rintro _ ⟨⟩⟩
    refine ⟨⟨hC.1, hC.2.mine⟩, ?_⟩
    rintro _ ⟨⟩
    exact hC.2

theorem turn_skipVpn {jobId : Text} {job : SetupJob} (hinstall : job.installAwg = false)
    (hC : Kept D managed i (AtWork D i jobId job) C₀ C) :
    turn D.parallel (setupContract D managed) i (skipVpn job)
      (fun r C₀ C => Kept D managed i (Mine D i jobId) C₀ C ∧ ∀ next, r = .ok (some next) →
        AtWork D i jobId next C) C₀ C := by
  refine turn_seq (turn_nextStep rfl rfl (.skipVpn hinstall) hC) ?_ fun x C₀ C h =>
    ⟨h.1, by rintro _ ⟨⟩⟩
  rintro (_ | next) C₀ C ⟨hC, hnext⟩
  · exact ⟨hC, by rintro _ ⟨⟩⟩
  have hlasting := lasting_atWork (D := D) (i := i) jobId next
  refine turn_plain_seq hlasting (plain_addEvent _ _ _ _ _) ⟨hC.1, hnext next rfl⟩
    (fun _ C₀ C hC => ?_) fun x C₀ C hC => ⟨⟨hC.1, hC.2.mine⟩, by rintro _ ⟨⟩⟩
  refine turn_plain_seq hlasting (plain_addEvent _ _ _ _ _) hC (fun _ C₀ C hC => ?_) fun x C₀ C hC =>
    ⟨⟨hC.1, hC.2.mine⟩, by rintro _ ⟨⟩⟩
  refine ⟨⟨hC.1, hC.2.mine⟩, ?_⟩
  rintro _ ⟨⟩
  exact hC.2

theorem turn_verifyNode {polls : Nat} {jobId : Text} {job : SetupJob}
    {credentials : AgentCredentials} (hC : Kept D managed i (AtWork D i jobId job) C₀ C) :
    turn D.parallel (setupContract D managed) i (verifyNode polls job credentials)
      (fun _ => Kept D managed i (Mine D i jobId)) C₀ C := by
  refine turn_seq (turn_createFromSetup (lasting_atWork jobId job)
    (fun C hC => hC.id ▸ hC.mine.toInHand) hC) ?_ fun x C₀ C h => ⟨h.1.1, h.1.2.mine⟩
  rintro node C₀ C ⟨hC, hmade⟩
  have hlasting := (lasting_atWork (D := D) (i := i) jobId job).and (lasting_madeFor node.id job.id)
  refine turn_seq (turn_checkNode hlasting ⟨hC.1, hC.2, hmade node rfl⟩) ?_ fun x C₀ C h =>
    ⟨h.1.1, h.1.2.1.mine⟩
  rintro ⟨completed, checked⟩ C₀ C ⟨hC, hverified⟩
  cases completed with
  | false => exact ⟨hC.1, hC.2.1.mine⟩
  | true =>
    cases checked with
    | none => exact ⟨hC.1, hC.2.1.mine⟩
    | some checked =>
      change turn _ _ _ (if (!checked.selectable) = true then _ else _) _ _ _
      split
      · exact ⟨hC.1, hC.2.1.mine⟩
      · rename_i hselectable
        have hknows := hlasting.and (lasting_verified node.id)
        refine turn_seq (turn_finishSuccess hknows (fun C hC => hC.1.1.id ▸ hC.1.1.mine)
          (fun C hC => hC.2) ⟨hC.1, hC.2, hverified checked rfl (by simpa using hselectable)⟩) ?_
          fun x C₀ C h => ⟨h.1.1, h.1.2.1.1.mine⟩
        rintro (_ | finished) C₀ C ⟨hC, hsucceeded⟩
        · exact ⟨hC.1, hC.2.1.1.mine⟩
        · have hopen : turn D.parallel (setupContract D managed) i
              (activateAfterSetup node.id job.availableForNewDevices)
              (fun _ => Kept D managed i (Mine D i jobId)) C₀ C :=
            turn_activateAfterSetup (lasting_mine jobId) ⟨hC.1, hC.2.1.1.mine, hC.2.1.1.known, hsucceeded finished rfl, hC.2.1.2⟩
          exact turn_seq hopen (fun _ C₀ C hC => hC) fun x C₀ C hC => hC

theorem turn_verifyNext {polls : Nat} {jobId : Text} (credentials : AgentCredentials)
    (next : Option SetupJob) (C₀ C : Cluster ω)
    (h : Kept D managed i (Mine D i jobId) C₀ C ∧
      ∀ job, (.ok next : Except Exc (Option SetupJob)) = .ok (some job) → AtWork D i jobId job C) :
    turn D.parallel (setupContract D managed) i (match next with
      | none => pure ()
      | some job => verifyNode polls job credentials)
      (fun _ => Kept D managed i (Mine D i jobId)) C₀ C := by
  obtain ⟨hC, hnext⟩ := h
  cases next with
  | none => exact hC
  | some next => exact turn_verifyNode ⟨hC.1, hnext next rfl⟩

theorem turn_install {polls : Nat} {performed : Bool} {jobId : Text} {job : SetupJob}
    {credentials : AgentCredentials} {sshSecret : Text}
    (hC : Kept D managed i (AtWork D i jobId job) C₀ C) :
    turn D.parallel (setupContract D managed) i
      (install polls performed job credentials sshSecret)
      (fun _ => Kept D managed i (Mine D i jobId)) C₀ C := by
  have hlasting := lasting_atWork (D := D) (i := i) jobId job
  have hrest : ∀ C₀ C, Kept D managed i (AtWork D i jobId job) C₀ C →
      turn D.parallel (setupContract D managed) i (install polls false job credentials sshSecret)
        (fun _ => Kept D managed i (Mine D i jobId)) C₀ C := by
    intro C₀ C hC
    refine turn_plain_seq hlasting (plain_runCancellable _ _ _) hC ?_ fun x C₀ C hC =>
      ⟨hC.1, hC.2.mine⟩
    rintro ⟨completed, checked⟩ C₀ C hC
    cases completed with
    | false => exact ⟨hC.1, hC.2.mine⟩
    | true =>
      change turn _ _ _ (if job.installAwg = true then _ else _) _ _ _
      split
      · rename_i hinstall
        exact turn_seq (turn_installVpn hinstall hC) (turn_verifyNext credentials)
          fun x C₀ C h => h.1
      · rename_i hinstall
        exact turn_seq (turn_skipVpn (by simpa using hinstall) hC) (turn_verifyNext credentials)
          fun x C₀ C h => h.1
  cases performed with
  | false => exact hrest C₀ C hC
  | true =>
    exact turn_plain_seq hlasting (plain_addEvent _ _ _ _ _) hC (fun _ C₀ C hC => hrest C₀ C hC)
      fun x C₀ C hC => ⟨hC.1, hC.2.mine⟩

theorem turn_tryInstall {polls : Nat} {job : SetupJob} {credentials : AgentCredentials}
    {sshSecret : Text} (hC : Kept D managed i (AtWork D i job.id job) C₀ C) :
    turn D.parallel (setupContract D managed) i (tryInstall polls job credentials sshSecret)
      (fun r C₀ C => Kept D managed i (Mine D i job.id) C₀ C ∧
        ∀ next out, r = .ok (some next, out) → next.id = job.id) C₀ C := by
  have hlasting := lasting_atWork (D := D) (i := i) job.id job
  refine turn_seq_attempt (turn_plain hlasting (plain_preflight _ _ _ _) hC) ?_
  rintro (x | completed) C₀ C hC
  · refine ⟨⟨hC.1, hC.2.mine⟩, ?_⟩
    rintro _ _ ⟨⟩
    rfl
  cases completed with
  | false =>
    refine ⟨⟨hC.1, hC.2.mine⟩, ?_⟩
    rintro _ _ ⟨⟩
    rfl
  | true =>
    refine turn_seq_attempt (turn_nextStep rfl rfl .installAgent hC) ?_
    rintro (x | _ | next) C₀ C ⟨hC, hnext⟩
    · refine ⟨hC, ?_⟩
      rintro _ _ ⟨⟩
      rfl
    · refine ⟨hC, ?_⟩
      rintro _ _ ⟨⟩
    · have hatWork := hnext next rfl
      refine turn_seq_attempt (turn_install ⟨hC.1, hatWork⟩) ?_
      rintro r C₀ C hC
      refine ⟨hC, ?_⟩
      rintro _ _ ⟨⟩
      exact hatWork.id

theorem turn_exceptFailed {jobId : Text} {job : Option SetupJob} {r : Except Exc Unit}
    (hid : ∀ next, job = some next → next.id = jobId)
    (hC : Kept D managed i (Mine D i jobId) C₀ C) :
    turn D.parallel (setupContract D managed) i (exceptFailed job r)
      (fun _ => Kept D managed i (Mine D i jobId)) C₀ C := by
  have hfailed : ∀ message, turn D.parallel (setupContract D managed) i (do
      let id ← Services.jobId job
      let _ ← finishFailed id message
      return ()) (fun _ => Kept D managed i (Mine D i jobId)) C₀ C := by
    intro message
    cases job with
    | none => exact hC
    | some next =>
      change turn _ _ _ (finishFailed next.id message >>= _) _ _ _
      exact turn_seq (turn_finishFailed (lasting_mine jobId) (fun C hC => hid next rfl ▸ hC) hC)
        (fun _ C₀ C hC => hC) fun x C₀ C hC => hC
  unfold exceptFailed
  split
  · exact hfailed _
  · exact hfailed _
  · rw [turn_lift]
    exact hC

theorem turn_runJob (b : Services) {polls : Nat} {job : SetupJob}
    (hC : Kept D managed i (fun C => InHand i job.id C ∧ Known job C) C₀ C) :
    turn D.parallel (setupContract D managed) i (b.runJob polls job)
      (fun _ => Kept D managed i (Mine D i job.id)) C₀ C := by
  have hquiet : ∀ C C' r, Known job C → D.step i C (.getSecret job.id) r C' → Known job C' := by
    rintro C C' r ⟨stored, hget, hrest⟩ hstep
    refine ⟨stored, ?_, hrest⟩
    rw [Store.getSetupJob, D.step_jobs hstep (by simp [Op.writes])]
    exact hget
  refine turn_seq (turn_getSecret (lasting_known job) hquiet hC) ?_ fun x C₀ C hC => ⟨hC.1, hC.2.1⟩
  have hmine := lasting_mine (D := D) (i := i) job.id
  rintro (_ | sshSecret) C₀ C ⟨hleaves, hjob, hknown⟩
  · exact turn_seq (turn_finishFailed hmine (fun C hC => hC) ⟨hleaves, hjob⟩)
      (fun _ C₀ C hC => hC) fun x C₀ C hC => hC
  refine turn_plain_seq (lasting_atWork job.id job) (plain_newCredentials b job)
    ⟨hleaves, hjob, rfl, hknown⟩ (fun credentials C₀ C hC => ?_) fun x C₀ C hC => ⟨hC.1, hC.2.mine⟩
  refine turn_seq (turn_tryInstall hC) ?_ fun x C₀ C h => h.1
  rintro ⟨last, r⟩ C₀ C ⟨hC, hid⟩
  refine turn_seq_attempt (turn_exceptFailed (fun next hnext => hid next r (by rw [hnext])) hC) ?_
  intro out C₀ C hC
  have hcleanup : Plain (Services.jobId last >>= fun id => forgetEphemeralSshSecret id) :=
    plain_bind (plain_jobId last) fun id => plain_forgetEphemeralSshSecret id
  exact turn_plain hmine (plain_bind hcleanup fun _ => uses_lift _) hC

theorem turn_loop (b : Services) (polls rounds : Nat)
    (hC : Kept D managed i (fun _ => True) C₀ C) :
    turn D.parallel (setupContract D managed) i (b.loop polls rounds)
      (fun _ => Kept D managed i fun _ => True) C₀ C := by
  induction rounds generalizing C₀ C with
  | zero => exact turn_plain lasting_true (plain_ask rfl) hC
  | succ rounds ih =>
    -- the job that was claimed under the lock is still in hand when the lock is given back
    have hclaim : turn D.parallel (setupContract D managed) i (withStorageLock claimNext)
        (fun r C₀ C => Kept D managed i (fun _ => True) C₀ C ∧ ∀ job, r = .ok (some job) →
          InHand i job.id C ∧ Known job C) C₀ C := by
      refine turn_plain_seq lasting_true (plain_ask rfl) hC (fun _ C₀ C hC => ?_) fun x C₀ C hC =>
        ⟨hC, by rintro _ ⟨⟩⟩
      refine turn_seq_attempt (turn_claimNext hC) ?_
      rintro r C₀ C ⟨hC, hjob⟩
      have hlasting : Lasting i fun C : Cluster ω => ∀ job, r = .ok (some job) →
          InHand i job.id C ∧ Known job C :=
        fun C C' h hC job hr => ⟨lasting_inHand job.id C C' h (hC job hr).1,
          lasting_known job C C' h (hC job hr).2⟩
      refine turn_plain_seq hlasting (plain_ask rfl) ⟨hC.1, hjob⟩ (fun _ C₀ C hC => ?_)
        fun x C₀ C hC => ⟨hC.forget, by rintro _ ⟨⟩⟩
      rw [turn_lift]
      exact ⟨hC.forget, hC.2⟩
    refine turn_seq hclaim ?_ fun x C₀ C h => h.1
    rintro (_ | job) C₀ C ⟨hC, hjob⟩
    · exact turn_plain_seq lasting_true (plain_ask rfl) hC (fun _ C₀ C hC => ih hC) fun x C₀ C hC => hC
    refine turn_seq_attempt (turn_runJob b ⟨hC.1, hjob job rfl⟩) ?_
    have hmine := lasting_mine (D := D) (i := i) job.id
    rintro (x | _) C₀ C hC
    · cases x with
      | cancelled =>
        exact turn_seq (turn_finishFailed hmine (fun C hC => hC) hC) (fun _ C₀ C hC => hC.forget)
          fun x C₀ C hC => hC.forget
      | _ =>
        exact turn_seq (turn_finishFailed hmine (fun C hC => hC) hC)
          (fun _ C₀ C hC => ih hC.forget) fun x C₀ C hC => hC.forget
    · exact ih hC.forget

/-- Every call keeps to the contract. -/
theorem turn_setupCall (b : Services) (call : SetupCall) (hinv : SetupInv D managed C) :
    turn D.parallel (setupContract D managed) i (b.setupCall call)
      (fun _ => (setupContract D managed).Leaves i) C C := by
  have hC : Kept D managed i (fun _ => True) C C :=
    ⟨⟨hinv, fun j _ => (setupContract D managed).refl j C⟩, trivial⟩
  have hkept : ∀ {α : Type} {p : Task α} (f : α → SetupReply),
      turn D.parallel (setupContract D managed) i p (fun _ => Kept D managed i fun _ => True) C C →
      turn D.parallel (setupContract D managed) i (p >>= fun a => pure (f a))
        (fun _ => (setupContract D managed).Leaves i) C C :=
    fun f hp => turn_seq hp (fun _ _ _ hC => hC.1) fun _ _ _ hC => hC.1
  cases call with
  | create actor form => exact hkept _ (turn_createJob b actor form hC)
  | get jobId => exact hkept _ (turn_plain lasting_true (plain_getJob jobId) hC)
  | list => exact hkept _ (turn_plain lasting_true (plain_ask rfl) hC)
  | events jobId =>
    exact hkept _ (turn_plain lasting_true (plain_bind (plain_getJob jobId) fun _ => plain_ask rfl) hC)
  | start jobId =>
    refine hkept _ (turn_plain lasting_true (plain_bind (plain_getJob jobId) fun job => ?_) hC)
    change Plain (if _ then _ else if _ then _ else if _ then _ else _)
    split
    · exact plain_fail _
    split
    · exact plain_fail _
    split
    · exact plain_fail _
    · exact plain_ret _
  | cancel actor jobId => exact hkept _ (turn_cancelJob actor jobId hC)
  | work polls rounds => exact hkept (fun _ => .done) (turn_loop b polls rounds hC)
  | operation t => exact hkept (fun _ => .done) (turn_operationTask b t hC)

end Services
end VpnControl.Backend
