import VpnControl.Backend.JobTurns

namespace VpnControl.Backend
open Strings Json Effects Prog Function

variable {ω : Type} {D : Deployment ω} {managed : Text → Prop} {i : Nat} {C₀ C : Cluster ω}
  {α β : Type} {I : Cluster ω → Prop}

theorem lasting_mem (x : Nat × Sigma Op.Res) : Lasting i fun C : Cluster ω => x ∈ C.history :=
  fun _ _ h hx => h.history.subset hx

theorem Kept.forget (h : Kept D managed i I C₀ C) : Kept D managed i (fun _ => True) C₀ C :=
  ⟨h.1, trivial⟩

theorem mem_step_history {C' : Cluster ω} {e : Op} {r : e.Res} (h : D.step i C e r C') :
    (i, ⟨e, r⟩) ∈ C'.history := by
  rw [D.step_history h]
  exact List.mem_cons_self

namespace Services

/-- A job gets stored only under the id that was drawn for it. -/
theorem turn_enqueue {actor : User} {job : SetupJob} {secret : Text} (hnew : NewJob job)
    (hdrew : C.history.Drew i job.id) (hnone : C.store.getSetupJob job.id = none)
    (hleaves : (setupContract D managed).Leaves i C₀ C) :
    turn D.parallel (setupContract D managed) i (enqueue actor job secret)
      (fun _ => Kept D managed i fun _ => True) C₀ C := by
  have hput : turn D.parallel (setupContract D managed) i (ask (.putSecret job.id secret))
      (fun _ C₀ C => (setupContract D managed).Leaves i C₀ C ∧ C.history.Drew i job.id ∧
        C.store.getSetupJob job.id = none) C₀ C := by
    refine turn_ask_parallel.mpr ⟨hleaves, fun C₁ hinv hrely r C₂ hstep => ?_⟩
    have hdrew₁ : C₁.history.Drew i job.id := hrely.1.history.subset hdrew
    have hnone₁ := hrely.2 _ hdrew hnone
    have hjobs : C₂.store.setupJobs = C₁.store.setupJobs := D.step_jobs hstep (by simp [Op.writes])
    have hadmissible : Admissible D managed i C₁ (.putSecret job.id secret) := ⟨hdrew₁, hnone₁⟩
    refine ⟨leaves_step hinv hadmissible hstep, ?_, ?_⟩
    · rw [D.step_history hstep]
      exact List.mem_cons_of_mem _ hdrew₁
    · rw [Store.getSetupJob, hjobs]
      exact hnone₁
  refine turn_seq hput ?_ fun x C₀ C h => ⟨h.1, trivial⟩
  rintro _ C₀ C ⟨hleaves, hdrew, hnone⟩
  have hsave : turn D.parallel (setupContract D managed) i (ask (.saveSetupJob job))
      (fun _ => Kept D managed i fun _ => True) C₀ C := by
    refine turn_ask_parallel.mpr ⟨hleaves, fun C₁ hinv hrely r C₂ hstep => ?_⟩
    have hdrew₁ : C₁.history.Drew i job.id := hrely.1.history.subset hdrew
    have hadmissible : Admissible D managed i C₁ (.saveSetupJob job) :=
      ⟨hdrew₁, hrely.2 _ hdrew hnone, hnew⟩
    exact ⟨leaves_step hinv hadmissible hstep, trivial⟩
  refine turn_seq_attempt hsave fun r C₀ C hC => turn_plain lasting_true ?_ hC
  rcases r with x | _
  · cases x with
    | cancelled => exact plain_fail _
    | _ => exact plain_bind (plain_forgetEphemeralSshSecret _) fun _ => plain_fail _
  · exact plain_bind (plain_addEvent _ _ _ _ _) fun _ => plain_bind (plain_auditLog _) fun _ =>
      plain_ret _

theorem turn_createJob (b : Services) (actor : User) (form : SetupJobCreate)
    (hC : Kept D managed i (fun _ => True) C₀ C) :
    turn D.parallel (setupContract D managed) i (b.createJob actor form)
      (fun _ => Kept D managed i fun _ => True) C₀ C := by
  unfold createJob
  split
  · exact hC
  split
  · exact hC
  refine turn_plain_seq lasting_true (plain_ask rfl) hC (fun now C₀ C hC => ?_) fun x C₀ C hC => hC
  have hdraw : turn D.parallel (setupContract D managed) i (ask .uuid)
      (fun r C₀ C => (setupContract D managed).Leaves i C₀ C ∧ ∀ id, r = .ok id →
        C.history.Drew i id ∧ C.store.getSetupJob id = none) C₀ C := by
    refine turn_ask_admissible lasting_true (fun _ _ _ => by trivial) ?_ hC
    intro C₁ r C₂ _ _ hstep hleaves _
    refine ⟨hleaves, fun id hr => ?_⟩
    subst hr
    refine ⟨mem_step_history hstep, ?_⟩
    rw [Store.getSetupJob, D.step_jobs hstep (by simp [Op.writes])]
    exact (step_uuid hstep).1.setupJob
  refine turn_seq hdraw ?_ fun x C₀ C h => ⟨h.1, trivial⟩
  rintro id C₀ C ⟨hleaves, hid⟩
  obtain ⟨hdrew, hnone⟩ := hid id rfl
  exact turn_enqueue ⟨rfl, rfl, rfl⟩ hdrew hnone hleaves

/-- Who claims a job has it in hand. -/
theorem turn_claimNext (hC : Kept D managed i (fun _ => True) C₀ C) :
    turn D.parallel (setupContract D managed) i claimNext
      (fun r C₀ C => Kept D managed i (fun _ => True) C₀ C ∧ ∀ job, r = .ok (some job) →
        InHand i job.id C ∧ Known job C) C₀ C := by
  refine turn_plain_seq lasting_true (plain_ask rfl) hC (fun now C₀ C hC => ?_) fun x C₀ C hC =>
    ⟨hC, by rintro _ ⟨⟩⟩
  have hclaim : turn D.parallel (setupContract D managed) i
      (ask (.claimNextSetupJob now SetupJobStatus.checkingSsh.label))
      (fun r C₀ C => (setupContract D managed).Leaves i C₀ C ∧ ∀ job, r = .ok (some job) →
        InHand i job.id C ∧ Known job C) C₀ C := by
    refine turn_ask_admissible lasting_true (fun _ _ _ => by trivial) ?_ hC
    intro C₁ r C₂ _ _ hstep hleaves _
    refine ⟨hleaves, fun job hr => ?_⟩
    subst hr
    have hput : C₂.store.getSetupJob job.id = some job := by
      rcases D.step_jobs_cases hstep with ⟨-, hnone, -⟩ | ⟨put, hwrite, hput⟩
      · cases hnone
      · generalize hx : (⟨.claimNextSetupJob now SetupJobStatus.checkingSsh.label,
          .ok (some job)⟩ : Sigma Op.Res) = x at hwrite
        cases hwrite with
        | save | transition => cases hx
        | claim =>
          cases hx
          rw [Store.getSetupJob, hput]
          exact Table.get_put_self _ _
    refine ⟨⟨by simp [hput], ?_⟩, job, hput, rfl, rfl⟩
    rw [D.step_history hstep, History.inHand, History.last_cons, if_pos rfl]
    rfl
  refine turn_seq hclaim ?_ fun x C₀ C h => ⟨⟨h.1, trivial⟩, by rintro _ ⟨⟩⟩
  rintro (_ | job) C₀ C ⟨hleaves, hjob⟩
  · exact ⟨⟨hleaves, trivial⟩, by rintro _ ⟨⟩⟩
  · refine turn_plain_seq ((lasting_inHand job.id).and (lasting_known job)) (plain_addEvent _ _ _ _ _)
      ⟨hleaves, hjob job rfl⟩ (fun _ C₀ C hC => ?_) fun x C₀ C hC => ⟨hC.forget, by rintro _ ⟨⟩⟩
    refine ⟨hC.forget, ?_⟩
    rintro _ ⟨⟩
    exact hC.2

/-- Who looks for the secret of the job in hand knows what to make of it. -/
theorem turn_getSecret {jobId : Text} (hI : Lasting i I)
    (hquiet : ∀ C C' r, I C → D.step i C (.getSecret jobId) r C' → I C')
    (hC : Kept D managed i (fun C => InHand i jobId C ∧ I C) C₀ C) :
    turn D.parallel (setupContract D managed) i (getEphemeralSshSecret jobId)
      (fun _ => Kept D managed i fun C => Mine D i jobId C ∧ I C) C₀ C := by
  refine turn_ask_admissible ((lasting_inHand jobId).and hI) (fun _ _ _ => by trivial) ?_ hC
  intro C₁ r C₂ _ hC₁ hstep hleaves _
  obtain ⟨hhand, hI₁⟩ := hC₁
  have hjobs : C₂.store.setupJobs = C₁.store.setupJobs := D.step_jobs hstep (by simp [Op.writes])
  refine ⟨hleaves, ⟨⟨?_, ?_⟩, fun hmissed hholds => ?_⟩, hquiet _ _ _ hI₁ hstep⟩
  · rw [Store.getSetupJob, hjobs]
    exact hhand.stored
  · rw [D.step_history hstep, History.inHand, History.last_other (.inr rfl)]
    exact hhand.inHand
  · rw [D.step_history hstep, History.missed, History.last_cons, if_pos rfl] at hmissed
    have hholds₁ := (D.step_holds hstep (by simp [Op.writes]) _ _).mp hholds
    obtain ⟨w, hact, -⟩ := hstep
    cases r with
    | error x => exact absurd hact.1 (by simp [Op.safe])
    | ok secret =>
      obtain ⟨rfl, -⟩ : secret = _ ∧ w = _ := hact
      obtain ⟨pair, hpair⟩ := Option.ne_none_iff_exists'.mp hholds₁
      simp only [Cluster.world, hpair] at hmissed
      cases hmissed

/-- What the polling of a task gives back, the task returned. -/
theorem turn_poll (hI : Lasting i I) {jobId : Text} {t polls : Nat} (hC : Kept D managed i I C₀ C) :
    turn D.parallel (setupContract D managed) i (poll jobId t polls)
      (fun r C₀ C => Kept D managed i I C₀ C ∧ ∀ checked, r = .ok (true, some checked) →
        (i, ⟨.result t, .ok (some checked)⟩) ∈ C.history) C₀ C := by
  induction polls generalizing C₀ C with
  | zero =>
    refine turn_plain_seq hI (plain_ask rfl) hC (fun _ C₀ C hC => ?_) fun x C₀ C hC => ?_
    · exact ⟨hC, by rintro _ ⟨⟩⟩
    · exact ⟨hC, by rintro _ ⟨⟩⟩
  | succ polls ih =>
    refine turn_plain_seq hI (plain_ask rfl) hC (fun done C₀ C hC => ?_) fun x C₀ C hC =>
      ⟨hC, by rintro _ ⟨⟩⟩
    cases done with
    | true =>
      have hresult : turn D.parallel (setupContract D managed) i (ask (.result t))
          (fun r C₀ C => Kept D managed i I C₀ C ∧ ∀ checked, r = .ok checked →
            (i, ⟨.result t, .ok checked⟩) ∈ C.history) C₀ C := by
        refine turn_ask_admissible hI (fun _ _ _ => by trivial) ?_ hC
        intro C₁ r C₂ _ _ hstep hleaves hI₂
        refine ⟨⟨hleaves, hI₂ rfl⟩, fun checked hr => ?_⟩
        subst hr
        exact mem_step_history hstep
      refine turn_seq hresult ?_ fun x C₀ C h => ⟨h.1, by rintro _ ⟨⟩⟩
      rintro checked C₀ C ⟨hC, hmem⟩
      refine ⟨hC, ?_⟩
      rintro _ ⟨⟩
      exact hmem _ rfl
    | false =>
      refine turn_plain_seq hI (plain_getJob jobId) hC (fun job C₀ C hC => ?_) fun x C₀ C hC =>
        ⟨hC, by rintro _ ⟨⟩⟩
      change turn _ _ _ (if _ then _ else _) _ _ _
      split
      · refine turn_plain_seq hI (plain_ask rfl) hC (fun _ C₀ C hC => ?_) fun x C₀ C hC =>
          ⟨hC, by rintro _ ⟨⟩⟩
        refine turn_plain_seq hI (plain_suppressCancelled (plain_ask rfl)) hC
          (fun _ C₀ C hC => ?_) fun x C₀ C hC => ⟨hC, by rintro _ ⟨⟩⟩
        exact ⟨hC, by rintro _ ⟨⟩⟩
      · exact ih hC

/-- A node that a worker gets back from its check was verified. -/
theorem turn_checkNode (hI : Lasting i I) {polls : Nat} {jobId nodeId : Text}
    (hC : Kept D managed i I C₀ C) :
    turn D.parallel (setupContract D managed) i (runCancellable polls jobId (.healthCheck nodeId))
      (fun r C₀ C => Kept D managed i I C₀ C ∧ ∀ checked, r = .ok (true, some checked) →
        checked.selectable = true → Verified C.history nodeId) C₀ C := by
  have hcreate : turn D.parallel (setupContract D managed) i
      (ask (.ensureFuture (.healthCheck nodeId)))
      (fun r C₀ C => Kept D managed i I C₀ C ∧ ∀ t, r = .ok t →
        (i, ⟨.ensureFuture (.healthCheck nodeId), .ok t⟩) ∈ C.history) C₀ C := by
    refine turn_ask_admissible hI (fun _ _ _ => by trivial) ?_ hC
    intro C₁ r C₂ _ _ hstep hleaves hI₂
    refine ⟨⟨hleaves, hI₂ rfl⟩, fun t hr => ?_⟩
    subst hr
    exact mem_step_history hstep
  refine turn_seq hcreate ?_ fun x C₀ C h => ⟨h.1, by rintro _ ⟨⟩⟩
  rintro t C₀ C ⟨hC, hcreated⟩
  have hlasting := hI.and (lasting_mem (i, ⟨.ensureFuture (.healthCheck nodeId), .ok t⟩))
  refine turn_seq_attempt (turn_poll hlasting ⟨hC.1, hC.2, hcreated t rfl⟩) ?_
  rintro r C₀ C ⟨hC, hresult⟩
  have hdone : ∀ checked, r = .ok (true, some checked) → checked.selectable = true →
      Verified C.history nodeId :=
    fun checked hr hselectable => ⟨i, t, checked, hC.2.2, hresult checked hr, hselectable⟩
  cases r with
  | ok a => exact ⟨⟨hC.1, hC.2.1⟩, fun checked ha => hdone checked ha⟩
  | error x =>
    cases x with
    | cancelled =>
      refine turn_plain_seq hlasting (plain_ask rfl) hC (fun _ C₀ C hC => ?_) fun x C₀ C hC =>
        ⟨⟨hC.1, hC.2.1⟩, by rintro _ ⟨⟩⟩
      refine turn_plain_seq hlasting (plain_suppressCancelled (plain_ask rfl)) hC
        (fun _ C₀ C hC => ?_) fun x C₀ C hC => ⟨⟨hC.1, hC.2.1⟩, by rintro _ ⟨⟩⟩
      exact ⟨⟨hC.1, hC.2.1⟩, by rintro _ ⟨⟩⟩
    | _ => exact ⟨⟨hC.1, hC.2.1⟩, by rintro _ ⟨⟩⟩

end Services
end VpnControl.Backend
