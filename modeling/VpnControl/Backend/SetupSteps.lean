import VpnControl.Backend.SetupContract

namespace VpnControl.Backend
open Strings Json Effects Prog Function

variable {ω : Type} {D : Deployment ω} {managed : Text → Prop} {i : Nat} {C C' : Cluster ω}
  {e : Op} {r : e.Res}

/-- The operations that put a job into the storage, and the job they put. -/
inductive JobWrite (s : Store) : Sigma Op.Res → SetupJob → Prop
  | save (job : SetupJob) : JobWrite s ⟨.saveSetupJob job, .ok ()⟩ job
  | claim {queued : SetupJob} (h : queued ∈ s.queuedSetupJobs) (at' : Time) (currentStep : Text) :
    JobWrite s ⟨.claimNextSetupJob at' currentStep, .ok (some (Store.claim queued at' currentStep))⟩
      (Store.claim queued at' currentStep)
  | transition {jobId : Text} {expected : List SetupJobStatus} {job : SetupJob}
    (values : List JobValue) (hjob : s.getSetupJob jobId = some job) (h : job.status ∈ expected) :
    JobWrite s ⟨.transitionSetupJob jobId expected values,
      .ok (some (values.foldl SetupJob.set job))⟩ (values.foldl SetupJob.set job)

theorem claim_of_action {h : History} {w w' : World ω} {at' : Time} {currentStep : Text}
    {job : SetupJob} (hact : D.act i h w (.claimNextSetupJob at' currentStep) (.ok (some job)) w') :
    ∃ queued ∈ w.store.queuedSetupJobs, job = Store.claim queued at' currentStep ∧
      w' = { w with store := w.store.saveSetupJob job } := by
  obtain ⟨⟨queued, hqueued, hjob⟩, hw⟩ := hact
  exact ⟨queued, hqueued, hjob, hw⟩

theorem failure_eq {P : Platform ω} {w w' : World ω} {e : Op} {x : Exc}
    (h : P.failure w e x w') (he : e.writes = some .jobs) : w' = w := by
  cases e with
  | saveSetupJob | claimNextSetupJob | transitionSetupJob => exact h.2.2
  | _ => cases he

/-- What an operation does to the jobs: nothing, and then it is no successful claim or
transition, or it puts one of them. -/
theorem Deployment.step_jobs_cases (h : D.step i C e r C') :
    (C'.store.setupJobs = C.store.setupJobs ∧ History.claimedJob ⟨e, r⟩ = none ∧
      ∀ jobId expected values job,
        (⟨e, r⟩ : Sigma Op.Res) ≠ ⟨.transitionSetupJob jobId expected values, .ok (some job)⟩) ∨
    ∃ job, JobWrite C.store ⟨e, r⟩ job ∧ C'.store.setupJobs = C.store.setupJobs.put job := by
  by_cases he : e.writes = some .jobs
  swap
  -- only three operations write to the table of jobs
  · refine .inl ⟨step_jobs h he, ?_, ?_⟩
    · cases e with
      | claimNextSetupJob => exact absurd rfl he
      | _ => rfl
    · intro jobId expected values job hx
      rw [(Sigma.mk.inj hx).1] at he
      exact he rfl
  obtain ⟨w, hact, rfl⟩ := h
  cases r with
  | error x =>
    have hfailure : D.platform.failure (C.world (D.processOf i)) e x w := by
      cases e with
      | saveSetupJob | claimNextSetupJob | transitionSetupJob => exact hact
      | _ => cases he
    obtain rfl := failure_eq hfailure he
    refine .inl ⟨rfl, ?_, ?_⟩
    · cases e with
      | saveSetupJob | claimNextSetupJob | transitionSetupJob => rfl
      | _ => cases he
    · intro jobId expected values job hx
      cases hx
  | ok a =>
    cases e with
    | saveSetupJob job =>
      obtain rfl : w = _ := hact
      exact .inr ⟨job, .save job, rfl⟩
    | claimNextSetupJob at' currentStep =>
      cases a with
      | none =>
        obtain rfl : w = _ := hact
        refine .inl ⟨rfl, rfl, ?_⟩
        intro jobId expected values job hx
        cases hx
      | some job =>
        obtain ⟨queued, hqueued, rfl, rfl⟩ := claim_of_action hact
        exact .inr ⟨_, .claim hqueued at' currentStep, rfl⟩
    -- a transition writes only where the stored status is one of those expected
    | transitionSetupJob jobId expected values =>
      obtain ⟨rfl, rfl⟩ : a = _ ∧ w = _ := hact
      cases hget : C.store.getSetupJob jobId with
      | none =>
        have hrefused : C.store.transitionSetupJob jobId expected values = (none, C.store) := by
          rw [Store.transitionSetupJob, hget]
        simp only [Cluster.after, Cluster.world, hrefused]
        refine .inl ⟨trivial, rfl, ?_⟩
        intro jobId expected values job hx
        cases hx
      | some job =>
        by_cases hstatus : job.status ∈ expected
        · have hdone : C.store.transitionSetupJob jobId expected values =
              (some (values.foldl SetupJob.set job),
                C.store.saveSetupJob (values.foldl SetupJob.set job)) := by
            rw [Store.transitionSetupJob, hget]
            simp only [hstatus, if_true]
          simp only [Cluster.after, Cluster.world, hdone]
          exact .inr ⟨_, .transition values hget hstatus, rfl⟩
        · have hrefused : C.store.transitionSetupJob jobId expected values = (none, C.store) := by
            rw [Store.transitionSetupJob, hget]
            simp only [hstatus, if_false]
          simp only [Cluster.after, Cluster.world, hrefused]
          refine .inl ⟨trivial, rfl, ?_⟩
          intro jobId expected values job hx
          cases hx
    | _ => cases he

theorem foldl_set_id (values : List JobValue) (job : SetupJob) :
    (values.foldl SetupJob.set job).id = job.id := by
  induction values generalizing job with
  | nil => rfl
  | cons value values ih =>
    rw [List.foldl_cons, ih]
    cases value <;> rfl

theorem mem_queuedSetupJobs {s : Store} {job : SetupJob} :
    job ∈ s.queuedSetupJobs ↔ s.getSetupJob job.id = some job ∧ job.status = .queued := by
  simp [Store.queuedSetupJobs, Store.getSetupJob, Table.mem_values_iff]

/-- A job that is put is a new one, or a stored one that made progress. -/
theorem JobWrite.new_or_progress (hinv : SetupInv D managed C)
    (hadmissible : Admissible D managed i C e) {job : SetupJob} (h : JobWrite C.store ⟨e, r⟩ job) :
    (C.store.getSetupJob job.id = none ∧ NewJob job ∧ C.history.Drew i job.id) ∨
      ∃ old, C.store.getSetupJob job.id = some old ∧ Progress 1 old job ∧ JobSound C.history job := by
  generalize hx : (⟨e, r⟩ : Sigma Op.Res) = x at h
  cases h with
  | save =>
    obtain rfl := (Sigma.mk.inj hx).1
    obtain ⟨hdrew, hnone, hnew⟩ := hadmissible
    exact .inl ⟨hnone, hnew, hdrew⟩
  | @claim queued hqueued at' currentStep =>
    obtain ⟨hget, hstatus⟩ := mem_queuedSetupJobs.mp hqueued
    have hsound := hinv.jobs _ _ hget
    refine .inr ⟨queued, hget, ⟨?_, rfl, rfl, fun _ => by simp [Store.claim]⟩, ?_⟩
    · rw [hstatus]
      exact reachesIn_one .claim
    · refine ⟨?_, ?_, ?_, hsound.secretEncrypted⟩
      · simpa [Store.claim, hstatus, SetupJobStatus.isTerminal] using hsound.finished
      · simp [Store.claim]
      · simp [Store.claim]
  | @transition jobId expected old values hget hstatus =>
    obtain rfl := (Sigma.mk.inj hx).1
    obtain ⟨-, hadvance⟩ := hadmissible
    obtain ⟨hprogress, hsound⟩ := hadvance old hget hstatus (hinv.jobs _ _ hget)
    refine .inr ⟨old, ?_, hprogress, hsound⟩
    rw [foldl_set_id, Table.key_of_get hget]
    exact hget

/-- What an admissible operation does to the stored jobs. -/
theorem step_progress (hinv : SetupInv D managed C) (hadmissible : Admissible D managed i C e)
    (h : D.step i C e r C') :
    (∀ id job, C.store.getSetupJob id = some job →
      ∃ job', C'.store.getSetupJob id = some job' ∧ Progress 1 job job') ∧
    ∀ id job', C'.store.getSetupJob id = some job' →
      C.store.getSetupJob id = some job' ∨ JobSound C.history job' ∧ C.store.getSetupJob id ≠ none ∨
        NewJob job' ∧ C.store.getSetupJob id = none ∧ C.history.Drew i id := by
  -- the table of jobs stays, or one job is put
  rcases D.step_jobs_cases h with ⟨hsame, -⟩ | ⟨put, hwrite, hput⟩
  · have hget : ∀ id, C'.store.getSetupJob id = C.store.getSetupJob id := fun id => by
      rw [Store.getSetupJob, Store.getSetupJob, hsame]
    refine ⟨fun id job hjob => ⟨job, (hget id).trans hjob, .refl 1 job⟩, fun id job' hjob' => ?_⟩
    exact .inl ((hget id).symm.trans hjob')
  · have hget : ∀ id, C'.store.getSetupJob id =
        if id = put.id then some put else C.store.getSetupJob id := fun id => by
      rw [Store.getSetupJob, hput, Table.get_put]
      rfl
    have hcases := hwrite.new_or_progress hinv hadmissible
    constructor
    · intro id job hjob
      rw [hget]
      split
      · rename_i hid
        subst hid
        rcases hcases with ⟨hnone, -⟩ | ⟨old, hold, hprogress, -⟩
        · simp [hnone] at hjob
        · rw [hold, Option.some.injEq] at hjob
          subst hjob
          exact ⟨put, rfl, hprogress⟩
      · exact ⟨job, hjob, .refl 1 job⟩
    · intro id job' hjob'
      rw [hget] at hjob'
      split at hjob'
      · rename_i hid
        subst hid
        rw [Option.some.injEq] at hjob'
        subst hjob'
        rcases hcases with ⟨hnone, hnew, hdrew⟩ | ⟨old, hold, -, hsound⟩
        · exact .inr (.inr ⟨hnew, hnone, hdrew⟩)
        · exact .inr (.inl ⟨hsound, by simp [hold]⟩)
      · exact .inl hjob'

theorem step_uuid {id : Text} (h : D.step i C .uuid (.ok id) C') :
    C.store.Fresh id ∧ ∀ j, ¬ C.history.Drew j id := by
  obtain ⟨w, ⟨⟨hfresh, -⟩, hdrew⟩, -⟩ := h
  exact ⟨hfresh, hdrew⟩

/-- Where a held secret comes from. -/
theorem step_holds_cases (h : D.step i C e r C') {p : Nat} {id : Text} (hholds : C'.Holds p id) :
    C.Holds p id ∨ p = D.processOf i ∧ ∃ secret, e = .putSecret id secret := by
  by_cases he : e.writes = some .secrets
  swap
  · exact .inl ((D.step_holds h he p id).mp hholds)
  by_cases hp : p = D.processOf i
  swap
  · rw [Cluster.Holds, D.step_process h hp] at hholds
    exact .inl hholds
  subst hp
  obtain ⟨w, hact, rfl⟩ := h
  simp only [Cluster.Holds, Cluster.after, update_self] at hholds
  cases e with
  | putSecret jobId secret =>
    cases r with
    | ok a =>
      obtain rfl : w = _ := hact
      rw [Table.get_put] at hholds
      split at hholds
      · rename_i hid
        exact .inr ⟨rfl, secret, by rw [hid]⟩
      · exact .inl hholds
    | error x => exact absurd hact.1 (by simp [Op.safe])
  | popSecret jobId =>
    cases r with
    | ok a =>
      obtain rfl : w = _ := hact
      rw [Table.get_erase] at hholds
      split at hholds
      · exact absurd rfl hholds
      · exact .inl hholds
    | error x => exact absurd hact.1 (by simp [Op.safe])
  | _ => cases he

/-- What an operation does to the nodes: nothing, or it puts one of them. -/
theorem step_nodes_cases (h : D.step i C e r C') :
    C'.store.serverNodes = C.store.serverNodes ∨
      ∃ node, (e = .saveServerNode node ∨ e = .assignNode node) ∧
        C'.store.serverNodes = C.store.serverNodes.put node := by
  by_cases he : e.writes = some .nodes
  swap
  · exact .inl (D.step_nodes h he)
  obtain ⟨w, hact, rfl⟩ := h
  cases e with
  | saveServerNode node =>
    cases r with
    | ok a =>
      obtain rfl : w = _ := hact
      exact .inr ⟨node, .inl rfl, rfl⟩
    | error x =>
      obtain ⟨-, -, rfl⟩ := hact
      exact .inl rfl
  | assignNode node =>
    cases r with
    | ok a =>
      obtain rfl : w = _ := hact
      simp only [Cluster.after, Platform.assignNode]
      split
      · exact .inr ⟨node, .inr rfl, rfl⟩
      · exact .inl rfl
    | error x =>
      obtain ⟨-, -, rfl⟩ := hact
      exact .inl rfl
  | _ => cases he

theorem step_nodes_stored (h : D.step i C e r C') {id : Text}
    (hid : C.store.getServerNode id ≠ none) : C'.store.getServerNode id ≠ none := by
  rcases step_nodes_cases h with hsame | ⟨node, -, hput⟩
  · rwa [Store.getServerNode, hsame]
  · rw [Store.getServerNode, hput, Table.get_put]
    split
    · simp
    · exact hid

/-- A job for which an id was made, before the operation unless that drew the id. -/
theorem step_made (h : D.step i C e r C') {id jobId : Text} (hmade : C'.history.MadeFor id jobId) :
    C.history.MadeFor id jobId ∨ C.store.Fresh id ∧ (∀ j, ¬ C.history.Drew j id) ∧
      e = .uuid ∧ C.history.inHand i = some jobId := by
  rw [D.step_history h] at hmade
  obtain ⟨later, j, before, hsplit, hhand⟩ := hmade
  cases later with
  | nil =>
    obtain ⟨hx, rfl⟩ := List.cons.inj hsplit
    obtain ⟨rfl, hentry⟩ := Prod.mk.inj hx
    obtain ⟨rfl, hr⟩ := Sigma.mk.inj hentry
    obtain rfl := eq_of_heq hr
    obtain ⟨hfresh, hdrew⟩ := step_uuid h
    exact .inr ⟨hfresh, hdrew, rfl, hhand⟩
  | cons x later =>
    obtain ⟨-, hrest⟩ := List.cons.inj hsplit
    exact .inl ⟨later, j, before, hrest, hhand⟩

theorem drew_of_madeFor {h : History} {id jobId : Text} (hmade : h.MadeFor id jobId) :
    ∃ i, h.Drew i id := by
  obtain ⟨later, i, before, rfl, -⟩ := hmade
  exact ⟨i, by simp [History.Drew]⟩

/-- What the other tasks, and the task itself if the operation is a quiet one, keep. -/
theorem keeps_step (hinv : SetupInv D managed C) (hadmissible : Admissible D managed i C e)
    (h : D.step i C e r C') {j : Nat} (hj : j ≠ i ∨ e.quiet = true) : Keeps j C C' := by
  have hhistory := D.step_history h
  obtain ⟨hjobs, hnew⟩ := step_progress hinv hadmissible h
  have hsince : C.since C' = 1 := by
    rw [Cluster.since, hhistory, List.length_cons, Nat.add_sub_cancel_left]
  rw [← hsince] at hjobs
  refine ⟨⟨?_, hjobs, ?_, ?_, ?_, ?_⟩, ?_, ?_⟩
  · rw [hhistory]
    exact List.suffix_cons _ _
  -- a job that appears is queued
  · intro id job' hnone hjob'
    rcases hnew id job' hjob' with hold | ⟨-, hold⟩ | ⟨hnew, -⟩
    · simp [hnone] at hold
    · exact absurd hnone hold
    · rw [hnew.status]
      exact ⟨0, by omega, .stay 0 _⟩
  · exact fun id hid => step_nodes_stored h hid
  · intro id jobId hid hmade
    rcases step_made h hmade with hold | ⟨hfresh, -⟩
    · exact hold
    · exact absurd hfresh.serverNode hid
  -- a secret appears only where the job was created
  · intro p id hid hholds
    rcases step_holds_cases h hholds with hold | ⟨-, secret, rfl⟩
    · exact hold
    · exact absurd hadmissible.2 hid
  · rw [hhistory]
    apply History.last_other
    rcases hj with hj | hquiet
    · exact .inl hj.symm
    · refine .inr ?_
      cases e with
      | claimNextSetupJob => cases hquiet
      | _ => rfl
  · rw [hhistory, History.missed, History.missed, History.last_other]
    rcases hj with hj | hquiet
    · exact .inl hj.symm
    · refine .inr ?_
      cases e with
      | getSecret => cases hquiet
      | _ => rfl

/-- A draw after an operation was there before, or is the operation. -/
theorem step_drew (h : D.step i C e r C') {j : Nat} {id : Text} (hdrew : C'.history.Drew j id) :
    C.history.Drew j id ∨ j = i ∧ ∀ k, ¬ C.history.Drew k id := by
  rw [History.Drew, D.step_history h] at hdrew
  rcases List.mem_cons.mp hdrew with hx | hold
  · obtain ⟨rfl, hentry⟩ := Prod.mk.inj hx
    obtain ⟨rfl, hr⟩ := Sigma.mk.inj hentry
    obtain rfl := eq_of_heq hr
    exact .inr ⟨rfl, (step_uuid h).2⟩
  · exact .inl hold

theorem Opened.mono {s s' : Store} {jobId : Text} {n : Nat} (h : Opened s jobId)
    (hjobs : ∀ id job, s.getSetupJob id = some job →
      ∃ job', s'.getSetupJob id = some job' ∧ Progress n job job') : Opened s' jobId := by
  obtain ⟨job, hjob, hstatus, havailable⟩ := h
  obtain ⟨job', hjob', hprogress⟩ := hjobs jobId job hjob
  have hsuccess := hprogress.status.eq_of_terminal (by rw [hstatus]; rfl)
  exact ⟨job', hjob', hsuccess.trans hstatus, hprogress.available.trans havailable⟩

theorem NewJob.sound {job : SetupJob} (h : NewJob job) (hs : History) : JobSound hs job where
  finished := by simp [h.finished, h.status, SetupJobStatus.isTerminal]
  success := by simp [h.status]
  failed := by simp [h.status]
  secretEncrypted := h.secretEncrypted

theorem History.claims_cons {h : History} {j : Nat} {x : Sigma Op.Res} {id : Text} :
    History.claims ((j, x) :: h) id = h.claims id + if claimedJob x = some id then 1 else 0 := by
  simp [claims, List.countP_cons]

/-- A job can be claimed if it was not claimed before, and has begun then. -/
theorem claims_step (hinv : SetupInv D managed C) (hadmissible : Admissible D managed i C e)
    (h : D.step i C e r C') {id : Text} (hclaims : C'.history.claims id ≠ 0) :
    C'.history.claims id = 1 ∧
      ∃ job, C'.store.getSetupJob id = some job ∧ job.status ≠ .queued ∧ job.startedAt ≠ none := by
  rw [D.step_history h, History.claims_cons] at hclaims ⊢
  by_cases hclaimed : History.claimedJob ⟨e, r⟩ = some id
  · rcases D.step_jobs_cases h with ⟨-, hnone, -⟩ | ⟨put, hwrite, hput⟩
    · simp [hnone] at hclaimed
    generalize hx : (⟨e, r⟩ : Sigma Op.Res) = x at hwrite hclaimed
    cases hwrite with
    | save | transition => cases hclaimed
    | @claim queued hqueued at' currentStep =>
      obtain ⟨hget, hstatus⟩ := mem_queuedSetupJobs.mp hqueued
      obtain rfl : queued.id = id := Option.some.inj hclaimed
      have hzero : C.history.claims queued.id = 0 := by
        by_contra hne
        obtain ⟨-, job, hjob, hqueued, -⟩ := hinv.claims _ hne
        rw [hget, Option.some.injEq] at hjob
        subst hjob
        exact hqueued hstatus
      rw [hzero, if_pos hclaimed]
      refine ⟨rfl, Store.claim queued at' currentStep, ?_, ?_, ?_⟩
      · rw [Store.getSetupJob, hput]
        exact Table.get_put_self _ _
      · simp [Store.claim]
      · simp [Store.claim]
  · rw [if_neg hclaimed, Nat.add_zero] at hclaims ⊢
    obtain ⟨hone, job, hjob, hstatus, hstarted⟩ := hinv.claims id hclaims
    obtain ⟨job', hjob', hprogress⟩ := (step_progress hinv hadmissible h).1 id job hjob
    exact ⟨hone, job', hjob', hprogress.status.ne_queued hstatus, hprogress.started hstarted⟩

/-- Every change of a status that happened was asked for by the one who may. -/
theorem transitions_step (hinv : SetupInv D managed C) (hadmissible : Admissible D managed i C e)
    (h : D.step i C e r C') {j : Nat} {jobId : Text} {values : List JobValue} {before : History}
    (htransition : C'.history.Transition j jobId values before) :
    C'.store.getSetupJob jobId ≠ none ∧ ((∃ now, values = Services.cancelValues now) ∨
      before.inHand j = some jobId ∧ (before.missed j → ¬ C'.Holds (D.processOf j) jobId)) := by
  obtain ⟨hjobs, -⟩ := step_progress hinv hadmissible h
  obtain ⟨later, expected, job, hsplit⟩ := htransition
  rw [D.step_history h] at hsplit
  cases later with
  | nil =>
    obtain ⟨hx, rfl⟩ := List.cons.inj hsplit
    obtain ⟨rfl, hentry⟩ := Prod.mk.inj hx
    rcases D.step_jobs_cases h with ⟨-, -, hno⟩ | ⟨put, hwrite, hput⟩
    · exact absurd hentry (hno _ _ _ _)
    generalize hperformed : (⟨e, r⟩ : Sigma Op.Res) = x at hwrite hentry
    cases hwrite with
    | save | claim => cases hentry
    | @transition _ _ old _ hget hstatus =>
      cases hentry
      obtain rfl := (Sigma.mk.inj hperformed).1
      refine ⟨?_, ?_⟩
      · obtain ⟨job', hjob', -⟩ := hjobs _ _ hget
        simp [hjob']
      · rw [D.step_holds h (by simp [Op.writes])]
        exact hadmissible.owner
  | cons x later =>
    obtain ⟨-, hrest⟩ := List.cons.inj hsplit
    obtain ⟨hstored, howner⟩ := hinv.transitions j jobId values before ⟨later, expected, job, hrest⟩
    have hkeeps := keeps_step hinv hadmissible h (j := i + 1) (.inl (by omega))
    refine ⟨hkeeps.stored hstored, ?_⟩
    rcases howner with hcancel | ⟨hhand, hmissed⟩
    · exact .inl hcancel
    · exact .inr ⟨hhand, fun hm hholds => hmissed hm (hkeeps.secrets _ _ hstored hholds)⟩

/-- An admissible operation keeps the invariant. -/
theorem setupInv_step (hinv : SetupInv D managed C) (hadmissible : Admissible D managed i C e)
    (h : D.step i C e r C') : SetupInv D managed C' := by
  have hhistory := D.step_history h
  have hsub : C.history ⊆ C'.history := by
    rw [hhistory]
    exact List.subset_cons_self _ _
  obtain ⟨hjobs, hnew⟩ := step_progress hinv hadmissible h
  constructor
  -- ids are drawn once
  · intro id j k hj hk
    rcases step_drew h hj with hj | ⟨rfl, hno⟩
    · rcases step_drew h hk with hk | ⟨rfl, hno⟩
      · exact hinv.draws id j k hj hk
      · exact absurd hj (hno j)
    · rcases step_drew h hk with hk | ⟨rfl, -⟩
      · exact absurd hk (hno k)
      · rfl
  -- an object is made for one job
  · intro id jobId jobId' hmade hmade'
    rcases step_made h hmade with hmade | ⟨-, hno, -, hhand⟩
    · rcases step_made h hmade' with hmade' | ⟨-, hno, -⟩
      · exact hinv.made id jobId jobId' hmade hmade'
      · obtain ⟨j, hdrew⟩ := drew_of_madeFor hmade
        exact absurd hdrew (hno j)
    · rcases step_made h hmade' with hmade' | ⟨-, -, -, hhand'⟩
      · obtain ⟨j, hdrew⟩ := drew_of_madeFor hmade'
        exact absurd hdrew (hno j)
      · exact Option.some.inj (hhand.symm.trans hhand')
  -- jobs are sound with respect to the history so far
  · intro id job' hjob'
    rcases hnew id job' hjob' with hold | ⟨hsound, -⟩ | ⟨hnew, -⟩
    · exact (hinv.jobs id job' hold).mono hsub
    · exact hsound.mono hsub
    · exact hnew.sound _
  -- a stored job has an owner, which drew its id
  · intro id hid
    obtain ⟨job', hjob'⟩ := Option.ne_none_iff_exists'.mp hid
    have howner : C.store.getSetupJob id ≠ none ∨ C.history.Drew i id := by
      rcases hnew id job' hjob' with hold | ⟨-, hold⟩ | ⟨-, -, hdrew⟩
      · exact .inl (by simp [hold])
      · exact .inl hold
      · exact .inr hdrew
    rcases howner with hold | hdrew
    · obtain ⟨j, hdrew⟩ := hinv.owners id hold
      exact ⟨j, hsub hdrew⟩
    · exact ⟨i, hsub hdrew⟩
  · exact fun id hclaims => claims_step hinv hadmissible h hclaims
  -- only the process that drew the id of a job is given its secret
  · intro p id hholds
    rcases step_holds_cases h hholds with hold | ⟨rfl, secret, rfl⟩
    · obtain ⟨j, hp, hdrew⟩ := hinv.secrets p id hold
      exact ⟨j, hp, hsub hdrew⟩
    · exact ⟨i, rfl, hsub hadmissible.1⟩
  · exact fun j jobId values before => transitions_step hinv hadmissible h
  -- a new node is for new devices only if the job it was made for allows that
  · intro node hnode
    have hstored : ∀ m ∈ C.store.serverNodes.values, NodeOk managed C' m := by
      intro m hm hmanaged havailable jobId hmade
      have hid : C.store.getServerNode m.id ≠ none := by
        rw [Store.getServerNode, Table.mem_values_iff.mp hm]
        simp
      rcases step_made h hmade with hold | ⟨hfresh, -⟩
      · exact (hinv.nodes m hm hmanaged havailable jobId hold).mono hjobs
      · exact absurd hfresh.serverNode hid
    rcases step_nodes_cases h with hsame | ⟨put, he, hput⟩
    · exact hstored node (hsame ▸ hnode)
    · rw [hput] at hnode
      rcases Table.mem_putValues hnode with rfl | hold
      · have hok : NodeOk managed C node := by
          rcases he with rfl | rfl
          · exact hadmissible
          · exact hadmissible
        intro hmanaged havailable jobId hmade
        rcases step_made h hmade with hmade | ⟨-, -, huuid, -⟩
        · exact (hok hmanaged havailable jobId hmade).mono hjobs
        · subst huuid
          rcases he with he | he <;> cases he
      · exact hstored node hold

/-- An admissible operation keeps to the contract. -/
theorem leaves_step (hinv : SetupInv D managed C) (hadmissible : Admissible D managed i C e)
    (h : D.step i C e r C') : (setupContract D managed).Leaves i C C' where
  inv := setupInv_step hinv hadmissible h
  rely := by
    intro j hj
    refine ⟨keeps_step hinv hadmissible h (.inl hj), fun id hdrew hnone => ?_⟩
    cases hget : C'.store.getSetupJob id with
    | none => rfl
    | some job' =>
      rcases (step_progress hinv hadmissible h).2 id job' hget with hold | ⟨-, hold⟩ | ⟨-, -, hmine⟩
      · simp [hnone] at hold
      · exact absurd hnone hold
      · exact absurd (hinv.draws id j i hdrew hmine) hj

end VpnControl.Backend
