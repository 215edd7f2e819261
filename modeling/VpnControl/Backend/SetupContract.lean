import VpnControl.Backend.Cluster

namespace VpnControl.Backend
open Strings Json Effects Prog Function

/-- How the status of a job moves. -/
inductive Advances (installAwg : Bool) : SetupJobStatus → SetupJobStatus → Prop
  | claim : Advances installAwg .queued .checkingSsh
  | installAgent : Advances installAwg .checkingSsh .installingAgent
  | installVpn (h : installAwg = true) : Advances installAwg .installingAgent .installingVpn
  | verify : Advances installAwg .installingVpn .verifying
  | skipVpn (h : installAwg = false) : Advances installAwg .installingAgent .verifying
  | succeed : Advances installAwg .verifying .success
  | fail {status : SetupJobStatus} (h : status.isTerminal = false) : Advances installAwg status .failed
  | cancel {status : SetupJobStatus} (h : status.isTerminal = false) :
    Advances installAwg status .cancelled

abbrev Reaches (installAwg : Bool) : SetupJobStatus → SetupJobStatus → Prop :=
  Relation.ReflTransGen (Advances installAwg)

theorem Reaches.eq_of_terminal {installAwg : Bool} {status status' : SetupJobStatus}
    (h : Reaches installAwg status status') (hterminal : status.isTerminal = true) :
    status' = status := by
  rcases Relation.ReflTransGen.cases_head h with rfl | ⟨_, hfirst, -⟩
  · rfl
  · cases hfirst <;> simp_all [SetupJobStatus.isTerminal]

theorem Reaches.ne_queued {installAwg : Bool} {status status' : SetupJobStatus}
    (h : Reaches installAwg status status') (hstatus : status ≠ .queued) : status' ≠ .queued := by
  rcases Relation.ReflTransGen.cases_tail h with rfl | ⟨_, -, hlast⟩
  · exact hstatus
  · cases hlast <;> simp

/-- The way from one status to another in at most so many moves. -/
inductive ReachesIn (installAwg : Bool) : Nat → SetupJobStatus → SetupJobStatus → Prop
  | stay (n : Nat) (status : SetupJobStatus) : ReachesIn installAwg n status status
  | move {n : Nat} {status status' status'' : SetupJobStatus} (h : ReachesIn installAwg n status status')
    (hmove : Advances installAwg status' status'') : ReachesIn installAwg (n + 1) status status''

section ReachesIn
variable {installAwg : Bool} {n m : Nat} {status status' status'' : SetupJobStatus}

theorem ReachesIn.reaches (h : ReachesIn installAwg n status status') : Reaches installAwg status status' := by
  induction h with
  | stay => exact .refl
  | move _ hmove ih => exact ih.tail hmove

theorem reachesIn_one (h : Advances installAwg status status') : ReachesIn installAwg 1 status status' :=
  .move (.stay 0 status) h

theorem ReachesIn.one (h : ReachesIn installAwg 1 status status') :
    status' = status ∨ Advances installAwg status status' := by
  cases h with
  | stay => exact .inl rfl
  | move h hmove =>
    cases h
    exact .inr hmove

theorem ReachesIn.zero (h : ReachesIn installAwg 0 status status') : status' = status := by
  cases h
  rfl

theorem ReachesIn.add (h : ReachesIn installAwg n status status') (m : Nat) :
    ReachesIn installAwg (n + m) status status' := by
  induction h with
  | stay n status => exact .stay _ status
  | move _ hmove ih =>
    rw [Nat.add_right_comm]
    exact .move ih hmove

theorem ReachesIn.trans (h : ReachesIn installAwg n status status')
    (h' : ReachesIn installAwg m status' status'') : ReachesIn installAwg (n + m) status status'' := by
  induction h' with
  | stay m status' => exact h.add m
  | move _ hmove ih => exact .move (ih h) hmove

end ReachesIn

/-- What can become of a job in `n` operations. -/
structure Progress (n : Nat) (job job' : SetupJob) : Prop where
  moves : ReachesIn job.installAwg n job.status job'.status
  installAwg : job'.installAwg = job.installAwg
  available : job'.availableForNewDevices = job.availableForNewDevices
  started : job.startedAt ≠ none → job'.startedAt ≠ none

theorem Progress.status {n : Nat} {job job' : SetupJob} (h : Progress n job job') :
    Reaches job.installAwg job.status job'.status := h.moves.reaches

theorem Progress.refl (n : Nat) (job : SetupJob) : Progress n job job := ⟨.stay n _, rfl, rfl, id⟩

theorem Progress.trans {n m : Nat} {job job' job'' : SetupJob} (h : Progress n job job')
    (h' : Progress m job' job'') : Progress (n + m) job job'' where
  moves := h.moves.trans (h.installAwg ▸ h'.moves)
  installAwg := h'.installAwg.trans h.installAwg
  available := h'.available.trans h.available
  started := fun hs => h'.started (h.started hs)

/-- A worker checked the node and got it back as online or with a warning. -/
def Verified (h : History) (nodeId : Text) : Prop :=
  ∃ i t checked, (i, ⟨.ensureFuture (.healthCheck nodeId), .ok t⟩) ∈ h ∧
    (i, ⟨.result t, .ok (some checked)⟩) ∈ h ∧ checked.selectable = true

/-- The fields of a job go together. -/
structure JobSound (h : History) (job : SetupJob) : Prop where
  finished : job.finishedAt ≠ none ↔ job.status.isTerminal = true
  success : job.status = .success → ∃ nodeId, job.serverNodeId = some nodeId ∧ Verified h nodeId
  failed : job.status = .failed → job.errorMessage ≠ none
  secretEncrypted : job.secretEncrypted = none

theorem Verified.mono {h h' : History} {nodeId : Text} (hv : Verified h nodeId) (hsub : h ⊆ h') :
    Verified h' nodeId := by
  obtain ⟨i, t, checked, hcreated, hresult, hselectable⟩ := hv
  exact ⟨i, t, checked, hsub hcreated, hsub hresult, hselectable⟩

theorem JobSound.mono {h h' : History} {job : SetupJob} (hs : JobSound h job) (hsub : h ⊆ h') :
    JobSound h' job where
  finished := hs.finished
  success := fun hstatus => by
    obtain ⟨nodeId, hnode, hv⟩ := hs.success hstatus
    exact ⟨nodeId, hnode, hv.mono hsub⟩
  failed := hs.failed
  secretEncrypted := hs.secretEncrypted

/-- A job that was just created. -/
structure NewJob (job : SetupJob) : Prop where
  status : job.status = .queued
  finished : job.finishedAt = none
  secretEncrypted : job.secretEncrypted = none

/-- The job was successful, and its node is meant for new devices. -/
def Opened (s : Store) (jobId : Text) : Prop :=
  ∃ job, s.getSetupJob jobId = some job ∧ job.status = .success ∧ job.availableForNewDevices = true

/-- Task `i` changed the status of the job, `before` being what had happened until then. -/
def History.Transition (h : History) (i : Nat) (jobId : Text) (values : List JobValue)
    (before : History) : Prop :=
  ∃ later expected job,
    h = later ++ (i, ⟨.transitionSetupJob jobId expected values, .ok (some job)⟩) :: before

variable {ω : Type}

/-- What an available node that a worker made tells of the job it was made for; `managed` are the
nodes whose availability no admin changes. -/
def NodeOk (managed : Text → Prop) (C : Cluster ω) (node : ServerNode) : Prop :=
  managed node.id → node.isAvailableForNewDevices = some true →
    ∀ jobId, C.history.MadeFor node.id jobId → Opened C.store jobId

/-- What holds between any two operations. -/
structure SetupInv (D : Deployment ω) (managed : Text → Prop) (C : Cluster ω) : Prop where
  draws : ∀ id i j, C.history.Drew i id → C.history.Drew j id → i = j
  made : ∀ id jobId jobId', C.history.MadeFor id jobId → C.history.MadeFor id jobId' → jobId = jobId'
  jobs : ∀ id job, C.store.getSetupJob id = some job → JobSound C.history job
  owners : ∀ id, C.store.getSetupJob id ≠ none → ∃ i, C.history.Drew i id
  claims : ∀ id, C.history.claims id ≠ 0 → C.history.claims id = 1 ∧
    ∃ job, C.store.getSetupJob id = some job ∧ job.status ≠ .queued ∧ job.startedAt ≠ none
  secrets : ∀ p id, C.Holds p id → ∃ i, D.processOf i = p ∧ C.history.Drew i id
  transitions : ∀ i jobId values before, C.history.Transition i jobId values before →
    C.store.getSetupJob jobId ≠ none ∧ ((∃ now, values = Services.cancelValues now) ∨
      before.inHand i = some jobId ∧ (before.missed i → ¬ C.Holds (D.processOf i) jobId))
  nodes : ∀ node ∈ C.store.serverNodes.values, NodeOk managed C node

/-- The number of operations between two states. -/
def Cluster.since (C C' : Cluster ω) : Nat := C'.history.length - C.history.length

/-- What lasts in every run; no operation moves a job by more than one step. -/
structure Grows (C C' : Cluster ω) : Prop where
  history : C.history <:+ C'.history
  jobs : ∀ id job, C.store.getSetupJob id = some job →
    ∃ job', C'.store.getSetupJob id = some job' ∧ Progress (C.since C') job job'
  newJobs : ∀ id job', C.store.getSetupJob id = none → C'.store.getSetupJob id = some job' →
    ∃ n < C.since C', ReachesIn job'.installAwg n .queued job'.status
  nodes : ∀ id, C.store.getServerNode id ≠ none → C'.store.getServerNode id ≠ none
  made : ∀ id jobId, C.store.getServerNode id ≠ none → C'.history.MadeFor id jobId →
    C.history.MadeFor id jobId
  secrets : ∀ p id, C.store.getSetupJob id ≠ none → C'.Holds p id → C.Holds p id

/-- What task `i` can build on, whatever the others do. -/
structure Keeps (i : Nat) (C C' : Cluster ω) : Prop extends Grows C C' where
  inHand : C'.history.inHand i = C.history.inHand i
  missed : C'.history.missed i ↔ C.history.missed i

theorem Grows.refl (C : Cluster ω) : Grows C C where
  history := List.suffix_refl _
  jobs := fun _ job h => ⟨job, h, .refl _ job⟩
  newJobs := fun _ _ h h' => by simp [h] at h'
  nodes := fun _ h => h
  made := fun _ _ _ h => h
  secrets := fun _ _ _ h => h

theorem Grows.stored {C C' : Cluster ω} (h : Grows C C') {id : Text}
    (hid : C.store.getSetupJob id ≠ none) : C'.store.getSetupJob id ≠ none := by
  obtain ⟨job, hjob⟩ := Option.ne_none_iff_exists'.mp hid
  obtain ⟨job', hjob', -⟩ := h.jobs id job hjob
  simp [hjob']

theorem since_add {C C' C'' : Cluster ω} (h : C.history <:+ C'.history)
    (h' : C'.history <:+ C''.history) : C.since C' + C'.since C'' = C.since C'' := by
  have hlength := h.length_le
  have hlength' := h'.length_le
  unfold Cluster.since
  omega

theorem Grows.trans {C C' C'' : Cluster ω} (h : Grows C C') (h' : Grows C' C'') : Grows C C'' where
  history := h.history.trans h'.history
  jobs := fun id job hjob => by
    obtain ⟨job', hjob', hprogress⟩ := h.jobs id job hjob
    obtain ⟨job'', hjob'', hprogress'⟩ := h'.jobs id job' hjob'
    refine ⟨job'', hjob'', ?_⟩
    rw [← since_add h.history h'.history]
    exact hprogress.trans hprogress'
  newJobs := fun id job'' hnone hjob'' => by
    rw [← since_add h.history h'.history]
    cases hjob' : C'.store.getSetupJob id with
    | none =>
      obtain ⟨n, hn, hmoves⟩ := h'.newJobs id job'' hjob' hjob''
      exact ⟨n, by omega, hmoves⟩
    | some job' =>
      obtain ⟨_, hsome, hprogress⟩ := h'.jobs id job' hjob'
      rw [hjob'', Option.some.injEq] at hsome
      subst hsome
      obtain ⟨n, hn, hmoves⟩ := h.newJobs id job' hnone hjob'
      refine ⟨n + C'.since C'', by omega, ?_⟩
      rw [hprogress.installAwg]
      exact hmoves.trans hprogress.moves
  nodes := fun id hid => h'.nodes id (h.nodes id hid)
  made := fun id jobId hid hmade => h.made id jobId hid (h'.made id jobId (h.nodes id hid) hmade)
  secrets := fun p id hid hholds => h.secrets p id hid (h'.secrets p id (h.stored hid) hholds)

theorem Keeps.refl (i : Nat) (C : Cluster ω) : Keeps i C C := ⟨.refl C, rfl, Iff.rfl⟩

theorem Keeps.trans {i : Nat} {C C' C'' : Cluster ω} (h : Keeps i C C') (h' : Keeps i C' C'') :
    Keeps i C C'' :=
  ⟨h.toGrows.trans h'.toGrows, h'.inHand.trans h.inHand, h'.missed.trans h.missed⟩

/-- Between any two operations everything stands well, jobs only make progress, and only the
task that drew an id stores a job under it. -/
def setupContract (D : Deployment ω) (managed : Text → Prop) : Contract (Cluster ω) where
  inv := SetupInv D managed
  rely i C C' := Keeps i C C' ∧ ∀ id, C.history.Drew i id → C.store.getSetupJob id = none →
    C'.store.getSetupJob id = none
  refl i C := ⟨.refl i C, fun _ _ h => h⟩
  trans i C C' C'' h h' := by
    refine ⟨h.1.trans h'.1, fun id hdrew hnone => ?_⟩
    exact h'.2 id (h.1.history.subset hdrew) (h.2 id hdrew hnone)

/-- A change of a job's status that a task may ask for. -/
structure Legal (D : Deployment ω) (i : Nat) (C : Cluster ω) (jobId : Text)
    (expected : List SetupJobStatus) (values : List JobValue) : Prop where
  owner : (∃ now, values = Services.cancelValues now) ∨
    C.history.inHand i = some jobId ∧ (C.history.missed i → ¬ C.Holds (D.processOf i) jobId)
  advance : ∀ job, C.store.getSetupJob jobId = some job → job.status ∈ expected →
    JobSound C.history job → Progress 1 job (values.foldl SetupJob.set job) ∧
      JobSound C.history (values.foldl SetupJob.set job)

/-- The operations that keep to the contract. -/
def Admissible (D : Deployment ω) (managed : Text → Prop) (i : Nat) (C : Cluster ω) : Op → Prop
  | .putSecret jobId _ => C.history.Drew i jobId ∧ C.store.getSetupJob jobId = none
  | .saveSetupJob job =>
    C.history.Drew i job.id ∧ C.store.getSetupJob job.id = none ∧ NewJob job
  | .transitionSetupJob jobId expected values => Legal D i C jobId expected values
  | .saveServerNode node | .assignNode node => NodeOk managed C node
  | _ => True

/-- Operations that a worker's knowledge of its own doings does not depend on. -/
def Op.quiet : Op → Bool
  | claimNextSetupJob .. | getSecret _ => false
  | _ => true

end VpnControl.Backend
