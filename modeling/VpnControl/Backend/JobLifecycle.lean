import VpnControl.Backend.RunTurns
import VpnControl.Backend.ClusterPlayback

namespace VpnControl.Backend
open Strings Json Effects Prog Function

variable {ω : Type} {D : Deployment ω} {managed : Text → Prop}

/-- Processes that have just begun, over a storage without jobs. -/
structure Cluster.Initial (C : Cluster ω) : Prop where
  jobs : ∀ id, C.store.getSetupJob id = none
  history : C.history = []
  secrets : ∀ p id, ¬ C.Holds p id

theorem Cluster.Initial.inv {C : Cluster ω} (h : C.Initial) : SetupInv D managed C := by
  constructor
  · intro id i j hdrew
    simp [History.Drew, h.history] at hdrew
  · rintro id jobId jobId' ⟨later, i, before, hsplit, -⟩
    simp [h.history] at hsplit
  · intro id job hjob
    simp [h.jobs] at hjob
  · exact fun id hid => absurd (h.jobs id) hid
  · intro id hclaims
    simp [History.claims, h.history] at hclaims
  · exact fun p id hholds => absurd hholds (h.secrets p id)
  · rintro i jobId values before ⟨later, expected, job, hsplit⟩
    simp [h.history] at hsplit
  · rintro node - - - jobId ⟨later, i, before, hsplit, -⟩
    simp [h.history] at hsplit

theorem Cluster.Tick.holds {C C' : Cluster ω} (h : C.Tick C') {p : Nat} {id : Text}
    (hholds : C'.Holds p id) : C.Holds p id := by
  obtain ⟨now, hp | hp⟩ := h.process p
  · rwa [Holds, hp] at hholds
  · rw [Holds, hp] at hholds
    exact absurd rfl hholds

/-- The clocks and the agents keep to the contract. -/
theorem Cluster.Tick.keeps {C C' : Cluster ω} (h : C.Tick C') (hinv : SetupInv D managed C) :
    SetupInv D managed C' ∧ ∀ i, (setupContract D managed).rely i C C' := by
  constructor
  · constructor
    · simpa only [h.history] using hinv.draws
    · simpa only [h.history] using hinv.made
    · simpa only [h.history, h.store] using hinv.jobs
    · simpa only [h.history, h.store] using hinv.owners
    · simpa only [h.history, h.store] using hinv.claims
    · intro p id hholds
      rw [h.history]
      exact hinv.secrets p id (h.holds hholds)
    · intro i jobId values before htransition
      rw [h.history] at htransition
      obtain ⟨hstored, howner⟩ := hinv.transitions i jobId values before htransition
      rw [h.store]
      refine ⟨hstored, howner.imp_right fun hhand => ⟨hhand.1, fun hmissed hholds => ?_⟩⟩
      exact hhand.2 hmissed (h.holds hholds)
    · simpa only [NodeOk, h.history, h.store] using hinv.nodes
  · intro i
    refine ⟨⟨⟨?_, ?_, ?_, ?_, ?_, ?_⟩, ?_, ?_⟩, ?_⟩
    · rw [h.history]
    · exact fun id job hjob => ⟨job, by rw [h.store]; exact hjob, .refl _ job⟩
    · intro id job' hnone hjob'
      rw [h.store, hnone] at hjob'
      cases hjob'
    · rw [h.store]
      exact fun _ h => h
    · rw [h.history]
      exact fun _ _ _ h => h
    · exact fun p id _ hholds => h.holds hholds
    · rw [h.history]
    · rw [h.history]
    · rw [h.store]
      exact fun _ _ h => h

section Run
variable {b : Services} {C₀ : Cluster ω} {y y' : Loop (Cluster ω) Op.Res Exc SetupReply SetupCall}

theorem invariant_setup (hC : C₀.Initial)
    (h : Relation.ReflTransGen (Loop.Step D.parallel Cluster.Tick b.setupCall) { shared := C₀ } y) :
    Loop.Invariant D.parallel (setupContract D managed)
      (fun i _ _ => (setupContract D managed).Leaves i) (fun _ => True) y :=
  Loop.invariant_reachable (fun _ _ _ _ _ hleaves => hleaves) (fun _ _ htick hinv => htick.keeps hinv)
    (fun _ call _ hinv => Services.turn_setupCall b call hinv) hC.inv h

/-- No task of the parallel loop ever keeps the turn. -/
theorem active_parallel {Call α : Type} {program : Call → Task α}
    {y : Loop (Cluster ω) Op.Res Exc α Call}
    (h : Relation.ReflTransGen (Loop.Step D.parallel Cluster.Tick program) { shared := C₀ } y) :
    y.active = none := by
  induction h with
  | refl => rfl
  | tail _ hstep ih =>
    cases hstep with
    | start => exact if_pos (Loop.atRest_preemptive _)
    | act => exact if_pos (Loop.atRest_preemptive _)
    | tick => exact ih

theorem setupInv_reachable (hC : C₀.Initial)
    (h : Relation.ReflTransGen (Loop.Step D.parallel Cluster.Tick b.setupCall) { shared := C₀ } y) :
    SetupInv D managed y.shared :=
  ((invariant_setup hC h).inv (active_parallel h)).1

/-- A step of the loop is at most one operation. -/
theorem since_le_one (h : Loop.Step D.parallel Cluster.Tick b.setupCall y y') :
    y.shared.since y'.shared ≤ 1 := by
  cases h with
  | start => simp [Cluster.since, Loop.put]
  | act hi hturn hact =>
    have hhistory := D.step_history hact
    simp [Cluster.since, Loop.put, hhistory]
  | tick hturn htick => simp [Cluster.since, htick.history]

theorem grows_reachable (hC : C₀.Initial)
    (h : Relation.ReflTransGen (Loop.Step D.parallel Cluster.Tick b.setupCall) { shared := C₀ } y)
    (h' : Relation.ReflTransGen (Loop.Step D.parallel Cluster.Tick b.setupCall) y y') :
    Grows y.shared y'.shared :=
  have hy : Loop.Invariant D.parallel (setupContract D fun _ => False)
      (fun i _ _ => (setupContract D fun _ => False).Leaves i) (fun _ => True) y := invariant_setup hC h
  Loop.related_reachable (c := setupContract D fun _ => False) .refl (fun _ _ _ => .trans)
    (fun _ _ _ hrely => hrely.1.toGrows) (fun _ _ _ _ _ hleaves => hleaves)
    (fun _ _ htick hinv => htick.keeps hinv) (fun _ call _ hinv => Services.turn_setupCall b call hinv)
    hy (active_parallel h) h' (active_parallel (h.trans h'))

/-- One step of a run moves a job along one edge of its way, or not at all; a new job is queued. -/
theorem job_step (hC : C₀.Initial)
    (h : Relation.ReflTransGen (Loop.Step D.parallel Cluster.Tick b.setupCall) { shared := C₀ } y)
    (hstep : Loop.Step D.parallel Cluster.Tick b.setupCall y y') :
    (∀ id job, y.shared.store.getSetupJob id = some job →
      ∃ job', y'.shared.store.getSetupJob id = some job' ∧
        (job'.status = job.status ∨ Advances job.installAwg job.status job'.status)) ∧
    ∀ id job', y.shared.store.getSetupJob id = none → y'.shared.store.getSetupJob id = some job' →
      job'.status = .queued := by
  have hgrows := grows_reachable hC h (.single hstep)
  have hsince := since_le_one hstep
  refine ⟨fun id job hjob => ?_, fun id job' hnone hjob' => ?_⟩
  · obtain ⟨job', hjob', hprogress⟩ := hgrows.jobs id job hjob
    have hmoves := hprogress.moves.add (1 - y.shared.since y'.shared)
    rw [Nat.add_sub_cancel' hsince] at hmoves
    exact ⟨job', hjob', hmoves.one⟩
  · obtain ⟨n, hn, hmoves⟩ := hgrows.newJobs id job' hnone hjob'
    obtain rfl : n = 0 := by omega
    exact hmoves.zero

/-- In every run of any number of workers and admins over one storage, in whatever order their
operations interleave: the status of a job moves along its way, edge by edge, and never leaves a
terminal status, a job is claimed at most once, and the fields of a job go together. -/
theorem job_lifecycle (hC : C₀.Initial)
    (h : Relation.ReflTransGen (Loop.Step D.parallel Cluster.Tick b.setupCall) { shared := C₀ } y)
    (h' : Relation.ReflTransGen (Loop.Step D.parallel Cluster.Tick b.setupCall) y y') :
    (∀ z, Loop.Step D.parallel Cluster.Tick b.setupCall y' z →
      (∀ id job, y'.shared.store.getSetupJob id = some job →
        ∃ job', z.shared.store.getSetupJob id = some job' ∧
          (job'.status = job.status ∨ Advances job.installAwg job.status job'.status)) ∧
      ∀ id job', y'.shared.store.getSetupJob id = none → z.shared.store.getSetupJob id = some job' →
        job'.status = .queued) ∧
    (∀ id job, y.shared.store.getSetupJob id = some job →
      ∃ job', y'.shared.store.getSetupJob id = some job' ∧ job'.installAwg = job.installAwg ∧
        Reaches job.installAwg job.status job'.status ∧
        (job.status.isTerminal = true → job'.status = job.status)) ∧
    (∀ id job', y.shared.store.getSetupJob id = none → y'.shared.store.getSetupJob id = some job' →
      Reaches job'.installAwg .queued job'.status) ∧
    (∀ id, y.shared.history.claims id ≤ 1) ∧
    ∀ id job, y.shared.store.getSetupJob id = some job →
      (job.finishedAt ≠ none ↔ job.status.isTerminal = true) ∧
      (y.shared.history.claims id = 1 → job.startedAt ≠ none) ∧
      (job.status = .success → ∃ nodeId, job.serverNodeId = some nodeId ∧
        Verified y.shared.history nodeId) ∧
      (job.status = .failed → job.errorMessage ≠ none) := by
  -- from the invariant of all reachable states and from what grows along a run
  have hinv : SetupInv D (fun _ => False) y.shared := setupInv_reachable hC h
  have hgrows := grows_reachable hC h h'
  refine ⟨fun z hstep => job_step hC (h.trans h') hstep, fun id job hjob => ?_, fun id job' hnone hjob' => ?_,
    fun id => ?_, fun id job hjob => ?_⟩
  · obtain ⟨job', hjob', hprogress⟩ := hgrows.jobs id job hjob
    exact ⟨job', hjob', hprogress.installAwg, hprogress.status, hprogress.status.eq_of_terminal⟩
  · obtain ⟨n, -, hmoves⟩ := hgrows.newJobs id job' hnone hjob'
    exact hmoves.reaches
  · by_cases hclaims : y.shared.history.claims id = 0
    · omega
    · exact (hinv.claims id hclaims).1.le
  · have hsound := hinv.jobs id job hjob
    refine ⟨hsound.finished, fun hclaims => ?_, hsound.success, hsound.failed⟩
    obtain ⟨-, job', hjob', -, hstarted⟩ := hinv.claims id (by omega)
    rw [hjob, Option.some.injEq] at hjob'
    exact hjob' ▸ hstarted

end Run

namespace Sample

theorem initial_cluster (store : Store) (h : ∀ id, store.getSetupJob id = none) :
    (cluster store).Initial := ⟨h, rfl, fun _ _ h => h rfl⟩

def queuedRun : Loop (Cluster Unit) Op.Res Exc SetupReply SetupCall :=
  play (fun _ => 0) creation { shared := cluster {} }

def installedRun : Loop (Cluster Unit) Op.Res Exc SetupReply SetupCall :=
  play (fun _ => 0) installation queuedRun

end Sample

theorem job_lifecycle_installed :
    Sample.queuedRun.shared.store.setupJobs.values.map (·.status) = [.queued] ∧
    Sample.installedRun.shared.store.setupJobs.values.map (·.status) = [.success] ∧
    ∀ id job, Sample.queuedRun.shared.store.getSetupJob id = some job →
      ∃ job', Sample.installedRun.shared.store.getSetupJob id = some job' ∧
        job'.installAwg = job.installAwg ∧ Reaches job.installAwg job.status job'.status ∧
        (job.status.isTerminal = true → job'.status = job.status) :=
  ⟨by decide +kernel, by decide +kernel,
    (job_lifecycle (Sample.initial_cluster {} fun _ => rfl)
      ((Sample.scenario .database).play_parallel _ _ _ _)
      ((Sample.scenario .database).play_parallel _ _ _ _)).2.1⟩

end VpnControl.Backend
