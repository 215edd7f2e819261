import VpnControl.Backend.SetupWorker
import VpnControl.Backend.Frames

namespace VpnControl.Backend
open Strings Json Effects Prog Function

/-- The operations performed so far with their answers, each by which task, newest first. -/
abbrev History := List (Nat × Sigma Op.Res)

namespace History

/-- The job that a claim returned. -/
def claimedJob : Sigma Op.Res → Option Text
  | ⟨.claimNextSetupJob _ _, .ok (some job)⟩ => some job.id
  | _ => none

/-- Whether a look at the SSH secrets found one. -/
def lookup : Sigma Op.Res → Option Bool
  | ⟨.getSecret _, .ok secret⟩ => some secret.isSome
  | _ => none

/-- The last thing that task `i` did as far as `f` sees it. -/
def last {α : Type} (f : Sigma Op.Res → Option α) (i : Nat) (h : History) : Option α :=
  h.findSome? fun (j, x) => if j = i then f x else none

/-- The job that task `i` claimed last. -/
def inHand (h : History) (i : Nat) : Option Text := h.last claimedJob i

/-- The last secret that task `i` looked for was not there. -/
def missed (h : History) (i : Nat) : Prop := h.last lookup i = some false

/-- Task `i` drew the id. -/
def Drew (h : History) (i : Nat) (id : Text) : Prop := (i, ⟨.uuid, .ok id⟩) ∈ h

/-- The id was drawn by a worker while it had the job in hand. -/
def MadeFor (h : History) (id jobId : Text) : Prop :=
  ∃ later i before, h = later ++ (i, ⟨.uuid, .ok id⟩) :: before ∧ inHand before i = some jobId

/-- How often the job was claimed. -/
def claims (h : History) (jobId : Text) : Nat := h.countP fun (_, x) => claimedJob x = some jobId

end History

/-- Backend processes that share a storage: what each has for itself, its clock, lock, secrets
and tasks, stands in its own world; the storage and the agents are the shared ones. -/
structure Cluster (ω : Type) where
  store : Store := {}
  agents : ω
  process : Nat → World ω
  history : History := []

/-- What the processes run on, and which process a task belongs to. -/
structure Deployment (ω : Type) where
  platform : Platform ω
  processOf : Nat → Nat

variable {ω : Type}

namespace Cluster

/-- The world as process `p` sees it. -/
def world (C : Cluster ω) (p : Nat) : World ω :=
  { C.process p with store := C.store, agents := C.agents }

/-- The cluster after an operation of task `i` by which process `p` has come to the world `w`. -/
def after (C : Cluster ω) (p i : Nat) (x : Sigma Op.Res) (w : World ω) : Cluster ω where
  store := w.store
  agents := w.agents
  process := update C.process p w
  history := (i, x) :: C.history

/-- Process `p` holds the SSH secret of the job. -/
def Holds (C : Cluster ω) (p : Nat) (jobId : Text) : Prop :=
  (C.process p).ephemeralSshSecrets.get jobId ≠ none

/-- The clocks go on, the agents do as they like, and a process may die, with all it has in
memory, and begin anew. -/
structure Tick (C C' : Cluster ω) : Prop where
  store : C'.store = C.store
  history : C'.history = C.history
  process : ∀ p, ∃ now, C'.process p = { C.process p with now } ∨
    C'.process p = { agents := (C.process p).agents, now }

end Cluster

namespace Deployment
variable (D : Deployment ω)

/-- What an operation of task `i` does in the world of its process. A claim may pass over jobs
that another process has locked, and no id is drawn twice. -/
def act (i : Nat) (h : History) (w : World ω) : (e : Op) → e.Res → World ω → Prop
  | .claimNextSetupJob _ _, .ok none, w' => w' = w
  | .claimNextSetupJob at' currentStep, .ok (some job), w' =>
    (∃ queued ∈ w.store.queuedSetupJobs, job = Store.claim queued at' currentStep) ∧
      w' = { w with store := w.store.saveSetupJob job }
  | .uuid, .ok id, w' => D.platform.env i w .uuid (.ok id) w' ∧ ∀ j, ¬ h.Drew j id
  | e, r, w' => D.platform.env i w e r w'

def step (i : Nat) : Env (Cluster ω) Op Op.Res := fun C e r C' =>
  ∃ w, D.act i C.history (C.world (D.processOf i)) e r w ∧
    C' = C.after (D.processOf i) i ⟨e, r⟩ w

/-- The tasks of all processes; those of one process take turns. -/
def kernel : Kernel (Cluster ω) Op Op.Res := ⟨Op.suspends, D.step⟩

/-- The same tasks where each operation gives up the turn: every interleaving of processes and
of tasks is one of these. -/
abbrev parallel : Kernel (Cluster ω) Op Op.Res := D.kernel.preemptive

end Deployment

section Step
variable {D : Deployment ω} {i : Nat} {C C' : Cluster ω} {e : Op} {r : e.Res}

theorem History.last_cons {α : Type} (f : Sigma Op.Res → Option α) (i j : Nat) (x : Sigma Op.Res)
    (h : History) :
    History.last f i ((j, x) :: h) = ((if j = i then f x else none).or (History.last f i h)) := by
  rw [last, List.findSome?_cons]
  cases hx : (if j = i then f x else none) with
  | none =>
    simp only [hx, Option.none_or]
    rfl
  | some a => simp only [hx, Option.some_or]

theorem History.last_other {α : Type} {f : Sigma Op.Res → Option α} {i j : Nat}
    {x : Sigma Op.Res} {h : History} (hij : j ≠ i ∨ f x = none) :
    History.last f i ((j, x) :: h) = History.last f i h := by
  rw [last_cons]
  rcases hij with hij | hx
  · rw [if_neg hij, Option.none_or]
  · rw [hx, ite_self, Option.none_or]

theorem History.MadeFor.cons {h : History} {id jobId : Text} (x : Nat × Sigma Op.Res)
    (hmade : h.MadeFor id jobId) : History.MadeFor (x :: h) id jobId := by
  obtain ⟨later, i, before, rfl, hhand⟩ := hmade
  exact ⟨x :: later, i, before, rfl, hhand⟩

/-- Whatever an operation does apart from a claim, it does as on the platform. -/
theorem Deployment.env_of_act {h : History} {w w' : World ω} (hact : D.act i h w e r w')
    (hclaim : ∀ at' step, e ≠ .claimNextSetupJob at' step) : D.platform.env i w e r w' := by
  cases e with
  | claimNextSetupJob at' step => exact absurd rfl (hclaim at' step)
  | uuid =>
    cases r with
    | ok id => exact hact.1
    | error x => exact hact
  | _ => exact hact

theorem Deployment.step_history (h : D.step i C e r C') : C'.history = (i, ⟨e, r⟩) :: C.history := by
  obtain ⟨w, -, rfl⟩ := h
  rfl

/-- The worlds of the other processes stay as they are. -/
theorem Deployment.step_process (h : D.step i C e r C') {p : Nat} (hp : p ≠ D.processOf i) :
    C'.process p = C.process p := by
  obtain ⟨w, -, rfl⟩ := h
  exact update_of_ne hp _ _

/-- A part that an operation does not write is the same afterwards. -/
theorem Deployment.step_same (h : D.step i C e r C') {part : Part} (hpart : e.writes ≠ some part) :
    part.Same (C.world (D.processOf i)) (C'.world (D.processOf i)) := by
  obtain ⟨w, hact, rfl⟩ := h
  have hworld : (C.after (D.processOf i) i ⟨e, r⟩ w).world (D.processOf i) = w := by
    simp only [Cluster.world, Cluster.after, update_self]
  rw [hworld]
  by_cases hclaim : ∃ at' step, e = .claimNextSetupJob at' step
  · obtain ⟨at', step, rfl⟩ := hclaim
    cases r with
    | error x =>
      have hfailure : D.platform.failure _ (.claimNextSetupJob at' step) x w := hact
      exact (failure_frame hfailure).2 part hpart
    | ok next =>
      cases next with
      | none =>
        obtain rfl : w = _ := hact
        exact .refl _ part
      | some job =>
        obtain ⟨-, rfl⟩ := hact
        (cases part <;> first | rfl | exact absurd rfl hpart)
  · have henv := env_of_act hact fun at' step he => hclaim ⟨at', step, he⟩
    cases r with
    | ok a => exact (effect_frame henv).2 part hpart
    | error x => exact (failure_frame henv).2 part hpart

theorem Deployment.step_jobs (h : D.step i C e r C') (he : e.writes ≠ some .jobs) :
    C'.store.setupJobs = C.store.setupJobs := step_same h he

theorem Deployment.step_nodes (h : D.step i C e r C') (he : e.writes ≠ some .nodes) :
    C'.store.serverNodes = C.store.serverNodes := step_same h he

/-- Only an operation on the secrets changes who holds one. -/
theorem Deployment.step_holds (h : D.step i C e r C') (he : e.writes ≠ some .secrets) (p : Nat)
    (jobId : Text) : C'.Holds p jobId ↔ C.Holds p jobId := by
  by_cases hp : p = D.processOf i
  · subst hp
    have hsame : (C'.process _).ephemeralSshSecrets = (C.process _).ephemeralSshSecrets :=
      step_same h he
    rw [Cluster.Holds, Cluster.Holds, hsame]
  · rw [Cluster.Holds, Cluster.Holds, step_process h hp]

end Step
end VpnControl.Backend
