import VpnControl.Backend.SetupSteps

namespace VpnControl.Backend
open Strings Json Effects Prog Function

/-- Operations that every task may perform at any time. -/
def Op.plain : Op → Bool
  | putSecret .. | saveSetupJob _ | transitionSetupJob .. | claimNextSetupJob .. | getSecret _
  | saveServerNode _ | assignNode _ => false
  | _ => true

/-- A task of plain operations. -/
abbrev Plain {α : Type} (p : Task α) : Prop := p.Uses (·.plain = true)

section Plain
variable {α β : Type}

theorem plain_ask {e : Op} (he : e.plain = true) : Plain (ask e) :=
  uses_bind (uses_perform he) fun _ => uses_lift _

theorem plain_bind {p : Task α} {f : α → Task β} (hp : Plain p) (hf : ∀ a, Plain (f a)) :
    Plain (p >>= f) := uses_bind hp hf

theorem plain_ret (a : α) : Plain (ret a : Task α) := trivial

theorem plain_fail (x : Exc) : Plain (fail x : Task α) := trivial

theorem plain_auditLog (r : AuditRecord) : Plain (auditLog r) :=
  plain_bind (plain_ask rfl) fun _ => plain_bind (plain_ask rfl) fun _ => plain_ask rfl

theorem plain_suppressCancelled {p : Task α} (hp : Plain p) : Plain (suppressCancelled p) := by
  apply plain_bind (uses_attempt hp)
  rintro (x | a)
  · cases x <;> trivial
  · trivial

namespace Services

theorem plain_addEvent (job : SetupJob) (level : EventLevel) (step message : Text)
    (metadata : List (Text × Doc)) : Plain (addEvent job level step message metadata) :=
  plain_bind (plain_ask rfl) fun _ => plain_bind (plain_ask rfl) fun _ => plain_ask rfl

theorem plain_getJob (jobId : Text) : Plain (getJob jobId) := by
  apply plain_bind (plain_ask rfl)
  rintro (_ | job)
  · exact plain_fail _
  · exact plain_ret _

theorem plain_getServer (nodeId : Text) : Plain (getServer nodeId) := by
  apply plain_bind (plain_ask rfl)
  rintro (_ | node)
  · exact plain_fail _
  · exact plain_ret _

theorem plain_poll (jobId : Text) (t polls : Nat) : Plain (poll jobId t polls) := by
  induction polls with
  | zero => exact plain_bind (plain_ask rfl) fun _ => plain_ret _
  | succ polls ih =>
    apply plain_bind (plain_ask rfl)
    intro done
    cases done with
    | true => exact plain_bind (plain_ask rfl) fun _ => plain_ret _
    | false =>
      apply plain_bind (plain_getJob jobId)
      intro job
      change Plain (if _ then _ else _)
      split
      · exact plain_bind (plain_ask rfl) fun _ =>
          plain_bind (plain_suppressCancelled (plain_ask rfl)) fun _ => plain_ret _
      · exact ih

theorem plain_stopOperation (t : Nat) (r : Except Exc (Bool × Option ServerNode)) :
    Plain (stopOperation t r) := by
  unfold stopOperation
  split
  · exact plain_bind (plain_ask rfl) fun _ =>
      plain_bind (plain_suppressCancelled (plain_ask rfl)) fun _ => plain_fail _
  · exact uses_lift _

theorem plain_runCancellable (polls : Nat) (jobId : Text) (operation : Operation) :
    Plain (runCancellable polls jobId operation) :=
  plain_bind (plain_ask rfl) fun t =>
    plain_bind (uses_attempt (plain_poll jobId t polls)) fun r => plain_stopOperation t r

theorem plain_forgetEphemeralSshSecret (jobId : Text) : Plain (forgetEphemeralSshSecret jobId) :=
  plain_ask rfl

theorem plain_jobId (job : Option SetupJob) : Plain (Services.jobId job) := by
  cases job <;> trivial

theorem plain_newCredentials (b : Services) (job : SetupJob) : Plain (b.newCredentials job) :=
  plain_bind (plain_ask rfl) fun _ => plain_bind (plain_ask rfl) fun _ => plain_ret _

theorem plain_preflight (polls : Nat) (job : SetupJob) (credentials : AgentCredentials)
    (sshSecret : Text) : Plain (preflight polls job credentials sshSecret) := by
  unfold preflight
  split
  · exact plain_bind (plain_runCancellable _ _ _) fun _ => plain_ret _
  · exact plain_bind (plain_addEvent _ _ _ _ _) fun _ => plain_ret _

end Services
end Plain

variable {ω : Type} {D : Deployment ω} {managed : Text → Prop} {i : Nat} {C₀ C : Cluster ω}
  {α β : Type}

/-- Knowledge of task `i` that lasts whatever the others do. -/
def Lasting (i : Nat) (I : Cluster ω → Prop) : Prop := ∀ C C', Keeps i C C' → I C → I C'

theorem lasting_true : Lasting i fun _ : Cluster ω => True := fun _ _ _ _ => trivial

theorem Lasting.and {I J : Cluster ω → Prop} (hI : Lasting i I) (hJ : Lasting i J) :
    Lasting i fun C => I C ∧ J C := fun C C' h hC => ⟨hI C C' h hC.1, hJ C C' h hC.2⟩

/-- The task kept to the contract, and still knows `I`. -/
def Kept (D : Deployment ω) (managed : Text → Prop) (i : Nat) (I : Cluster ω → Prop)
    (C₀ C : Cluster ω) : Prop := (setupContract D managed).Leaves i C₀ C ∧ I C

theorem turn_ask_parallel {c : Contract (Cluster ω)} {e : Op}
    {Q : TurnPost (Cluster ω) Exc e.Ans} :
    turn D.parallel c i (ask e) Q C₀ C ↔ c.Leaves i C₀ C ∧ ∀ C₁, c.inv C₁ → c.rely i C C₁ →
      ∀ r C₂, D.step i C₁ e r C₂ → Q r C₁ C₂ := by
  have hask : (ask e : Task e.Ans) = .op e fun r => lift r := by
    rw [ask]
    rfl
  rw [hask, turn_op_wait rfl]
  simp only [turn_lift]
  rfl

section Rules
variable {I : Cluster ω → Prop}

/-- One admissible operation. -/
theorem turn_ask_admissible (hI : Lasting i I) {e : Op}
    (hadmissible : ∀ C, SetupInv D managed C → I C → Admissible D managed i C e)
    {Q : TurnPost (Cluster ω) Exc e.Ans}
    (hQ : ∀ C₁ r C₂, SetupInv D managed C₁ → I C₁ → D.step i C₁ e r C₂ →
      (setupContract D managed).Leaves i C₁ C₂ → (e.quiet = true → I C₂) → Q r C₁ C₂)
    (hC : Kept D managed i I C₀ C) : turn D.parallel (setupContract D managed) i (ask e) Q C₀ C := by
  rw [turn_ask_parallel]
  refine ⟨hC.1, fun C₁ hinv hrely r C₂ hstep => ?_⟩
  have hI₁ := hI C C₁ hrely.1 hC.2
  have hadm := hadmissible C₁ hinv hI₁
  refine hQ C₁ r C₂ hinv hI₁ hstep (leaves_step hinv hadm hstep) fun hquiet => ?_
  exact hI C₁ C₂ (keeps_step hinv hadm hstep (.inr hquiet)) hI₁

/-- A task of plain operations. -/
theorem turn_plain (hI : Lasting i I) {p : Task α} (hp : Plain p) (hC : Kept D managed i I C₀ C) :
    turn D.parallel (setupContract D managed) i p (fun _ => Kept D managed i I) C₀ C := by
  apply turn_preemptive (P := fun e : Op => e.plain = true) (I := I)
  · exact fun C C' hC hrely => hI C C' hrely.1 hC
  · intro C e r C' he hinv hC hstep
    have hadm : Admissible D managed i C e := by
      cases e <;> trivial
    have hquiet : e.quiet = true := by
      cases e <;> first | rfl | cases he
    exact ⟨leaves_step hinv hadm hstep, hI C C' (keeps_step hinv hadm hstep (.inr hquiet)) hC⟩
  · exact hp
  · exact hC.1
  · exact hC.2

theorem turn_plain_seq (hI : Lasting i I) {p : Task α} (hp : Plain p) {f : α → Task β}
    {Q : TurnPost (Cluster ω) Exc β} (hC : Kept D managed i I C₀ C)
    (hok : ∀ a C₀ C, Kept D managed i I C₀ C →
      turn D.parallel (setupContract D managed) i (f a) Q C₀ C)
    (herr : ∀ x C₀ C, Kept D managed i I C₀ C → Q (.error x) C₀ C) :
    turn D.parallel (setupContract D managed) i (p >>= f) Q C₀ C :=
  turn_seq (turn_plain hI hp hC) hok herr

end Rules

end VpnControl.Backend
