import VpnControl.Backend.ConfinedSecrets
import VpnControl.Lib.TwoRuns

namespace VpnControl.Backend
open Strings Json Effects Prog

/-- The operation without the SSH secret that a runner gets. -/
def Operation.redacted : Operation → Operation
  | .runner phase job credentials _ => .runner phase job credentials []
  | .healthCheck nodeId => .healthCheck nodeId

def AsyncTask.redacted (task : AsyncTask) : AsyncTask :=
  { task with operation := task.operation.redacted }

/-- The same call, apart from the secret of a new job. -/
inductive SetupCall.Alike : SetupCall → SetupCall → Prop
  | same (call : SetupCall) : Alike call call
  | create (actor : User) (form : SetupJobCreate) (secret : Text) (h : strip form.secret ≠ [])
      (h' : strip secret ≠ []) :
    Alike (.create actor form) (.create actor { form with secret })

/-- Operations that have nothing to do with SSH secrets. -/
def Op.secretFree : Op → Bool
  | getSecret _ | putSecret .. | runnerStep .. | ensureFuture _ | begin _ => false
  | _ => true

/-- Operations of two runs that differ in SSH secrets only, and which answers to them go
together. -/
inductive OpAlike : OpRel Op Op.Res
  | same {e : Op} (h : e.secretFree = true) : OpAlike e e Eq
  | getSecret (jobId : Text) : OpAlike (.getSecret jobId) (.getSecret jobId)
      fun r r' => r.map Option.isSome = r'.map Option.isSome
  | putSecret (jobId secret secret' : Text) :
    OpAlike (.putSecret jobId secret) (.putSecret jobId secret') fun r r' => r = r'
  | runnerStep (phase : SetupPhase) (job : SetupJob) (credentials : AgentCredentials)
      (sshSecret sshSecret' : Text) :
    OpAlike (.runnerStep phase job credentials sshSecret)
      (.runnerStep phase job credentials sshSecret') fun r r' => r = r'
  | ensureFuture {operation operation' : Operation} (h : operation.redacted = operation'.redacted) :
    OpAlike (.ensureFuture operation) (.ensureFuture operation') fun r r' => r = r'
  | begin (t : Nat) : OpAlike (.begin t) (.begin t)
      fun r r' => r.map Operation.redacted = r'.map Operation.redacted

/-- What the outside has to do with a step: the clock and the agents after it, what an operation
raised or the agents answered, and what was drawn at random or picked among equals. -/
structure Outside (ω : Type) where
  now : Time
  agents : ω
  raised : Option Exc := none
  response : Option AgentResponse := none
  drawn : Option Text := none

namespace Op

def drawn : (e : Op) → e.Ans → Option Text
  | uuid, r | utcNow, r | encrypt _, r | generateAgentKeyId, r | generateAgentSecret, r
  | hashPassword _, r | generateSessionToken, r => some r
  | claimNextSetupJob .., r => r.map (·.id)
  | _, _ => none

def response : (e : Op) → e.Ans → Option AgentResponse
  | request _, r => some r
  | _, _ => none

/-- Operations of which the state says whether they raise. -/
def settled : Op → Bool
  | decrypt _ | result _ => true
  | _ => false

end Op

variable {ω : Type}

def seen : Option (Sigma Op.Res) → World ω → Outside ω
  | none, w => { now := w.now, agents := w.agents }
  | some ⟨e, .ok r⟩, w =>
    { now := w.now, agents := w.agents, response := e.response r, drawn := e.drawn r }
  | some ⟨e, .error x⟩, w =>
    { now := w.now, agents := w.agents, raised := if e.settled then none else some x }

/-- Two worlds that differ in SSH secrets only. -/
structure Indistinct (w w' : World ω) : Prop where
  store : w.store = w'.store
  now : w.now = w'.now
  lock : w.lock = w'.lock
  agents : w.agents = w'.agents
  held : ∀ id, (w.ephemeralSshSecrets.get id).isSome = (w'.ephemeralSshSecrets.get id).isSome
  tasks : w.tasks.map AsyncTask.redacted = w'.tasks.map AsyncTask.redacted

section Step
variable {P : Platform ω} {i : Nat} {w w' v v' : World ω} {e : Op}

theorem Indistinct.refl (w : World ω) : Indistinct w w :=
  ⟨rfl, rfl, rfl, rfl, fun _ => rfl, rfl⟩

/-- The same change of everything but secrets and tasks. -/
theorem Indistinct.same (h : Indistinct w w') (store : Store) (now : Time) (lock : Option Nat)
    (agents : ω) : Indistinct { w with store, now, lock, agents } { w' with store, now, lock, agents } :=
  ⟨rfl, rfl, rfl, rfl, h.held, h.tasks⟩

theorem Indistinct.symm (h : Indistinct w w') : Indistinct w' w :=
  ⟨h.store.symm, h.now.symm, h.lock.symm, h.agents.symm, fun id => (h.held id).symm, h.tasks.symm⟩

theorem Indistinct.eq (h : Indistinct w w') : ∃ secrets tasks,
    w' = { w with ephemeralSshSecrets := secrets, tasks } := by
  obtain ⟨store, now, lock, secrets, tasks, agents⟩ := w
  obtain ⟨store', now', lock', secrets', tasks', agents'⟩ := w'
  obtain ⟨rfl, rfl, rfl, rfl, -, -⟩ := h
  exact ⟨secrets', tasks', rfl⟩

theorem Indistinct.task (h : Indistinct w w') {t : Nat} {task : AsyncTask}
    (ht : w.tasks[t]? = some task) :
    ∃ task', w'.tasks[t]? = some task' ∧ task'.redacted = task.redacted := by
  have hget := congrArg (·[t]?) h.tasks
  simp only [List.getElem?_map, ht, Option.map_some] at hget
  obtain ⟨task', ht', heq⟩ := Option.map_eq_some_iff.mp hget.symm
  exact ⟨task', ht', heq⟩

/-- Both tasks have ended in the same way, or neither has ended. -/
theorem Indistinct.outcome (h : Indistinct w w') {t : Nat} {task task' : AsyncTask}
    (ht : w.tasks[t]? = some task) (ht' : w'.tasks[t]? = some task') :
    task.outcome = task'.outcome := by
  obtain ⟨_, hsome, heq⟩ := h.task ht
  rw [ht', Option.some.injEq] at hsome
  subst hsome
  exact (congrArg AsyncTask.outcome heq).symm

/-- A change of one task that does not touch its operation. -/
theorem Indistinct.setTask (h : Indistinct w w') (t : Nat) {f : AsyncTask → AsyncTask}
    (hf : ∀ task, (f task).redacted = f task.redacted) :
    Indistinct { w with tasks := setTask w.tasks t f } { w' with tasks := setTask w'.tasks t f } where
  store := h.store
  now := h.now
  lock := h.lock
  agents := h.agents
  held := h.held
  tasks := by
    have hmap : ∀ tasks : List AsyncTask, (Backend.setTask tasks t f).map AsyncTask.redacted =
        Backend.setTask (tasks.map AsyncTask.redacted) t f := by
      intro tasks
      apply List.ext_getElem?
      intro n
      rw [Backend.setTask, Backend.setTask, List.getElem?_map, List.getElem?_modify,
        List.getElem?_modify, List.getElem?_map]
      cases tasks[n]? with
      | none => rfl
      | some task =>
        by_cases hn : t = n
        · simp [hn, hf]
        · simp [hn]
    simp only [hmap, h.tasks]

/-- What an operation raises in two runs that differ in secrets only. -/
theorem Indistinct.failure (h : Indistinct w w') (he : e.secretFree = true) {x x' : Exc}
    (hx : P.failure w e x v) (hx' : P.failure w' e x' v')
    (hseen : seen (some ⟨e, .error x⟩) v = seen (some ⟨e, .error x'⟩) v') :
    x = x' ∧ Indistinct v v' := by
  have hraised : e.settled = false → x = x' := by
    intro hsettled
    simpa [seen, hsettled] using congrArg Outside.raised hseen
  have hagents : v.agents = v'.agents := congrArg Outside.agents hseen
  cases e with
  | getSecret | putSecret | runnerStep | ensureFuture | begin => cases he
  | request =>
    obtain ⟨agents, -, rfl⟩ := hx
    obtain ⟨agents', -, rfl⟩ := hx'
    obtain rfl : agents = agents' := hagents
    exact ⟨hraised rfl, ⟨h.store, h.now, h.lock, rfl, h.held, h.tasks⟩⟩
  | join =>
    obtain ⟨rfl, -⟩ := hx
    obtain ⟨rfl, -⟩ := hx'
    exact ⟨hraised rfl, h⟩
  | result =>
    obtain ⟨rfl, task, ht, hout⟩ := hx
    obtain ⟨rfl, task', ht', hout'⟩ := hx'
    have heq := h.outcome ht ht'
    rw [hout, hout', Option.some.injEq, Except.error.injEq] at heq
    exact ⟨heq, h⟩
  | decrypt =>
    obtain ⟨-, rfl, rfl⟩ := hx
    obtain ⟨-, rfl, rfl⟩ := hx'
    exact ⟨rfl, h⟩
  | _ =>
    obtain ⟨-, -, rfl⟩ := hx
    obtain ⟨-, -, rfl⟩ := hx'
    exact ⟨hraised rfl, h⟩

/-- What an operation answers in two runs that differ in secrets only. -/
theorem Indistinct.effect (h : Indistinct w w') (he : e.secretFree = true) {r r' : e.Ans}
    (hr : P.effect i w e r v) (hr' : P.effect i w' e r' v')
    (hseen : seen (some ⟨e, .ok r⟩) v = seen (some ⟨e, .ok r'⟩) v') :
    r = r' ∧ Indistinct v v' := by
  have hagents : v.agents = v'.agents := congrArg Outside.agents hseen
  have hresponse : e.response r = e.response r' := congrArg Outside.response hseen
  have hdrawn : e.drawn r = e.drawn r' := congrArg Outside.drawn hseen
  obtain ⟨secrets, tasks, rfl⟩ := h.eq
  -- the operations on secrets are excluded; of the others the answer was seen or depends on what
  -- is alike
  cases e with
  | getSecret | putSecret | runnerStep | ensureFuture | begin => cases he
  | saveUser _ | saveServerNode _ | saveDevice _ | saveIssue _ | dropIssue _ | saveSetupJob _
  | addSetupEvent _ | addAuditEntry _ | release | revokeSessionsForUser | saveSession _
  | recordLoginFailure | clearLoginFailures _ | assignNode _ =>
    obtain rfl : v = _ := hr
    obtain rfl : v' = _ := hr'
    exact ⟨rfl, h.same _ _ _ _⟩
  -- forgetting keeps the tables alike: the key is gone from both
  | popSecret jobId =>
    obtain rfl : v = _ := hr
    obtain rfl : v' = _ := hr'
    refine ⟨rfl, ⟨rfl, rfl, rfl, rfl, fun id => ?_, h.tasks⟩⟩
    simp only [Table.get_erase]
    split
    · rfl
    · exact h.held id
  | settle t outcome =>
    obtain rfl : v = _ := hr
    obtain rfl : v' = _ := hr'
    exact ⟨rfl, h.setTask t fun _ => rfl⟩
  | cancelTask t =>
    obtain rfl : v = _ := hr
    obtain rfl : v' = _ := hr'
    exact ⟨rfl, h.setTask t fun _ => rfl⟩
  | sleep =>
    obtain rfl : v = _ := hr
    obtain rfl : v' = _ := hr'
    exact ⟨rfl, h⟩
  -- what is drawn from the outside is part of what is seen
  | utcNow | generateAgentKeyId | generateAgentSecret | hashPassword _ =>
    obtain rfl : v = _ := hr
    obtain rfl : v' = _ := hr'
    exact ⟨Option.some.inj hdrawn, h⟩
  | uuid | encrypt _ | generateSessionToken =>
    obtain ⟨-, rfl⟩ := hr
    obtain ⟨-, rfl⟩ := hr'
    exact ⟨Option.some.inj hdrawn, h⟩
  | decrypt value =>
    obtain ⟨hr, rfl⟩ := hr
    obtain ⟨hr', rfl⟩ := hr'
    exact ⟨Option.some.inj (hr.symm.trans hr'), h⟩
  | bindColumn _ _ =>
    obtain ⟨-, rfl⟩ := hr
    obtain ⟨-, rfl⟩ := hr'
    exact ⟨rfl, h⟩
  | request _ =>
    obtain ⟨agents, -, rfl⟩ := hr
    obtain ⟨agents', -, rfl⟩ := hr'
    obtain rfl : agents = agents' := hagents
    exact ⟨Option.some.inj hresponse, h.same _ _ _ _⟩
  | acquire =>
    obtain ⟨-, rfl⟩ := hr
    obtain ⟨-, rfl⟩ := hr'
    exact ⟨rfl, h.same _ _ _ _⟩
  | countLoginFailures =>
    obtain ⟨rfl, rfl⟩ := hr
    obtain ⟨rfl, rfl⟩ := hr'
    exact ⟨rfl, h.same _ _ _ _⟩
  | transitionSetupJob =>
    obtain ⟨rfl, rfl⟩ := hr
    obtain ⟨rfl, rfl⟩ := hr'
    exact ⟨rfl, h.same _ _ _ _⟩
  -- the tasks agree in their outcomes, only the secrets inside their operations differ
  | wait t =>
    obtain ⟨⟨task, ht, rfl⟩, rfl⟩ := hr
    obtain ⟨⟨task', ht', rfl⟩, rfl⟩ := hr'
    exact ⟨congrArg Option.isSome (h.outcome ht ht'), h⟩
  | join t =>
    obtain ⟨⟨task, ht, hout⟩, rfl⟩ := hr
    obtain ⟨⟨task', ht', hout'⟩, rfl⟩ := hr'
    have heq := h.outcome ht ht'
    rw [hout, hout', Option.some.injEq, Except.ok.injEq] at heq
    exact ⟨heq, h⟩
  | result t =>
    obtain ⟨⟨task, ht, hout⟩, rfl⟩ := hr
    obtain ⟨⟨task', ht', hout'⟩, rfl⟩ := hr'
    have heq := h.outcome ht ht'
    rw [hout, hout', Option.some.injEq, Except.ok.injEq] at heq
    exact ⟨heq, h⟩
  | pending => exact hr.elim
  -- the claimed job is seen by its id, so both runs claim the same one
  | claimNextSetupJob at' currentStep =>
    obtain ⟨next, hnext, hr⟩ := hr
    obtain ⟨next', hnext', hr'⟩ := hr'
    cases next with
    | none =>
      obtain ⟨rfl, rfl⟩ := hr
      cases next' with
      | none =>
        obtain ⟨rfl, rfl⟩ := hr'
        exact ⟨rfl, h⟩
      | some job' =>
        obtain ⟨rfl, rfl⟩ := hr'
        cases hdrawn
    | some job =>
      obtain ⟨rfl, rfl⟩ := hr
      cases next' with
      | none =>
        obtain ⟨rfl, rfl⟩ := hr'
        cases hdrawn
      | some job' =>
        obtain ⟨rfl, rfl⟩ := hr'
        have hid : job.id = job'.id := Option.some.inj hdrawn
        have hjob := (mem_queuedSetupJobs.mp hnext.1).1
        have hjob' := (mem_queuedSetupJobs.mp hnext'.1).1
        rw [← hid] at hjob'
        obtain rfl : job = job' := Option.some.inj (hjob.symm.trans hjob')
        exact ⟨rfl, h.same _ _ _ _⟩
  | _ =>
    obtain ⟨rfl, rfl⟩ := hr
    obtain ⟨rfl, rfl⟩ := hr'
    exact ⟨rfl, h⟩

/-- An operation does not answer in one run and raise in the other. -/
theorem Indistinct.not_mixed (h : Indistinct w w') (he : e.secretFree = true) {r : e.Ans} {x : Exc}
    (hr : P.effect i w e r v) (hx : P.failure w' e x v') :
    (seen (some ⟨e, .ok r⟩) v).raised ≠ (seen (some ⟨e, .error x⟩) v').raised := by
  intro hseen
  cases e with
  | decrypt value =>
    obtain ⟨hr, -⟩ := hr
    rw [hx.1] at hr
    cases hr
  | bindColumn _ _ => exact absurd hr.1 hx.1
  | result t =>
    obtain ⟨⟨task, ht, hout⟩, -⟩ := hr
    obtain ⟨-, task', ht', hout'⟩ := hx
    have heq := h.outcome ht ht'
    rw [hout, hout'] at heq
    cases heq
  | _ => cases hseen

/-- The clock and the agents move on by themselves. -/
theorem Indistinct.tick (h : Indistinct w w') (hv : w.Tick v) (hv' : w'.Tick v')
    (hseen : seen none v = seen none v') : Indistinct v v' := by
  obtain ⟨now, agents, rfl⟩ := hv
  obtain ⟨now', agents', rfl⟩ := hv'
  exact ⟨h.store, congrArg Outside.now hseen, h.lock, congrArg Outside.agents hseen, h.held, h.tasks⟩

theorem Indistinct.ensureFuture (h : Indistinct w w') {operation operation' : Operation}
    (hop : operation.redacted = operation'.redacted) :
    Indistinct { w with tasks := w.tasks ++ [{ operation }] }
      { w' with tasks := w'.tasks ++ [{ operation := operation' }] } where
  store := h.store
  now := h.now
  lock := h.lock
  agents := h.agents
  held := h.held
  tasks := by simp only [List.map_append, h.tasks, List.map_cons, List.map_nil, AsyncTask.redacted, hop]

theorem Indistinct.putSecret (h : Indistinct w w') (jobId secret secret' : Text) :
    Indistinct { w with ephemeralSshSecrets := w.ephemeralSshSecrets.put (jobId, secret) }
      { w' with ephemeralSshSecrets := w'.ephemeralSshSecrets.put (jobId, secret') } where
  store := h.store
  now := h.now
  lock := h.lock
  agents := h.agents
  held := by
    intro id
    simp only [Table.get_put]
    split
    · rfl
    · exact h.held id
  tasks := h.tasks

/-- Two runs that differ in secrets only go on to differ in secrets only. -/
theorem unwinding (P : Platform ω) :
    Loop.Unwinding P.kernel World.Tick seen OpAlike Indistinct where
  suspends := by
    intro e e' ρ hA
    cases hA <;> rfl
  tick h hv hv' hseen := h.tick hv hv' hseen
  op := by
    intro i e e' ρ w w' r r' v v' hA h hr hr' hseen
    cases hA with
    -- an operation without a secret: both runs raise, or neither does
    | same he =>
      rcases r with x | r <;> rcases r' with x' | r'
      · obtain ⟨rfl, hv⟩ := h.failure he hr hr' hseen
        exact ⟨rfl, hv⟩
      · exact absurd (congrArg Outside.raised hseen).symm (h.symm.not_mixed he hr' hr)
      · exact absurd (congrArg Outside.raised hseen) (h.not_mixed he hr hr')
      · obtain ⟨rfl, hv⟩ := h.effect he hr hr' hseen
        exact ⟨rfl, hv⟩
    -- whether there is a secret is alike, the secret itself is not seen
    | getSecret jobId =>
      rcases r with x | r
      · cases hr.1
      rcases r' with x' | r'
      · cases hr'.1
      obtain ⟨rfl, rfl⟩ := hr
      obtain ⟨rfl, rfl⟩ := hr'
      refine ⟨congrArg Except.ok ?_, h⟩
      rw [Option.isSome_map, Option.isSome_map]
      exact h.held jobId
    | putSecret jobId secret secret' =>
      rcases r with x | r
      · cases hr.1
      rcases r' with x' | r'
      · cases hr'.1
      obtain rfl : v = _ := hr
      obtain rfl : v' = _ := hr'
      exact ⟨rfl, h.putSecret jobId secret secret'⟩
    | runnerStep phase job credentials sshSecret sshSecret' =>
      rcases r with x | r <;> rcases r' with x' | r'
      · obtain ⟨-, -, rfl⟩ := hr
        obtain ⟨-, -, rfl⟩ := hr'
        obtain rfl : x = x' := Option.some.inj (congrArg Outside.raised hseen)
        exact ⟨rfl, h⟩
      · cases congrArg Outside.raised hseen
      · cases congrArg Outside.raised hseen
      · obtain rfl : v = w := hr
        obtain rfl : v' = w' := hr'
        exact ⟨rfl, h⟩
    -- the new tasks get the same number
    | ensureFuture hop =>
      rcases r with x | r
      · cases hr.1
      rcases r' with x' | r'
      · cases hr'.1
      obtain ⟨rfl, rfl⟩ := hr
      obtain ⟨rfl, rfl⟩ := hr'
      refine ⟨?_, h.ensureFuture hop⟩
      have hlength := congrArg List.length h.tasks
      simp only [List.length_map] at hlength
      exact congrArg Except.ok hlength
    | begin t =>
      rcases r with x | r <;> rcases r' with x' | r'
      · obtain ⟨task, ht, -, -, rfl, rfl⟩ := hr
        obtain ⟨task', ht', -, -, rfl, rfl⟩ := hr'
        exact ⟨rfl, h.setTask t fun _ => rfl⟩
      · cases congrArg Outside.raised hseen
      · cases congrArg Outside.raised hseen
      · obtain ⟨task, ht, -, rfl, rfl⟩ := hr
        obtain ⟨task', ht', -, rfl, rfl⟩ := hr'
        obtain ⟨_, hsome, heq⟩ := h.task ht
        rw [ht', Option.some.injEq] at hsome
        subst hsome
        refine ⟨congrArg Except.ok (congrArg AsyncTask.operation heq).symm, h.setTask t fun _ => rfl⟩

end Step

section Programs
variable {α β : Type}

/-- Operations that go with themselves and the same answers. -/
def Op.repeats : Op → Bool
  | getSecret _ | begin _ => false
  | _ => true

theorem opAlike_of_repeats {e : Op} (he : e.repeats = true) : OpAlike e e Eq := by
  cases e with
  | getSecret | begin => cases he
  | putSecret => exact .putSecret _ _ _
  | runnerStep => exact .runnerStep _ _ _ _ _
  | ensureFuture => exact .ensureFuture rfl
  | _ => exact .same rfl

theorem alike_ask {e : Op} (he : e.repeats = true) : (ask e).Alike OpAlike (ask e) :=
  alike_bind (alike_perform (opAlike_of_repeats he)) fun r => alike_lift r

theorem alike_uses {p : Task α} (hp : p.Uses (·.repeats = true)) : p.Alike OpAlike p := by
  induction p with
  | ret a => exact alike_ret a
  | fail x => exact alike_fail x
  | op e k ih =>
    refine ⟨Eq, opAlike_of_repeats hp.1, ?_⟩
    rintro r _ rfl
    exact ih r (hp.2 r)

theorem Inquires.alike {p : Task α} (hp : Inquires p) : p.Alike OpAlike p := by
  refine alike_uses (hp.mono fun e he => ?_)
  cases e <;> first | rfl | cases he

theorem AtOnce.alike {p : Task α} (hp : AtOnce p) : p.Alike OpAlike p := by
  refine alike_uses (hp.mono fun e he => ?_)
  cases e <;> first | rfl | cases he

/-- An operation in front of the rest, where the answers differ. -/
theorem alike_ask_seq {e e' : Op} {ρ : e.Res → e'.Res → Prop} (he : OpAlike e e' ρ)
    {f : e.Ans → Task β} {f' : e'.Ans → Task β}
    (h : ∀ r r', ρ r r' → (lift r >>= f : Task β).Alike OpAlike (lift r' >>= f')) :
    (ask e >>= f).Alike OpAlike (ask e' >>= f') := ⟨ρ, he, h⟩

theorem alike_suppressCancelled {p : Task α} (hp : p.Alike OpAlike p) :
    (suppressCancelled p).Alike OpAlike (suppressCancelled p) := by
  apply alike_bind (alike_attempt hp)
  rintro (x | a)
  · cases x with
    | cancelled => exact alike_ret _
    | _ => exact alike_fail _
  · exact alike_ret _

namespace Services

theorem alike_poll (jobId : Text) (t polls : Nat) :
    (poll jobId t polls).Alike OpAlike (poll jobId t polls) := by
  induction polls with
  | zero => exact alike_bind (alike_ask rfl) fun _ => alike_ret _
  | succ polls ih =>
    refine alike_bind (alike_ask rfl) ?_
    rintro (_ | _)
    · refine alike_bind (atOnce_getJob jobId).alike fun job => ?_
      change Prog.Alike OpAlike (if job.status = .cancelled then _ else _)
        (if job.status = .cancelled then _ else _)
      split
      · exact alike_bind (alike_ask rfl) fun _ =>
          alike_bind (alike_suppressCancelled (alike_ask rfl)) fun _ => alike_ret _
      · exact ih
    · exact alike_bind (alike_ask rfl) fun _ => alike_ret _

theorem alike_stopOperation (t : Nat) (r : Except Exc (Bool × Option ServerNode)) :
    (stopOperation t r).Alike OpAlike (stopOperation t r) := by
  unfold stopOperation
  split
  · exact alike_bind (alike_ask rfl) fun _ =>
      alike_bind (alike_suppressCancelled (alike_ask rfl)) fun _ => alike_fail _
  · exact alike_lift _

theorem alike_runCancellable (polls : Nat) (jobId : Text) {operation operation' : Operation}
    (h : operation.redacted = operation'.redacted) :
    (runCancellable polls jobId operation).Alike OpAlike
      (runCancellable polls jobId operation') := by
  refine alike_ask_seq (.ensureFuture h) ?_
  rintro r _ rfl
  exact alike_bind (alike_lift r) fun t =>
    alike_bind (alike_attempt (alike_poll jobId t polls)) fun r => alike_stopOperation t r

section Secret
variable (b : Services) (polls : Nat) (job : SetupJob) (credentials : AgentCredentials)
  (sshSecret sshSecret' : Text)

theorem alike_preflight : (preflight polls job credentials sshSecret).Alike OpAlike
    (preflight polls job credentials sshSecret') := by
  unfold preflight
  split
  · exact alike_bind (alike_runCancellable polls job.id rfl) fun _ => alike_ret _
  · exact alike_bind (atOnce_addEvent _ _ _ _ _).alike fun _ => alike_ret _

theorem alike_installVpn : (installVpn polls job credentials sshSecret).Alike OpAlike
    (installVpn polls job credentials sshSecret') := by
  refine alike_bind (atOnce_setStep _ _ _ _).alike ?_
  rintro (_ | next)
  · exact alike_ret _
  refine alike_bind (atOnce_addEvent _ _ _ _ _).alike fun _ =>
    alike_bind (alike_runCancellable polls next.id rfl) ?_
  rintro ⟨_ | _, -⟩
  · exact alike_ret _
  refine alike_bind (atOnce_setStep _ _ _ _).alike ?_
  rintro (_ | last)
  · exact alike_ret _
  · exact alike_bind (atOnce_addEvent _ _ _ _ _).alike fun _ => alike_ret _

theorem alike_verifyNode : (verifyNode polls job credentials).Alike OpAlike
    (verifyNode polls job credentials) := by
  refine alike_bind (atOnce_createFromSetup _ _ _ _).alike fun node =>
    alike_bind (alike_runCancellable polls job.id rfl) ?_
  rintro ⟨_ | _, _ | checked⟩
  · exact alike_ret _
  · exact alike_ret _
  · exact alike_fail _
  change Prog.Alike OpAlike (if (!checked.selectable) = true then _ else _)
    (if (!checked.selectable) = true then _ else _)
  split
  · exact alike_fail _
  · refine alike_bind (atOnce_finishSuccess _ _).alike ?_
    rintro (_ | finished)
    · exact alike_ret _
    · exact alike_bind (atOnce_activateAfterSetup _ _).alike fun _ => alike_ret _

theorem alike_install (performed : Bool) :
    (install polls performed job credentials sshSecret).Alike OpAlike
      (install polls performed job credentials sshSecret') := by
  have hrest : (install polls false job credentials sshSecret).Alike OpAlike
      (install polls false job credentials sshSecret') := by
    refine alike_bind (alike_runCancellable polls job.id rfl) ?_
    rintro ⟨_ | _, -⟩
    · exact alike_ret _
    change Prog.Alike OpAlike (if job.installAwg = true then _ else _)
      (if job.installAwg = true then _ else _)
    split
    · refine alike_bind (alike_installVpn polls job credentials sshSecret sshSecret') ?_
      rintro (_ | next)
      · exact alike_ret _
      · exact alike_verifyNode polls next credentials
    · refine alike_bind (atOnce_skipVpn job).alike ?_
      rintro (_ | next)
      · exact alike_ret _
      · exact alike_verifyNode polls next credentials
  cases performed with
  | false => exact hrest
  | true => exact alike_bind (atOnce_addEvent _ _ _ _ _).alike fun _ => hrest

theorem alike_tryInstall : (tryInstall polls job credentials sshSecret).Alike OpAlike
    (tryInstall polls job credentials sshSecret') := by
  refine alike_bind (alike_attempt (alike_preflight polls job credentials sshSecret sshSecret')) ?_
  rintro (x | _ | _)
  · exact alike_ret _
  · exact alike_ret _
  refine alike_bind (alike_attempt (atOnce_setStep _ _ _ _).alike) ?_
  rintro (x | _ | next)
  · exact alike_ret _
  · exact alike_ret _
  · exact alike_bind (alike_attempt (alike_install polls next credentials sshSecret sshSecret'
      job.verifyBeforeInstall)) fun _ => alike_ret _

/-- The one place in which the runs of a job have different secrets in hand. -/
theorem alike_runJob : (b.runJob polls job).Alike OpAlike (b.runJob polls job) := by
  refine alike_ask_seq (.getSecret job.id) fun r r' hr => ?_
  have hlost : Prog.Alike OpAlike (finishFailed job.id secretLost >>= fun _ => pure ())
      (finishFailed job.id secretLost >>= fun _ => pure ()) :=
    alike_bind (atOnce_finishFailed _ _).alike fun _ => alike_ret _
  rcases r with x | _ | sshSecret <;> rcases r' with x' | _ | sshSecret' <;> cases hr
  · exact alike_fail _
  · exact hlost
  · change Prog.Alike OpAlike (b.newCredentials job >>= _) (b.newCredentials job >>= _)
    refine alike_bind (atOnce_newCredentials b job).alike fun credentials =>
      alike_bind (alike_tryInstall polls job credentials sshSecret sshSecret') ?_
    rintro ⟨last, r⟩
    exact alike_bind (alike_attempt (atOnce_exceptFailed last r).alike) fun out =>
      alike_bind (atOnce_forget last).alike fun _ => alike_lift out

end Secret

theorem alike_loop (b : Services) (polls rounds : Nat) :
    (b.loop polls rounds).Alike OpAlike (b.loop polls rounds) := by
  have hclaim : claimNext.Alike OpAlike claimNext := by
    refine alike_bind (alike_ask rfl) fun now => alike_bind (alike_ask rfl) ?_
    rintro (_ | job)
    · exact alike_ret _
    · exact alike_bind (atOnce_addEvent _ _ _ _ _).alike fun _ => alike_ret _
  induction rounds with
  | zero => exact alike_ask rfl
  | succ rounds ih =>
    refine alike_bind (alike_bind (alike_ask rfl) fun _ => alike_bind (alike_attempt hclaim) fun r =>
      alike_bind (alike_ask rfl) fun _ => alike_lift r) ?_
    rintro (_ | job)
    · exact alike_bind (alike_ask rfl) fun _ => ih
    refine alike_bind (alike_attempt (alike_runJob b polls job)) ?_
    rintro (x | _)
    · cases x with
      | cancelled => exact alike_bind (atOnce_finishFailed _ _).alike fun _ => alike_fail _
      | _ => exact alike_bind (atOnce_finishFailed _ _).alike fun _ => ih
    · exact ih

theorem alike_operationTask (b : Services) (t : Nat) :
    (b.operationTask t).Alike OpAlike (b.operationTask t) := by
  refine ⟨_, .begin t, fun r r' hr => ?_⟩
  have hsettle : ∀ outcome, (ask (.settle t outcome)).Alike OpAlike (ask (.settle t outcome)) :=
    fun outcome => alike_ask rfl
  have hoperate : ∀ {operation operation' : Operation},
      operation.redacted = operation'.redacted →
      (b.operate operation).Alike OpAlike (b.operate operation') := by
    rintro (_ | nodeId) (_ | nodeId') hop <;> cases hop
    · refine alike_ask_seq (.runnerStep _ _ _ _ _) ?_
      rintro r _ rfl
      exact alike_bind (alike_lift r) fun _ => alike_ret _
    · exact alike_bind (inquires_healthCheck b nodeId none).alike fun _ => alike_ret _
  rcases r with x | operation <;> rcases r' with x' | operation'
  · cases hr
    exact hsettle _
  · cases hr
  · cases hr
  · have hop : operation.redacted = operation'.redacted := Except.ok.inj hr
    change Prog.Alike OpAlike ((b.operate operation).attempt >>= fun out => ask (.settle t out))
      ((b.operate operation').attempt >>= fun out => ask (.settle t out))
    exact alike_bind (alike_attempt (hoperate hop)) fun out => hsettle out

theorem alike_createJob (b : Services) (actor : User) (form : SetupJobCreate) (secret : Text)
    (h : strip form.secret ≠ []) (h' : strip secret ≠ []) :
    (b.createJob actor form).Alike OpAlike (b.createJob actor { form with secret }) := by
  unfold createJob
  rw [if_neg h, if_neg h']
  split
  · exact alike_fail _
  refine alike_bind (alike_ask rfl) fun now => alike_bind (alike_ask rfl) fun id => ?_
  refine alike_ask_seq (.putSecret id form.secret secret) ?_
  rintro r _ rfl
  refine alike_bind (alike_lift r) fun _ => alike_bind (alike_attempt (alike_ask rfl)) ?_
  rintro (x | _)
  · cases x with
    | cancelled => exact alike_fail _
    | _ => exact alike_bind (alike_ask rfl) fun _ => alike_fail _
  · exact alike_bind (atOnce_addEvent _ _ _ _ _).alike fun _ =>
      alike_bind (atOnce_auditLog _).alike fun _ => alike_ret _

theorem alike_setupCall (b : Services) {call call' : SetupCall} (h : call.Alike call') :
    (b.setupCall call).Alike OpAlike (b.setupCall call') := by
  have hcall : ∀ {α : Type} {p p' : Task α} (f : α → SetupReply), p.Alike OpAlike p' →
      Prog.Alike OpAlike (p >>= fun a => pure (f a)) (p' >>= fun a => pure (f a)) :=
    fun f hp => alike_bind hp fun a => alike_ret (f a)
  cases h with
  | create actor form secret h h' => exact hcall _ (alike_createJob b actor form secret h h')
  | same =>
    cases call with
    | create actor form => exact hcall _ (atOnce_createJob b actor form).alike
    | get jobId => exact hcall _ (atOnce_getJob jobId).alike
    | list => exact hcall _ (alike_ask rfl)
    | events jobId => exact hcall _ (alike_bind (atOnce_getJob jobId).alike fun _ => alike_ask rfl)
    | start jobId => exact hcall _ (atOnce_startJob b jobId).alike
    | cancel actor jobId => exact hcall _ (atOnce_cancelJob actor jobId).alike
    | work polls rounds => exact hcall (fun _ => .done) (alike_loop b polls rounds)
    | operation t => exact hcall (fun _ => .done) (alike_operationTask b t)

end Services
end Programs

/-- Two runs of the setup jobs that differ in the SSH secrets only, the outside doing the same: what
is stored and what the calls end with is the same, and whenever no task has the turn, no stored job
has a secret and only secrets of jobs that have not ended are in memory. -/
theorem secrets_confined {P : Platform ω} {b : Services}
    (hsave : ∀ job, ¬ P.raises (.saveSetupJob job) .cancelled) {w : World ω} (hw : Confined w)
    {events events' : List (Event SetupCall (Outside ω))}
    (hevents : List.Forall₂ (Event.Alike SetupCall.Alike) events events')
    {y y' : Loop (World ω) Op.Res Exc SetupReply SetupCall}
    (h : Loop.Trace P.kernel World.Tick b.setupCall seen events { shared := w } y)
    (h' : Loop.Trace P.kernel World.Tick b.setupCall seen events' { shared := w } y') :
    y.shared.store = y'.shared.store ∧
    (∀ i, (y.running i).bind (·.2.outcome) = (y'.running i).bind (·.2.outcome)) ∧
    (y.active = none → Confined y.shared ∧ Confined y'.shared) := by
  have hbegin : Loop.Twin OpAlike Indistinct ({ shared := w } : Loop (World ω) Op.Res Exc SetupReply
      SetupCall) { shared := w } := ⟨.refl w, rfl, fun _ => .inl ⟨rfl, rfl⟩⟩
  have halike : ∀ call call', SetupCall.Alike call call' →
      (b.setupCall call).Alike OpAlike (b.setupCall call') := fun _ _ => b.alike_setupCall
  have hy := Loop.Twin.trace (unwinding P) halike hevents h h' hbegin
  refine ⟨hy.shared.store, hy.outcome, fun hturn => ⟨?_, ?_⟩⟩
  · exact confined_reachable hsave hw h.reachable hturn
  · exact confined_reachable hsave hw h'.reachable (hy.active.symm.trans hturn)

deriving instance DecidableEq for SetupJobCreate, SetupCall

namespace Sample

/-- A job is created with the secret, the worker's first three operations on it succeed, and the
job is cancelled while the worker waits for the third one. -/
def cancelledMoves (secret : Text) : List (Move SetupCall (Option Exc)) :=
  [.start 1 (.create user { form with secret })] ++ acts 1 10 ++
    [.start 0 (.work 3 2)] ++ acts 0 11 ++ [.start 2 (.operation 0)] ++ acts 2 3 ++
    acts 0 11 ++ [.start 3 (.operation 1)] ++ acts 3 3 ++
    acts 0 11 ++ [.start 4 (.operation 2)] ++ acts 4 3 ++
    [.start 5 (.cancel user (lit "i"))] ++ acts 5 10 ++ acts 0 15

def cancelledWith (secret : Text) : Here :=
  playHere (cancelledMoves secret) { shared := { agents := () } }

def cancelledEvents (secret : Text) : List (Event SetupCall (Outside Unit)) :=
  Loop.events cancellable.platform.kernel cancellable.answer services.setupCall seen
    (cancelledMoves secret) { shared := { agents := () } }

def agrees (s s' : Outside Unit) : Bool :=
  s.now = s'.now && s.raised.isNone && s'.raised.isNone && s.response.isNone &&
    s'.response.isNone && s.drawn = s'.drawn

theorem eq_of_agrees {s s' : Outside Unit} (h : agrees s s' = true) : s = s' := by
  obtain ⟨now, agents, raised, response, drawn⟩ := s
  obtain ⟨now', agents', raised', response', drawn'⟩ := s'
  simp only [agrees, Bool.and_eq_true, decide_eq_true_eq, Option.isNone_iff_eq_none] at h
  obtain ⟨⟨⟨⟨⟨rfl, rfl⟩, rfl⟩, rfl⟩, rfl⟩, rfl⟩ := h
  rfl

/-- The SSH secrets that the runner got. -/
def runnerSecrets (y : Here) : List Text :=
  y.shared.tasks.filterMap fun task => match task.operation with
    | .runner _ _ _ sshSecret => some sshSecret
    | .healthCheck _ => none

/-- The events go together, if the outside neither raises nor answers. -/
def alikeEvent : Event SetupCall (Outside Unit) → Event SetupCall (Outside Unit) → Bool
  | .start i (.create actor form), .start j (.create actor' form') =>
    i = j && actor = actor' && { form with secret := form'.secret } = form' &&
      !(strip form.secret).isEmpty && !(strip form'.secret).isEmpty
  | .start i call, .start j call' => i = j && call = call'
  | .act i s, .act j s' => i = j && agrees s s'
  | _, _ => false

theorem alike_of_alikeEvent {event event' : Event SetupCall (Outside Unit)}
    (h : alikeEvent event event' = true) : Event.Alike SetupCall.Alike event event' := by
  unfold alikeEvent at h
  split at h
  · simp only [Bool.and_eq_true, decide_eq_true_eq, Bool.not_eq_true', List.isEmpty_eq_false_iff] at h
    obtain ⟨⟨⟨⟨rfl, rfl⟩, hform⟩, hsecret⟩, hsecret'⟩ := h
    rw [← hform]
    exact .start _ (.create _ _ _ hsecret hsecret')
  · simp only [Bool.and_eq_true, decide_eq_true_eq] at h
    obtain ⟨rfl, rfl⟩ := h
    exact .start _ (.same _)
  · simp only [Bool.and_eq_true, decide_eq_true_eq] at h
    obtain ⟨rfl, hseen⟩ := h
    rw [eq_of_agrees hseen]
    exact .act _ _
  · cases h

end Sample

theorem secrets_confined_cancelled :
    (Sample.cancelledWith (lit "hunter2")).shared.store.setupJobs.values.map (·.status) =
      [.cancelled] ∧
    (Sample.runnerSecrets (Sample.cancelledWith (lit "hunter2")) = List.replicate 3 (lit "hunter2") ∧
      Sample.runnerSecrets (Sample.cancelledWith (lit "swordfish")) =
        List.replicate 3 (lit "swordfish")) ∧
    (Sample.cancelledWith (lit "hunter2")).shared.store =
      (Sample.cancelledWith (lit "swordfish")).shared.store ∧
    Confined (Sample.cancelledWith (lit "hunter2")).shared := by
  have htrace : ∀ secret, Loop.Trace Sample.cancellable.platform.kernel World.Tick
      Sample.services.setupCall seen (Sample.cancelledEvents secret) { shared := { agents := () } }
      (Sample.cancelledWith secret) :=
    fun secret => Loop.trace_play (fun i fault _ _ _ _ => Sample.cancellable.answer_env i fault) _ _
      seen _ _
  have hevents : List.Forall₂ (Event.Alike SetupCall.Alike) (Sample.cancelledEvents (lit "hunter2"))
      (Sample.cancelledEvents (lit "swordfish")) := by
    have hall : ((Sample.cancelledEvents (lit "hunter2")).zip
        (Sample.cancelledEvents (lit "swordfish"))).all (fun p => Sample.alikeEvent p.1 p.2) = true := by
      decide +kernel
    rw [List.all_eq_true] at hall
    refine List.forall₂_iff_zip.mpr ⟨by decide +kernel, fun hmem => ?_⟩
    exact Sample.alike_of_alikeEvent (hall _ hmem)
  obtain ⟨hstore, -, hconfined⟩ := secrets_confined (P := Sample.cancellable.platform)
    (by rintro job ⟨⟩) ⟨by rintro _ _ ⟨⟩, by rintro _ h; exact absurd rfl h⟩ hevents (htrace _)
    (htrace _)
  exact ⟨by decide +kernel, ⟨by decide +kernel, by decide +kernel⟩, hstore,
    (hconfined (by decide +kernel)).1⟩

end VpnControl.Backend
