import VpnControl.Lib.Monitor
import VpnControl.Backend.AtOnce
import VpnControl.Backend.ClusterPlayback

namespace VpnControl.Backend
open Strings Json Effects Prog

/-- What the worker does to poll, to claim a job and to begin with one, or with an operation. -/
def Op.goesOn : Op → Bool
  | acquire | claimNextSetupJob .. | sleep | getSecret _ | ensureFuture _ | wait _ | pending => true
  | _ => false

/-- Whether the worker is being stopped after an answer. A CancelledError at an await tells it to
stop; where it joins a task that error is the task's, or taken for it, and whatever else the task
raises takes the place of the CancelledError that the worker was to pass on. -/
def Op.stops (stopping : Bool) : (e : Op) → e.Res → Bool
  | join _, .error .cancelled => stopping
  | join _, .error _ => false
  | e, .error .cancelled => stopping || e.suspends
  | _, _ => stopping

/-- A worker that is being stopped does not go on. -/
def stopMonitor : Monitor Bool Op Op.Res where
  may stopping e := stopping = true → e.goesOn = false
  next stopping e r stopping' := (e.safe = true → ∃ a, r = .ok a) ∧ stopping' = e.stops stopping r

/-- A stopped part of a task ends with a CancelledError. -/
def Halts {α : Type} (r : Except Exc α) (stopping : Bool) : Prop :=
  stopping = true → r = .error .cancelled

/-- A part of the worker that passes a CancelledError on. -/
abbrev Heeds {α : Type} (p : Task α) : Prop := p.Obeys stopMonitor Halts false

section Heeds
variable {α β : Type}

theorem stops_of_suspends {stopping : Bool} {e : Op} {r : e.Res} (he : e.suspends = false) :
    e.stops stopping r = stopping := by
  cases e with
  | join t => cases he
  | _ =>
    rcases r with x | a
    · cases x <;> first | rfl | simp [Op.stops, he]
    · rfl

theorem goesOn_of_atOnce {e : Op} (he : e.atOnce = true) : e.goesOn = false ∧ e.suspends = false := by
  cases e <;> first | exact ⟨rfl, rfl⟩ | cases he

/-- A turn in which the worker is not stopped. -/
theorem heeds_turn {p : Task α} (hp : p.Uses fun e => e.suspends = false) :
    p.Obeys stopMonitor (fun _ stopping => stopping = false) false := by
  refine obeys_uses (I := fun stopping => stopping = false) ?_ ?_ hp rfl
  · rintro _ e - rfl ⟨⟩
  · rintro _ e r stopping' he rfl ⟨-, rfl⟩
    exact stops_of_suspends he

theorem heeds_of_turn {p : Task α} (hp : p.Uses fun e => e.suspends = false) : Heeds p := by
  refine obeys_mono (heeds_turn hp) ?_
  rintro r _ rfl ⟨⟩

theorem heeds_atOnce {p : Task α} (hp : AtOnce p) : Heeds p :=
  heeds_of_turn (hp.mono fun _ he => (goesOn_of_atOnce he).2)

/-- What the worker still does when it is stopped. -/
theorem stopped_atOnce {p : Task α} (hp : AtOnce p) :
    p.Obeys stopMonitor (fun _ stopping => stopping = true) true := by
  refine obeys_uses (I := fun stopping => stopping = true) ?_ ?_ hp rfl
  · exact fun _ e he _ _ => (goesOn_of_atOnce he).1
  · rintro _ e r stopping' he rfl ⟨-, rfl⟩
    exact stops_of_suspends (goesOn_of_atOnce he).2

theorem heeds_ret (a : α) : Heeds (ret a : Task α) := by rintro ⟨⟩

theorem heeds_fail (x : Exc) : Heeds (fail x : Task α) := by rintro ⟨⟩

theorem heeds_ask (e : Op) : Heeds (ask e) := by
  refine ⟨by rintro ⟨⟩, ?_⟩
  rintro r stopping' ⟨-, rfl⟩
  refine obeys_lift fun hstop => ?_
  rcases r with x | a
  · cases x with
    | cancelled => rfl
    | _ => cases e <;> cases hstop
  · cases e <;> cases hstop

theorem heeds_bind {p : Task α} {f : α → Task β} (hp : Heeds p) (hf : ∀ a, Heeds (f a)) :
    Heeds (p >>= f) := by
  refine obeys_seq hp ?_ ?_
  · rintro a (_ | _) h
    · exact hf a
    · cases h rfl
  · intro x stopping h hstop
    cases h hstop
    rfl

/-- A handler that, when the worker is stopped, ends so as well. -/
theorem heeds_attempt {p : Task α} {f : Except Exc α → Task β} (hp : Heeds p)
    (hf : ∀ r, Heeds (f r)) (hstop : (f (.error .cancelled)).Obeys stopMonitor Halts true) :
    Heeds (p.attempt >>= f) := by
  refine obeys_seq_attempt hp ?_
  rintro r (_ | _) h
  · exact hf r
  · rw [h rfl]
    exact hstop

/-- While the worker joins a task it cannot be told to stop. -/
theorem heeds_join (t : Nat) : Heeds (suppressCancelled (ask (.join t))) := by
  have hjoin : (ask (.join t)).Obeys stopMonitor (fun _ stopping => stopping = false) false := by
    refine ⟨by rintro ⟨⟩, ?_⟩
    rintro r stopping' ⟨-, rfl⟩
    apply obeys_lift
    rcases r with x | a
    · cases x <;> rfl
    · rfl
  refine obeys_seq_attempt hjoin ?_
  rintro (x | a) _ rfl
  · cases x with
    | cancelled => exact heeds_ret _
    | _ => exact heeds_fail _
  · exact heeds_ret _

theorem stopped_ask {e : Op} (he : e.goesOn = false) (hwait : e.suspends = false)
    (hsafe : e.safe = true) :
    (ask e).Obeys stopMonitor (fun r stopping => stopping = true ∧ ∃ a, r = .ok a) true := by
  refine ⟨fun _ => he, ?_⟩
  rintro r stopping' ⟨hok, rfl⟩
  exact obeys_lift ⟨stops_of_suspends hwait, hok hsafe⟩

namespace Services
variable (b : Services)

theorem heeds_poll (jobId : Text) (t polls : Nat) : Heeds (poll jobId t polls) := by
  induction polls with
  | zero => exact heeds_bind (heeds_ask _) fun _ => heeds_ret _
  | succ polls ih =>
    apply heeds_bind (heeds_ask _)
    rintro (_ | _)
    · apply heeds_bind (heeds_atOnce (atOnce_getJob jobId))
      intro job
      change Heeds (if _ then _ else _)
      split
      · exact heeds_bind (heeds_ask _) fun _ => heeds_bind (heeds_join t) fun _ => heeds_ret _
      · exact ih
    · exact heeds_bind (heeds_ask _) fun _ => heeds_ret _

theorem heeds_stopOperation (t : Nat) (r : Except Exc (Bool × Option ServerNode)) :
    Heeds (stopOperation t r) := by
  unfold stopOperation
  split
  · exact heeds_bind (heeds_ask _) fun _ => heeds_bind (heeds_join t) fun _ => heeds_fail _
  · cases r
    · exact heeds_fail _
    · exact heeds_ret _

/-- The cleanup of a worker that is being stopped. -/
theorem stopped_stopOperation (t : Nat) :
    (stopOperation t (.error .cancelled)).Obeys stopMonitor Halts true := by
  refine obeys_seq (stopped_ask rfl rfl rfl) ?_ ?_
  · rintro _ _ ⟨rfl, -⟩
    have hjoin : (suppressCancelled (ask (.join t))).Obeys stopMonitor
        (fun r stopping => stopping = true → ∃ a, r = .ok a) true := by
      refine ⟨fun _ => rfl, ?_⟩
      rintro r stopping' ⟨-, rfl⟩
      rcases r with x | a
      · cases x with
        | cancelled => exact fun _ => ⟨(), rfl⟩
        | _ => rintro ⟨⟩
      · exact fun _ => ⟨(), rfl⟩
    refine obeys_seq hjoin (fun _ _ _ _ => rfl) ?_
    intro x stopping h hstop
    obtain ⟨a, ha⟩ := h hstop
    cases ha
  · rintro x _ ⟨-, a, ha⟩
    cases ha

theorem heeds_runCancellable (polls : Nat) (jobId : Text) (operation : Operation) :
    Heeds (runCancellable polls jobId operation) :=
  heeds_bind (heeds_ask _) fun t =>
    heeds_attempt (heeds_poll jobId t polls) (heeds_stopOperation t) (stopped_stopOperation t)

theorem heeds_preflight (polls : Nat) (job : SetupJob) (credentials : AgentCredentials)
    (sshSecret : Text) : Heeds (preflight polls job credentials sshSecret) := by
  unfold preflight
  split
  · exact heeds_bind (heeds_runCancellable _ _ _) fun _ => heeds_ret _
  · exact heeds_bind (heeds_atOnce (atOnce_addEvent _ _ _ _ _)) fun _ => heeds_ret _

theorem heeds_installVpn (polls : Nat) (job : SetupJob) (credentials : AgentCredentials)
    (sshSecret : Text) : Heeds (installVpn polls job credentials sshSecret) := by
  apply heeds_bind (heeds_atOnce (atOnce_setStep _ _ _ _))
  rintro (_ | next)
  · exact heeds_ret _
  apply heeds_bind (heeds_atOnce (atOnce_addEvent _ _ _ _ _))
  intro _
  apply heeds_bind (heeds_runCancellable _ _ _)
  rintro ⟨_ | _, -⟩
  · exact heeds_ret _
  apply heeds_bind (heeds_atOnce (atOnce_setStep _ _ _ _))
  rintro (_ | last)
  · exact heeds_ret _
  · exact heeds_bind (heeds_atOnce (atOnce_addEvent _ _ _ _ _)) fun _ => heeds_ret _

theorem heeds_verifyNode (polls : Nat) (job : SetupJob) (credentials : AgentCredentials) :
    Heeds (verifyNode polls job credentials) := by
  apply heeds_bind (heeds_atOnce (atOnce_createFromSetup _ _ _ _))
  intro node
  apply heeds_bind (heeds_runCancellable _ _ _)
  rintro ⟨_ | _, _ | checked⟩
  · exact heeds_ret _
  · exact heeds_ret _
  · exact heeds_fail _
  change Heeds (if (!checked.selectable) = true then _ else _)
  split
  · exact heeds_fail _
  · apply heeds_bind (heeds_atOnce (atOnce_finishSuccess _ _))
    rintro (_ | finished)
    · exact heeds_ret _
    · exact heeds_bind (heeds_atOnce (atOnce_activateAfterSetup _ _)) fun _ => heeds_ret _

theorem heeds_install (polls : Nat) (performed : Bool) (job : SetupJob)
    (credentials : AgentCredentials) (sshSecret : Text) :
    Heeds (install polls performed job credentials sshSecret) := by
  have hrest : Heeds (install polls false job credentials sshSecret) := by
    apply heeds_bind (heeds_runCancellable _ _ _)
    rintro ⟨_ | _, -⟩
    · exact heeds_ret _
    have hgoes : ∀ next, Heeds (match next with
        | none => pure ()
        | some job => verifyNode polls job credentials) := by
      rintro (_ | next)
      · exact heeds_ret _
      · exact heeds_verifyNode _ _ _
    change Heeds (if job.installAwg = true then _ else _)
    split
    · exact heeds_bind (heeds_installVpn _ _ _ _) hgoes
    · exact heeds_bind (heeds_atOnce (atOnce_skipVpn _)) hgoes
  cases performed with
  | false => exact hrest
  | true => exact heeds_bind (heeds_atOnce (atOnce_addEvent _ _ _ _ _)) fun _ => hrest

/-- A stopped `try` block leaves its variable and the CancelledError behind. -/
def Tried (r : Except Exc (Option SetupJob × Except Exc Unit)) (stopping : Bool) : Prop :=
  stopping = true → ∃ job, r = .ok (some job, .error .cancelled)

theorem obeys_tryInstall (polls : Nat) (job : SetupJob) (credentials : AgentCredentials)
    (sshSecret : Text) :
    (tryInstall polls job credentials sshSecret).Obeys stopMonitor Tried false := by
  refine obeys_seq_attempt (heeds_preflight _ _ _ _) ?_
  rintro r (_ | _) h
  · rcases r with x | _ | _
    · rintro ⟨⟩
    · rintro ⟨⟩
    refine obeys_seq_attempt (heeds_turn ((atOnce_setStep _ _ _ _).mono fun _ he =>
      (goesOn_of_atOnce he).2)) ?_
    rintro (x | _ | next) _ rfl
    · rintro ⟨⟩
    · rintro ⟨⟩
    refine obeys_seq_attempt (heeds_install _ _ _ _ _) ?_
    intro r stopping h hstop
    exact ⟨next, by rw [h hstop]⟩
  · rw [h rfl]
    exact fun _ => ⟨job, rfl⟩

theorem heeds_finally {α : Type} {p : Task α} {cleanup : Task Unit} (hp : AtOnce p)
    (hcleanup : AtOnce cleanup) : Heeds (tryFinally p cleanup) :=
  heeds_atOnce (atOnce_bind (uses_attempt hp) fun _ => atOnce_bind hcleanup fun _ => uses_lift _)

theorem heeds_runJob (polls : Nat) (job : SetupJob) : Heeds (b.runJob polls job) := by
  apply heeds_bind (heeds_ask _)
  rintro (_ | sshSecret)
  · exact heeds_bind (heeds_atOnce (atOnce_finishFailed _ _)) fun _ => heeds_ret _
  apply heeds_bind (heeds_atOnce (atOnce_newCredentials b job))
  intro credentials
  refine obeys_seq (obeys_tryInstall _ _ _ _) ?_ ?_
  · rintro ⟨last, r⟩ (_ | _) h
    · exact heeds_finally (atOnce_exceptFailed _ _) (atOnce_forget _)
    · obtain ⟨job, hjob⟩ := h rfl
      cases hjob
      -- no handler takes the CancelledError, and the secret is forgotten
      change (ask (.popSecret job.id) >>= fun _ => fail .cancelled : Task Unit).Obeys
        stopMonitor Halts true
      refine obeys_seq (stopped_ask rfl rfl rfl) ?_ ?_
      · rintro _ _ - -
        rfl
      · rintro x _ ⟨-, a, ha⟩
        cases ha
  · intro x stopping h hstop
    obtain ⟨job, hjob⟩ := h hstop
    cases hjob

theorem heeds_claim : Heeds (withStorageLock claimNext) := by
  have hask : ∀ e : Op, e.suspends = false → (ask e).Uses fun e => e.suspends = false :=
    fun e he => uses_bind (uses_perform he) fun _ => uses_lift _
  have hclaim : claimNext.Uses fun e => e.suspends = false := by
    refine uses_bind (hask _ rfl) fun now => uses_bind (hask _ rfl) ?_
    rintro (_ | job)
    · trivial
    · exact uses_bind ((atOnce_addEvent _ _ _ _ _).mono fun _ he => (goesOn_of_atOnce he).2)
        fun _ => trivial
  exact heeds_bind (heeds_ask _) fun _ => heeds_of_turn <|
    uses_bind (uses_attempt hclaim) fun r => uses_bind (hask _ rfl) fun _ => uses_lift r

theorem obeys_loop (polls rounds : Nat) :
    (b.loop polls rounds).Obeys stopMonitor (fun _ _ => True) false := by
  induction rounds with
  | zero => exact obeys_mono (heeds_ask .pending) fun _ _ _ => trivial
  | succ rounds ih =>
    refine obeys_seq heeds_claim ?_ fun _ _ _ => trivial
    rintro (_ | job) (_ | _) h
    · refine obeys_seq (heeds_ask .sleep) ?_ fun _ _ _ => trivial
      rintro _ (_ | _) h
      · exact ih
      · cases h rfl
    · cases h rfl
    · refine obeys_seq_attempt (heeds_runJob b _ _) ?_
      rintro r (_ | _) h
      · have hfinish : ∀ (message : Text) (p : Task Unit),
            p.Obeys stopMonitor (fun _ _ => True) false →
            (finishFailed job.id message >>= fun _ => p).Obeys stopMonitor (fun _ _ => True) false := by
          intro message p hp
          refine obeys_seq (heeds_atOnce (atOnce_finishFailed _ message)) ?_ fun _ _ _ => trivial
          rintro _ (_ | _) h
          · exact hp
          · cases h rfl
        rcases r with x | _
        · cases x with
          | cancelled => exact hfinish _ _ trivial
          | _ => exact hfinish _ _ ih
        · exact ih
      · rw [h rfl]
        exact obeys_seq (stopped_atOnce (atOnce_finishFailed _ _)) (fun _ _ _ => trivial)
          fun _ _ _ => trivial
    · cases h rfl

theorem obeys_work (polls rounds : Nat) :
    (b.setupCall (.work polls rounds)).Obeys stopMonitor (fun _ _ => True) false :=
  obeys_seq (obeys_loop b polls rounds) (fun _ _ _ => trivial) fun _ _ _ => trivial

end Services
end Heeds

/-- Outside of the operations, time passes and the agents do as they like. -/
def World.Tick {ω : Type} (w w' : World ω) : Prop := ∃ now agents, w' = { w with now, agents }

/-- The next thing that a task does is to go on. -/
def goesOn {α : Type} : Task α → Bool
  | .op e _ => e.goesOn
  | _ => false

/-- An operation that a stopped worker joins raises nothing but a CancelledError. -/
def Op.cleansUp : (e : Op) → e.Res → Bool
  | join _, .error .cancelled => true
  | join _, .error _ => false
  | _, _ => true

section Stop
variable {ω : Type} {P : Platform ω} {tick : World ω → World ω → Prop} {b : Services} {i : Nat}
  {w : World ω} {y y' y'' : Loop (World ω) Op.Res Exc SetupReply SetupCall} {e : Op}

/-- While the worker, task `i`, awaits `e`, it is told to stop. -/
def Stopped (P : Platform ω) (i : Nat) (e : Op)
    (y y' : Loop (World ω) Op.Res Exc SetupReply SetupCall) : Prop :=
  ∃ polls rounds k w', e.suspends = true ∧ y.active = none ∧
    y.running i = some (.work polls rounds, .op e k) ∧
    P.env i y.shared e (.error .cancelled) w' ∧
    y' = y.put P.kernel w' i (.work polls rounds) (k (.error .cancelled))

theorem safe_of_failure {x : Exc} {w w' : World ω} (h : P.failure w e x w') : e.safe = false := by
  cases e <;> first | rfl | exact h.1

theorem tells_stop {K : Kernel (World ω) Op Op.Res}
    (hK : ∀ w e r w', K.env i w e r w' → P.env i w e r w') :
    Loop.Tells K tick stopMonitor (fun _ _ => True) (fun _ => True) i where
  own := by
    intro w stopping e r w' _ _ hact
    refine ⟨_, ⟨fun hsafe => ?_, rfl⟩, trivial⟩
    rcases r with x | a
    · have hfailure : P.failure w e x w' := hK w e _ w' hact
      rw [safe_of_failure hfailure] at hsafe
      cases hsafe
    · exact ⟨a, rfl⟩
  others := fun _ _ _ _ => trivial
  tick := fun _ _ => trivial

theorem stops_of_cleansUp {r : e.Res} (h : e.cleansUp r = true) : e.stops true r = true := by
  rcases r with x | a
  · cases e with
    | join t =>
      cases x with
      | cancelled => rfl
      | _ => cases h
    | _ => cases x <;> rfl
  · cases e <;> rfl

/-- A worker that is told to stop anywhere but where it joins an operation does not go on: it does
not poll, claim or begin a job again, as long as what it stopped ends without an exception of its
own. -/
theorem stop_heeded (h : Relation.ReflTransGen (Loop.Step P.kernel tick b.setupCall) { shared := w } y)
    (hstop : Stopped P i e y y') (hjoin : ∀ t, e ≠ .join t)
    (h' : Relation.ReflTransGen
      (Loop.Step (P.kernel.answering fun j _ e r => j = i → e.cleansUp r = true) tick b.setupCall) y' y'')
    {call : SetupCall} {p : Task SetupReply} (hi : y''.running i = some (call, p)) :
    goesOn p = false := by
  obtain ⟨polls, rounds, k, w', hawait, -, hwork, hact, rfl⟩ := hstop
  obtain ⟨stopping, hy, -⟩ := Loop.watched_reachable (S := fun _ => True)
    (Q := fun _ _ _ => True) (tells_stop fun _ _ _ _ h => h) (fun _ _ _ _ _ _ _ _ _ => trivial) h
    (fun call p hp => by
      rw [hwork] at hp
      cases hp
      exact b.obeys_work polls rounds)
    (fun _ call _ _ _ => uses_true (b.setupCall call)) (Loop.watched_begin trivial) trivial
  -- from now on the monitor sees a worker that is being stopped
  have hstops : e.stops stopping (.error .cancelled) = true := by
    cases e with
    | join t => exact absurd rfl (hjoin t)
    | _ => simp only [Op.stops, hawait, Bool.or_true]
  have hnext : stopMonitor.next stopping e (.error .cancelled) true := by
    refine ⟨fun hsafe => ?_, hstops.symm⟩
    rw [safe_of_failure hact] at hsafe
    cases hsafe
  have hk := (hy.own _ _ hwork).2 (.error .cancelled) true hnext
  have hy' : Loop.Watched stopMonitor (fun _ _ => True) (fun _ => True) i (fun _ _ _ => True) false
      true (y.put P.kernel w' i (.work polls rounds) (k (.error .cancelled))) :=
    hy.put_own trivial hk
  have hcall : ∀ call p, y''.running i = some (call, p) →
      (b.setupCall call).Obeys stopMonitor (fun _ _ => True) false := by
    intro call p hp
    obtain ⟨p', hp'⟩ := Loop.running_reachable h' (Function.update_self i _ y.running)
    rw [hp] at hp'
    cases hp'
    exact b.obeys_work polls rounds
  obtain ⟨_, hy'', rfl⟩ := Loop.watched_reachable (S := fun stopping => stopping = true)
    (tells_stop (P := P) fun _ _ _ _ h => And.left h)
    (fun _ _ e r _ _ hs hact hnext => by
      obtain ⟨-, rfl⟩ := hnext
      rw [hs]
      exact stops_of_cleansUp (hact.2 rfl))
    h' hcall (fun _ call _ _ _ => uses_true (b.setupCall call)) hy' rfl
  have hp := hy''.own call p hi
  cases p with
  | op e k => exact hp.1 rfl
  | _ => rfl

end Stop

namespace Sample

/-- A worker can be cancelled where it waits for an operation or joins one, an operation where
it runs, and a lookup of a job can fail. -/
def cancellable : Scenario Unit where
  kind := .memory
  agent := agent
  raises
    | .wait _, .cancelled | .join _, .cancelled | .runnerStep .., .cancelled
    | .getSetupJob _, .other _ => true
    | _, _ => false

abbrev Here := Loop (World Unit) Op.Res Exc SetupReply SetupCall

def playHere (moves : List (Move SetupCall (Option Exc))) (y : Here) : Here :=
  Loop.play cancellable.platform.kernel cancellable.answer services.setupCall moves y

theorem reachable_playHere (moves : List (Move SetupCall (Option Exc))) (y : Here) :
    Relation.ReflTransGen
      (Loop.Step cancellable.platform.kernel World.Tick services.setupCall) y
      (playHere moves y) := cancellable.play_reachable _ _ _ _

/-- The worker awaits an operation that `f` holds of. -/
def awaits (f : Op → Bool) (y : Here) : Bool :=
  match y.running 0 with
  | some (.work _ _, .op e _) => f e
  | _ => false

theorem exists_of_awaits {f : Op → Bool} {y : Here} (h : awaits f y = true) :
    ∃ polls rounds e k, y.running 0 = some (.work polls rounds, .op e k) ∧ f e = true := by
  rw [awaits] at h
  split at h
  · rename_i polls rounds e k hwork
    exact ⟨polls, rounds, e, k, hwork, h⟩
  · cases h

def waits : Op → Bool
  | .wait 0 => true
  | _ => false

def joins : Op → Bool
  | .join t => t = 0
  | _ => false

/-- A schedule can tell the worker to stop where it waits for its operation or joins it. -/
theorem stopped_play {y : Here} {polls rounds : Nat} {e : Op} {k : e.Res → Task SetupReply}
    (w' : World Unit) (hwork : y.running 0 = some (.work polls rounds, .op e k))
    (hawait : e.suspends = true) (hturn : y.active = none)
    (hr : cancellable.answer 0 (some .cancelled) y.shared e = some (.error .cancelled, w')) :
    Stopped cancellable.platform 0 e y (playHere [.act 0 (some .cancelled)] y) := by
  refine ⟨polls, rounds, k, w', hawait, hturn, hwork, cancellable.answer_env 0 _ hr, ?_⟩
  simp only [playHere, Loop.play, hwork, hr, hturn, true_or, if_true]

/-- Task 1 creates a job; the worker, task 0, claims it, and its operation, task 2, begins. Then
task 6 creates another job. -/
def beginning : List (Move SetupCall (Option Exc)) :=
  [.start 1 (.create user form)] ++ acts 1 10 ++ [.start 0 (.work 3 2)] ++ acts 0 11 ++
    [.start 2 (.operation 0)] ++ acts 2 1 ++ [.start 6 (.create user form)] ++ acts 6 10

def begun : Here := playHere beginning { shared := { agents := () } }

/-- The worker is told to stop while it waits, and its operation ends as it is cancelled. -/
def stopping : Here := playHere [.act 0 (some .cancelled)] begun

def stopped : Here :=
  Loop.play (cancellable.platform.kernel.answering fun j _ e r => j = 0 → e.cleansUp r = true)
    (fun j fault => (cancellable.answer j fault).answering fun _ e r => j = 0 → e.cleansUp r = true)
    services.setupCall
    (acts 0 1 ++ [.act 2 (some .cancelled)] ++ acts 2 1 ++ acts 0 12) stopping

/-- Task 3 cancels the job, the worker takes notice of it, and the operation ends. -/
def joining : Here :=
  playHere ([.start 3 (.cancel user (lit "i"))] ++ acts 3 10 ++ acts 0 3 ++
    [.act 2 (some .cancelled)] ++ acts 2 1) begun

def resumed : Here := playHere (acts 0 8) (playHere [.act 0 (some .cancelled)] joining)

end Sample

theorem stop_heeded_waiting :
    Sample.stopped.shared.store.setupJobs.values.map (·.status) = [.failed, .queued] ∧
    ∀ call p, Sample.stopped.running 0 = some (call, p) → goesOn p = false := by
  refine ⟨by decide +kernel, fun call p hp => ?_⟩
  obtain ⟨polls, rounds, e, k, hwork, he⟩ :=
    Sample.exists_of_awaits (f := Sample.waits) (y := Sample.begun) (by decide +kernel)
  cases e with
  | wait t =>
    have hstop := Sample.stopped_play Sample.begun.shared hwork rfl (by decide +kernel) rfl
    refine stop_heeded (Sample.reachable_playHere _ _) hstop (by rintro t ⟨⟩) ?_ hp
    apply Loop.play_reachable
    intro j fault w e r w' h
    exact env_answering (Sample.cancellable.platform.env j)
      (fun _ _ _ _ => Sample.cancellable.answer_env j fault) h
  | _ => cases he

/-- Told to stop while it joins the operation of a cancelled job, the worker claims the next
job. -/
theorem stop_lost : ∃ (y y' y'' : Sample.Here) (t : Nat) (call : SetupCall) (p : Task SetupReply),
    Relation.ReflTransGen
      (Loop.Step Sample.cancellable.platform.kernel World.Tick Sample.services.setupCall)
      { shared := { agents := () } } y ∧
    Stopped Sample.cancellable.platform 0 (.join t) y y' ∧
    Relation.ReflTransGen
      (Loop.Step Sample.cancellable.platform.kernel World.Tick Sample.services.setupCall)
      y' y'' ∧
    y''.running 0 = some (call, p) ∧ goesOn p = true ∧
    y.shared.store.setupJobs.values.map (·.status) = [.cancelled, .queued] ∧
    y''.shared.store.setupJobs.values.map (·.status) = [.cancelled, .checkingSsh] := by
  obtain ⟨polls, rounds, e, k, hwork, he⟩ :=
    Sample.exists_of_awaits (f := Sample.joins) (y := Sample.joining) (by decide +kernel)
  obtain ⟨_, _, _, _, hgoes, he'⟩ :=
    Sample.exists_of_awaits (f := Op.goesOn) (y := Sample.resumed) (by decide +kernel)
  cases e with
  | join t =>
    obtain rfl : t = 0 := by simpa [Sample.joins] using he
    obtain ⟨outcome, houtcome⟩ : ∃ outcome,
        (Sample.joining.shared.tasks[0]?).bind (·.outcome) = some outcome :=
      Option.isSome_iff_exists.mp (by decide +kernel)
    have hr : Sample.cancellable.answer 0 (some .cancelled) Sample.joining.shared (.join 0) =
        some (.error .cancelled, Sample.joining.shared) := by
      simp only [Scenario.answer, houtcome]
      rfl
    have hstop := Sample.stopped_play _ hwork rfl (by decide +kernel) hr
    have hreach : Relation.ReflTransGen (Loop.Step Sample.cancellable.platform.kernel
        World.Tick Sample.services.setupCall) { shared := { agents := () } } Sample.joining :=
      (Sample.reachable_playHere _ _).trans (Sample.reachable_playHere _ _)
    exact ⟨Sample.joining, _, Sample.resumed, 0, _, _, hreach, hstop,
      Sample.reachable_playHere _ _, hgoes, he', by decide +kernel, by decide +kernel⟩
  | _ => cases he

end VpnControl.Backend
