import VpnControl.Backend.WorkerParts
import VpnControl.Backend.StoppedWorker

namespace VpnControl.Backend
open Strings Json Effects Prog

/-- What the worker does to the operation `t` until it is done, the lookups of the job included. -/
def Op.attends (t : Nat) : Op → Bool
  | wait t' | cancelTask t' | join t' => t' = t
  | getSetupJob _ | pending => true
  | _ => false

/-- The operation that the worker still has to see to after an answer. -/
def Op.inFlight (current : Option Nat) : (e : Op) → e.Res → Option Nat
  | ensureFuture _, .ok t => some t
  | wait _, .ok true => none
  | join _, _ => none
  | _, _ => current

/-- A lookup of a job finds it. -/
def Op.found : (e : Op) → e.Res → Bool
  | getSetupJob _, .ok (some _) => true
  | getSetupJob _, _ => false
  | _, _ => true

/-- Waiting raises nothing but what tells the worker to stop. -/
def Platform.WaitWorks {ω : Type} (P : Platform ω) : Prop :=
  ∀ t x, P.raises (.wait t) x → x = .cancelled

/-- A worker has one operation at a time and leaves none behind, if its lookups find the job. -/
def operationMonitor : Monitor (Option Nat) Op Op.Res where
  may current e := ∀ t, current = some t → e.attends t = true
  next current e r current' := e.found r = true ∧ e ≠ .pending ∧ (e.safe = true → ∃ a, r = .ok a) ∧
    (∀ t x, (⟨e, r⟩ : Sigma Op.Res) = ⟨.wait t, .error x⟩ → x = .cancelled) ∧
    current' = e.inFlight current r

/-- A part of the worker at whose end no operation is in flight if there was none before. -/
abbrev SeesTo {α : Type} (p : Task α) : Prop :=
  p.Obeys operationMonitor (fun _ current => current = none) none

section SeesTo
variable {α β : Type}

theorem seesTo_bind {p : Task α} {f : α → Task β} (hp : SeesTo p) (hf : ∀ a, SeesTo (f a)) :
    SeesTo (p >>= f) := by
  refine obeys_seq hp ?_ fun _ _ h => h
  rintro a _ rfl
  exact hf a

theorem seesTo_attempt {p : Task α} (hp : SeesTo p) : SeesTo p.attempt := obeys_attempt hp

theorem seesTo_uses {p : Task α} (hp : p.Uses fun e => ∀ r, e.inFlight none r = none) :
    SeesTo p := by
  refine obeys_uses (I := fun current => current = none) ?_ ?_ hp rfl
  · rintro _ e - rfl t ⟨⟩
  · rintro _ e r current' he rfl ⟨-, -, -, -, rfl⟩
    exact he r

theorem inFlight_of_atOnce {e : Op} (he : e.atOnce = true) (r : e.Res) : e.inFlight none r = none := by
  cases e <;> first | rfl | cases he

theorem seesTo_atOnce {p : Task α} (hp : AtOnce p) : SeesTo p :=
  seesTo_uses (hp.mono fun _ => inFlight_of_atOnce)

theorem seesTo_ask {e : Op} (he : ∀ r, e.inFlight none r = none) : SeesTo (ask e) :=
  seesTo_uses (uses_bind (uses_perform he) fun _ => uses_lift _)

/-- Joining a task sees to it. -/
theorem seesTo_cleanup (t : Nat) {current : Option Nat} (hcurrent : current = none ∨ current = some t)
    {p : Task α} (hp : SeesTo p) :
    (ask (.cancelTask t) >>= fun _ => suppressCancelled (ask (.join t)) >>= fun _ => p).Obeys
      operationMonitor (fun _ current => current = none) current := by
  have hmay : ∀ e : Op, e.attends t = true → operationMonitor.may current e := by
    intro e he t' ht'
    rcases hcurrent with rfl | rfl
    · cases ht'
    · cases ht'
      exact he
  have hjoin : (suppressCancelled (ask (.join t))).Obeys operationMonitor
      (fun _ current => current = none) current := by
    refine ⟨hmay _ (by simp [Op.attends]), ?_⟩
    rintro r _ ⟨-, -, -, -, rfl⟩
    rcases r with x | a
    · cases x <;> rfl
    · rfl
  refine ⟨hmay _ (by simp [Op.attends]), ?_⟩
  rintro r current' ⟨-, -, hok, -, hcurrent'⟩
  obtain ⟨a, rfl⟩ := hok rfl
  rw [hcurrent']
  change (suppressCancelled (ask (.join t)) >>= fun _ => p).Obeys _ _ current
  refine obeys_seq hjoin ?_ fun _ _ h => h
  rintro _ _ rfl
  exact hp

namespace Services
variable (b : Services)

/-- Where the polling ends with its task in flight, it was told to stop. -/
theorem obeys_poll (jobId : Text) (t polls : Nat) :
    (poll jobId t polls).Obeys operationMonitor
      (fun r current => current = none ∨ current = some t ∧ r = .error .cancelled) (some t) := by
  induction polls with
  | zero =>
    refine ⟨by rintro _ ⟨⟩; rfl, ?_⟩
    rintro r _ ⟨-, hpending, -⟩
    exact absurd rfl hpending
  | succ polls ih =>
    refine ⟨by rintro _ ⟨⟩; simp [Op.attends], ?_⟩
    rintro r _ ⟨-, -, -, hwait, rfl⟩
    rcases r with x | _ | _
    · obtain rfl := hwait t x rfl
      exact .inr ⟨rfl, rfl⟩
    · refine ⟨by rintro _ ⟨⟩; rfl, ?_⟩
      rintro r _ ⟨hfound, -, -, -, rfl⟩
      rcases r with x | _ | job
      · cases hfound
      · cases hfound
      change (if job.status = .cancelled then _ else poll jobId t polls : Task _).Obeys _ _ (some t)
      split
      · exact obeys_mono (seesTo_cleanup t (.inr rfl) (p := ret (false, none)) rfl)
          fun _ _ h => .inl h
      · exact ih
    · have hresult : SeesTo (ask (.result t) >>= fun checked => ret (true, checked)) :=
        seesTo_bind (seesTo_ask fun _ => rfl) fun checked => rfl
      exact obeys_mono hresult fun _ _ h => .inl h

theorem seesTo_runCancellable (polls : Nat) (jobId : Text) (operation : Operation) :
    SeesTo (runCancellable polls jobId operation) := by
  refine ⟨by rintro _ ⟨⟩, ?_⟩
  rintro r _ ⟨-, -, hok, -, rfl⟩
  obtain ⟨t, rfl⟩ := hok rfl
  refine obeys_seq_attempt (obeys_poll jobId t polls) ?_
  rintro r current (rfl | ⟨rfl, rfl⟩)
  · unfold stopOperation
    split
    · exact seesTo_cleanup t (.inl rfl) (p := fail .cancelled) rfl
    · exact obeys_lift rfl
  · exact seesTo_cleanup t (.inr rfl) (p := fail .cancelled) rfl

theorem seesTo_claim : SeesTo (withStorageLock claimNext) := by
  have hclaim : SeesTo claimNext := by
    refine seesTo_bind (seesTo_ask fun _ => rfl) fun now => seesTo_bind (seesTo_ask fun _ => rfl) ?_
    rintro (_ | job)
    · rfl
    · exact seesTo_bind (seesTo_atOnce (atOnce_addEvent _ _ _ _ _)) fun _ => rfl
  exact seesTo_bind (seesTo_ask fun _ => rfl) fun _ => seesTo_bind (seesTo_attempt hclaim) fun r =>
    seesTo_bind (seesTo_ask fun _ => rfl) fun _ => obeys_lift rfl

theorem seesTo_parts : OfParts b SeesTo where
  ret _ := rfl
  fail _ := rfl
  bind := seesTo_bind
  attempt := seesTo_attempt
  pending := seesTo_ask fun _ => rfl
  sleep := seesTo_ask fun _ => rfl
  claim := seesTo_claim
  getSecret _ := seesTo_ask fun _ => rfl
  popSecret _ := seesTo_ask fun _ => rfl
  newCredentials job := seesTo_atOnce (atOnce_newCredentials b job)
  addEvent _ _ _ _ := seesTo_atOnce (atOnce_addEvent _ _ _ _ _)
  setStep _ _ _ _ _ := seesTo_atOnce (atOnce_setStep _ _ _ _)
  finishFailed _ _ := seesTo_atOnce (atOnce_finishFailed _ _)
  finishSuccess _ _ := seesTo_atOnce (atOnce_finishSuccess _ _)
  createFromSetup _ _ _ _ := seesTo_atOnce (atOnce_createFromSetup _ _ _ _)
  activateAfterSetup _ _ := seesTo_atOnce (atOnce_activateAfterSetup _ _)
  runCancellable := seesTo_runCancellable

end Services
end SeesTo

/-- Nothing begins an operation but the worker. -/
def Op.beginsNone : Op → Bool
  | ensureFuture _ => false
  | _ => true

/-- Only the operation `current` may still be in flight. -/
def OnlyInFlight {ω : Type} (w : World ω) (current : Option Nat) : Prop :=
  ∀ t task, w.tasks[t]? = some task → task.outcome = none → current = some t

section Run
variable {ω : Type} {P : Platform ω} {b : Services} {i : Nat} {w w' : World ω}
  {y : Loop (World ω) Op.Res Exc SetupReply SetupCall}

/-- An operation that had ended has ended for good. -/
theorem unfinished_of_step {j : Nat} {e : Op} {r : e.Res} (h : P.env j w e r w')
    (he : e.beginsNone = true) {t : Nat} {task' : AsyncTask} (ht : w'.tasks[t]? = some task')
    (hopen : task'.outcome = none) : ∃ task, w.tasks[t]? = some task ∧ task.outcome = none := by
  -- an operation that replaces a task leaves its outcome or gives it one
  have hset : ∀ (n : Nat) (f : AsyncTask → AsyncTask), w'.tasks = setTask w.tasks n f →
      (∀ task, (f task).outcome = none → task.outcome = none) →
      ∃ task, w.tasks[t]? = some task ∧ task.outcome = none := by
    intro n f htasks hf
    rw [htasks, setTask, List.getElem?_modify] at ht
    obtain ⟨task, htask, heq⟩ := Option.map_eq_some_iff.mp ht
    refine ⟨task, htask, ?_⟩
    split at heq
    · exact hf task (heq ▸ hopen)
    · exact heq ▸ hopen
  have hsame : e.writes ≠ some .tasks → w'.tasks = w.tasks := by
    intro hwrites
    cases r with
    | ok a => exact (effect_frame h).2 .tasks hwrites
    | error x => exact (failure_frame h).2 .tasks hwrites
  by_cases hwrites : e.writes = some .tasks
  · cases e with
    | ensureFuture => cases he
    | begin n =>
      refine hset n ({ · with started := true }) ?_ fun task h => h
      rcases r with x | operation
      · obtain ⟨_, -, -, -, -, rfl⟩ := h
        rfl
      · obtain ⟨_, -, -, -, rfl⟩ := h
        rfl
    | settle n outcome =>
      refine hset n (AsyncTask.settle outcome) ?_ fun task h => ?_
      · rcases r with x | _
        · cases h.1
        · exact congrArg World.tasks h
      · rw [AsyncTask.settle] at h
        cases htask : task.outcome with
        | none => rfl
        | some out => simp [htask] at h
    | cancelTask n =>
      refine hset n ({ · with cancelRequested := true }) ?_ fun task h => h
      rcases r with x | _
      · cases h.1
      · exact congrArg World.tasks h
    | _ => cases hwrites
  · exact ⟨task', hsame hwrites ▸ ht, hopen⟩

/-- What an operation of the worker leaves in flight. -/
theorem onlyInFlight_step {current : Option Nat} {e : Op} {r : e.Res} (hw : OnlyInFlight w current)
    (hmay : operationMonitor.may current e) (h : P.env i w e r w') :
    OnlyInFlight w' (e.inFlight current r) := by
  -- an operation that is done is none of those in flight
  have hdone : ∀ n task, w.tasks[n]? = some task → task.outcome.isSome = true → w' = w →
      (∀ t, current = some t → t = n) → OnlyInFlight w' none := by
    rintro n task htask hsome rfl hcurrent t task' ht hopen
    have ht' := hw t task' ht hopen
    obtain rfl := hcurrent t ht'
    rw [htask, Option.some.injEq] at ht
    subst ht
    rw [hopen] at hsome
    cases hsome
  have hkeep : e.beginsNone = true → OnlyInFlight w' current := fun he t task' ht hopen => by
    obtain ⟨task, htask, hnone⟩ := unfinished_of_step h he ht hopen
    exact hw t task htask hnone
  cases e with
  | ensureFuture operation =>
    rcases r with x | n
    · cases h.1
    obtain ⟨rfl, rfl⟩ := h
    have hnone : current = none := by
      cases current with
      | none => rfl
      | some t => cases hmay t rfl
    intro t task' ht hopen
    simp only [List.getElem?_append] at ht
    split at ht
    · have hold := hw t task' ht hopen
      rw [hnone] at hold
      cases hold
    · rename_i hlt
      rw [List.getElem?_singleton] at ht
      split at ht
      · exact congrArg some (by omega)
      · cases ht
  | wait n =>
    rcases r with x | _ | _
    · exact hkeep rfl
    · exact hkeep rfl
    · obtain ⟨⟨task, htask, hsome⟩, rfl⟩ := h
      exact hdone n task htask hsome.symm rfl fun t ht => by simpa [Op.attends, eq_comm] using hmay t ht
  | join n =>
    have hcurrent : ∀ t, current = some t → t = n :=
      fun t ht => by simpa [Op.attends, eq_comm] using hmay t ht
    rcases r with x | checked
    · obtain ⟨rfl, task, htask, hsome, -⟩ := h
      exact hdone n task htask hsome rfl hcurrent
    · obtain ⟨⟨task, htask, hsome⟩, rfl⟩ := h
      exact hdone n task htask (by rw [hsome]; rfl) rfl hcurrent
  | _ => exact hkeep rfl

theorem tells_operations (hwait : P.WaitWorks) :
    Loop.Tells (P.kernel.answering fun j _ e r => j = i → e.found r = true) World.Tick
      operationMonitor OnlyInFlight (fun e => e.beginsNone = true) i where
  own := by
    intro w current e r w' hw hmay hact
    obtain ⟨hact, hfound⟩ := hact
    refine ⟨_, ⟨hfound rfl, ?_, fun hsafe => ?_, ?_, rfl⟩, onlyInFlight_step hw hmay hact⟩
    · rintro rfl
      rcases r with x | a
      · cases hact.1
      · exact hact
    · rcases r with x | a
      · have hfailure : P.failure w e x w' := hact
        rw [safe_of_failure hfailure] at hsafe
        cases hsafe
      · exact ⟨a, rfl⟩
    · rintro t x heq
      cases heq
      exact hwait t x hact.2.1
  others := fun _ he hw hact t task' ht hopen => by
    obtain ⟨task, htask, hnone⟩ := unfinished_of_step hact.1 he ht hopen
    exact hw t task htask hnone
  tick := by
    rintro w current _ hw ⟨now, agents, rfl⟩
    exact hw

/-- Calls that begin no operation: all but the worker. -/
def SetupCall.others : SetupCall → Bool
  | work .. => false
  | _ => true

/-- What a task is about to do to an operation in flight. -/
def attends {α : Type} (t : Nat) : Task α → Bool
  | .op e _ => e.attends t
  | _ => false

theorem Services.uses_others (b : Services) {call : SetupCall} (hcall : call.others = true) :
    (b.setupCall call).Uses fun e => e.beginsNone = true := by
  have hatOnce : ∀ {α : Type} {p : Task α} (f : α → SetupReply), AtOnce p →
      (p >>= fun a => pure (f a)).Uses fun e => e.beginsNone = true := by
    intro α p f hp
    refine uses_bind (hp.mono fun e he => ?_) fun a => trivial
    cases e <;> first | rfl | cases he
  cases call with
  | create actor form => exact hatOnce _ (atOnce_createJob b actor form)
  | get jobId => exact hatOnce _ (atOnce_getJob jobId)
  | list => exact hatOnce _ (atOnce_ask rfl)
  | events jobId => exact hatOnce _ (atOnce_bind (atOnce_getJob jobId) fun _ => atOnce_ask rfl)
  | start jobId => exact hatOnce _ (atOnce_startJob b jobId)
  | cancel actor jobId => exact hatOnce _ (atOnce_cancelJob actor jobId)
  | work => cases hcall
  | operation t =>
    refine uses_bind ((operates_operationTask b t).mono fun e he => ?_) fun a => trivial
    cases e <;> first | rfl | cases he

theorem Services.seesTo_setupCall (b : Services) (call : SetupCall) : SeesTo (b.setupCall call) := by
  by_cases hcall : call.others = true
  · refine seesTo_uses ((b.uses_others hcall).mono fun e he r => ?_)
    cases e with
    | ensureFuture => cases he
    | wait => rcases r with _ | _ | _ <;> rfl
    | _ => rfl
  · cases call with
    | work polls rounds => exact seesTo_bind (b.seesTo_parts.loop polls rounds) fun _ => rfl
    | _ => exact absurd rfl hcall

/-- In a process with one worker whose lookups find the job: at most one operation is ever in
flight, and only while the worker sees to it. -/
theorem operations_awaited (hwait : P.WaitWorks) (htasks : w.tasks = [])
    (h : Relation.ReflTransGen (Loop.Step (P.kernel.answering fun j _ e r => j = i → e.found r = true)
      World.Tick b.setupCall) { shared := w } y)
    (hworker : ∀ j call p, j ≠ i → y.running j = some (call, p) → call.others = true)
    {call : SetupCall} {p : Task SetupReply} (hi : y.running i = some (call, p)) :
    (∀ (t t' : Nat) (task task' : AsyncTask), y.shared.tasks[t]? = some task →
      y.shared.tasks[t']? = some task' → task.outcome = none → task'.outcome = none → t = t') ∧
    ∀ (t : Nat) (task : AsyncTask), y.shared.tasks[t]? = some task → task.outcome = none →
      attends t p = true := by
  have hnone : OnlyInFlight w none := by
    intro t task ht
    rw [htasks] at ht
    cases ht
  obtain ⟨current, hy, -⟩ := Loop.watched_reachable (S := fun _ => True)
    (Q := fun _ _ current => current = none) (tells_operations hwait)
    (fun _ _ _ _ _ _ _ _ _ => trivial) h (fun call _ _ => b.seesTo_setupCall call)
    (fun j call p hj hp => b.uses_others (hworker j call p hj hp)) (Loop.watched_begin hnone) trivial
  constructor
  · intro t t' task task' ht ht' hopen hopen'
    exact Option.some.inj ((hy.tells t task ht hopen).symm.trans (hy.tells t' task' ht' hopen'))
  · intro t task ht hopen
    have hcurrent := hy.tells t task ht hopen
    have hp := hy.own call p hi
    cases p with
    | op e k => exact hp.1 t hcurrent
    | ret a =>
      rw [hcurrent] at hp
      cases hp
    | fail x =>
      rw [hcurrent] at hp
      cases hp

end Run
namespace Sample

/-- The first lookup finds the job. -/
def polling : Here :=
  Loop.play (cancellable.platform.kernel.answering fun j _ e r => j = 0 → e.found r = true)
    (fun j fault => (cancellable.answer j fault).answering fun _ e r => j = 0 → e.found r = true)
    services.setupCall (beginning ++ acts 0 2) { shared := { agents := () } }

/-- The first lookup raises, and the worker goes on to the other job. -/
def abandoned : Here :=
  playHere (beginning ++ acts 0 1 ++ [.act 0 (some (.other (lit "OperationalError")))] ++ acts 0 21)
    { shared := { agents := () } }

theorem waitWorks : cancellable.platform.WaitWorks := by
  rintro t (_ | _ | _ | _ | _) h
  · cases h
  · cases h
  · cases h
  · rfl
  · cases h

end Sample

theorem operations_awaited_polling :
    Sample.polling.shared.tasks.map (·.outcome.isNone) = [true] ∧
    ∀ call p, Sample.polling.running 0 = some (call, p) → ∀ (t : Nat) (task : AsyncTask),
      Sample.polling.shared.tasks[t]? = some task → task.outcome = none → attends t p = true := by
  refine ⟨by decide +kernel, fun call p hp => ?_⟩
  have htasks : ({ agents := () } : World Unit).tasks = [] := rfl
  refine (operations_awaited (b := Sample.services) Sample.waitWorks htasks ?_ ?_ hp).2
  · apply Loop.play_reachable
    intro j fault w e r w' h
    exact env_answering (Sample.cancellable.platform.env j)
      (fun _ _ _ _ => Sample.cancellable.answer_env j fault) h
  · refine fun j call p hj hcall => Loop.others_of_started [1, 2, 6] (fun j hj => ?_)
      (by decide +kernel) hj hcall
    exact Loop.play_running (by simp_all [Sample.beginning, Sample.acts]) rfl

/-- A lookup that raises leaves the operation running behind a failed job, and another one
begins. -/
theorem lookup_leaves_operation :
    Relation.ReflTransGen (Loop.Step Sample.cancellable.platform.kernel World.Tick
      Sample.services.setupCall) { shared := { agents := () } } Sample.abandoned ∧
    (∀ j call p, j ≠ 0 → Sample.abandoned.running j = some (call, p) → call.others = true) ∧
    Sample.abandoned.shared.store.setupJobs.values.map (·.status) = [.failed, .checkingSsh] ∧
    Sample.abandoned.shared.tasks.map (·.outcome.isNone) = [true, true] := by
  refine ⟨Sample.cancellable.play_reachable _ _ _ _, ?_, by decide +kernel, by decide +kernel⟩
  refine fun j call p hj hcall => Loop.others_of_started [1, 2, 6] (fun j hj => ?_)
    (by decide +kernel) hj hcall
  exact Loop.play_running (by simp_all [Sample.beginning, Sample.acts]) rfl

end VpnControl.Backend
