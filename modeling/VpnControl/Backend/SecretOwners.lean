import VpnControl.Backend.JobLifecycle
import VpnControl.Backend.TidyTasks

namespace VpnControl.Backend
open Strings Json Effects Prog Function

variable {ω : Type} {D : Deployment ω} {b : Services} {i : Nat} {C₀ C C' : Cluster ω} {e : Op}
  {r : e.Res}

abbrev SetupLoop (ω : Type) : Type := Loop (Cluster ω) Op.Res Exc SetupReply SetupCall

namespace History

/-- The job that a transition cancelled. -/
def cancelledJob : Sigma Op.Res → Option Text
  | ⟨.transitionSetupJob jobId _ values, .ok (some _)⟩ =>
    if values.any fun | .status .cancelled => true | _ => false then some jobId else none
  | _ => none

theorem claims_of_inHand {h : History} {jobId : Text} (hhand : h.inHand i = some jobId) :
    h.claims jobId ≠ 0 := by
  obtain ⟨⟨j, x⟩, hmem, hx⟩ := List.exists_of_findSome?_eq_some hhand
  have hclaimed : claimedJob x = some jobId := by
    change (if j = i then claimedJob x else none) = some jobId at hx
    split at hx
    · exact hx
    · cases hx
  have hpos : 0 < h.claims jobId :=
    List.countP_pos_iff.mpr ⟨(j, x), hmem, by simpa using hclaimed⟩
  omega

end History

/-- A job is claimed or cancelled only by a process other than which none holds its secret. -/
def InOwnHands (D : Deployment ω) (C C' : Cluster ω) : Prop :=
  ∀ i x jobId, C'.history = (i, x) :: C.history →
    History.claimedJob x = some jobId ∨ History.cancelledJob x = some jobId →
    ∀ p, p ≠ D.processOf i → ¬ C.Holds p jobId

/-- The steps in which jobs stay in the hands of the process that has the secret. -/
def OwnStep (D : Deployment ω) (b : Services) (y y' : SetupLoop ω) : Prop :=
  Loop.Step D.parallel Cluster.Tick b.setupCall y y' ∧ InOwnHands D y.shared y'.shared

/-- Every task of process `p` waits for an answer or is over. -/
def AtRest (D : Deployment ω) (p : Nat) (y : SetupLoop ω) : Prop :=
  ∀ i call task, D.processOf i = p → y.running i = some (call, task) →
    task.atRest Op.suspends = true

/-- The secret of a job that has ended is held only where a task is about to forget it, and the
secret of a claimed job only where it was claimed. -/
structure SecretInv (D : Deployment ω) (y : SetupLoop ω) : Prop where
  tidy : ∀ i call task, y.running i = some (call, task) → Tidy task
  sole : ∀ i jobId, y.shared.history.inHand i = some jobId → ∀ p, p ≠ D.processOf i →
    ¬ y.shared.Holds p jobId
  leaving : ∀ jobId job, y.shared.store.getSetupJob jobId = some job → job.status.isTerminal = true →
    ∀ p, y.shared.Holds p jobId → ∃ i call k, D.processOf i = p ∧
      y.running i = some (call, .op (.popSecret jobId) k)

theorem not_holds_of_popSecret {jobId : Text} {r : Except Exc Unit}
    (h : D.step i C (.popSecret jobId) r C') : ¬ C'.Holds (D.processOf i) jobId := by
  obtain ⟨w, hact, rfl⟩ := h
  cases r with
  | error x => exact absurd hact.1 (by simp [Op.safe])
  | ok a =>
    obtain rfl : w = _ := hact
    simp [Cluster.Holds, Cluster.after, Table.get_erase]

/-- A job is not ended by values that do not end it. -/
theorem foldl_set_status {values : List JobValue} {job : SetupJob}
    (hends : values.any JobValue.ends = false)
    (h : (values.foldl SetupJob.set job).status.isTerminal = true) : job.status.isTerminal = true := by
  induction values generalizing job with
  | nil => exact h
  | cons value values ih =>
    rw [List.any_cons, Bool.or_eq_false_iff] at hends
    have hset := ih hends.2 h
    cases value with
    | status value =>
      have hvalue : value.isTerminal = false := hends.1
      rw [SetupJob.set, hvalue] at hset
      cases hset
    | _ => exact hset

theorem cancelledJob_cancelValues {jobId : Text} {expected : List SetupJobStatus} {now : Time}
    {job : SetupJob} : History.cancelledJob ⟨.transitionSetupJob jobId expected
      (Services.cancelValues now), .ok (some job)⟩ = some jobId := by
  simp [History.cancelledJob, Services.cancelValues]

section Step
variable {y y' : SetupLoop ω} {managed : Text → Prop}

/-- The secret of a job in hand is held in no other process. -/
theorem sole_step (hy : SecretInv D y) (hinv : SetupInv D managed y.shared)
    (hgrows : Grows y.shared y'.shared) (hown : InOwnHands D y.shared y'.shared) {x : Sigma Op.Res}
    (hhistory : y'.shared.history = (i, x) :: y.shared.history)
    (hclaimed : ∀ jobId, History.claimedJob x = some jobId →
      y.shared.store.getSetupJob jobId ≠ none) :
    ∀ j jobId, y'.shared.history.inHand j = some jobId → ∀ p, p ≠ D.processOf j →
      ¬ y'.shared.Holds p jobId := by
  intro j jobId hhand p hp hholds
  rw [hhistory, History.inHand, History.last_cons] at hhand
  rcases Option.or_eq_some_iff.mp hhand with hnew | ⟨-, hold⟩
  · split at hnew
    · rename_i hj
      subst hj
      exact hown i x jobId hhistory (.inl hnew) p hp (hgrows.secrets p jobId (hclaimed _ hnew) hholds)
    · cases hnew
  · obtain ⟨-, job, hjob, -⟩ := hinv.claims jobId (History.claims_of_inHand hold)
    exact hy.sole j jobId hold p hp (hgrows.secrets p jobId (by simp [hjob]) hholds)

/-- The secret of a job that had ended is still held only where it is about to be forgotten. -/
theorem leaving_kept (hy : SecretInv D y) (hgrows : Grows y.shared y'.shared) {call : SetupCall}
    {k : e.Res → Task SetupReply} {r : e.Res} {task : Task SetupReply}
    (hi : y.running i = some (call, .op e k)) (hact : D.step i y.shared e r y'.shared)
    (hrunning : y'.running = update y.running i (some (call, task))) {jobId : Text} {job : SetupJob}
    (hjob : y.shared.store.getSetupJob jobId = some job) (hterminal : job.status.isTerminal = true)
    {p : Nat} (hholds : y'.shared.Holds p jobId) : ∃ i call k, D.processOf i = p ∧
      y'.running i = some (call, .op (.popSecret jobId) k) := by
  obtain ⟨j, call', k', rfl, hj⟩ := hy.leaving jobId job hjob hterminal p
    (hgrows.secrets p jobId (by simp [hjob]) hholds)
  by_cases hij : j = i
  · subst hij
    rw [hi, Option.some.injEq, Prod.mk.injEq] at hj
    obtain ⟨-, hop⟩ := hj
    cases hop
    exact absurd hholds (not_holds_of_popSecret hact)
  · refine ⟨j, call', k', rfl, ?_⟩
    rw [hrunning, update_of_ne hij]
    exact hj

/-- Whoever ends a job is about to forget its secret, and no other process holds it. -/
theorem leaving_transition (hy : SecretInv D y) (hinv' : SetupInv D managed y'.shared)
    (hgrows : Grows y.shared y'.shared) (hown : InOwnHands D y.shared y'.shared) {call : SetupCall}
    {jobId : Text} {expected : List SetupJobStatus} {values : List JobValue} {job : SetupJob}
    {k : Except Exc (Option SetupJob) → Task SetupReply}
    (hi : y.running i = some (call, .op (.transitionSetupJob jobId expected values) k))
    (hact : D.step i y.shared (.transitionSetupJob jobId expected values) (.ok (some job)) y'.shared)
    (hrunning : y'.running = update y.running i (some (call, k (.ok (some job)))))
    (hends : values.any JobValue.ends = true) (hstored : y.shared.store.getSetupJob jobId ≠ none)
    {p : Nat} (hholds : y'.shared.Holds p jobId) : ∃ i call k, D.processOf i = p ∧
      y'.running i = some (call, .op (.popSecret jobId) k) := by
  have hhistory := D.step_history hact
  have hbefore := hgrows.secrets p jobId hstored hholds
  have hp : D.processOf i = p := by
    by_contra hp
    have hother : p ≠ D.processOf i := fun h => hp h.symm
    obtain ⟨-, ⟨now, rfl⟩ | ⟨hhand, -⟩⟩ :=
      hinv'.transitions i jobId values y.shared.history ⟨[], expected, job, hhistory⟩
    · exact hown i _ jobId hhistory (.inr cancelledJob_cancelValues) p hother hbefore
    · exact hy.sole i jobId hhand p hother hbefore
  obtain ⟨k', hk'⟩ := ((hy.tidy i call _ hi).follows (.ok (some job))).1 (.popSecret jobId)
    (if_pos hends)
  refine ⟨i, call, k', hp, ?_⟩
  rw [hrunning, update_self, hk']

theorem secretInv_step (hy : SecretInv D y) (hinv : SetupInv D managed y.shared)
    (hinv' : SetupInv D managed y'.shared) (hgrows : Grows y.shared y'.shared)
    (hstep : OwnStep D b y y') : SecretInv D y' := by
  obtain ⟨hstep, hown⟩ := hstep
  -- a new call, the clock, or a turn; only a turn can end a job or move a secret
  cases hstep with
  | start j call hj hturn =>
    refine ⟨fun l d task hl => ?_, hy.sole, fun jobId job hjob hterminal p hholds => ?_⟩
    · by_cases hjl : l = j
      · subst hjl
        rw [Loop.put_running_self, Option.some.injEq, Prod.mk.injEq] at hl
        obtain ⟨rfl, rfl⟩ := hl
        exact Services.tidy_setupCall b call
      · rw [Loop.put_running_of_ne _ _ _ _ _ hjl] at hl
        exact hy.tidy l d task hl
    · obtain ⟨l, d, k, hp, hl⟩ := hy.leaving jobId job hjob hterminal p hholds
      refine ⟨l, d, k, hp, ?_⟩
      rw [Loop.put_running_of_ne _ _ _ _ _ (by rintro rfl; simp [hj] at hl)]
      exact hl
  | @tick C' hturn htick =>
    refine ⟨hy.tidy, ?_, ?_⟩
    · intro j jobId hhand p hp hholds
      rw [htick.history] at hhand
      exact hy.sole j jobId hhand p hp (htick.holds hholds)
    · intro jobId job hjob hterminal p hholds
      rw [htick.store] at hjob
      exact hy.leaving jobId job hjob hterminal p (htick.holds hholds)
  | @act i call e k r C' hi hturn hact =>
    have hhistory := D.step_history hact
    have htidy := hy.tidy i call _ hi
    have hwrites := D.step_jobs_cases hact
    refine ⟨fun j d task hj => ?_, sole_step hy hinv hgrows hown hhistory ?_, ?_⟩
    · by_cases hij : j = i
      · subst hij
        rw [Loop.put_running_self, Option.some.injEq, Prod.mk.injEq] at hj
        obtain ⟨-, rfl⟩ := hj
        exact ⟨(htidy.follows r).2, htidy.stores.2 r⟩
      · rw [Loop.put_running_of_ne _ _ _ _ _ hij] at hj
        exact hy.tidy j d task hj
    -- a job that is claimed was queued, so it was stored
    · intro jobId hclaimed
      rcases hwrites with ⟨-, hnone, -⟩ | ⟨put, hwrite, -⟩
      · rw [hnone] at hclaimed
        cases hclaimed
      · generalize hx : (⟨e, r⟩ : Sigma Op.Res) = x at hwrite hclaimed
        cases hwrite with
        | save | transition => cases hclaimed
        | @claim queued hqueued at' currentStep =>
          cases hclaimed
          have hget := (mem_queuedSetupJobs.mp hqueued).1
          change y.shared.store.getSetupJob queued.id ≠ none
          simp [hget]
    -- a job that is terminal after the step: it was before, or this step ended it
    · intro jobId job hjob hterminal p hholds
      have hkept : ∀ {stored : SetupJob}, y.shared.store.getSetupJob jobId = some stored →
          stored.status.isTerminal = true → _ :=
        fun hstored hended => leaving_kept hy hgrows hi hact rfl hstored hended hholds
      change C'.store.getSetupJob jobId = some job at hjob
      rcases hwrites with ⟨hsame, -⟩ | ⟨put, hwrite, hput⟩
      · rw [Store.getSetupJob, hsame] at hjob
        exact hkept hjob hterminal
      have hget : (if jobId = put.id then some put else y.shared.store.getSetupJob jobId) =
          some job := by
        rw [← hjob, Store.getSetupJob, Store.getSetupJob, hput, Table.get_put]
      split at hget
      swap
      · exact hkept hget hterminal
      rename_i hid
      cases hget
      generalize hx : (⟨e, r⟩ : Sigma Op.Res) = x at hwrite
      cases hwrite with
      | save =>
        obtain rfl := (Sigma.mk.inj hx).1
        have hopen : job.status.isTerminal = false := htidy.stores.1
        rw [hopen] at hterminal
        cases hterminal
      | claim => cases hterminal
      | @transition target expected old values hold hexpected =>
        cases hx
        obtain rfl : target = jobId := by
          rw [hid, foldl_set_id]
          exact (Table.key_of_get hold).symm
        -- a transition that does not end the job found it ended already
        cases hends : values.any JobValue.ends with
        | false => exact hkept hold (foldl_set_status hends hterminal)
        | true =>
          exact leaving_transition hy hinv' hgrows hown hi hact rfl hends (by simp [hold]) hholds

end Step

section Run
variable {y y' : SetupLoop ω}

theorem OwnStep.reachable {y₀ : SetupLoop ω} (h : Relation.ReflTransGen (OwnStep D b) y₀ y) :
    Relation.ReflTransGen (Loop.Step D.parallel Cluster.Tick b.setupCall) y₀ y :=
  h.lift id fun _ _ hstep => hstep.1

/-- The operation that a step added to the history. -/
theorem step_of_history (hstep : Loop.Step D.parallel Cluster.Tick b.setupCall y y')
    (h : y'.shared.history = (i, ⟨e, r⟩) :: y.shared.history) :
    D.step i y.shared e r y'.shared := by
  have hne : y.shared.history ≠ (i, ⟨e, r⟩) :: y.shared.history := fun h => by
    simpa using congrArg List.length h
  cases hstep with
  | start => exact absurd h hne
  | tick _ htick => exact absurd (htick.history.symm.trans h) hne
  | @act j call e' k r' C' hj hturn hact =>
    have hentry := (D.step_history hact).symm.trans h
    obtain ⟨hhead, -⟩ := List.cons.inj hentry
    obtain ⟨rfl, hx⟩ := Prod.mk.inj hhead
    cases hx
    exact hact

theorem grows_step (hC : C₀.Initial)
    (h : Relation.ReflTransGen (Loop.Step D.parallel Cluster.Tick b.setupCall) { shared := C₀ } y)
    (hstep : Loop.Step D.parallel Cluster.Tick b.setupCall y y') : Grows y.shared y'.shared :=
  Loop.related_reachable (c := setupContract D fun _ => False) .refl (fun _ _ _ => .trans)
    (fun _ _ _ hrely => hrely.1.toGrows) (fun _ _ _ _ _ hleaves => hleaves)
    (fun _ _ htick hinv => htick.keeps hinv)
    (fun _ call _ hinv => Services.turn_setupCall b call hinv) (invariant_setup hC h)
    (active_parallel h) (.single hstep) (active_parallel (h.tail hstep))

theorem secretInv_reachable (hC : C₀.Initial)
    (h : Relation.ReflTransGen (OwnStep D b) { shared := C₀ } y) : SecretInv D y := by
  induction h with
  | refl =>
    refine ⟨by simp, ?_, ?_⟩
    · intro i jobId hhand
      simp [hC.history, History.inHand, History.last] at hhand
    · intro jobId job hjob
      simp [hC.jobs] at hjob
  | tail h hstep ih =>
    have hrun := OwnStep.reachable h
    have hinv : ∀ {y'}, Relation.ReflTransGen (Loop.Step D.parallel Cluster.Tick b.setupCall)
        { shared := C₀ } y' → SetupInv D (fun _ => False) y'.shared := setupInv_reachable hC
    exact secretInv_step ih (hinv hrun) (hinv (hrun.tail hstep.1)) (grows_step hC hrun hstep.1) hstep

/-- In every run in which jobs are claimed and cancelled by no other process than the one that
has their secrets: a job fails for a missing secret only if no process has the secret, and no
process that rests holds the secret of a job that has ended. -/
theorem secret_owners (hC : C₀.Initial)
    (h : Relation.ReflTransGen (OwnStep D b) { shared := C₀ } y) :
    (∀ y', OwnStep D b y y' → ∀ i jobId expected message now job,
      y'.shared.history = (i, ⟨.transitionSetupJob jobId expected
        (Services.failureValues message now), .ok (some job)⟩) :: y.shared.history →
      y.shared.history.missed i → ∀ p, ¬ y.shared.Holds p jobId) ∧
    ∀ jobId job, y.shared.store.getSetupJob jobId = some job → job.status.isTerminal = true →
      ∀ p, AtRest D p y → ¬ y.shared.Holds p jobId := by
  have hy := secretInv_reachable hC h
  have hrun := OwnStep.reachable h
  constructor
  · intro y' hstep i jobId expected message now job hhistory hmissed p hholds
    have hinv' : SetupInv D (fun _ => False) y'.shared := setupInv_reachable hC (hrun.tail hstep.1)
    obtain ⟨-, ⟨now, hvalues⟩ | ⟨hhand, hown⟩⟩ := hinv'.transitions i jobId _ y.shared.history
      ⟨[], expected, job, hhistory⟩
    · simp [Services.failureValues, Services.cancelValues] at hvalues
    by_cases hp : p = D.processOf i
    · subst hp
      have hact := step_of_history hstep.1 hhistory
      have hholds' := (D.step_holds hact (by simp [Op.writes]) _ _).mpr hholds
      exact hown hmissed hholds'
    · exact hy.sole i jobId hhand p hp hholds
  · intro jobId job hjob hterminal p hrest hholds
    obtain ⟨i, call, k, hp, hi⟩ := hy.leaving jobId job hjob hterminal p hholds
    exact absurd (hrest i call _ hp hi) (by simp [Prog.atRest, Op.suspends])

/-- With a single process, jobs stay in its hands. -/
theorem ownStep_of_single (hD : ∀ i j, D.processOf i = D.processOf j) (hC : C₀.Initial)
    (h : Relation.ReflTransGen (Loop.Step D.parallel Cluster.Tick b.setupCall) { shared := C₀ } y) :
    Relation.ReflTransGen (OwnStep D b) { shared := C₀ } y := by
  induction h with
  | refl => exact .refl
  | tail h hstep ih =>
    refine ih.tail ⟨hstep, fun i x jobId _ _ p hp hholds => ?_⟩
    have hinv : SetupInv D (fun _ => False) _ := setupInv_reachable hC h
    obtain ⟨j, rfl, -⟩ := hinv.secrets p jobId hholds
    exact hp (hD j i)

end Run

instance (C : Cluster ω) (p : Nat) (jobId : Text) : Decidable (C.Holds p jobId) :=
  inferInstanceAs (Decidable (_ ≠ none))

/-- Whether a job is claimed or cancelled while none of the other `n` processes has its secret. -/
def ownHands (D : Deployment ω) (n : Nat) (C C' : Cluster ω) : Bool :=
  match C'.history with
  | [] => true
  | (i, x) :: _ => ((History.claimedJob x).toList ++ (History.cancelledJob x).toList).all fun jobId =>
    (List.range n).all fun p => p == D.processOf i || decide (¬ C.Holds p jobId)

theorem inOwnHands_of_ownHands {n : Nat} {C C' : Cluster ω}
    (hn : ∀ p jobId, C.Holds p jobId → p < n) (h : ownHands D n C C' = true) : InOwnHands D C C' := by
  intro i x jobId hhistory hjob p hp hholds
  rw [ownHands, hhistory] at h
  have hmem : jobId ∈ (History.claimedJob x).toList ++ (History.cancelledJob x).toList := by
    simpa [Option.mem_toList] using hjob
  have hall := List.all_eq_true.mp (List.all_eq_true.mp h jobId hmem) p
    (List.mem_range.mpr (hn p jobId hholds))
  simp [hp, hholds] at hall

/-- Whether in the run of a schedule every job stays in the hands of the process that has its
secret. -/
def ownRun (S : Scenario ω) (b : Services) (processOf : Nat → Nat) (n : Nat) :
    List (Move SetupCall (Option Exc)) → SetupLoop ω → Bool
  | [], _ => true
  | m :: moves, y =>
    let y' := Loop.play (S.deployment processOf).parallel (S.answerAmong processOf) b.setupCall [m] y
    ownHands (S.deployment processOf) n y.shared y'.shared && ownRun S b processOf n moves y'

theorem reachable_ownRun {S : Scenario ω} {processOf : Nat → Nat} {n : Nat}
    (hn : ∀ i, processOf i < n) {C₀ : Cluster ω} (hC : C₀.Initial)
    {moves : List (Move SetupCall (Option Exc))} {y : SetupLoop ω}
    (hy : Relation.ReflTransGen (OwnStep (S.deployment processOf) b) { shared := C₀ } y)
    (h : ownRun S b processOf n moves y = true) :
    Relation.ReflTransGen (OwnStep (S.deployment processOf) b) { shared := C₀ }
      (Loop.play (S.deployment processOf).parallel (S.answerAmong processOf) b.setupCall moves y) := by
  induction moves generalizing y with
  | nil => exact hy
  | cons m moves ih =>
    obtain ⟨hown, hrest⟩ := Bool.and_eq_true_iff.mp h
    rw [Loop.play_cons]
    refine ih ?_ hrest
    have hholds : ∀ p jobId, y.shared.Holds p jobId → p < n := by
      intro p jobId hp
      have hinv : SetupInv (S.deployment processOf) (fun _ => False) y.shared :=
        setupInv_reachable hC (OwnStep.reachable hy)
      obtain ⟨i, rfl, -⟩ := hinv.secrets p jobId hp
      exact hn i
    rcases Loop.play_move (K := (S.deployment processOf).parallel)
      (fun i fault _ _ _ _ h => S.answerAmong_step processOf i fault h) Cluster.Tick b.setupCall m y
      with hsame | hstep
    · rw [hsame]
      exact hy
    · exact hy.tail ⟨hstep, inOwnHands_of_ownHands hholds hown⟩

/-- The tasks that a schedule begins are all that there are. -/
theorem atRest_of_play {S : Scenario ω} {processOf : Nat → Nat} {moves : List (Move SetupCall (Option Exc))}
    {y : SetupLoop ω} {p n : Nat} (hmoves : ∀ i call, .start i call ∈ moves → i < n)
    (hnone : ∀ i, y.running i = none)
    (hrest : ∀ i < n, processOf i = p → (((Loop.play (S.deployment processOf).parallel
      (S.answerAmong processOf) b.setupCall moves y).running i).map
        fun (_, task) => task.atRest Op.suspends) ≠ some false) :
    AtRest (S.deployment processOf) p (Loop.play (S.deployment processOf).parallel
      (S.answerAmong processOf) b.setupCall moves y) := by
  intro i call task hp hi
  by_cases hn : i < n
  · have htask := hrest i hn hp
    rw [hi] at htask
    simpa using htask
  · rw [Loop.play_running (fun call hcall => hn (hmoves i call hcall)) (hnone i)] at hi
    cases hi

namespace Sample

def processes (i : Nat) : Nat := if i < 6 then 0 else 1

def shifted {Call Choice : Type} (k : Nat) : Move Call Choice → Move Call Choice
  | .start i call => .start (i + k) call
  | .act i choice => .act (i + k) choice

/-- Each of two processes creates a job and claims it, and then they install one after the other. -/
def installations : List (Move SetupCall (Option Exc)) :=
  let claim := creation ++ installation.take 12
  let rest := installation.drop 12
  claim ++ claim.map (shifted 6) ++ rest ++ rest.map (shifted 6)

def installationsRun : SetupLoop Unit := play processes installations { shared := cluster {} }

/-- Process 1 creates a job, and the worker of process 0 claims it. -/
def strayRun : SetupLoop Unit :=
  play id (creation ++ [.start 0 (.work 3 2)] ++ acts 0 17) { shared := cluster {} }

end Sample

theorem secret_owners_installed :
    Sample.installationsRun.shared.store.setupJobs.values.map (·.status) = [.success, .success] ∧
    (∀ p, AtRest ((Sample.scenario .database).deployment Sample.processes) p Sample.installationsRun) ∧
    ∀ jobId job, Sample.installationsRun.shared.store.getSetupJob jobId = some job →
      job.status.isTerminal = true → ∀ p, ¬ Sample.installationsRun.shared.Holds p jobId := by
  have hC : (Sample.cluster {}).Initial := Sample.initial_cluster {} fun _ => rfl
  have hown : ownRun (Sample.scenario .database) Sample.services Sample.processes 2
      Sample.installations { shared := Sample.cluster {} } = true := by decide +kernel
  have hprocesses : ∀ i, Sample.processes i < 2 := by
    intro i
    rw [Sample.processes]
    split <;> omega
  have hrest : ∀ p, AtRest ((Sample.scenario .database).deployment Sample.processes) p
      Sample.installationsRun := by
    refine fun p => atRest_of_play (n := 12) (fun i call hmem => ?_) (fun _ => rfl) fun i hi _ => ?_
    · have htasks : ∀ m ∈ Sample.installations, m.task < 12 := by decide +kernel
      exact htasks _ hmem
    · have hall : ∀ i < 12, (Sample.installationsRun.running i).map
          (fun (_, task) => task.atRest Op.suspends) ≠ some false := by decide +kernel
      exact hall i hi
  refine ⟨by decide +kernel, hrest, fun jobId job hjob hterminal p => ?_⟩
  exact (secret_owners hC (reachable_ownRun hprocesses hC .refl hown)).2 jobId job hjob hterminal p
    (hrest p)

/-- A job that the worker of another process claims fails for the missing secret, which its own
process goes on to hold. -/
theorem secret_lost_elsewhere :
    Relation.ReflTransGen (Loop.Step ((Sample.scenario .database).deployment id).parallel
      Cluster.Tick Sample.services.setupCall) { shared := Sample.cluster {} } Sample.strayRun ∧
    (Sample.strayRun.shared.store.getSetupJob (lit "i")).map (fun job =>
      (job.status, job.errorMessage)) = some (.failed, some Services.secretLost) ∧
    Sample.strayRun.shared.Holds 1 (lit "i") ∧
    ∀ p, AtRest ((Sample.scenario .database).deployment id) p Sample.strayRun := by
  refine ⟨(Sample.scenario .database).play_parallel _ _ _ _, by decide +kernel, by decide +kernel,
    fun p => atRest_of_play (n := 2) ?_ (fun _ => rfl) ?_⟩
  · intro i call hmem
    simp [Sample.creation, Sample.acts] at hmem
    omega
  · intro i hi _
    rcases (by omega : i = 0 ∨ i = 1) with rfl | rfl
    · change (Sample.strayRun.running 0).map _ ≠ _
      decide +kernel
    · change (Sample.strayRun.running 1).map _ ≠ _
      decide +kernel

end VpnControl.Backend
