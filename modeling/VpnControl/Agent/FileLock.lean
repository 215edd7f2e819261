import VpnControl.Agent.ScriptSystem
import VpnControl.Lib.FileLocks

namespace VpnControl.Agent
open Strings Effects Prog Function FileLocks

/-- What `AcquireLock` knows while it waits: its open file, when it began and how many of its
attempts were refused. -/
structure Attempt where
  fd : Nat
  start : Nat
  refused : Nat

/-- Where a caller is in `AcquireLock` and `Release`. -/
inductive LockPhase where
  | outside
  | trying (a : Attempt)
  | blocked (a : Attempt)
  | sleeping (a : Attempt) (wake : Nat)
  | holding (fd : Nat)
  /-- The lock was given back, and the file is still open. -/
  | unlocked (fd : Nat)
  /-- The lock could not be given back, and goes when the file is closed. -/
  | keeping (fd : Nat)

/-- The file that a caller has open. -/
def LockPhase.descriptor : LockPhase → Option Nat
  | outside => none
  | trying a => some a.fd
  | blocked a => some a.fd
  | sleeping a _ => some a.fd
  | holding fd => some fd
  | unlocked fd => some fd
  | keeping fd => some fd

/-- The file by which a caller has the lock. -/
def LockPhase.keeps : LockPhase → Option Nat
  | holding fd => some fd
  | keeping fd => some fd
  | _ => none

/-- How often a caller that waits was refused so far. -/
def LockPhase.refusals : LockPhase → Nat
  | trying a => a.refused
  | blocked a => a.refused + 1
  | sleeping a _ => a.refused + 1
  | _ => 0

section System
variable {σ τ E ε α Call : Type} {Res : E → Type}

structure LockCaller (τ : Type) {E : Type} (Res : E → Type) (ε α Call : Type) where
  call : Call
  phase : LockPhase
  program : LockProg τ Res ε α

/-- Callers that take and give back the lock of one file, and the clock, in nanoseconds. -/
structure LockSystem (σ : Type) {E : Type} (Res : E → Type) (τ ε α Call : Type) where
  shared : σ
  locks : Locks := {}
  clock : Nat := 0
  running : Nat → Option (LockCaller τ Res ε α Call) := fun _ => none
  history : List (Call × Except ε α) := []

namespace LockSystem

/-- `lockAcquireTimeout` and `lockRetryInterval`, in nanoseconds. -/
def lockAcquireTimeout : Nat := 10 * 10 ^ 9

def lockRetryInterval : Nat := 100 * 10 ^ 6

/-- A caller goes on. -/
def put (y : LockSystem σ Res τ ε α Call) (i : Nat) (x : LockCaller τ Res ε α Call) :
    LockSystem σ Res τ ε α Call :=
  { y with running := update y.running i (some x) }

/-- A caller is gone. -/
def drop (y : LockSystem σ Res τ ε α Call) (i : Nat) : LockSystem σ Res τ ε α Call :=
  { y with running := update y.running i none }

/-- The outcome of a program, when its critical section is over. -/
def finished (c : Call) (p : LockProg τ Res ε α) : List (Call × Except ε α) :=
  (p.outcome.map fun out => (c, out)).toList

/-- One step of one caller, or of the world around them: `AcquireLock` opens the file, tries
to lock it without waiting, and sleeps between two attempts until it is late; `Release`
unlocks and closes it. `held` is the error for a lock that stays with someone else. -/
inductive Step (held : τ) (env : Env σ E Res) (tick : σ → σ → Prop)
    (program : Call → LockProg τ Res ε α) :
    LockSystem σ Res τ ε α Call → LockSystem σ Res τ ε α Call → Prop
  | start {y} (i : Nat) (c : Call) (h : y.running i = none) :
      Step held env tick program y (y.put i ⟨c, .outside, program c⟩)
  | openFailed {y} {i : Nat} {c : Call} {k} (h : y.running i = some ⟨c, .outside, .op .acquire k⟩)
      (x : τ) : Step held env tick program y (y.put i ⟨c, .outside, k (.error x)⟩)
  | open {y} {i : Nat} {c : Call} {k} (h : y.running i = some ⟨c, .outside, .op .acquire k⟩) :
      Step held env tick program y
        { y.put i ⟨c, .trying ⟨y.locks.next, y.clock, 0⟩, .op .acquire k⟩ with
          locks := y.locks.opened i }
  | lock {y} {i : Nat} {c : Call} {k} {a : Attempt}
      (h : y.running i = some ⟨c, .trying a, .op .acquire k⟩) (hfree : y.locks.locked = none) :
      Step held env tick program y
        { y.put i ⟨c, .holding a.fd, k (.ok ())⟩ with locks := y.locks.lock a.fd }
  | wouldBlock {y} {i : Nat} {c : Call} {k} {a : Attempt}
      (h : y.running i = some ⟨c, .trying a, .op .acquire k⟩) (hheld : y.locks.locked ≠ none) :
      Step held env tick program y (y.put i ⟨c, .blocked a, .op .acquire k⟩)
  | lockFailed {y} {i : Nat} {c : Call} {k} {a : Attempt}
      (h : y.running i = some ⟨c, .trying a, .op .acquire k⟩) (x : τ) :
      Step held env tick program y
        { y.put i ⟨c, .outside, k (.error x)⟩ with locks := y.locks.close a.fd }
  | late {y} {i : Nat} {c : Call} {k} {a : Attempt}
      (h : y.running i = some ⟨c, .blocked a, .op .acquire k⟩)
      (hlate : a.start + lockAcquireTimeout < y.clock) :
      Step held env tick program y
        { y.put i ⟨c, .outside, k (.error held)⟩ with locks := y.locks.close a.fd }
  | sleep {y} {i : Nat} {c : Call} {k} {a : Attempt}
      (h : y.running i = some ⟨c, .blocked a, .op .acquire k⟩)
      (hsoon : y.clock ≤ a.start + lockAcquireTimeout) :
      Step held env tick program y
        (y.put i ⟨c, .sleeping a (y.clock + lockRetryInterval), .op .acquire k⟩)
  | wake {y} {i : Nat} {c : Call} {k} {a : Attempt} {wake : Nat}
      (h : y.running i = some ⟨c, .sleeping a wake, .op .acquire k⟩) (hwake : wake ≤ y.clock) :
      Step held env tick program y
        (y.put i ⟨c, .trying { a with refused := a.refused + 1 }, .op .acquire k⟩)
  | act {y} {i : Nat} {c : Call} {phase : LockPhase} {e : E} {k} {r : Res e} {s' : σ}
      (h : y.running i = some ⟨c, phase, .op (.act e) k⟩) (hact : env y.shared e r s') :
      Step held env tick program y { y.put i ⟨c, phase, k r⟩ with shared := s' }
  | unlock {y} {i : Nat} {c : Call} {k} {fd : Nat}
      (h : y.running i = some ⟨c, .holding fd, .op .release k⟩) :
      Step held env tick program y
        { y.put i ⟨c, .unlocked fd, k ()⟩ with
          locks := y.locks.unlock fd, history := y.history ++ finished c (k ()) }
  | unlockFailed {y} {i : Nat} {c : Call} {k} {fd : Nat}
      (h : y.running i = some ⟨c, .holding fd, .op .release k⟩) :
      Step held env tick program y (y.put i ⟨c, .keeping fd, .op .release k⟩)
  | close {y} {i : Nat} {c : Call} {p : LockProg τ Res ε α} {fd : Nat}
      (h : y.running i = some ⟨c, .unlocked fd, p⟩) :
      Step held env tick program y
        { y.put i ⟨c, .outside, p⟩ with locks := y.locks.close fd }
  | closeKept {y} {i : Nat} {c : Call} {k} {fd : Nat}
      (h : y.running i = some ⟨c, .keeping fd, .op .release k⟩) :
      Step held env tick program y
        { y.put i ⟨c, .outside, k ()⟩ with
          locks := y.locks.close fd, history := y.history ++ finished c (k ()) }
  | finish {y} {i : Nat} {c : Call} {p : LockProg τ Res ε α}
      (h : y.running i = some ⟨c, .outside, p⟩) (hp : p.outcome ≠ none) :
      Step held env tick program y (y.drop i)
  | tick {y} {s' : σ} (h : tick y.shared s') : Step held env tick program y { y with shared := s' }
  | pass {y} (n : Nat) : Step held env tick program y { y with clock := y.clock + n }

/-- A caller is gone in the middle of whatever it did, and its open file with it. -/
inductive Crash : LockSystem σ Res τ ε α Call → LockSystem σ Res τ ε α Call → Prop
  | crash {y} (i : Nat) :
      Crash y { y.drop i with locks := y.locks.exit i }

/-- The callers and who holds the lock, without how it is taken. -/
def view (y : LockSystem σ Res τ ε α Call) : System σ Res τ ε α Call where
  shared := y.shared
  holder := y.locks.holder
  running i := (y.running i).map fun x => (x.call, x.program)
  history := y.history

/-- How long a caller has waited at least, by how often it was refused, and that it did not
begin an attempt too late. -/
def Timed (clock : Nat) : LockPhase → Prop
  | .trying a => a.start + a.refused * lockRetryInterval ≤ clock ∧
      a.refused * lockRetryInterval ≤ lockAcquireTimeout + lockRetryInterval
  | .blocked a => a.start + a.refused * lockRetryInterval ≤ clock ∧
      a.refused * lockRetryInterval ≤ lockAcquireTimeout + lockRetryInterval
  | .sleeping a wake => a.start + (a.refused + 1) * lockRetryInterval ≤ wake ∧
      a.refused * lockRetryInterval ≤ lockAcquireTimeout
  | _ => True

/-- A program that begins with the lock, or that has nothing left to do. -/
def Waiting (p : LockProg τ Res ε α) : Prop :=
  (∃ refused body, p = withLock refused body) ∨ ∃ out, p.outcome = some out

/-- What is so of each caller by itself. -/
structure Fine (y : LockSystem σ Res τ ε α Call) (i : Nat) (x : LockCaller τ Res ε α Call) :
    Prop where
  descriptor : ∀ fd, x.phase.descriptor = some fd → y.locks.owner fd = some i
  keeps : ∀ fd, x.phase.keeps = some fd → y.locks.locked = some fd
  timed : Timed y.clock x.phase
  inside : x.phase.keeps ≠ none → ∃ p, x.program = unlock p
  waiting : x.phase.keeps = none → Waiting x.program

/-- The lock and the open files are those of the callers. -/
structure Sound (y : LockSystem σ Res τ ε α Call) : Prop where
  locks : y.locks.WellFormed
  callers : ∀ i x, y.running i = some x → Fine y i x
  owned : ∀ fd i, y.locks.owner fd = some i →
    ∃ x, y.running i = some x ∧ x.phase.descriptor = some fd
  locked : ∀ fd, y.locks.locked = some fd →
    ∃ i x, y.running i = some x ∧ x.phase.keeps = some fd

theorem keeps_descriptor {phase : LockPhase} {fd : Nat} (h : phase.keeps = some fd) :
    phase.descriptor = some fd := by
  cases phase <;> first | exact h | cases h

section Sound
variable {y : LockSystem σ Res τ ε α Call} {i : Nat} {x : LockCaller τ Res ε α Call}

theorem running_put_self (x' : LockCaller τ Res ε α Call) : (y.put i x').running i = some x' :=
  update_self ..

theorem running_put_of_ne {j : Nat} (h : j ≠ i) (x' : LockCaller τ Res ε α Call) :
    (y.put i x').running j = y.running j := update_of_ne h ..

theorem running_drop_self (i : Nat) : (y.drop i).running i = none := update_self ..

theorem running_drop_of_ne {j : Nat} (h : j ≠ i) : (y.drop i).running j = y.running j :=
  update_of_ne h ..

/-- Two callers do not have one file open, so only one of them has the lock. -/
theorem Sound.unique (hy : y.Sound) {j : Nat} {x' : LockCaller τ Res ε α Call} {fd : Nat}
    (hi : y.running i = some x) (hj : y.running j = some x')
    (hx : x.phase.descriptor = some fd) (hx' : x'.phase.descriptor = some fd) : i = j :=
  Option.some.inj
    (((hy.callers i x hi).descriptor fd hx).symm.trans ((hy.callers j x' hj).descriptor fd hx'))

/-- One caller goes on without touching the lock: what it has open stays so. -/
theorem Sound.put (hy : y.Sound) (hi : y.running i = some x) {x' : LockCaller τ Res ε α Call}
    (hdescriptor : x'.phase.descriptor = x.phase.descriptor)
    (hkeeps : x'.phase.keeps = x.phase.keeps) (htimed : Timed y.clock x'.phase)
    (hinside : x'.phase.keeps ≠ none → ∃ p, x'.program = unlock p)
    (hwaiting : x'.phase.keeps = none → Waiting x'.program) : (y.put i x').Sound where
  locks := hy.locks
  callers j z hz := by
    by_cases hj : j = i
    · subst hj
      rw [running_put_self, Option.some.injEq] at hz
      subst hz
      have hfine := hy.callers j x hi
      exact ⟨fun fd hfd => hfine.descriptor fd (hdescriptor ▸ hfd),
        fun fd hfd => hfine.keeps fd (hkeeps ▸ hfd), htimed, hinside, hwaiting⟩
    · rw [running_put_of_ne hj] at hz
      have hfine := hy.callers j z hz
      exact ⟨hfine.descriptor, hfine.keeps, hfine.timed, hfine.inside, hfine.waiting⟩
  owned fd j hfd := by
    obtain ⟨z, hz, hdesc⟩ := hy.owned fd j hfd
    by_cases hj : j = i
    · subst hj
      obtain rfl : x = z := Option.some.inj (hi.symm.trans hz)
      exact ⟨x', running_put_self _, hdescriptor.trans hdesc⟩
    · exact ⟨z, (running_put_of_ne hj _).trans hz, hdesc⟩
  locked fd hfd := by
    obtain ⟨j, z, hz, hk⟩ := hy.locked fd hfd
    by_cases hj : j = i
    · subst hj
      obtain rfl : x = z := Option.some.inj (hi.symm.trans hz)
      exact ⟨j, x', running_put_self _, hkeeps.trans hk⟩
    · exact ⟨j, z, (running_put_of_ne hj _).trans hz, hk⟩

/-- What a caller has open, others have not. -/
theorem Sound.owner_ne (hy : y.Sound) {j : Nat} {z : LockCaller τ Res ε α Call} (hj : j ≠ i)
    (hz : y.running j = some z) {fd fd' : Nat} (hfd : x.phase.descriptor = some fd)
    (hi : y.running i = some x) (hfd' : z.phase.descriptor = some fd') : fd' ≠ fd := by
  rintro rfl
  exact hj (hy.unique hz hi hfd' hfd)

/-- A caller closes its file, and with that gives back the lock if it has it. -/
theorem Sound.close (hy : y.Sound) (hi : y.running i = some x) {fd : Nat}
    (hfd : x.phase.descriptor = some fd) {c : Call} {p : LockProg τ Res ε α} (hp : Waiting p)
    (history : List (Call × Except ε α)) :
    ({ y.put i ⟨c, .outside, p⟩ with locks := y.locks.close fd, history := history } :
      LockSystem σ Res τ ε α Call).Sound where
  locks := hy.locks.close
  callers j z hz := by
    by_cases hj : j = i
    -- the caller itself is outside now
    · subst hj
      obtain rfl := Option.some.inj ((running_put_self (y := y) _).symm.trans hz)
      exact ⟨fun _ h => absurd h (by simp [LockPhase.descriptor]),
        fun _ h => absurd h (by simp [LockPhase.keeps]), trivial, fun h => absurd rfl h, fun _ => hp⟩
    -- another caller has another descriptor
    · have hz' := (running_put_of_ne (y := y) hj _).symm.trans hz
      have hfine := hy.callers j z hz'
      refine ⟨fun fd' hfd' => ?_, fun fd' hfd' => ?_, hfine.timed, hfine.inside, hfine.waiting⟩
      · exact (Locks.close_of_ne (hy.owner_ne hj hz' hfd hi hfd')).trans
          (hfine.descriptor fd' hfd')
      · have hne : fd' ≠ fd := hy.owner_ne hj hz' hfd hi (keeps_descriptor hfd')
        have hlocked := hfine.keeps fd' hfd'
        change (y.locks.close fd).locked = some fd'
        rw [Locks.close_locked, Locks.unlock_of_ne, hlocked]
        rw [hlocked]
        exact fun h => hne (Option.some.inj h)
  owned fd' j hfd' := by
    by_cases hne : fd' = fd
    · subst hne
      rw [show (y.locks.close fd').owner fd' = none from Locks.close_self] at hfd'
      cases hfd'
    · have howner : y.locks.owner fd' = some j := (Locks.close_of_ne hne).symm.trans hfd'
      obtain ⟨z, hz, hdesc⟩ := hy.owned fd' j howner
      refine ⟨z, (running_put_of_ne (y := y) ?_ _).trans hz, hdesc⟩
      rintro rfl
      obtain rfl : x = z := Option.some.inj (hi.symm.trans hz)
      exact hne (Option.some.inj (hdesc.symm.trans hfd))
  locked fd' hfd' := by
    obtain ⟨hlocked, hne⟩ := Locks.locked_of_unlock (k := y.locks) hfd'
    obtain ⟨j, z, hz, hk⟩ := hy.locked fd' hlocked
    refine ⟨j, z, (running_put_of_ne (y := y) ?_ _).trans hz, hk⟩
    rintro rfl
    obtain rfl : x = z := Option.some.inj (hi.symm.trans hz)
    exact hne (Option.some.inj ((keeps_descriptor hk).symm.trans hfd))

theorem Sound.shared (hy : y.Sound) (s : σ) :
    ({ y with shared := s } : LockSystem σ Res τ ε α Call).Sound where
  locks := hy.locks
  callers j z hz := by
    have hfine := hy.callers j z hz
    exact ⟨hfine.descriptor, hfine.keeps, hfine.timed, hfine.inside, hfine.waiting⟩
  owned := hy.owned
  locked := hy.locked

/-- A call begins. -/
theorem Sound.start (hy : y.Sound) (hi : y.running i = none) {c : Call} {p : LockProg τ Res ε α}
    (hp : Waiting p) : (y.put i ⟨c, .outside, p⟩).Sound where
  locks := hy.locks
  callers j z hz := by
    by_cases hj : j = i
    · subst hj
      obtain rfl := Option.some.inj ((running_put_self (y := y) _).symm.trans hz)
      exact ⟨fun _ h => absurd h (by simp [LockPhase.descriptor]),
        fun _ h => absurd h (by simp [LockPhase.keeps]), trivial, fun h => absurd rfl h, fun _ => hp⟩
    · have hfine := hy.callers j z ((running_put_of_ne (y := y) hj _).symm.trans hz)
      exact ⟨hfine.descriptor, hfine.keeps, hfine.timed, hfine.inside, hfine.waiting⟩
  owned fd j hfd := by
    obtain ⟨z, hz, hdesc⟩ := hy.owned fd j hfd
    refine ⟨z, (running_put_of_ne (y := y) ?_ _).trans hz, hdesc⟩
    rintro rfl
    rw [hi] at hz
    cases hz
  locked fd hfd := by
    obtain ⟨j, z, hz, hk⟩ := hy.locked fd hfd
    refine ⟨j, z, (running_put_of_ne (y := y) ?_ _).trans hz, hk⟩
    rintro rfl
    rw [hi] at hz
    cases hz

/-- A caller without an open file is done. -/
theorem Sound.finish (hy : y.Sound) (hi : y.running i = some x) (hx : x.phase.descriptor = none) :
    (y.drop i).Sound where
  locks := hy.locks
  callers j z hz := by
    by_cases hj : j = i
    · subst hj
      cases (running_drop_self (y := y) j).symm.trans hz
    · have hfine := hy.callers j z ((running_drop_of_ne (y := y) hj).symm.trans hz)
      exact ⟨hfine.descriptor, hfine.keeps, hfine.timed, hfine.inside, hfine.waiting⟩
  owned fd j hfd := by
    obtain ⟨z, hz, hdesc⟩ := hy.owned fd j hfd
    refine ⟨z, (running_drop_of_ne (y := y) ?_).trans hz, hdesc⟩
    rintro rfl
    obtain rfl : x = z := Option.some.inj (hi.symm.trans hz)
    rw [hx] at hdesc
    cases hdesc
  locked fd hfd := by
    obtain ⟨j, z, hz, hk⟩ := hy.locked fd hfd
    refine ⟨j, z, (running_drop_of_ne (y := y) ?_).trans hz, hk⟩
    rintro rfl
    obtain rfl : x = z := Option.some.inj (hi.symm.trans hz)
    rw [keeps_descriptor hk] at hx
    cases hx

/-- A caller opens the file, under a description that was not there before. -/
theorem Sound.open (hy : y.Sound) (hi : y.running i = some x) (hx : x.phase.descriptor = none)
    {c : Call} {p : LockProg τ Res ε α} (hp : Waiting p) :
    ({ y.put i ⟨c, .trying ⟨y.locks.next, y.clock, 0⟩, p⟩ with locks := y.locks.opened i } :
      LockSystem σ Res τ ε α Call).Sound where
  locks := hy.locks.opened
  callers j z hz := by
    by_cases hj : j = i
    · subst hj
      obtain rfl := Option.some.inj ((running_put_self (y := y) _).symm.trans hz)
      refine ⟨?_, fun _ h => absurd h (by simp [LockPhase.keeps]),
        (show Timed y.clock _ by simp [Timed]), fun h => absurd rfl h, fun _ => hp⟩
      rintro _ ⟨⟩
      exact Locks.opened_self
    · have hfine := hy.callers j z ((running_put_of_ne (y := y) hj _).symm.trans hz)
      refine ⟨fun fd hfd => ?_, hfine.keeps, hfine.timed, hfine.inside, hfine.waiting⟩
      have howner := hfine.descriptor fd hfd
      refine (Locks.opened_of_ne ?_).trans howner
      rintro rfl
      rw [hy.locks.fresh _ (Nat.le_refl _)] at howner
      cases howner
  owned fd j hfd := by
    by_cases hnew : fd = y.locks.next
    · subst hnew
      obtain rfl : i = j := Option.some.inj (Locks.opened_self.symm.trans hfd)
      exact ⟨_, running_put_self (y := y) _, rfl⟩
    · obtain ⟨z, hz, hdesc⟩ := hy.owned fd j ((Locks.opened_of_ne hnew).symm.trans hfd)
      refine ⟨z, (running_put_of_ne (y := y) ?_ _).trans hz, hdesc⟩
      rintro rfl
      obtain rfl : x = z := Option.some.inj (hi.symm.trans hz)
      rw [hx] at hdesc
      cases hdesc
  locked fd hfd := by
    obtain ⟨j, z, hz, hk⟩ := hy.locked fd hfd
    refine ⟨j, z, (running_put_of_ne (y := y) ?_ _).trans hz, hk⟩
    rintro rfl
    obtain rfl : x = z := Option.some.inj (hi.symm.trans hz)
    rw [keeps_descriptor hk] at hx
    cases hx

/-- A caller gets the lock that nobody has. -/
theorem Sound.lock (hy : y.Sound) (hi : y.running i = some x) {fd : Nat}
    (hfd : x.phase.descriptor = some fd) (hfree : y.locks.locked = none) {c : Call}
    (p : Prog E Res ε α) :
    ({ y.put i ⟨c, .holding fd, unlock p⟩ with locks := y.locks.lock fd } :
      LockSystem σ Res τ ε α Call).Sound where
  locks := hy.locks.lock (by simp [(hy.callers i x hi).descriptor fd hfd])
  callers j z hz := by
    by_cases hj : j = i
    · subst hj
      obtain rfl := Option.some.inj ((running_put_self (y := y) _).symm.trans hz)
      refine ⟨?_, ?_, trivial, fun _ => ⟨p, rfl⟩, fun h => by cases h⟩
      · rintro _ ⟨⟩
        exact (hy.callers j x hi).descriptor fd hfd
      · rintro _ ⟨⟩
        rfl
    · have hfine := hy.callers j z ((running_put_of_ne (y := y) hj _).symm.trans hz)
      refine ⟨hfine.descriptor, fun fd' hfd' => ?_, hfine.timed, hfine.inside, hfine.waiting⟩
      have hlocked := hfine.keeps fd' hfd'
      rw [hfree] at hlocked
      cases hlocked
  owned fd' j hfd' := by
    obtain ⟨z, hz, hdesc⟩ := hy.owned fd' j hfd'
    by_cases hj : j = i
    · subst hj
      obtain rfl : x = z := Option.some.inj (hi.symm.trans hz)
      exact ⟨_, running_put_self (y := y) _, hfd.symm.trans hdesc⟩
    · exact ⟨z, (running_put_of_ne (y := y) hj _).trans hz, hdesc⟩
  locked fd' hfd' := by
    obtain rfl : fd = fd' := Option.some.inj hfd'
    exact ⟨i, _, running_put_self (y := y) _, rfl⟩

/-- A caller gives the lock back. -/
theorem Sound.unlock (hy : y.Sound) {fd : Nat} {c c' : Call} {p p' : LockProg τ Res ε α}
    (hi : y.running i = some ⟨c, .holding fd, p⟩) (hp : Waiting p')
    (history : List (Call × Except ε α)) :
    ({ y.put i ⟨c', .unlocked fd, p'⟩ with locks := y.locks.unlock fd, history := history } :
      LockSystem σ Res τ ε α Call).Sound where
  locks := hy.locks.unlock
  callers j z hz := by
    by_cases hj : j = i
    · subst hj
      obtain rfl := Option.some.inj ((running_put_self (y := y) _).symm.trans hz)
      refine ⟨?_, fun _ h => absurd h (by simp [LockPhase.keeps]), trivial, fun h => absurd rfl h,
        fun _ => hp⟩
      rintro _ ⟨⟩
      exact (hy.callers j _ hi).descriptor fd rfl
    · have hz' := (running_put_of_ne (y := y) hj _).symm.trans hz
      have hfine := hy.callers j z hz'
      refine ⟨hfine.descriptor, fun fd' hfd' => ?_, hfine.timed, hfine.inside, hfine.waiting⟩
      -- another one cannot have it at the same time
      have hsame : fd = fd' := Option.some.inj
        (((hy.callers i _ hi).keeps fd rfl).symm.trans (hfine.keeps fd' hfd'))
      subst hsame
      exact absurd (hy.unique hz' hi (keeps_descriptor hfd') rfl) hj
  owned fd' j hfd' := by
    obtain ⟨z, hz, hdesc⟩ := hy.owned fd' j hfd'
    by_cases hj : j = i
    · subst hj
      obtain rfl := Option.some.inj (hi.symm.trans hz)
      exact ⟨_, running_put_self (y := y) _, hdesc⟩
    · exact ⟨z, (running_put_of_ne (y := y) hj _).trans hz, hdesc⟩
  locked fd' hfd' := by
    obtain ⟨hlocked, hne⟩ := Locks.locked_of_unlock (k := y.locks) hfd'
    obtain ⟨j, z, hz, hk⟩ := hy.locked fd' hlocked
    refine ⟨j, z, (running_put_of_ne (y := y) ?_ _).trans hz, hk⟩
    rintro rfl
    obtain rfl := Option.some.inj (hi.symm.trans hz)
    exact hne (Option.some.inj hk).symm

/-- The kernel closes what a caller had open when it was gone. -/
theorem Sound.exit (hy : y.Sound) (i : Nat) :
    ({ y.drop i with locks := y.locks.exit i } : LockSystem σ Res τ ε α Call).Sound where
  locks := hy.locks.exit
  callers j z hz := by
    by_cases hj : j = i
    · subst hj
      cases (running_drop_self (y := y) j).symm.trans hz
    · have hfine := hy.callers j z ((running_drop_of_ne (y := y) hj).symm.trans hz)
      have hother : ∀ fd, z.phase.descriptor = some fd → y.locks.owner fd ≠ some i := by
        intro fd hfd howner
        rw [hfine.descriptor fd hfd] at howner
        exact hj (Option.some.inj howner)
      refine ⟨fun fd hfd => ?_, fun fd hfd => ?_, hfine.timed, hfine.inside, hfine.waiting⟩
      · exact (Locks.owner_exit (hother fd hfd)).trans (hfine.descriptor fd hfd)
      · have hlocked := hfine.keeps fd hfd
        change (if y.locks.holder = some i then none else y.locks.locked) = some fd
        rw [if_neg, hlocked]
        rw [Locks.holder, hlocked]
        exact hother fd (keeps_descriptor hfd)
  owned fd j hfd := by
    have hne : y.locks.owner fd ≠ some i := by
      intro howner
      have hnone : (y.locks.exit i).owner fd = none := if_pos howner
      exact absurd (hnone.symm.trans hfd) (by simp)
    have howner : y.locks.owner fd = some j := (Locks.owner_exit hne).symm.trans hfd
    obtain ⟨z, hz, hdesc⟩ := hy.owned fd j howner
    refine ⟨z, (running_drop_of_ne (y := y) ?_).trans hz, hdesc⟩
    rintro rfl
    exact hne howner
  locked fd hfd := by
    obtain ⟨hlocked, hne⟩ := Locks.locked_of_exit (k := y.locks) hfd
    obtain ⟨j, z, hz, hk⟩ := hy.locked fd hlocked
    refine ⟨j, z, (running_drop_of_ne (y := y) ?_).trans hz, hk⟩
    rintro rfl
    exact hne ((hy.callers j z hz).descriptor fd (keeps_descriptor hk))

end Sound

section Programs
variable {c : Call}

theorem waiting_lift (out : Except ε α) : Waiting (lift out : LockProg τ Res ε α) :=
  .inr ⟨out, outcome_lift out⟩

/-- What is left of a program that waits for the lock, by how that ends. -/
theorem waiting_acquire {k : LockRes τ Res .acquire → LockProg τ Res ε α}
    (h : Waiting (.op .acquire k)) :
    (∀ x, Waiting (k (.error x))) ∧ ∃ p, k (.ok ()) = Effects.unlock p := by
  obtain ⟨refused, body, heq⟩ | ⟨out, hout⟩ := h
  · cases heq
    exact ⟨fun x => waiting_lift (.error (refused x)), body, rfl⟩
  · cases hout

theorem waiting_release {k : LockRes τ Res .release → LockProg τ Res ε α}
    (h : ∃ p, Prog.op .release k = Effects.unlock p) : Waiting (k ()) := by
  obtain ⟨p, heq⟩ := h
  cases p with
  | ret a =>
    cases heq
    exact waiting_lift (.ok a)
  | fail x =>
    cases heq
    exact waiting_lift (.error x)
  | op e k' => cases heq

/-- Only a caller with the lock performs operations. -/
theorem Fine.acts {y : LockSystem σ Res τ ε α Call} {i : Nat} {phase : LockPhase} {e : E}
    {k : LockRes τ Res (.act e) → LockProg τ Res ε α} (h : Fine y i ⟨c, phase, .op (.act e) k⟩) :
    phase.keeps ≠ none ∧ ∀ r, ∃ p, k r = Effects.unlock p := by
  have hkeeps : phase.keeps ≠ none := by
    intro hnone
    obtain ⟨refused, body, heq⟩ | ⟨out, hout⟩ := h.waiting hnone
    · cases heq
    · cases hout
  refine ⟨hkeeps, fun r => ?_⟩
  obtain ⟨p, heq⟩ := h.inside hkeeps
  cases p with
  | ret a => cases heq
  | fail x => cases heq
  | op e' k' =>
    cases heq
    exact ⟨k' r, rfl⟩

end Programs

section Steps
variable {held : τ} {env : Env σ E Res} {tick : σ → σ → Prop} {program : Call → LockProg τ Res ε α}
  {y y' : LockSystem σ Res τ ε α Call}

theorem Timed.mono {clock clock' : Nat} (hle : clock ≤ clock') {phase : LockPhase}
    (h : Timed clock phase) : Timed clock' phase := by
  cases phase with
  | trying a => exact ⟨le_trans h.1 hle, h.2⟩
  | blocked a => exact ⟨le_trans h.1 hle, h.2⟩
  | sleeping a wake => exact h
  | _ => trivial

theorem sound_step (hprogram : ∀ c, Waiting (program c)) (hstep : Step held env tick program y y')
    (hy : y.Sound) : y'.Sound := by
  cases hstep with
  | start i c h => exact hy.start h (hprogram c)
  | openFailed h x =>
    have hfine := hy.callers _ _ h
    exact hy.put h rfl rfl trivial (fun hk => absurd rfl hk)
      fun _ => (waiting_acquire (hfine.waiting rfl)).1 x
  | «open» h => exact hy.open h rfl ((hy.callers _ _ h).waiting rfl)
  -- the only step that takes the lock; the call goes on inside its critical section
  | lock h hfree =>
    obtain ⟨p, hp⟩ := (waiting_acquire ((hy.callers _ _ h).waiting rfl)).2
    rw [hp]
    exact hy.lock h rfl hfree p
  | wouldBlock h hheld =>
    have hfine := hy.callers _ _ h
    exact hy.put h rfl rfl hfine.timed (fun hk => absurd rfl hk) fun _ => hfine.waiting rfl
  | lockFailed h x =>
    exact hy.close h rfl ((waiting_acquire ((hy.callers _ _ h).waiting rfl)).1 x) _
  | late h hlate =>
    exact hy.close h rfl ((waiting_acquire ((hy.callers _ _ h).waiting rfl)).1 held) _
  | @sleep i c k a h hsoon =>
    have hfine := hy.callers _ _ h
    refine hy.put h rfl rfl ?_ (fun hk => absurd rfl hk) fun _ => hfine.waiting rfl
    have htimed : a.start + a.refused * lockRetryInterval ≤ y.clock := hfine.timed.1
    -- a poll that is refused before the deadline: the refusals so far fit into the time passed
    constructor
    · rw [Nat.succ_mul]
      omega
    · omega
  | @wake i c k a wake h hwake =>
    have hfine := hy.callers _ _ h
    refine hy.put h rfl rfl ?_ (fun hk => absurd rfl hk) fun _ => hfine.waiting rfl
    have htimed : a.start + (a.refused + 1) * lockRetryInterval ≤ wake := hfine.timed.1
    have hrefused : a.refused * lockRetryInterval ≤ lockAcquireTimeout := hfine.timed.2
    refine ⟨le_trans htimed hwake, ?_⟩
    change (a.refused + 1) * lockRetryInterval ≤ _
    rw [Nat.succ_mul]
    omega
  -- an operation of the critical section leaves the lock alone
  | @act i c phase e k r s' h hact =>
    have hfine := hy.callers _ _ h
    obtain ⟨hkeeps, hrest⟩ := hfine.acts
    have hput : (y.put i ⟨c, phase, k r⟩).Sound :=
      hy.put h rfl rfl hfine.timed (fun _ => hrest r) fun hk => absurd hk hkeeps
    exact hput.shared s'
  | unlock h =>
    exact hy.unlock h (waiting_release ((hy.callers _ _ h).inside (by simp [LockPhase.keeps]))) _
  -- the kernel drops the lock when the descriptor is closed, which comes next
  | unlockFailed h =>
    have hfine := hy.callers _ _ h
    exact hy.put h rfl rfl trivial (fun hk => hfine.inside hk) fun hk => by cases hk
  | close h => exact hy.close h rfl ((hy.callers _ _ h).waiting rfl) _
  | closeKept h =>
    exact hy.close h rfl (waiting_release ((hy.callers _ _ h).inside (by simp [LockPhase.keeps]))) _
  | finish h hp => exact hy.finish h rfl
  | @tick s' h => exact hy.shared s'
  | pass n =>
    refine ⟨hy.locks, fun j x hx => ?_, hy.owned, hy.locked⟩
    have hfine := hy.callers j x hx
    exact ⟨hfine.descriptor, hfine.keeps, hfine.timed.mono (Nat.le_add_right ..), hfine.inside,
      hfine.waiting⟩

theorem sound_crash (hcrash : Crash y y') (hy : y.Sound) : y'.Sound := by
  cases hcrash with
  | crash i => exact hy.exit i

theorem sound_idle (s : σ) : ({ shared := s } : LockSystem σ Res τ ε α Call).Sound where
  locks := ⟨fun _ _ => rfl, by simp⟩
  callers := by simp
  owned := by simp
  locked := by simp

section View
variable {i : Nat} {x : LockCaller τ Res ε α Call}

theorem view_running (h : y.running i = some x) : y.view.running i = some (x.call, x.program) := by
  simp [view, h]

theorem view_put (i : Nat) (x : LockCaller τ Res ε α Call) :
    (y.put i x).view =
      { y.view with running := update y.view.running i (some (x.call, x.program)) } := by
  unfold view put
  congr 1
  funext j
  by_cases hj : j = i
  · subst hj
    simp
  · simp [update_of_ne hj]

/-- What the view shows of a step of one caller. -/
theorem view_step (i : Nat) (x : LockCaller τ Res ε α Call) (l : Locks)
    (history : List (Call × Except ε α)) :
    ({ y.put i x with locks := l, history := history } : LockSystem σ Res τ ε α Call).view =
      { y.view with
        holder := l.holder
        running := update y.view.running i (some (x.call, x.program))
        history := history } := by
  have hput := congrArg System.running (view_put (y := y) i x)
  unfold view at hput ⊢
  congr 1

/-- The view does not show how a caller waits. -/
theorem view_waits (h : y.running i = some x) (phase : LockPhase) {l : Locks}
    (hl : l.holder = y.locks.holder) :
    ({ y.put i ⟨x.call, phase, x.program⟩ with locks := l } :
      LockSystem σ Res τ ε α Call).view = y.view := by
  refine (view_step i _ l y.history).trans ?_
  simp only [hl, ← view_running h, update_eq_self]
  rfl

/-- A file without the lock is closed without a trace in the view. -/
theorem Sound.holder_close (hy : y.Sound) (h : y.running i = some x) {fd : Nat}
    (hfd : x.phase.descriptor = some fd) (hkeeps : x.phase.keeps = none) :
    (y.locks.close fd).holder = y.locks.holder := by
  refine Locks.holder_close fun hlocked => ?_
  obtain ⟨j, z, hz, hk⟩ := hy.locked fd hlocked
  obtain rfl := hy.unique h hz hfd (keeps_descriptor hk)
  obtain rfl := Option.some.inj (h.symm.trans hz)
  rw [hkeeps] at hk
  cases hk

/-- The lock is free behind the file that had it. -/
theorem Sound.holder_unlock (hy : y.Sound) (h : y.running i = some x) {fd : Nat}
    (hkeeps : x.phase.keeps = some fd) :
    (y.locks.unlock fd).holder = none ∧ (y.locks.close fd).holder = none := by
  have hlocked := (hy.callers i x h).keeps fd hkeeps
  constructor
  · rw [Locks.holder, Locks.unlock_self hlocked]
    rfl
  · rw [Locks.holder, Locks.close_locked, Locks.unlock_self hlocked]
    rfl

theorem view_drop (i : Nat) :
    (y.drop i).view = { y.view with running := update y.view.running i none } := by
  unfold view drop
  congr 1
  funext j
  by_cases hj : j = i
  · subst hj
    simp
  · simp [update_of_ne hj]

end View

theorem single_of_eq {s s' s'' : System σ Res τ ε α Call} (h : System.Step env tick program s s')
    (heq : s'' = s') : Relation.ReflTransGen (System.Step env tick program) s s'' := by
  rw [heq]
  exact .single h

theorem refl_of_eq {s s' : System σ Res τ ε α Call} (heq : s' = s) :
    Relation.ReflTransGen (System.Step env tick program) s s' := by
  rw [heq]

/-- One step, with the lock taken and given back as one action. -/
theorem view_lockStep (hy : y.Sound) (hstep : Step held env tick program y y') :
    Relation.ReflTransGen (System.Step env tick program) y.view y'.view := by
  -- each step is one of the service, or none: polls, sleeps and the opening do not show
  cases hstep with
  | start i c h => exact single_of_eq (.start i c (by simp [view, h])) (view_step i _ y.locks y.history)
  | @openFailed i c k h x =>
    exact single_of_eq (.refuse (view_running h) x) (view_step i _ y.locks y.history)
  | @«open» i c k h => exact refl_of_eq (view_waits h _ (Locks.holder_opened hy.locks))
  | @lock i c k a h hfree =>
    have hholder : (y.locks.lock a.fd).holder = some i := (hy.callers i _ h).descriptor a.fd rfl
    have hview := view_step (y := y) i ⟨c, .holding a.fd, k (.ok ())⟩ (y.locks.lock a.fd) y.history
    rw [hholder] at hview
    exact single_of_eq (.acquire (view_running h) (by simp [view, Locks.holder, hfree])) hview
  | @wouldBlock i c k a h hheld => exact refl_of_eq (view_waits h _ rfl)
  | @lockFailed i c k a h x =>
    have hview := view_step (y := y) i ⟨c, .outside, k (.error x)⟩ (y.locks.close a.fd) y.history
    rw [hy.holder_close h rfl rfl] at hview
    exact single_of_eq (.refuse (view_running h) x) hview
  | @late i c k a h hlate =>
    have hview := view_step (y := y) i ⟨c, .outside, k (.error held)⟩ (y.locks.close a.fd) y.history
    rw [hy.holder_close h rfl rfl] at hview
    exact single_of_eq (.refuse (view_running h) held) hview
  | @sleep i c k a h hsoon => exact refl_of_eq (view_waits h _ rfl)
  | @wake i c k a wake h hwake => exact refl_of_eq (view_waits h _ rfl)
  | @act i c phase e k r s' h hact =>
    refine single_of_eq (.act (view_running h) hact) ?_
    exact congrArg (fun v : System σ Res τ ε α Call => { v with shared := s' })
      (view_put (y := y) i ⟨c, phase, k r⟩)
  | @unlock i c k fd h =>
    have hview := view_step (y := y) i ⟨c, .unlocked fd, k ()⟩ (y.locks.unlock fd)
      (y.history ++ finished c (k ()))
    rw [(hy.holder_unlock h rfl).1] at hview
    exact single_of_eq (.release (view_running h)) hview
  | @unlockFailed i c k fd h => exact refl_of_eq (view_waits h _ rfl)
  | @close i c p fd h => exact refl_of_eq (view_waits h _ (hy.holder_close h rfl rfl))
  -- the unlock failed; the lock is given back with the descriptor
  | @closeKept i c k fd h =>
    have hview := view_step (y := y) i ⟨c, .outside, k ()⟩ (y.locks.close fd)
      (y.history ++ finished c (k ()))
    rw [(hy.holder_unlock h rfl).2] at hview
    exact single_of_eq (.release (view_running h)) hview
  | @finish i c p h hp => exact single_of_eq (.finish (view_running h) hp) (view_drop i)
  | @tick s' h => exact .single (.tick (y := y.view) h)
  | pass n => exact .refl

/-- The state of every run, with callers that are gone at any moment. -/
theorem sound_runs (hprogram : ∀ c, Waiting (program c)) {s : σ}
    (hruns : Relation.ReflTransGen (fun y y' => Step held env tick program y y' ∨ Crash y y')
      { shared := s } y) : y.Sound := by
  induction hruns with
  | refl => exact sound_idle s
  | tail _ hstep ih =>
    rcases hstep with hstep | hcrash
    · exact sound_step hprogram hstep ih
    · exact sound_crash hcrash ih

theorem crashRuns_of_runs {y₀ : LockSystem σ Res τ ε α Call}
    (hruns : Relation.ReflTransGen (Step held env tick program) y₀ y) :
    Relation.ReflTransGen (fun y y' => Step held env tick program y y' ∨ Crash y y') y₀ y := by
  induction hruns with
  | refl => exact .refl
  | tail _ hstep ih => exact ih.tail (.inl hstep)

/-- A run without crashes is one of the system in which the lock is taken at once. -/
theorem view_lockRuns (hprogram : ∀ c, Waiting (program c)) {s : σ}
    (hruns : Relation.ReflTransGen (Step held env tick program) { shared := s } y) :
    Relation.ReflTransGen (System.Step env tick program) { shared := s } y.view := by
  have hboth : Relation.ReflTransGen (System.Step env tick program) { shared := s } y.view ∧
      y.Sound := by
    induction hruns with
    | refl => exact ⟨.refl, sound_idle s⟩
    | tail _ hstep ih =>
      exact ⟨ih.1.trans (view_lockStep ih.2 hstep), sound_step hprogram hstep ih.2⟩
  exact hboth.1

end Steps

section Play
variable (held : τ) (env : Env σ E Res) (tick : σ → σ → Prop) (program : Call → LockProg τ Res ε α)
  {y : LockSystem σ Res τ ε α Call} {i : Nat} {c : Call}

/-- One caller alone has gone on, from `y` to `y'`. -/
structure Played (i : Nat) (y y' : LockSystem σ Res τ ε α Call) : Prop where
  run : Relation.ReflTransGen (Step held env tick program) y y'
  others : ∀ j, j ≠ i → y'.running j = y.running j

variable {held env tick program}

theorem Played.trans {y' y'' : LockSystem σ Res τ ε α Call}
    (h : Played held env tick program i y y') (h' : Played held env tick program i y' y'') :
    Played held env tick program i y y'' :=
  ⟨h.run.trans h'.run, fun j hj => (h'.others j hj).trans (h.others j hj)⟩

theorem Played.put {x : LockCaller τ Res ε α Call} {y' : LockSystem σ Res τ ε α Call}
    (h : Step held env tick program y y') (hrunning : y'.running = (y.put i x).running) :
    Played held env tick program i y y' ∧ y'.running i = some x := by
  refine ⟨⟨.single h, fun j hj => ?_⟩, ?_⟩
  · rw [hrunning, running_put_of_ne hj]
  · rw [hrunning, running_put_self]

variable (held env tick program)

/-- A caller begins and opens the lock file. -/
theorem played_open {refused : τ → ε} {body : Prog E Res ε α}
    (hcall : program c = withLock refused body) (hidle : y.running i = none) :
    ∃ y', Played held env tick program i y y' ∧
      y'.running i = some ⟨c, .trying ⟨y.locks.next, y.clock, 0⟩, withLock refused body⟩ ∧
      y'.locks = y.locks.opened i ∧ y'.clock = y.clock ∧ y'.shared = y.shared ∧
      y'.history = y.history := by
  have hstart : Step held env tick program y _ := .start i c hidle
  rw [hcall] at hstart
  obtain ⟨hfirst, hrunning⟩ := Played.put hstart rfl
  have hopen : Step held env tick program (y.put i ⟨c, .outside, withLock refused body⟩) _ :=
    .open hrunning
  obtain ⟨hsecond, hrunning'⟩ := Played.put hopen rfl
  exact ⟨_, hfirst.trans hsecond, hrunning', rfl, rfl, rfl, rfl⟩

/-- The lock is there for the caller. -/
theorem played_lock {refused : τ → ε} {body : Prog E Res ε α} {a : Attempt}
    (h : y.running i = some ⟨c, .trying a, withLock refused body⟩) (hfree : y.locks.locked = none) :
    ∃ y', Played held env tick program i y y' ∧
      y'.running i = some ⟨c, .holding a.fd, unlock body⟩ ∧
      y'.locks = y.locks.lock a.fd ∧ y'.clock = y.clock ∧ y'.shared = y.shared ∧
      y'.history = y.history := by
  have hlock : Step held env tick program y _ := .lock h hfree
  obtain ⟨hplayed, hrunning⟩ := Played.put hlock rfl
  exact ⟨_, hplayed, hrunning, rfl, rfl, rfl, rfl⟩

/-- The lock is with another caller. -/
theorem played_wouldBlock {refused : τ → ε} {body : Prog E Res ε α} {a : Attempt}
    (h : y.running i = some ⟨c, .trying a, withLock refused body⟩) (hheld : y.locks.locked ≠ none) :
    ∃ y', Played held env tick program i y y' ∧
      y'.running i = some ⟨c, .blocked a, withLock refused body⟩ ∧
      y'.locks = y.locks ∧ y'.clock = y.clock ∧ y'.shared = y.shared ∧ y'.history = y.history := by
  have hblock : Step held env tick program y _ := .wouldBlock h hheld
  obtain ⟨hplayed, hrunning⟩ := Played.put hblock rfl
  exact ⟨_, hplayed, hrunning, rfl, rfl, rfl, rfl⟩

theorem played_pass (i : Nat) (y : LockSystem σ Res τ ε α Call) (n : Nat) :
    Played held env tick program i y { y with clock := y.clock + n } :=
  ⟨.single (.pass n), fun _ _ => rfl⟩

/-- The caller tries again when it has slept. -/
theorem played_wake {refused : τ → ε} {body : Prog E Res ε α} {a : Attempt}
    (h : y.running i = some ⟨c, .blocked a, withLock refused body⟩)
    (hsoon : y.clock ≤ a.start + lockAcquireTimeout) :
    ∃ y', Played held env tick program i y y' ∧
      y'.running i = some ⟨c, .trying { a with refused := a.refused + 1 }, withLock refused body⟩ ∧
      y'.locks = y.locks ∧ y'.clock = y.clock + lockRetryInterval ∧ y'.shared = y.shared ∧
      y'.history = y.history := by
  have hsleep : Step held env tick program y _ := .sleep h hsoon
  obtain ⟨hslept, hrunning⟩ := Played.put hsleep rfl
  have hpass := played_pass held env tick program i
    (y.put i ⟨c, .sleeping a (y.clock + lockRetryInterval), withLock refused body⟩)
    lockRetryInterval
  have hwake : Step held env tick program
      { y.put i ⟨c, .sleeping a (y.clock + lockRetryInterval), withLock refused body⟩ with
        clock := y.clock + lockRetryInterval } _ := .wake hrunning (Nat.le_refl _)
  obtain ⟨hwoken, hrunning'⟩ := Played.put hwake rfl
  exact ⟨_, (hslept.trans hpass).trans hwoken, hrunning', rfl, rfl, rfl, rfl⟩

/-- A caller that has the lock goes on as a handler answers. -/
theorem played_acts {handler : Handler σ E Res} {allowed : (e : E) → Res e → Bool}
    (hhandler : ∀ s e, allowed e (handler s e).1 = true →
      env s e (handler s e).1 (handler s e).2) {n : Nat} {p p' : Prog E Res ε α} {s' : σ}
    (hplay : p.play handler allowed n y.shared = some (p', s')) {phase : LockPhase}
    (h : y.running i = some ⟨c, phase, unlock p⟩) :
    ∃ y', Played held env tick program i y y' ∧ y'.running i = some ⟨c, phase, unlock p'⟩ ∧
      y'.locks = y.locks ∧ y'.clock = y.clock ∧ y'.shared = s' ∧ y'.history = y.history := by
  have hsame : ∀ (y : LockSystem σ Res τ ε α Call) (p : Prog E Res ε α),
      some (p, y.shared) = some (p', s') → y.running i = some ⟨c, phase, unlock p⟩ →
      ∃ y', Played held env tick program i y y' ∧ y'.running i = some ⟨c, phase, unlock p'⟩ ∧
        y'.locks = y.locks ∧ y'.clock = y.clock ∧ y'.shared = s' ∧ y'.history = y.history := by
    rintro y p ⟨⟩ h
    exact ⟨y, ⟨.refl, fun _ _ => rfl⟩, h, rfl, rfl, rfl, rfl⟩
  induction n generalizing y p with
  | zero => exact hsame y p (p.play_zero ▸ hplay) h
  | succ n ih =>
    cases p with
    | ret a => exact hsame y _ (play_ret (n + 1) a ▸ hplay) h
    | fail x => exact hsame y _ (play_fail (n + 1) x ▸ hplay) h
    | op e k =>
      rw [play] at hplay
      split at hplay
      · rename_i hallowed
        have hact : Step held env tick program y _ := .act h (hhandler _ _ hallowed)
        obtain ⟨hfirst, hrunning⟩ := Played.put (x := ⟨c, phase, unlock (k (handler y.shared e).1)⟩)
          hact rfl
        obtain ⟨y', hplayed, hrest⟩ := ih (y := { y.put i _ with shared := (handler y.shared e).2 })
          hplay hrunning
        exact ⟨y', hfirst.trans hplayed, hrest⟩
      · cases hplay

/-- A caller whose section is over gives the lock back, closes the file and is gone. -/
theorem played_end {p : Prog E Res ε α} {out : Except ε α} (hout : p.outcome = some out) {fd : Nat}
    (h : y.running i = some ⟨c, .holding fd, unlock p⟩) :
    ∃ y', Played held env tick program i y y' ∧ y'.running i = none ∧
      y'.locks = (y.locks.unlock fd).close fd ∧ y'.clock = y.clock ∧ y'.shared = y.shared ∧
      y'.history = y.history ++ [(c, out)] := by
  obtain ⟨k, hk, hkout⟩ : ∃ k, unlock (τ := τ) p = .op .release k ∧ (k ()).outcome = some out := by
    rw [eq_lift hout]
    cases out with
    | ok a => exact ⟨_, rfl, rfl⟩
    | error x => exact ⟨_, rfl, rfl⟩
  rw [hk] at h
  have hunlock : Step held env tick program y _ := .unlock h
  obtain ⟨hfirst, hrunning⟩ := Played.put (x := ⟨c, .unlocked fd, k ()⟩) hunlock rfl
  have hclose : Step held env tick program
      { y.put i ⟨c, .unlocked fd, k ()⟩ with
        locks := y.locks.unlock fd, history := y.history ++ finished c (k ()) } _ :=
    .close hrunning
  obtain ⟨hsecond, hrunning'⟩ := Played.put (x := ⟨c, .outside, k ()⟩) hclose rfl
  have hfinished : finished c (k ()) = [(c, out)] := by simp [finished, hkout]
  refine ⟨_, (hfirst.trans hsecond).trans ⟨.single (.finish hrunning' (by simp [hkout])),
    fun j hj => running_drop_of_ne hj⟩, running_drop_self i, rfl, rfl, rfl, ?_⟩
  exact congrArg (y.history ++ ·) hfinished

/-- One caller works under the lock while another one is refused twice; then it is the other
one's turn. -/
theorem contended_runs {handler : Handler σ E Res} {allowed : (e : E) → Res e → Bool}
    (hhandler : ∀ s e, allowed e (handler s e).1 = true →
      env s e (handler s e).1 (handler s e).2) {refused refused' : τ → ε}
    {body body' p p' : Prog E Res ε α} {c c' : Call} {n n' : Nat} {s s' s'' : σ}
    {out out' : Except ε α}
    (hcall : program c = withLock refused body) (hcall' : program c' = withLock refused' body')
    (hplay : body.play handler allowed n s = some (p, s')) (hout : p.outcome = some out)
    (hplay' : body'.play handler allowed n' s' = some (p', s'')) (hout' : p'.outcome = some out') :
    ∃ y y' : LockSystem σ Res τ ε α Call,
      Relation.ReflTransGen (Step held env tick program) { shared := s } y ∧
      y.running 0 = some ⟨c, .holding 0, unlock p⟩ ∧
      (∃ start, y.running 1 = some ⟨c', .blocked ⟨1, start, 1⟩, withLock refused' body'⟩) ∧
      y.locks.locked = some 0 ∧ y.shared = s' ∧
      Relation.ReflTransGen (Step held env tick program) y y' ∧
      y'.shared = s'' ∧ y'.history = [(c, out), (c', out')] := by
  -- the first caller has the lock, and the other one opens the file and sleeps once
  obtain ⟨y₁, h₁, hr₁, hl₁, ht₁, hs₁, hh₁⟩ := played_open held env tick program (i := 0)
    (y := { shared := s }) hcall rfl
  obtain ⟨y₂, h₂, hr₂, hl₂, ht₂, hs₂, hh₂⟩ := played_lock held env tick program hr₁
    (by rw [hl₁]; rfl)
  obtain ⟨y₃, h₃, hr₃, hl₃, ht₃, hs₃, hh₃⟩ := played_open held env tick program (i := 1) (y := y₂)
    hcall' ((h₂.others 1 one_ne_zero).trans (h₁.others 1 one_ne_zero))
  have hheld₃ : y₃.locks.locked ≠ none := by
    rw [hl₃, hl₂]
    simp
  obtain ⟨y₄, h₄, hr₄, hl₄, ht₄, hs₄, hh₄⟩ := played_wouldBlock held env tick program hr₃ hheld₃
  obtain ⟨y₅, h₅, hr₅, hl₅, ht₅, hs₅, hh₅⟩ := played_wake held env tick program hr₄
    (by rw [ht₄, ht₃]; exact Nat.le_add_right ..)
  -- the first one works, and the other one finds the lock taken again
  have hr₀ : y₅.running 0 = some ⟨c, .holding 0, unlock body⟩ :=
    (h₅.others 0 zero_ne_one).trans ((h₄.others 0 zero_ne_one).trans
      ((h₃.others 0 zero_ne_one).trans hr₂))
  obtain ⟨y₆, h₆, hr₆, hl₆, ht₆, hs₆, hh₆⟩ := played_acts held env tick program hhandler
    (by rwa [hs₅, hs₄, hs₃, hs₂, hs₁]) hr₀
  have hlocked : y₆.locks.locked = some 0 := by
    rw [hl₆, hl₅, hl₄, hl₃, hl₂]
    rfl
  obtain ⟨y₇, h₇, hr₇, hl₇, ht₇, hs₇, hh₇⟩ := played_wouldBlock held env tick program
    ((h₆.others 1 one_ne_zero).trans hr₅) (by simp [hlocked])
  -- the first one is done, and the other one gets the lock
  obtain ⟨y₈, h₈, hr₈, hl₈, ht₈, hs₈, hh₈⟩ := played_end held env tick program hout
    ((h₇.others 0 zero_ne_one).trans hr₆)
  obtain ⟨y₉, h₉, hr₉, hl₉, ht₉, hs₉, hh₉⟩ := played_wake held env tick program
    ((h₈.others 1 one_ne_zero).trans hr₇) (by
      rw [ht₈, ht₇, ht₆, ht₅, ht₄, ht₃]
      exact Nat.add_le_add_left (by decide) _)
  have hfree : y₉.locks.locked = none := by
    rw [hl₉, hl₈, Locks.close_locked, hl₇]
    simp [Locks.unlock, hlocked]
  obtain ⟨y₁₀, h₁₀, hr₁₀, hl₁₀, ht₁₀, hs₁₀, hh₁₀⟩ := played_lock held env tick program hr₉ hfree
  obtain ⟨y₁₁, h₁₁, hr₁₁, hl₁₁, ht₁₁, hs₁₁, hh₁₁⟩ := played_acts held env tick program hhandler
    (by rwa [hs₁₀, hs₉, hs₈, hs₇, hs₆]) hr₁₀
  obtain ⟨y₁₂, h₁₂, hr₁₂, hl₁₂, ht₁₂, hs₁₂, hh₁₂⟩ := played_end held env tick program hout' hr₁₁
  refine ⟨y₇, y₁₂, (((((h₁.run.trans h₂.run).trans h₃.run).trans h₄.run).trans h₅.run).trans
    h₆.run).trans h₇.run, (h₇.others 0 zero_ne_one).trans hr₆, ⟨y₂.clock, ?_⟩, ?_, ?_,
    (((h₈.run.trans h₉.run).trans h₁₀.run).trans h₁₁.run).trans h₁₂.run, ?_, ?_⟩
  · have hnext : y₂.locks.next = 1 := by
      rw [hl₂, hl₁]
      rfl
    rw [hr₇, hnext]
  · rw [hl₇, hlocked]
  · rw [hs₇, hs₆]
  · rw [hs₁₂, hs₁₁]
  · rw [hh₁₂, hh₁₁, hh₁₀, hh₉, hh₈, hh₇, hh₆, hh₅, hh₄, hh₃, hh₂, hh₁]
    rfl

end Play
end LockSystem
end System

section Service
open LockSystem

variable (s : Service)

/-- The error of a lock that stays with another process. -/
def lockHeld (path : Text) : Text := lit "lock " ++ path ++ lit " is held by another process"

theorem waiting_call (c : Call) : Waiting (s.call c) := by
  cases c with
  | issue req =>
    unfold Service.call Service.issue
    simp only
    split
    · exact waiting_lift (.error ServiceError.nameRequired)
    · split
      · exact waiting_lift (.error ServiceError.endpointHostRequired)
      · rw [map_withLock]
        exact .inl ⟨_, _, rfl⟩
  | revoke publicKey =>
    unfold Service.call Service.revoke
    simp only
    split
    · exact waiting_lift (.error ServiceError.publicKeyRequired)
    · rw [map_withLock]
      exact .inl ⟨_, _, rfl⟩

variable {s} {σ : Type} {env : Env σ Op Op.Res} {tick : σ → σ → Prop}

/-- What holds of the lock: only one call at a time has it, and only that one works on the
container; the files that are open are those of the calls between `AcquireLock` and the end of
`Release`; a lock that is taken has a call that will give it back; and none is refused more
often than its time allows. -/
structure Exclusive (y : LockSystem σ Op.Res Text ServiceError Reply Call) : Prop where
  alone : ∀ i j x x', y.running i = some x → y.running j = some x' →
    x.phase.keeps ≠ none → x'.phase.keeps ≠ none → i = j
  acts : ∀ i c phase e k, y.running i = some ⟨c, phase, .op (.act e) k⟩ → phase.keeps ≠ none
  opened : ∀ fd i, y.locks.owner fd = some i ↔
    ∃ x, y.running i = some x ∧ x.phase.descriptor = some fd
  kept : ∀ fd, y.locks.locked = some fd → ∃ i x, y.running i = some x ∧ x.phase.keeps = some fd
  refusals : ∀ i x, y.running i = some x → x.phase.refusals ≤ 102

theorem refusals_le {clock : Nat} {phase : LockPhase} (h : Timed clock phase) :
    phase.refusals ≤ 102 := by
  have hinterval : lockRetryInterval = 100 * 10 ^ 6 := rfl
  have htimeout : lockAcquireTimeout = 10 * 10 ^ 9 := rfl
  cases phase with
  | trying a =>
    have htimed : a.refused * lockRetryInterval ≤ lockAcquireTimeout + lockRetryInterval := h.2
    rw [hinterval, htimeout] at htimed
    change a.refused ≤ 102
    omega
  | blocked a =>
    have htimed : a.refused * lockRetryInterval ≤ lockAcquireTimeout + lockRetryInterval := h.2
    rw [hinterval, htimeout] at htimed
    change a.refused + 1 ≤ 102
    omega
  | sleeping a wake =>
    have htimed : a.refused * lockRetryInterval ≤ lockAcquireTimeout := h.2
    rw [hinterval, htimeout] at htimed
    change a.refused + 1 ≤ 102
    omega
  | _ => exact Nat.zero_le _

/-- Calls that take the lock with `AcquireLock` and give it back with `Release`, some of which
are gone at any moment. -/
theorem lock_of_runs {w : σ} {y : LockSystem σ Op.Res Text ServiceError Reply Call}
    (hruns : Relation.ReflTransGen (fun y y' =>
      LockSystem.Step (lockHeld s.opts.lockPath) env tick s.call y y' ∨ Crash y y')
      { shared := w } y) : Exclusive y := by
  have hy : y.Sound := sound_runs (waiting_call s) hruns
  constructor
  · intro i j x x' hi hj hx hx'
    obtain ⟨fd, hfd⟩ := Option.ne_none_iff_exists'.mp hx
    obtain ⟨fd', hfd'⟩ := Option.ne_none_iff_exists'.mp hx'
    have hsame : fd = fd' := Option.some.inj
      (((hy.callers i x hi).keeps fd hfd).symm.trans ((hy.callers j x' hj).keeps fd' hfd'))
    subst hsame
    exact hy.unique hi hj (keeps_descriptor hfd) (keeps_descriptor hfd')
  · intro i c phase e k h
    exact (hy.callers i _ h).acts.1
  · intro fd i
    refine ⟨hy.owned fd i, ?_⟩
    rintro ⟨x, hx, hfd⟩
    exact (hy.callers i x hx).descriptor fd hfd
  · exact hy.locked
  · intro i x h
    exact refusals_le (hy.callers i x h).timed

/-- The steps of processes that lock a file and run scripts in the container with the default
paths. -/
abbrev DefaultLockStep :
    LockSystem Container Op.Res Text ServiceError Reply Call →
      LockSystem Container Op.Res Text ServiceError Reply Call → Prop :=
  LockSystem.Step (lockHeld defaultOptions.lockPath)
    (containerEnv ⟨id, id, id, id⟩ defaultService (lit "amnezia-awg2") KeyAnswers)
    (fun _ _ => False) defaultService.call

/-- While one process issues a client another one is refused twice; then that one revokes the
client of the first config. -/
theorem default_lockRuns : ∃ r r',
    ∃ y y' : LockSystem Container Op.Res Text ServiceError Reply Call,
      Relation.ReflTransGen DefaultLockStep { shared := defaultContainer } y ∧
      (∃ p, y.running 0 = some ⟨exampleIssue, .holding 0, p⟩) ∧
      (∃ start p, y.running 1 = some ⟨exampleRevoke, .blocked ⟨1, start, 1⟩, p⟩) ∧
      Relation.ReflTransGen DefaultLockStep y y' ∧
      y'.history = [(exampleIssue, .ok (.issued r)), (exampleRevoke, .ok (.revoked r'))] ∧
      r.publicKey = lit "public" ∧ r'.publicKey = lit "a" := by
  obtain ⟨r, r', c, c', c'', p, p', p'', h⟩ := scriptSession_played
  have hrevoke : (revokeSection defaultService).play undisturbedDefault checked (9 + 40) c =
      some (p'', c'') := by
    rw [play_add, h.change, Option.bind_some, h.revoke]
  obtain ⟨y, y', hrun, hfirst, ⟨start, hsecond⟩, -, -, hrun', -, hhistory⟩ :=
    contended_runs (lockHeld defaultOptions.lockPath) _ (fun _ _ => False) defaultService.call
      containerEnv_undisturbed (call_exampleIssue defaultService)
      (call_exampleRevoke defaultService) h.issue h.issued hrevoke h.revoked
  exact ⟨r, r', y, y', hrun, ⟨_, hfirst⟩, ⟨start, _, hsecond⟩, hrun', hhistory, h.issuedKey,
    h.revokedKey⟩

/-- The process that has the lock is gone, while another one has been refused twice. -/
theorem lock_of_runs_contended :
    ∃ y y' : LockSystem Container Op.Res Text ServiceError Reply Call,
      (∃ p, y.running 0 = some ⟨exampleIssue, .holding 0, p⟩) ∧
      (∃ x, y.running 1 = some x ∧ x.phase.refusals = 2) ∧ Exclusive y ∧
      y'.running 0 = none ∧ (∃ x, y'.running 1 = some x ∧ x.phase.refusals = 2) ∧ Exclusive y' := by
  obtain ⟨-, -, y, -, hrun, hfirst, ⟨start, p, hsecond⟩, -⟩ := default_lockRuns
  have hruns := crashRuns_of_runs hrun
  have hgone : (y.drop 0).running 0 = none := running_drop_self 0
  have hrest : (y.drop 0).running 1 = some ⟨exampleRevoke, .blocked ⟨1, start, 1⟩, p⟩ :=
    (running_drop_of_ne one_ne_zero).trans hsecond
  exact ⟨y, { y.drop 0 with locks := y.locks.exit 0 }, hfirst, ⟨_, hsecond, rfl⟩,
    lock_of_runs (s := defaultService) hruns, hgone, ⟨_, hrest, rfl⟩,
    lock_of_runs (s := defaultService) (hruns.tail (.inr (.crash 0)))⟩

/-- From the system calls to the service: processes that lock a file and have shells run scripts,
any of which may fail or be killed at any command, do what the service does over its files. -/
theorem lock_runs_refine {go : GoTexts} {container : Text} (hsep : s.opts.Separate container)
    {c : Container} {y : LockSystem Container Op.Res Text ServiceError Reply Call}
    (hruns : Relation.ReflTransGen (LockSystem.Step (lockHeld s.opts.lockPath)
      (containerEnv go s container KeyAnswers) (fun _ _ => False) s.call) { shared := c } y) :
    Relation.ReflTransGen (AgentStep s) { shared := c.view s.opts }
      (y.view.view (Container.view s.opts)) :=
  view_containerRuns hsep (using_idle c) (view_lockRuns (waiting_call s) hruns)

theorem lock_runs_refine_contended :
    ∃ r r', ∃ y : LockSystem Container Op.Res Text ServiceError Reply Call,
      y.history = [(exampleIssue, .ok (.issued r)), (exampleRevoke, .ok (.revoked r'))] ∧
      r.publicKey = lit "public" ∧ r'.publicKey = lit "a" ∧
      Relation.ReflTransGen (AgentStep defaultService)
        { shared := defaultContainer.view defaultOptions }
        (y.view.view (Container.view defaultOptions)) := by
  obtain ⟨r, r', y, y', hrun, -, -, hrun', hhistory, hkey, hkey'⟩ := default_lockRuns
  exact ⟨r, r', y', hhistory, hkey, hkey',
    lock_runs_refine (s := defaultService) separate_defaultOptions (hrun.trans hrun')⟩

end Service
end VpnControl.Agent
