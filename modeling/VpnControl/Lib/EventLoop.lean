import VpnControl.Lib.Program
import Mathlib.Logic.Function.Basic
import Mathlib.Logic.Relation

namespace Effects
open Prog Function

variable {σ E ε α β Call : Type} {Res : E → Type}

/-- The operations of the tasks of one event loop. A task gives the turn to others only
where it performs an operation that suspends it; the answers may depend on the task. -/
structure Kernel (σ E : Type) (Res : E → Type) where
  suspends : E → Bool
  env : Nat → Env σ E Res

/-- What holds whenever no task has the turn, and what a waiting task may expect the
others to do meanwhile. -/
structure Contract (σ : Type) where
  inv : σ → Prop
  rely : Nat → σ → σ → Prop
  refl : ∀ i s, rely i s s
  trans : ∀ i s s' s'', rely i s s' → rely i s' s'' → rely i s s''

/-- Task `i` may end its turn, begun in `s₀`, in the state `s`. -/
structure Contract.Leaves (c : Contract σ) (i : Nat) (s₀ s : σ) : Prop where
  inv : c.inv s
  rely : ∀ j, j ≠ i → c.rely j s₀ s

/-- A predicate on the outcome of a task, the state its last turn began in and the
state it ends in. -/
abbrev TurnPost (σ ε α : Type) := Except ε α → σ → σ → Prop

/-- `turn K c i p Q s₀ s`: task `i`, at `p` in the state `s` of a turn begun in `s₀`, keeps to
the contract if the others do, and ends in `Q` if it ends. -/
def turn (K : Kernel σ E Res) (c : Contract σ) (i : Nat) :
    Prog E Res ε α → TurnPost σ ε α → σ → σ → Prop
  | ret a, Q, s₀, s => Q (.ok a) s₀ s
  | fail x, Q, s₀, s => Q (.error x) s₀ s
  | op e k, Q, s₀, s =>
    if K.suspends e then
      c.Leaves i s₀ s ∧ ∀ s₁, c.inv s₁ → c.rely i s s₁ → ∀ r s₂, K.env i s₁ e r s₂ →
        turn K c i (k r) Q s₁ s₂
    else ∀ r s₂, K.env i s e r s₂ → turn K c i (k r) Q s₀ s₂

section Turn
variable {K : Kernel σ E Res} {c : Contract σ} {i : Nat} {Q R : TurnPost σ ε α} {s₀ s : σ}

@[simp] theorem turn_ret (a : α) : turn K c i (ret a) Q s₀ s ↔ Q (.ok a) s₀ s := Iff.rfl

@[simp] theorem turn_pure (a : α) :
    turn K c i (pure a : Prog E Res ε α) Q s₀ s ↔ Q (.ok a) s₀ s := Iff.rfl

@[simp] theorem turn_fail (x : ε) : turn K c i (fail x) Q s₀ s ↔ Q (.error x) s₀ s := Iff.rfl

@[simp] theorem turn_throw (x : ε) :
    turn K c i (throw x : Prog E Res ε α) Q s₀ s ↔ Q (.error x) s₀ s := Iff.rfl

@[simp] theorem turn_lift (x : Except ε α) : turn K c i (Prog.lift x) Q s₀ s ↔ Q x s₀ s := by
  cases x <;> rfl

theorem turn_op_wait {e : E} {k : Res e → Prog E Res ε α} (he : K.suspends e = true) :
    turn K c i (op e k) Q s₀ s ↔ c.Leaves i s₀ s ∧ ∀ s₁, c.inv s₁ → c.rely i s s₁ →
      ∀ r s₂, K.env i s₁ e r s₂ → turn K c i (k r) Q s₁ s₂ := by
  rw [turn, if_pos he]

theorem turn_op_now {e : E} {k : Res e → Prog E Res ε α} (he : K.suspends e = false) :
    turn K c i (op e k) Q s₀ s ↔ ∀ r s₂, K.env i s e r s₂ → turn K c i (k r) Q s₀ s₂ := by
  rw [turn, if_neg (by simp [he])]

/-- The rule of consequence. -/
theorem turn_mono {p : Prog E Res ε α} (h : turn K c i p Q s₀ s)
    (hQ : ∀ r s₀ s, Q r s₀ s → R r s₀ s) : turn K c i p R s₀ s := by
  induction p generalizing s₀ s with
  | ret a => exact hQ _ _ _ h
  | fail x => exact hQ _ _ _ h
  | op e k ih =>
    cases he : K.suspends e with
    | true =>
      rw [turn_op_wait he] at h ⊢
      exact ⟨h.1, fun s₁ hinv hrely r s₂ hr => ih r (h.2 s₁ hinv hrely r s₂ hr)⟩
    | false =>
      rw [turn_op_now he] at h ⊢
      exact fun r s₂ hr => ih r (h r s₂ hr)

theorem turn_bind {p : Prog E Res ε α} {f : α → Prog E Res ε β} {Q : TurnPost σ ε β} :
    turn K c i (p >>= f) Q s₀ s ↔ turn K c i p (fun r s₀ s => match r with
      | .ok a => turn K c i (f a) Q s₀ s
      | .error x => Q (.error x) s₀ s) s₀ s := by
  change turn K c i (p.bind f) Q s₀ s ↔ _
  induction p generalizing s₀ s with
  | ret a => rfl
  | fail x => rfl
  | op e k ih =>
    rw [Prog.bind]
    cases he : K.suspends e with
    | true =>
      rw [turn_op_wait he, turn_op_wait he]
      simp only [ih]
    | false =>
      rw [turn_op_now he, turn_op_now he]
      simp only [ih]

theorem turn_attempt {p : Prog E Res ε α} {Q : TurnPost σ ε (Except ε α)} :
    turn K c i p.attempt Q s₀ s ↔ turn K c i p (fun r s₀ s => Q (.ok r) s₀ s) s₀ s := by
  induction p generalizing s₀ s with
  | ret a => rfl
  | fail x => rfl
  | op e k ih =>
    rw [Prog.attempt]
    cases he : K.suspends e with
    | true =>
      rw [turn_op_wait he, turn_op_wait he]
      simp only [ih]
    | false =>
      rw [turn_op_now he, turn_op_now he]
      simp only [ih]

/-- Sequencing: a specification of the first part and, from each of its outcomes, one of
the rest. -/
theorem turn_seq {p : Prog E Res ε α} {f : α → Prog E Res ε β} {P : TurnPost σ ε α}
    {Q : TurnPost σ ε β} (hp : turn K c i p P s₀ s)
    (hok : ∀ a s₀ s, P (.ok a) s₀ s → turn K c i (f a) Q s₀ s)
    (herr : ∀ x s₀ s, P (.error x) s₀ s → Q (.error x) s₀ s) : turn K c i (p >>= f) Q s₀ s := by
  rw [turn_bind]
  apply turn_mono hp
  intro r s₀ s h
  cases r with
  | ok a => exact hok a s₀ s h
  | error x => exact herr x s₀ s h

theorem turn_seq_attempt {p : Prog E Res ε α} {f : Except ε α → Prog E Res ε β}
    {P : TurnPost σ ε α} {Q : TurnPost σ ε β} (hp : turn K c i p P s₀ s)
    (h : ∀ r s₀ s, P r s₀ s → turn K c i (f r) Q s₀ s) : turn K c i (p.attempt >>= f) Q s₀ s := by
  rw [turn_bind, turn_attempt]
  exact turn_mono hp h

/-- What every operation of a program without awaits preserves, the program preserves. -/
theorem turn_uses {P : E → Prop} {I : σ → Prop} (hnow : ∀ e, P e → K.suspends e = false)
    (h : ∀ s e r s', P e → K.env i s e r s' → I s → I s') {p : Prog E Res ε α} (hp : p.Uses P)
    (hs : I s) : turn K c i p (fun _ s₁ s' => s₁ = s₀ ∧ I s') s₀ s := by
  induction p generalizing s with
  | ret a => exact ⟨rfl, hs⟩
  | fail x => exact ⟨rfl, hs⟩
  | op e k ih =>
    rw [turn_op_now (hnow e hp.1)]
    exact fun r s₂ hr => ih r (hp.2 r) (h s e r s₂ hp.1 hr hs)

/-- The operations as task `i` sees them: while it is suspended, the others move as far as the
contract lets them. -/
def Kernel.seen (K : Kernel σ E Res) (c : Contract σ) (i : Nat) : Env σ E Res := fun s e r s' =>
  if K.suspends e then ∃ s₁, c.inv s₁ ∧ c.rely i s s₁ ∧ K.env i s₁ e r s' else K.env i s e r s'

/-- A task that keeps to the contract ends, for all it sees, in what it is meant to end in. -/
theorem wp_seen {p : Prog E Res ε α} (h : turn K c i p Q s₀ s) :
    wp (K.seen c i) p (fun r s' => ∃ s₁, Q r s₁ s') s := by
  induction p generalizing s₀ s with
  | ret a => exact ⟨s₀, h⟩
  | fail x => exact ⟨s₀, h⟩
  | op e k ih =>
    intro r s' hr
    cases he : K.suspends e with
    | true =>
      rw [turn_op_wait he] at h
      simp only [Kernel.seen, he, if_true] at hr
      obtain ⟨s₁, hinv, hrely, hr⟩ := hr
      exact ih r (h.2 s₁ hinv hrely r s' hr)
    | false =>
      rw [turn_op_now he] at h
      simp only [Kernel.seen, he, Bool.false_eq_true, if_false] at hr
      exact ih r (h r s' hr)

/-- What an execution of a task that keeps to the contract ends in. -/
theorem Runs.ends {p : Prog E Res ε α} {r : Except ε α} {s' : σ} (h : Runs (K.seen c i) p s r s')
    (hp : turn K c i p Q s s) : ∃ s₁, Q r s₁ s' := h.post (wp_seen hp)

/-- A task that keeps to the contract only makes executions that it sees as such. -/
theorem turn_runs {p : Prog E Res ε α} (h : turn K c i p Q s₀ s) {R : Except ε α → σ → Prop}
    (hR : ∀ r s', Runs (K.seen c i) p s r s' → R r s') :
    turn K c i p (fun r s₀ s => Q r s₀ s ∧ R r s) s₀ s := by
  induction p generalizing s₀ s with
  | ret a => exact ⟨h, hR _ _ (runs_ret.mpr ⟨rfl, rfl⟩)⟩
  | fail x => exact ⟨h, hR _ _ (runs_fail.mpr ⟨rfl, rfl⟩)⟩
  | op e k ih =>
    cases he : K.suspends e with
    | true =>
      rw [turn_op_wait he] at h ⊢
      refine ⟨h.1, fun s₁ hinv hrely r s₂ hr => ih r (h.2 s₁ hinv hrely r s₂ hr) fun r' s' hrest => ?_⟩
      refine hR r' s' (runs_op.mpr ⟨r, s₂, ?_, hrest⟩)
      rw [Kernel.seen, if_pos he]
      exact ⟨s₁, hinv, hrely, hr⟩
    | false =>
      rw [turn_op_now he] at h ⊢
      refine fun r s₂ hr => ih r (h r s₂ hr) fun r' s' hrest => ?_
      refine hR r' s' (runs_op.mpr ⟨r, s₂, ?_, hrest⟩)
      rw [Kernel.seen, if_neg (by simp [he])]
      exact hr

/-- The same operations where every one of them gives up the turn. -/
def Kernel.preemptive (K : Kernel σ E Res) : Kernel σ E Res := ⟨fun _ => true, K.env⟩

/-- Operations that keep to the contract one by one, and what they and the others preserve. -/
theorem turn_preemptive {P : E → Prop} {I : σ → Prop}
    (hrely : ∀ s s', I s → c.rely i s s' → I s')
    (h : ∀ s e r s', P e → c.inv s → I s → K.env i s e r s' → c.Leaves i s s' ∧ I s')
    {p : Prog E Res ε α} (hp : p.Uses P) (hleaves : c.Leaves i s₀ s) (hs : I s) :
    turn K.preemptive c i p (fun _ s₀ s => c.Leaves i s₀ s ∧ I s) s₀ s := by
  induction p generalizing s₀ s with
  | ret a => exact ⟨hleaves, hs⟩
  | fail x => exact ⟨hleaves, hs⟩
  | op e k ih =>
    refine (turn_op_wait rfl).mpr ⟨hleaves, fun s₁ hinv hs₁ r s₂ hr => ?_⟩
    obtain ⟨hleaves, hs₂⟩ := h s₁ e r s₂ hp.1 hinv (hrely s s₁ hs hs₁) hr
    exact ih r (hp.2 r) hleaves hs₂

end Turn

/-- A task that waits for an answer or is over: it has nothing to do of its own accord. -/
def Prog.atRest (suspends : E → Bool) : Prog E Res ε α → Bool
  | ret _ => true
  | fail _ => true
  | op e _ => suspends e

/-- The tasks of one event loop, finished ones included, and which of them has the turn. -/
structure Loop (σ : Type) {E : Type} (Res : E → Type) (ε α Call : Type) where
  shared : σ
  active : Option Nat := none
  running : Nat → Option (Call × Prog E Res ε α) := fun _ => none

namespace Loop
variable {K : Kernel σ E Res} {c : Contract σ} {tick : σ → σ → Prop}
  {program : Call → Prog E Res ε α} {Q : Nat → Call → TurnPost σ ε α}

/-- The turn of task `i` goes on as long as it is not at rest. -/
def turnOf (suspends : E → Bool) (i : Nat) (p : Prog E Res ε α) : Option Nat :=
  if p.atRest suspends then none else some i

def put (y : Loop σ Res ε α Call) (K : Kernel σ E Res) (s : σ) (i : Nat) (call : Call)
    (p : Prog E Res ε α) : Loop σ Res ε α Call :=
  ⟨s, turnOf K.suspends i p, update y.running i (some (call, p))⟩

theorem put_running_self (y : Loop σ Res ε α Call) (K : Kernel σ E Res) (s : σ) (i : Nat)
    (call : Call) (p : Prog E Res ε α) : (y.put K s i call p).running i = some (call, p) :=
  update_self i _ y.running

theorem put_running_of_ne (y : Loop σ Res ε α Call) (K : Kernel σ E Res) (s : σ) {i j : Nat}
    (call : Call) (p : Prog E Res ε α) (hj : j ≠ i) :
    (y.put K s i call p).running j = y.running j :=
  update_of_ne hj _ y.running

/-- One step of one task, or of the world around the loop. -/
inductive Step (K : Kernel σ E Res) (tick : σ → σ → Prop) (program : Call → Prog E Res ε α) :
    Loop σ Res ε α Call → Loop σ Res ε α Call → Prop
  | start {y} (i : Nat) (call : Call) (hi : y.running i = none) (hturn : y.active = none) :
      Step K tick program y (y.put K y.shared i call (program call))
  | act {y} {i : Nat} {call : Call} {e : E} {k} {r : Res e} {s' : σ}
      (hi : y.running i = some (call, .op e k)) (hturn : y.active = none ∨ y.active = some i)
      (hact : K.env i y.shared e r s') : Step K tick program y (y.put K s' i call (k r))
  | tick {y} {s' : σ} (hturn : y.active = none) (h : tick y.shared s') :
      Step K tick program y { y with shared := s' }

/-- What is left of a task that rested in the state `s'`, `Q` being what it ends in. -/
def Rests (K : Kernel σ E Res) (c : Contract σ) (i : Nat) (Q : TurnPost σ ε α) :
    Prog E Res ε α → σ → Prop
  | ret a, s' => ∃ s₀, Q (.ok a) s₀ s'
  | fail x, s' => ∃ s₀, Q (.error x) s₀ s'
  | op e k, s' => K.suspends e = true ∧ ∀ s₁, c.inv s₁ → c.rely i s' s₁ →
      ∀ r s₂, K.env i s₁ e r s₂ → turn K c i (k r) Q s₁ s₂

/-- A task that came to rest earlier, and what happened since then. -/
def Waits (K : Kernel σ E Res) (c : Contract σ) (i : Nat) (Q : TurnPost σ ε α)
    (p : Prog E Res ε α) (s : σ) : Prop :=
  ∃ s', c.rely i s' s ∧ Rests K c i Q p s'

/-- Every task keeps to the contract; `T` holds of the states in which no task has the turn. -/
def Invariant (K : Kernel σ E Res) (c : Contract σ) (Q : Nat → Call → TurnPost σ ε α)
    (T : σ → Prop) (y : Loop σ Res ε α Call) : Prop :=
  match y.active with
  | none => c.inv y.shared ∧ T y.shared ∧
      ∀ j call p, y.running j = some (call, p) → Waits K c j (Q j call) p y.shared
  | some i => ∃ s₀, c.inv s₀ ∧ T s₀ ∧
      (∃ call p, y.running i = some (call, p) ∧ p.atRest K.suspends = false ∧
        turn K c i p (Q i call) s₀ y.shared) ∧
      ∀ j call p, j ≠ i → y.running j = some (call, p) → Waits K c j (Q j call) p s₀

theorem Waits.rely {i : Nat} {Q : TurnPost σ ε α} {p : Prog E Res ε α} {s s' : σ}
    (h : Waits K c i Q p s) (hs : c.rely i s s') : Waits K c i Q p s' := by
  obtain ⟨s'', hrely, hrest⟩ := h
  exact ⟨s'', c.trans _ _ _ _ hrely hs, hrest⟩

/-- A task at rest leaves what the contract demands, and waits. -/
theorem leaves_of_rest {i : Nat} {Q : TurnPost σ ε α} {p : Prog E Res ε α} {s₀ s : σ}
    (hQ : ∀ r s₀ s, Q r s₀ s → c.Leaves i s₀ s) (hp : p.atRest K.suspends = true)
    (h : turn K c i p Q s₀ s) : c.Leaves i s₀ s ∧ Waits K c i Q p s := by
  cases p with
  | ret a => exact ⟨hQ _ _ _ h, s, c.refl i s, s₀, h⟩
  | fail x => exact ⟨hQ _ _ _ h, s, c.refl i s, s₀, h⟩
  | op e k =>
    have he : K.suspends e = true := hp
    rw [turn_op_wait he] at h
    exact ⟨h.1, s, c.refl i s, he, h.2⟩

/-- After an operation of the task that has the turn, or gets it. -/
theorem invariant_put {T : σ → Prop} (hQ : ∀ i call r s₀ s, Q i call r s₀ s → c.Leaves i s₀ s)
    (hT : ∀ i s s', (∀ j, j ≠ i → c.rely j s s') → T s → T s')
    {y : Loop σ Res ε α Call} {i : Nat} {call : Call} {p : Prog E Res ε α} {s₀ s : σ}
    (hinv : c.inv s₀) (hs₀ : T s₀) (hp : turn K c i p (Q i call) s₀ s)
    (hothers : ∀ j d q, j ≠ i → y.running j = some (d, q) → Waits K c j (Q j d) q s₀) :
    Invariant K c Q T (y.put K s i call p) := by
  have hrest : ∀ j d q, j ≠ i → (y.put K s i call p).running j = some (d, q) →
      Waits K c j (Q j d) q s₀ := by
    intro j d q hj hq
    rw [put_running_of_ne _ _ _ _ _ hj] at hq
    exact hothers j d q hj hq
  have hself := y.put_running_self K s i call p
  cases hr : p.atRest K.suspends with
  | false =>
    simp only [Invariant, put, turnOf, hr, Bool.false_eq_true, if_false]
    exact ⟨s₀, hinv, hs₀, ⟨call, p, hself, hr, hp⟩, hrest⟩
  | true =>
    obtain ⟨hleaves, hwaits⟩ := leaves_of_rest (hQ i call) hr hp
    simp only [Invariant, put, turnOf, hr, if_true]
    refine ⟨hleaves.inv, hT i s₀ s hleaves.rely hs₀, fun j d q hq => ?_⟩
    by_cases hj : j = i
    · subst hj
      rw [update_self, Option.some.injEq, Prod.mk.injEq] at hq
      obtain ⟨rfl, rfl⟩ := hq
      exact hwaits
    · exact (hrest j d q hj hq).rely (hleaves.rely j hj)

/-- What one step preserves. -/
theorem invariant_step {T : σ → Prop} (hQ : ∀ i call r s₀ s, Q i call r s₀ s → c.Leaves i s₀ s)
    (hT : ∀ i s s', (∀ j, j ≠ i → c.rely j s s') → T s → T s')
    (htick : ∀ s s', tick s s' → c.inv s → c.inv s' ∧ ∀ i, c.rely i s s')
    (hprogram : ∀ i call s, c.inv s → turn K c i (program call) (Q i call) s s)
    {y y' : Loop σ Res ε α Call} (hstep : Step K tick program y y') (hy : Invariant K c Q T y) :
    Invariant K c Q T y' := by
  cases hstep with
  | start i call hi hturn =>
    simp only [Invariant, hturn] at hy
    obtain ⟨hinv, hs, hothers⟩ := hy
    exact invariant_put hQ hT hinv hs (hprogram i call _ hinv) fun j d q _ hq => hothers j d q hq
  | @act i call e k r s' hi hturn hact =>
    rcases hturn with hturn | hturn
    · simp only [Invariant, hturn] at hy
      obtain ⟨hinv, hs, hothers⟩ := hy
      obtain ⟨s₁, hrely, he, hk⟩ := hothers i call _ hi
      exact invariant_put hQ hT hinv hs (hk _ hinv hrely r s' hact) fun j d q _ hq => hothers j d q hq
    · simp only [Invariant, hturn] at hy
      obtain ⟨s₀, hinv, hs, ⟨d, p, hp, hrest, hturn'⟩, hothers⟩ := hy
      rw [hi, Option.some.injEq, Prod.mk.injEq] at hp
      obtain ⟨rfl, rfl⟩ := hp
      rw [turn_op_now hrest] at hturn'
      exact invariant_put hQ hT hinv hs (hturn' r s' hact) hothers
  | @tick s' hturn h =>
    simp only [Invariant, hturn] at hy ⊢
    obtain ⟨hinv, hs, hothers⟩ := hy
    obtain ⟨hinv', hrely⟩ := htick _ _ h hinv
    exact ⟨hinv', hT 0 _ _ (fun j _ => hrely j) hs,
      fun j d q hq => (hothers j d q hq).rely (hrely j)⟩

/-- The rule of the event loop: programs that keep to a contract, each on the assumption
that the others do, keep it in every run. -/
theorem invariant_reachable (hQ : ∀ i call r s₀ s, Q i call r s₀ s → c.Leaves i s₀ s)
    (htick : ∀ s s', tick s s' → c.inv s → c.inv s' ∧ ∀ i, c.rely i s s')
    (hprogram : ∀ i call s, c.inv s → turn K c i (program call) (Q i call) s s) {s : σ}
    (hs : c.inv s) {y : Loop σ Res ε α Call}
    (h : Relation.ReflTransGen (Step K tick program) { shared := s } y) :
    Invariant K c Q (fun _ => True) y := by
  induction h with
  | refl => exact ⟨hs, trivial, by simp⟩
  | tail _ hstep ih =>
    exact invariant_step hQ (fun _ _ _ _ _ => trivial) htick hprogram hstep ih

theorem Invariant.inv {T : σ → Prop} {y : Loop σ Res ε α Call} (hy : Invariant K c Q T y)
    (h : y.active = none) : c.inv y.shared ∧ T y.shared := by
  simp only [Invariant, h] at hy
  exact ⟨hy.1, hy.2.1⟩

/-- What a task ends in holds in the very state that its last operation leaves. -/
theorem Invariant.ends {T : σ → Prop} {y y' : Loop σ Res ε α Call} (hy : Invariant K c Q T y)
    (hprogram : ∀ i call s, c.inv s → turn K c i (program call) (Q i call) s s)
    (hstep : Step K tick program y y') {i : Nat} {call : Call} {out : Except ε α}
    (hend : y'.running i = some (call, lift out)) (hbefore : y.running i ≠ some (call, lift out)) :
    ∃ s₀, Q i call out s₀ y'.shared := by
  -- only the task that took the step can have ended in it
  have hself : ∀ {j d q s}, (y.put K s j d q).running i = some (call, lift out) →
      j = i ∧ d = call ∧ q = lift out := by
    intro j d q s h
    by_cases hj : i = j
    · subst hj
      rw [put_running_self, Option.some.injEq, Prod.mk.injEq] at h
      exact ⟨rfl, h⟩
    · rw [put_running_of_ne _ _ _ _ _ hj] at h
      exact absurd h hbefore
  cases hstep with
  | start j d hj hturn =>
    obtain ⟨rfl, rfl, hq⟩ := hself hend
    simp only [Invariant, hturn] at hy
    have h := hprogram j d _ hy.1
    rw [hq, turn_lift] at h
    exact ⟨_, h⟩
  | @act j d e k r s' hj hturn hact =>
    obtain ⟨rfl, rfl, hq⟩ := hself hend
    -- the step begins a turn, or goes on with one
    rcases hturn with hturn | hturn
    · simp only [Invariant, hturn] at hy
      obtain ⟨hinv, -, hothers⟩ := hy
      obtain ⟨s₁, hrely, he, hk⟩ := hothers j d _ hj
      have h := hk _ hinv hrely r s' hact
      rw [hq, turn_lift] at h
      exact ⟨_, h⟩
    · simp only [Invariant, hturn] at hy
      obtain ⟨s₀, hinv, -, ⟨d', p, hp, hrest, h⟩, -⟩ := hy
      rw [hj, Option.some.injEq, Prod.mk.injEq] at hp
      obtain ⟨rfl, rfl⟩ := hp
      rw [turn_op_now hrest] at h
      have h := h r s' hact
      rw [hq, turn_lift] at h
      exact ⟨_, h⟩
  | tick hturn h => exact absurd hend hbefore

/-- What every task can rely on holds between any two states of a run in which no task has
the turn. -/
theorem related_reachable {R : σ → σ → Prop} (hrefl : ∀ s, R s s)
    (htrans : ∀ s s' s'', R s s' → R s' s'' → R s s'') (hR : ∀ i s s', c.rely i s s' → R s s')
    (hQ : ∀ i call r s₀ s, Q i call r s₀ s → c.Leaves i s₀ s)
    (htick : ∀ s s', tick s s' → c.inv s → c.inv s' ∧ ∀ i, c.rely i s s')
    (hprogram : ∀ i call s, c.inv s → turn K c i (program call) (Q i call) s s)
    {y y' : Loop σ Res ε α Call} (hy : Invariant K c Q (fun _ => True) y) (hturn : y.active = none)
    (h : Relation.ReflTransGen (Step K tick program) y y') (hturn' : y'.active = none) :
    R y.shared y'.shared := by
  have hend : Invariant K c Q (R y.shared) y' := by
    clear hturn'
    induction h with
    | refl =>
      simp only [Invariant, hturn] at hy ⊢
      exact ⟨hy.1, hrefl _, hy.2.2⟩
    | tail _ hstep ih =>
      refine invariant_step hQ (fun i s s' hrely hs => ?_) htick hprogram hstep ih
      exact htrans _ _ _ hs (hR (i + 1) _ _ (hrely (i + 1) (by omega)))
  exact (hend.inv hturn').2

/-- What a task of a loop did is an execution of its program, as the task sees it, that leads to
the very state in which the task ends. -/
theorem runs_ends (hQ : ∀ i call r s₀ s, Q i call r s₀ s → c.Leaves i s₀ s)
    (htick : ∀ s s', tick s s' → c.inv s → c.inv s' ∧ ∀ i, c.rely i s s')
    (hprogram : ∀ i call s, c.inv s → turn K c i (program call) (Q i call) s s) {s : σ}
    (hs : c.inv s) {y y' : Loop σ Res ε α Call}
    (h : Relation.ReflTransGen (Step K tick program) { shared := s } y)
    (hstep : Step K tick program y y') {i : Nat} {call : Call} {out : Except ε α}
    (hend : y'.running i = some (call, lift out)) (hbefore : y.running i ≠ some (call, lift out)) :
    ∃ s₀, c.inv s₀ ∧ Runs (K.seen c i) (program call) s₀ out y'.shared := by
  have hfollowed : ∀ i call s, c.inv s → turn K c i (program call)
      (fun r s₀ s => Q i call r s₀ s ∧ ∃ s₁, c.inv s₁ ∧ Runs (K.seen c i) (program call) s₁ r s) s s :=
    fun i call s hinv => turn_runs (hprogram i call s hinv) fun _ _ hruns => ⟨s, hinv, hruns⟩
  have hy := invariant_reachable (fun i call r s₀ s h => hQ i call r s₀ s h.1) htick hfollowed hs h
  obtain ⟨_, -, s₁, hinv, hruns⟩ := hy.ends hfollowed hstep hend hbefore
  exact ⟨s₁, hinv, hruns⟩

theorem atRest_preemptive (p : Prog E Res ε α) : p.atRest K.preemptive.suspends = true := by
  cases p <;> rfl

/-- The loop seen without its turns. -/
def idle (y : Loop σ Res ε α Call) : Loop σ Res ε α Call := { y with active := none }

theorem idle_put (y : Loop σ Res ε α Call) (s : σ) (i : Nat) (call : Call)
    (p : Prog E Res ε α) : (y.put K s i call p).idle = y.idle.put K.preemptive s i call p := by
  simp only [idle, put, turnOf, atRest_preemptive, if_true]

/-- A step of the loop is one of the loop in which every operation gives up the turn. -/
theorem Step.preemptive {y y' : Loop σ Res ε α Call} (h : Step K tick program y y') :
    Step K.preemptive tick program y.idle y'.idle := by
  cases h with
  | start i call hi hturn =>
    rw [idle_put]
    exact .start i call hi rfl
  | act hi hturn hact =>
    rw [idle_put]
    exact .act hi (.inl rfl) hact
  | tick hturn h => exact .tick rfl h

/-- What holds whenever no task has the turn, even if every operation gives it up, holds in
every state of a run. -/
theorem inv_reachable_preemptive (hQ : ∀ i call r s₀ s, Q i call r s₀ s → c.Leaves i s₀ s)
    (htick : ∀ s s', tick s s' → c.inv s → c.inv s' ∧ ∀ i, c.rely i s s')
    (hprogram : ∀ i call s, c.inv s → turn K.preemptive c i (program call) (Q i call) s s) {s : σ}
    (hs : c.inv s) {y : Loop σ Res ε α Call}
    (h : Relation.ReflTransGen (Step K tick program) { shared := s } y) : c.inv y.shared := by
  have hpre : Relation.ReflTransGen (Step K.preemptive tick program) { shared := s } y.idle :=
    h.lift idle fun _ _ => Step.preemptive
  exact ((invariant_reachable hQ htick hprogram hs hpre).inv rfl).1

end Loop

/-- One way to answer operations, as a function; `none` where the operation has to wait. -/
abbrev Responder (σ E : Type) (Res : E → Type) := σ → (e : E) → Option (Res e × σ)

/-- The execution of a program when its operations are answered by `h`. -/
def Prog.respond (h : Responder σ E Res) : Prog E Res ε α → σ → Option (Except ε α × σ)
  | ret a, s => some (.ok a, s)
  | fail x, s => some (.error x, s)
  | op e k, s =>
    match h s e with
    | some (r, s') => (k r).respond h s'
    | none => none

theorem runs_respond {env : Env σ E Res} {h : Responder σ E Res}
    (henv : ∀ s e r s', h s e = some (r, s') → env s e r s') {p : Prog E Res ε α} {s s' : σ}
    {out : Except ε α} (hp : p.respond h s = some (out, s')) : Runs env p s out s' := by
  induction p generalizing s with
  | ret a =>
    cases hp
    exact runs_ret.mpr ⟨rfl, rfl⟩
  | fail x =>
    cases hp
    exact runs_fail.mpr ⟨rfl, rfl⟩
  | op e k ih =>
    rw [Prog.respond] at hp
    split at hp
    · rename_i r s₁ hr
      exact runs_op.mpr ⟨r, s₁, henv s e r s₁ hr, ih r hp⟩
    · cases hp

/-- The same answers, with a record of the operations. -/
def Responder.logged (h : Responder σ E Res) : Responder (σ × List (Sigma Res)) E Res :=
  fun st e => (h st.1 e).map fun (r, s') => (r, s', st.2 ++ [⟨e, r⟩])

theorem exec_respond_logged {env : Env σ E Res} {h : Responder σ E Res}
    (henv : ∀ s e r s', h s e = some (r, s') → env s e r s') {p : Prog E Res ε α} {s s' : σ}
    {out : Except ε α} {l : List (Sigma Res)}
    (hp : p.respond h.logged (s, []) = some (out, s', l)) : Exec env p s l out s' := by
  have hlogged : ∀ st e r st', h.logged st e = some (r, st') → Effects.logged env st e r st' := by
    intro st e r st' hstep
    simp only [Responder.logged, Option.map_eq_some_iff, Prod.mk.injEq] at hstep
    obtain ⟨⟨r', s'⟩, hr, rfl, rfl⟩ := hstep
    exact ⟨henv _ _ _ _ hr, rfl⟩
  obtain ⟨l', hexec⟩ := runs_respond hlogged hp
  obtain ⟨hexec, hl⟩ := exec_of_logged hexec
  rw [show l = l' from hl]
  exact hexec

/-- A schedule of an event loop: which task moves next, or begins, and how its operation
is answered where there is a choice. -/
inductive Move (Call Choice : Type) where
  | start (i : Nat) (call : Call)
  | act (i : Nat) (choice : Choice)

/-- The task that a move is of. -/
def Move.task {Call Choice : Type} : Move Call Choice → Nat
  | start i _ => i
  | act i _ => i

namespace Loop
variable {Choice : Type}

/-- The run of a schedule when the operations are answered by `handler`; a move that is not
possible changes nothing. -/
def play (K : Kernel σ E Res) (handler : Nat → Choice → Responder σ E Res)
    (program : Call → Prog E Res ε α) : List (Move Call Choice) → Loop σ Res ε α Call →
    Loop σ Res ε α Call
  | [], y => y
  | .start i call :: moves, y =>
    match y.running i, y.active with
    | none, none => play K handler program moves (y.put K y.shared i call (program call))
    | _, _ => play K handler program moves y
  | .act i choice :: moves, y =>
    match y.running i with
    | some (call, .op e k) =>
      match handler i choice y.shared e with
      | some (r, s') =>
        if y.active = none ∨ y.active = some i then
          play K handler program moves (y.put K s' i call (k r))
        else play K handler program moves y
      | none => play K handler program moves y
    | _ => play K handler program moves y

theorem play_reachable {K : Kernel σ E Res} {handler : Nat → Choice → Responder σ E Res}
    (hhandler : ∀ i choice s e r s', handler i choice s e = some (r, s') → K.env i s e r s')
    (tick : σ → σ → Prop) (program : Call → Prog E Res ε α) (moves : List (Move Call Choice))
    (y : Loop σ Res ε α Call) :
    Relation.ReflTransGen (Step K tick program) y (play K handler program moves y) := by
  induction moves generalizing y with
  | nil => exact .refl
  | cons m moves ih =>
    cases m with
    | start i call =>
      rw [play]
      split
      · rename_i hi hturn
        exact .head (.start i call hi hturn) (ih _)
      · exact ih y
    | act i choice =>
      rw [play]
      split
      · rename_i call e k hi
        split
        · rename_i r s' hr
          split
          · rename_i hturn
            exact .head (.act hi hturn (hhandler i choice y.shared e r s' hr)) (ih _)
          · exact ih y
        · exact ih y
      · exact ih y

theorem play_cons (K : Kernel σ E Res) (handler : Nat → Choice → Responder σ E Res)
    (program : Call → Prog E Res ε α) (m : Move Call Choice) (moves : List (Move Call Choice))
    (y : Loop σ Res ε α Call) :
    play K handler program (m :: moves) y =
      play K handler program moves (play K handler program [m] y) := by
  cases m with
  | start i call =>
    rw [play, play]
    split <;> rfl
  | act i choice =>
    rw [play, play]
    split
    · split
      · split <;> rfl
      · rfl
    · rfl

/-- A move is a step, or nothing happens. -/
theorem play_move {K : Kernel σ E Res} {handler : Nat → Choice → Responder σ E Res}
    (hhandler : ∀ i choice s e r s', handler i choice s e = some (r, s') → K.env i s e r s')
    (tick : σ → σ → Prop) (program : Call → Prog E Res ε α) (m : Move Call Choice)
    (y : Loop σ Res ε α Call) :
    play K handler program [m] y = y ∨ Step K tick program y (play K handler program [m] y) := by
  cases m with
  | start i call =>
    rw [play]
    split
    · rename_i hi hturn
      exact .inr (.start i call hi hturn)
    · exact .inl rfl
  | act i choice =>
    rw [play]
    split
    · rename_i call e k hi
      split
      · rename_i r s' hr
        split
        · rename_i hturn
          exact .inr (.act hi hturn (hhandler i choice y.shared e r s' hr))
        · exact .inl rfl
      · exact .inl rfl
    · exact .inl rfl

/-- A schedule that begins no task is a run in which no step begins one. -/
theorem play_acts {K : Kernel σ E Res} {handler : Nat → Choice → Responder σ E Res}
    (hhandler : ∀ i choice s e r s', handler i choice s e = some (r, s') → K.env i s e r s')
    (tick : σ → σ → Prop) (program : Call → Prog E Res ε α) (acts : List (Nat × Choice))
    (y : Loop σ Res ε α Call) :
    Relation.ReflTransGen (fun y y' => Step K tick program y y' ∧
      ∀ j, y.running j = none → y'.running j = none) y
      (play K handler program (acts.map fun a => .act a.1 a.2) y) := by
  induction acts generalizing y with
  | nil => exact .refl
  | cons a acts ih =>
    rw [List.map_cons, play]
    split
    · rename_i call e k hi
      split
      · rename_i r s' hr
        split
        · rename_i hturn
          refine .head ⟨.act hi hturn (hhandler a.1 a.2 y.shared e r s' hr), fun j hj => ?_⟩ (ih _)
          rw [put_running_of_ne, hj]
          rintro rfl
          rw [hi] at hj
          cases hj
        · exact ih y
      · exact ih y
    · exact ih y

/-- The moves of the others leave a task as it is. -/
theorem play_running_of_ne {K : Kernel σ E Res} {handler : Nat → Choice → Responder σ E Res}
    {program : Call → Prog E Res ε α} {moves : List (Move Call Choice)} {y : Loop σ Res ε α Call}
    {j : Nat} (hmoves : ∀ m ∈ moves, m.task ≠ j) :
    (play K handler program moves y).running j = y.running j := by
  induction moves generalizing y with
  | nil => rfl
  | cons m moves ih =>
    have hrest : ∀ m ∈ moves, m.task ≠ j := fun m hm => hmoves m (List.mem_cons_of_mem _ hm)
    have hm : j ≠ m.task := (hmoves m List.mem_cons_self).symm
    cases m with
    | start i call =>
      rw [play]
      split
      · exact (ih hrest).trans (put_running_of_ne _ _ _ _ _ hm)
      · exact ih hrest
    | act i choice =>
      rw [play]
      split
      · split
        · split
          · exact (ih hrest).trans (put_running_of_ne _ _ _ _ _ hm)
          · exact ih hrest
        · exact ih hrest
      · exact ih hrest

/-- A task that a schedule does not begin is not there. -/
theorem play_running {K : Kernel σ E Res} {handler : Nat → Choice → Responder σ E Res}
    {program : Call → Prog E Res ε α} {moves : List (Move Call Choice)} {y : Loop σ Res ε α Call}
    {i : Nat} (hmoves : ∀ call, .start i call ∉ moves) (hi : y.running i = none) :
    (play K handler program moves y).running i = none := by
  induction moves generalizing y with
  | nil => exact hi
  | cons m moves ih =>
    have hrest : ∀ call, .start i call ∉ moves :=
      fun call hcall => hmoves call (List.mem_cons_of_mem _ hcall)
    have hput : ∀ {s j call p}, i ≠ j → (y.put K s j call p).running i = none := by
      intro s j call p hj
      rw [put_running_of_ne _ _ _ _ _ hj, hi]
    cases m with
    | start j call =>
      rw [play]
      split
      · exact ih hrest (hput fun hj => hmoves call (by simp [hj]))
      · exact ih hrest hi
    | act j choice =>
      rw [play]
      split
      · rename_i call e k hj
        have hij : i ≠ j := by
          rintro rfl
          rw [hi] at hj
          cases hj
        split
        · split
          · exact ih hrest (hput hij)
          · exact ih hrest hi
        · exact ih hrest hi
      · exact ih hrest hi

end Loop
end Effects
