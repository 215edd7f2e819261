import VpnControl.Lib.Program
import Mathlib.Logic.Function.Basic
import Mathlib.Logic.Relation

namespace Effects
open Prog Function

/-- The operations of a program that also takes a lock and gives it back. -/
inductive LockOp (E : Type) : Type
  | acquire
  | release
  | act (e : E)

/-- A lock is granted, or refused for some reason `τ`. -/
abbrev LockRes (τ : Type) {E : Type} (Res : E → Type) : LockOp E → Type
  | .acquire => Except τ Unit
  | .release => Unit
  | .act e => Res e

variable {σ τ E ε α β Call : Type} {Res : E → Type}

/-- Programs that also take and give back a lock. -/
abbrev LockProg (τ : Type) (Res : E → Type) (ε α : Type) : Type :=
  Prog (LockOp E) (LockRes τ Res) ε α

namespace Prog

/-- The outcome of a program that has nothing left to do. -/
def outcome : Prog E Res ε α → Option (Except ε α)
  | ret a => some (.ok a)
  | fail x => some (.error x)
  | op _ _ => none

@[simp] theorem outcome_lift (out : Except ε α) : (lift out : Prog E Res ε α).outcome = some out := by
  cases out <;> rfl

theorem eq_lift {p : Prog E Res ε α} {out : Except ε α} (h : p.outcome = some out) :
    p = lift out := by
  cases p with
  | ret a =>
    cases h
    rfl
  | fail x =>
    cases h
    rfl
  | op e k => cases h

def map (f : α → β) : Prog E Res ε α → Prog E Res ε β
  | ret a => ret (f a)
  | fail x => fail x
  | op e k => op e fun r => (k r).map f

end Prog

/-- The rest of a critical section: what is left of it, and then the release. -/
def unlock : Prog E Res ε α → LockProg τ Res ε α
  | ret a => op .release fun _ => ret a
  | fail x => op .release fun _ => fail x
  | op e k => op (.act e) fun r => unlock (k r)

/-- A program that runs `p` under the lock, and fails when it does not get it. -/
def withLock (refused : τ → ε) (p : Prog E Res ε α) : LockProg τ Res ε α :=
  op .acquire fun
    | .error x => fail (refused x)
    | .ok _ => unlock p

theorem wp_map {env : Env σ E Res} (f : α → β) (p : Prog E Res ε α) (Q : Post σ ε β) (s : σ) :
    wp env (p.map f) Q s ↔ wp env p (fun r s' => Q (r.map f) s') s := by
  induction p generalizing s with
  | ret a => rfl
  | fail x => rfl
  | op e k ih => exact forall_congr' fun r => forall_congr' fun s' => imp_congr_right fun _ => ih r s'

theorem wp_map_onError {env : Env σ E Res} {f : α → β} {p : Prog E Res ε α} {R : ε → σ → Prop} {s : σ}
    (h : wp env p (onError R) s) : wp env (p.map f) (onError R) s := by
  rw [wp_map]
  apply wp_mono h
  intro r s' hr x hx
  cases r with
  | ok a => cases hx
  | error y =>
    cases hx
    exact hr _ rfl

theorem map_unlock (f : α → β) (p : Prog E Res ε α) :
    (unlock (τ := τ) p).map f = unlock (p.map f) := by
  induction p with
  | ret a => rfl
  | fail x => rfl
  | op e k ih =>
    simp only [unlock, Prog.map]
    congr 1
    funext r
    exact ih r

theorem map_withLock (f : α → β) (refused : τ → ε) (p : Prog E Res ε α) :
    (withLock refused p).map f = withLock refused (p.map f) := by
  rw [withLock, withLock, Prog.map]
  congr 1
  funext r
  cases r with
  | error x => rfl
  | ok _ => exact map_unlock f p

/-- An environment that grants the lock or refuses it, and otherwise is `env`. -/
def lockEnv (τ : Type) (env : Env σ E Res) : Env σ (LockOp E) (LockRes τ Res)
  | s, .acquire, _, s' => s' = s
  | s, .release, _, s' => s' = s
  | s, .act e, r, s' => env s e r s'

/-- A handler that grants the lock. -/
def lockHandler (τ : Type) (handler : Handler σ E Res) : Handler σ (LockOp E) (LockRes τ Res)
  | s, .acquire => (.ok (), s)
  | s, .release => ((), s)
  | s, .act e => handler s e

theorem lockHandler_lockEnv {env : Env σ E Res} {handler : Handler σ E Res}
    (h : ∀ s e, env s e (handler s e).1 (handler s e).2) (s : σ) (e : LockOp E) :
    lockEnv τ env s e (lockHandler τ handler s e).1 (lockHandler τ handler s e).2 := by
  cases e with
  | acquire => rfl
  | release => rfl
  | act e => exact h s e

theorem wp_unlock {env : Env σ E Res} {p : Prog E Res ε α} {Q : Post σ ε α} {s : σ}
    (h : wp env p Q s) : wp (lockEnv τ env) (unlock p) Q s := by
  induction p generalizing s with
  | ret a =>
    rintro _ _ rfl
    exact h
  | fail x =>
    rintro _ _ rfl
    exact h
  | op e k ih => exact fun r s' hr => ih r (h r s' hr)

/-- One call by itself: either the lock is refused, or the critical section runs. -/
theorem wp_withLock {env : Env σ E Res} {refused : τ → ε} {p : Prog E Res ε α} {Q : Post σ ε α}
    {s : σ} (hrefused : ∀ x, Q (.error (refused x)) s) (h : wp env p Q s) :
    wp (lockEnv τ env) (withLock refused p) Q s := by
  rintro r _ rfl
  cases r with
  | error x => exact hrefused x
  | ok _ => exact wp_unlock h

/-- Any number of callers over one shared state: who holds the lock, what each caller
still has to do, and the calls whose critical sections are over, in the order of their
releases. -/
structure System (σ : Type) {E : Type} (Res : E → Type) (τ ε α Call : Type) where
  shared : σ
  holder : Option Nat := none
  running : Nat → Option (Call × LockProg τ Res ε α) := fun _ => none
  history : List (Call × Except ε α) := []

namespace System

/-- One step of one caller, or of the world around them. -/
inductive Step (env : Env σ E Res) (tick : σ → σ → Prop) (program : Call → LockProg τ Res ε α) :
    System σ Res τ ε α Call → System σ Res τ ε α Call → Prop
  | start {y} (i : Nat) (c : Call) (h : y.running i = none) :
      Step env tick program y { y with running := update y.running i (some (c, program c)) }
  | acquire {y} {i : Nat} {c : Call} {k} (h : y.running i = some (c, .op .acquire k))
      (hfree : y.holder = none) :
      Step env tick program y
        { y with holder := some i, running := update y.running i (some (c, k (.ok ()))) }
  | refuse {y} {i : Nat} {c : Call} {k} (h : y.running i = some (c, .op .acquire k)) (x : τ) :
      Step env tick program y { y with running := update y.running i (some (c, k (.error x))) }
  | act {y} {i : Nat} {c : Call} {e : E} {k} {r : Res e} {s' : σ}
      (h : y.running i = some (c, .op (.act e) k)) (hact : env y.shared e r s') :
      Step env tick program y
        { y with shared := s', running := update y.running i (some (c, k r)) }
  | release {y} {i : Nat} {c : Call} {k} (h : y.running i = some (c, .op .release k)) :
      Step env tick program y
        { y with
          holder := none
          running := update y.running i (some (c, k ()))
          history := y.history ++ ((k ()).outcome.map fun out => (c, out)).toList }
  | finish {y} {i : Nat} {c : Call} {p} (h : y.running i = some (c, p)) (hp : p.outcome ≠ none) :
      Step env tick program y { y with running := update y.running i none }
  | tick {y} {s' : σ} (h : tick y.shared s') : Step env tick program y { y with shared := s' }

section Play
variable {env : Env σ E Res} {tick : σ → σ → Prop} {program : Call → LockProg τ Res ε α}
  {y : System σ Res τ ε α Call} {i : Nat} {c : Call}

/-- A caller begins and gets the lock at once. -/
theorem runs_begin {refused : τ → ε} {body : Prog E Res ε α}
    (hcall : program c = withLock refused body) (hidle : y.running i = none)
    (hfree : y.holder = none) :
    Relation.ReflTransGen (Step env tick program) y
      { y with holder := some i, running := update y.running i (some (c, unlock body)) } := by
  have hstart : Step env tick program y _ := .start i c hidle
  rw [hcall] at hstart
  have hlock : Step env tick program
      { y with running := update y.running i (some (c, withLock refused body)) } _ :=
    .acquire (update_self ..) hfree
  rw [update_idem] at hlock
  exact .tail (.single hstart) hlock

/-- A caller that has the lock goes on as a handler answers. -/
theorem runs_play {handler : Handler σ E Res} {allowed : (e : E) → Res e → Bool}
    (hhandler : ∀ s e, allowed e (handler s e).1 = true →
      env s e (handler s e).1 (handler s e).2) {n : Nat} {p p' : Prog E Res ε α} {s' : σ}
    (hplay : p.play handler allowed n y.shared = some (p', s'))
    (h : y.running i = some (c, unlock p)) :
    Relation.ReflTransGen (Step env tick program) y
      { y with shared := s', running := update y.running i (some (c, unlock p')) } := by
  have hsame : ∀ (y : System σ Res τ ε α Call) (p : Prog E Res ε α),
      some (p, y.shared) = some (p', s') → y.running i = some (c, unlock p) →
      Relation.ReflTransGen (Step env tick program) y
        { y with shared := s', running := update y.running i (some (c, unlock p')) } := by
    rintro y p ⟨⟩ h
    rw [← h, update_eq_self]
  induction n generalizing y p with
  | zero => exact hsame y p (p.play_zero ▸ hplay) h
  | succ n ih =>
    cases p with
    | ret a => exact hsame y _ (play_ret (n + 1) a ▸ hplay) h
    | fail x => exact hsame y _ (play_fail (n + 1) x ▸ hplay) h
    | op e k =>
      rw [play] at hplay
      split at hplay
      · rename_i hallowed
        have hact : Step env tick program y _ := .act h (hhandler _ _ hallowed)
        have hrest := ih (y := { y with
          shared := (handler y.shared e).2
          running := update y.running i (some (c, unlock (k (handler y.shared e).1))) })
          hplay (update_self ..)
        rw [update_idem] at hrest
        exact .head hact hrest
      · cases hplay

/-- A caller whose section is over gives the lock back and is gone. -/
theorem runs_end {p : Prog E Res ε α} {out : Except ε α} (hout : p.outcome = some out)
    (h : y.running i = some (c, unlock p)) :
    Relation.ReflTransGen (Step env tick program) y
      { y with
        holder := none
        running := update y.running i none
        history := y.history ++ [(c, out)] } := by
  obtain ⟨k, hk, hkout⟩ : ∃ k, unlock (τ := τ) p = .op .release k ∧ (k ()).outcome = some out := by
    rw [eq_lift hout]
    cases out with
    | ok a => exact ⟨_, rfl, rfl⟩
    | error x => exact ⟨_, rfl, rfl⟩
  rw [hk] at h
  have hrelease : Step env tick program y _ := .release h
  rw [hkout] at hrelease
  have hfinish : Step env tick program
      { y with
        holder := none
        running := update y.running i (some (c, k ()))
        history := y.history ++ [(c, out)] } _ := .finish (update_self ..) (by simp [hkout])
  rw [update_idem] at hfinish
  exact .tail (.single hrelease) hfinish

/-- A whole call of one caller, with no step of another in between. -/
theorem runs_call {handler : Handler σ E Res} {allowed : (e : E) → Res e → Bool}
    (hhandler : ∀ s e, allowed e (handler s e).1 = true →
      env s e (handler s e).1 (handler s e).2) {refused : τ → ε} {body p : Prog E Res ε α}
    (hcall : program c = withLock refused body) (hidle : y.running i = none)
    (hfree : y.holder = none) {n : Nat} {s' : σ}
    (hplay : body.play handler allowed n y.shared = some (p, s')) {out : Except ε α}
    (hout : p.outcome = some out) :
    Relation.ReflTransGen (Step env tick program) y
      { y with shared := s', history := y.history ++ [(c, out)] } := by
  have hacts : Relation.ReflTransGen (Step env tick program)
      { y with holder := some i, running := update y.running i (some (c, unlock body)) } _ :=
    runs_play hhandler hplay (update_self ..)
  rw [update_idem] at hacts
  have hend : Relation.ReflTransGen (Step env tick program)
      { y with
        shared := s'
        holder := some i
        running := update y.running i (some (c, unlock p)) } _ :=
    runs_end hout (update_self ..)
  rw [update_idem, ← hidle, update_eq_self, ← hfree] at hend
  exact ((runs_begin hcall hidle hfree).trans hacts).trans hend

end Play

/-- What the states of a critical section have in common (`Inside`), and what holds of
the shared state and the history between two of them (`Good`). -/
structure Discipline (env : Env σ E Res) (tick : σ → σ → Prop)
    (Good : σ → List (Call × Except ε α) → Prop)
    (Inside : Call → List (Call × Except ε α) → Prog E Res ε α → σ → Prop) : Prop where
  op : ∀ {c h e k s r s'}, Inside c h (.op e k) s → env s e r s' → Inside c h (k r) s'
  exit : ∀ {c h p s out}, Inside c h p s → p.outcome = some out → Good s (h ++ [(c, out)])
  tickGood : ∀ {s s' h}, tick s s' → Good s h → Good s' h
  tickInside : ∀ {s s' c h p}, tick s s' → Inside c h p s → Inside c h p s'

/-- A program outside its critical section: it has not taken the lock yet, or it has
nothing left to do. -/
inductive Outside (Good : σ → List (Call × Except ε α) → Prop)
    (Inside : Call → List (Call × Except ε α) → Prog E Res ε α → σ → Prop) (c : Call) :
    LockProg τ Res ε α → Prop
  | ended (out : Except ε α) : Outside Good Inside c (lift out)
  | before (refused : τ → ε) (body : Prog E Res ε α)
      (h : ∀ s h, Good s h → Inside c h body s) : Outside Good Inside c (withLock refused body)

variable {env : Env σ E Res} {tick : σ → σ → Prop} {program : Call → LockProg τ Res ε α}
  {Good : σ → List (Call × Except ε α) → Prop}
  {Inside : Call → List (Call × Except ε α) → Prog E Res ε α → σ → Prop}

/-- Between two critical sections `Good` holds; during one, its caller is the holder
and `Inside` it. -/
def Invariant (Good : σ → List (Call × Except ε α) → Prop)
    (Inside : Call → List (Call × Except ε α) → Prog E Res ε α → σ → Prop)
    (y : System σ Res τ ε α Call) : Prop :=
  match y.holder with
  | none =>
    Good y.shared y.history ∧
      ∀ i c p, y.running i = some (c, p) → Outside Good Inside c p
  | some j =>
    (∃ c p, y.running j = some (c, unlock p) ∧ Inside c y.history p y.shared) ∧
      ∀ i c p, i ≠ j → y.running i = some (c, p) → Outside Good Inside c p

/-- One caller moves on, outside the critical section. -/
theorem invariant_update {y : System σ Res τ ε α Call} (hy : Invariant Good Inside y) {i : Nat}
    {next : Option (Call × LockProg τ Res ε α)} (hi : y.holder ≠ some i)
    (hnext : ∀ c p, next = some (c, p) → Outside Good Inside c p) :
    Invariant Good Inside { y with running := update y.running i next } := by
  have hothers : ∀ j c p, (j ≠ i → y.running j = some (c, p) → Outside Good Inside c p) →
      update y.running i next j = some (c, p) → Outside Good Inside c p := by
    intro j c p hj h
    by_cases hji : j = i
    · subst hji
      rw [update_self] at h
      exact hnext c p h
    · rw [update_of_ne hji] at h
      exact hj hji h
  unfold Invariant at hy ⊢
  cases hh : y.holder with
  | none =>
    simp only [hh] at hy ⊢
    exact ⟨hy.1, fun j c p => hothers j c p fun _ => hy.2 j c p⟩
  | some j =>
    simp only [hh] at hy ⊢
    have hij : j ≠ i := fun h => hi (by rw [hh, h])
    obtain ⟨⟨c, p, hp, hin⟩, hout⟩ := hy
    exact ⟨⟨c, p, by rwa [update_of_ne hij], hin⟩,
      fun l d q hl => hothers l d q fun _ => hout l d q hl⟩

theorem outside_op {c : Call} {e : LockOp E} {k : LockRes τ Res e → LockProg τ Res ε α}
    (h : Outside Good Inside c (.op e k)) :
    ∃ (refused : τ → ε) (body : Prog E Res ε α), Prog.op e k = withLock refused body ∧
      ∀ s h, Good s h → Inside c h body s := by
  generalize hp : Prog.op e k = p at h
  cases h with
  | ended out =>
    have h := congrArg Prog.outcome hp
    rw [outcome_lift] at h
    cases h
  | before refused body h => exact ⟨refused, body, rfl, h⟩

/-- Whoever performs an operation other than taking the lock holds it. -/
theorem holder_of_op {y : System σ Res τ ε α Call} (hy : Invariant Good Inside y) {i : Nat}
    {c : Call} {e : LockOp E} {k : LockRes τ Res e → LockProg τ Res ε α}
    (h : y.running i = some (c, .op e k)) (he : e ≠ .acquire) :
    y.holder = some i ∧ (∃ p, Prog.op e k = unlock p ∧ Inside c y.history p y.shared) ∧
      ∀ j d q, j ≠ i → y.running j = some (d, q) → Outside Good Inside d q := by
  have hout : ¬Outside Good Inside c (.op e k) := by
    intro hout
    obtain ⟨refused, body, heq, -⟩ := outside_op hout
    cases heq
    exact he rfl
  unfold Invariant at hy
  cases hh : y.holder with
  | none =>
    simp only [hh] at hy
    exact absurd (hy.2 i c _ h) hout
  | some j =>
    simp only [hh] at hy
    by_cases hij : i = j
    · subst hij
      obtain ⟨⟨d, p, hp, hin⟩, hrest⟩ := hy
      rw [h, Option.some.injEq, Prod.mk.injEq] at hp
      obtain ⟨rfl, hp⟩ := hp
      exact ⟨rfl, ⟨p, hp, hin⟩, hrest⟩
    · exact absurd (hy.2 i c _ hij h) hout

theorem not_holder_of_acquire {y : System σ Res τ ε α Call} (hy : Invariant Good Inside y) {i : Nat}
    {c : Call} {k : LockRes τ Res .acquire → LockProg τ Res ε α}
    (h : y.running i = some (c, .op .acquire k)) :
    y.holder ≠ some i ∧ Outside Good Inside c (.op .acquire k) := by
  unfold Invariant at hy
  cases hh : y.holder with
  | none =>
    simp only [hh] at hy
    exact ⟨by simp, hy.2 i c _ h⟩
  | some j =>
    simp only [hh] at hy
    by_cases hij : i = j
    · subst hij
      obtain ⟨⟨d, p, hp, -⟩, -⟩ := hy
      rw [h, Option.some.injEq, Prod.mk.injEq] at hp
      obtain ⟨-, hp⟩ := hp
      cases p <;> cases hp
    · exact ⟨fun hj => hij (Option.some.inj hj).symm, hy.2 i c _ hij h⟩

/-- What one step preserves. -/
theorem invariant_step (hd : Discipline env tick Good Inside)
    (hprogram : ∀ c, Outside Good Inside c (program c)) {y y' : System σ Res τ ε α Call}
    (hstep : Step env tick program y y') (hy : Invariant Good Inside y) :
    Invariant Good Inside y' := by
  cases hstep with
  | start i c h =>
    apply invariant_update hy
    · intro hi
      unfold Invariant at hy
      simp only [hi] at hy
      obtain ⟨⟨d, p, hp, -⟩, -⟩ := hy
      rw [h] at hp
      cases hp
    · rintro d p ⟨⟩
      exact hprogram c
  | @acquire i c k h hfree =>
    obtain ⟨refused, body, heq, hbody⟩ := outside_op (not_holder_of_acquire hy h).2
    cases heq
    unfold Invariant at hy
    simp only [hfree] at hy
    refine ⟨⟨c, body, ?_, hbody _ _ hy.1⟩, fun j d p hj hp => ?_⟩
    · exact update_self i _ y.running
    · change update y.running i _ j = _ at hp
      rw [update_of_ne hj] at hp
      exact hy.2 j d p hp
  | @refuse i c k h x =>
    obtain ⟨hi, hout⟩ := not_holder_of_acquire hy h
    obtain ⟨refused, body, heq, hbody⟩ := outside_op hout
    cases heq
    apply invariant_update hy hi
    rintro d p ⟨⟩
    exact .ended (.error (refused x))
  | @act i c e k r s' h hact =>
    obtain ⟨hi, ⟨p, heq, hin⟩, hrest⟩ := holder_of_op hy h (by simp)
    cases p with
    | ret a => cases heq
    | fail x => cases heq
    | op e' k' =>
      cases heq
      unfold Invariant
      simp only [hi]
      refine ⟨⟨c, k' r, ?_, hd.op hin hact⟩, fun j d p hj hp => ?_⟩
      · exact update_self i _ y.running
      · rw [update_of_ne hj] at hp
        exact hrest j d p hj hp
  | @release i c k h =>
    obtain ⟨hi, ⟨p, heq, hin⟩, hrest⟩ := holder_of_op hy h (by simp)
    -- what is left of the section is its outcome
    obtain ⟨out, hp, hk⟩ : ∃ out, p.outcome = some out ∧ k () = lift out := by
      cases p with
      | ret a =>
        cases heq
        exact ⟨.ok a, rfl, rfl⟩
      | fail x =>
        cases heq
        exact ⟨.error x, rfl, rfl⟩
      | op e' k' => cases heq
    simp only [Invariant, hk, outcome_lift, Option.map_some, Option.toList_some]
    refine ⟨hd.exit hin hp, fun j d q hq => ?_⟩
    by_cases hj : j = i
    · subst hj
      rw [update_self, Option.some.injEq, Prod.mk.injEq] at hq
      obtain ⟨rfl, rfl⟩ := hq
      exact .ended out
    · rw [update_of_ne hj] at hq
      exact hrest j d q hj hq
  | @finish i c p h hp =>
    apply invariant_update hy
    · intro hi
      unfold Invariant at hy
      simp only [hi] at hy
      obtain ⟨⟨d, q, hq, -⟩, -⟩ := hy
      rw [h, Option.some.injEq, Prod.mk.injEq] at hq
      obtain ⟨-, rfl⟩ := hq
      cases q <;> exact hp rfl
    · rintro d q ⟨⟩
  | @tick s' h =>
    unfold Invariant at hy ⊢
    cases hh : y.holder with
    | none =>
      simp only [hh] at hy ⊢
      exact ⟨hd.tickGood h hy.1, hy.2⟩
    | some j =>
      simp only [hh] at hy ⊢
      obtain ⟨⟨c, p, hp, hin⟩, hrest⟩ := hy
      exact ⟨⟨c, p, hp, hd.tickInside h hin⟩, hrest⟩

/-- The rule of critical sections: when every section started in a good state is
`Inside` and leaves a good state, every reachable state satisfies the invariant. -/
theorem invariant_reachable (hd : Discipline env tick Good Inside)
    (hprogram : ∀ c, Outside Good Inside c (program c)) {s : σ} (hs : Good s [])
    {y : System σ Res τ ε α Call}
    (h : Relation.ReflTransGen (Step env tick program) { shared := s } y) :
    Invariant Good Inside y := by
  induction h with
  | refl => exact ⟨hs, by simp⟩
  | tail _ hstep ih => exact invariant_step hd hprogram hstep ih

theorem good_reachable (hd : Discipline env tick Good Inside)
    (hprogram : ∀ c, Outside Good Inside c (program c)) {s : σ} (hs : Good s [])
    {y : System σ Res τ ε α Call}
    (h : Relation.ReflTransGen (Step env tick program) { shared := s } y) (hfree : y.holder = none) :
    Good y.shared y.history := by
  have hy := invariant_reachable hd hprogram hs h
  unfold Invariant at hy
  simp only [hfree] at hy
  exact hy.1

/-- Sections specified by what they leave behind, with no one else at work. -/
theorem discipline_wp (env : Env σ E Res) (Good : σ → List (Call × Except ε α) → Prop) :
    Discipline env (fun _ _ => False) Good
      fun c h p s => wp env p (fun out s' => Good s' (h ++ [(c, out)])) s where
  op h hact := h _ _ hact
  exit h hout := by
    rw [eq_lift hout, wp_lift] at h
    exact h
  tickGood h := h.elim
  tickInside h := h.elim

end System
end Effects
