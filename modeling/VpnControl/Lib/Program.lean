import Mathlib.Data.List.Basic

namespace Effects

/-- A program that performs operations `e : E`, each answered by the environment
with some value of `Res e`, and that returns a value or raises an error. -/
inductive Prog (E : Type) (Res : E → Type) (ε α : Type) : Type
  | ret (a : α)
  | fail (x : ε)
  | op (e : E) (k : Res e → Prog E Res ε α)

/-- What the environment may answer to an operation, and the state it leaves. -/
abbrev Env (σ E : Type) (Res : E → Type) := σ → (e : E) → Res e → σ → Prop

/-- A predicate on the outcome of a program and the state it ends in. -/
abbrev Post (σ ε α : Type) := Except ε α → σ → Prop

variable {σ τ E ε α β : Type} {Res : E → Type}

namespace Prog

def bind : Prog E Res ε α → (α → Prog E Res ε β) → Prog E Res ε β
  | ret a, f => f a
  | fail x, _ => fail x
  | op e k, f => op e fun r => (k r).bind f

/-- Run a program to its end and hand its outcome, error or value, to the rest. -/
def attempt : Prog E Res ε α → Prog E Res ε (Except ε α)
  | ret a => ret (.ok a)
  | fail x => ret (.error x)
  | op e k => op e fun r => (k r).attempt

instance : Monad (Prog E Res ε) where
  pure := ret
  bind := bind

instance : MonadExcept ε (Prog E Res ε) where
  throw := fail
  tryCatch p h := bind p.attempt fun
    | .ok a => ret a
    | .error x => h x

theorem bind_ret (p : Prog E Res ε α) : p.bind ret = p := by
  induction p with
  | ret a => rfl
  | fail x => rfl
  | op e k ih => exact congrArg (op e) (funext ih)

theorem bind_bind {γ : Type} (p : Prog E Res ε α) (f : α → Prog E Res ε β)
    (g : β → Prog E Res ε γ) : (p.bind f).bind g = p.bind fun a => (f a).bind g := by
  induction p with
  | ret a => rfl
  | fail x => rfl
  | op e k ih => exact congrArg (op e) (funext ih)

instance : LawfulMonad (Prog E Res ε) :=
  LawfulMonad.mk' _ bind_ret (fun _ _ => rfl) bind_bind

def lift : Except ε α → Prog E Res ε α
  | .ok a => ret a
  | .error x => fail x

/-- The operation itself, answering with what the environment answers. -/
def perform (e : E) : Prog E Res ε (Res e) := op e ret

/-- Every operation that the program can come to perform satisfies `P`. -/
def Uses (P : E → Prop) : Prog E Res ε α → Prop
  | ret _ => True
  | fail _ => True
  | op e k => P e ∧ ∀ r, (k r).Uses P

section Uses
variable {P : E → Prop}

theorem uses_bind {p : Prog E Res ε α} {f : α → Prog E Res ε β} (hp : p.Uses P)
    (hf : ∀ a, (f a).Uses P) : (p >>= f).Uses P := by
  change (p.bind f).Uses P
  induction p with
  | ret a => exact hf a
  | fail x => trivial
  | op e k ih => exact ⟨hp.1, fun r => ih r (hp.2 r)⟩

theorem uses_attempt {p : Prog E Res ε α} (hp : p.Uses P) : p.attempt.Uses P := by
  induction p with
  | ret a => trivial
  | fail x => trivial
  | op e k ih => exact ⟨hp.1, fun r => ih r (hp.2 r)⟩

theorem uses_lift (x : Except ε α) : (lift x : Prog E Res ε α).Uses P := by
  cases x <;> trivial

theorem Uses.mono {R : E → Prop} {p : Prog E Res ε α} (hp : p.Uses P) (h : ∀ e, P e → R e) :
    p.Uses R := by
  induction p with
  | ret a => trivial
  | fail x => trivial
  | op e k ih => exact ⟨h e hp.1, fun r => ih r (hp.2 r)⟩

theorem uses_perform {e : E} (he : P e) : (perform e : Prog E Res ε (Res e)).Uses P :=
  ⟨he, fun _ => trivial⟩

theorem uses_true (p : Prog E Res ε α) : p.Uses fun _ => True := by
  induction p with
  | ret a => trivial
  | fail x => trivial
  | op e k ih => exact ⟨trivial, ih⟩

end Uses

/-- After an operation and its answer the program performs at once the operation that `next`
names, if it names one. -/
def Follows (next : (e : E) → Res e → Option E) : Prog E Res ε α → Prop
  | ret _ => True
  | fail _ => True
  | op e k => ∀ r, (∀ e', next e r = some e' → ∃ k', k r = op e' k') ∧ (k r).Follows next

section Follows
variable {next : (e : E) → Res e → Option E}

theorem follows_bind {p : Prog E Res ε α} {f : α → Prog E Res ε β} (hp : p.Follows next)
    (hf : ∀ a, (f a).Follows next) : (p >>= f).Follows next := by
  change (p.bind f).Follows next
  induction p with
  | ret a => exact hf a
  | fail x => trivial
  | op e k ih =>
    refine fun r => ⟨fun e' he' => ?_, ih r (hp r).2⟩
    obtain ⟨k', hk'⟩ := (hp r).1 e' he'
    exact ⟨_, congrArg (Prog.bind · f) hk'⟩

theorem follows_attempt {p : Prog E Res ε α} (hp : p.Follows next) : p.attempt.Follows next := by
  induction p with
  | ret a => trivial
  | fail x => trivial
  | op e k ih =>
    refine fun r => ⟨fun e' he' => ?_, ih r (hp r).2⟩
    obtain ⟨k', hk'⟩ := (hp r).1 e' he'
    exact ⟨_, congrArg Prog.attempt hk'⟩

theorem Uses.follows {P : E → Prop} {p : Prog E Res ε α} (hp : p.Uses P)
    (h : ∀ e r, P e → next e r = none) : p.Follows next := by
  induction p with
  | ret a => trivial
  | fail x => trivial
  | op e k ih =>
    refine fun r => ⟨fun e' he' => ?_, ih r (hp.2 r)⟩
    rw [h e r hp.1] at he'
    cases he'

end Follows
end Prog

open Prog

/-- `wp env p Q s`: however the environment answers, `p` started in `s` ends, if
it ends, with an outcome and a state in `Q`. -/
def wp (env : Env σ E Res) : Prog E Res ε α → Post σ ε α → σ → Prop
  | ret a, Q, s => Q (.ok a) s
  | fail x, Q, s => Q (.error x) s
  | op e k, Q, s => ∀ r s', env s e r s' → wp env (k r) Q s'

variable {env : Env σ E Res} {Q R : Post σ ε α} {s : σ}

@[simp] theorem wp_ret (a : α) : wp env (ret a) Q s ↔ Q (.ok a) s := Iff.rfl

@[simp] theorem wp_pure (a : α) : wp env (pure a : Prog E Res ε α) Q s ↔ Q (.ok a) s := Iff.rfl

@[simp] theorem wp_fail (x : ε) : wp env (fail x) Q s ↔ Q (.error x) s := Iff.rfl

@[simp] theorem wp_throw (x : ε) :
    wp env (throw x : Prog E Res ε α) Q s ↔ Q (.error x) s := Iff.rfl

@[simp] theorem wp_lift (x : Except ε α) : wp env (Prog.lift x) Q s ↔ Q x s := by
  cases x <;> rfl

theorem wp_op (e : E) (k : Res e → Prog E Res ε α) :
    wp env (op e k) Q s ↔ ∀ r s', env s e r s' → wp env (k r) Q s' := Iff.rfl

theorem wp_perform (e : E) (Q : Post σ ε (Res e)) :
    wp env (perform e) Q s ↔ ∀ r s', env s e r s' → Q (.ok r) s' := Iff.rfl

/-- The rule of consequence. -/
theorem wp_mono {p : Prog E Res ε α} (h : wp env p Q s) (hQ : ∀ r s', Q r s' → R r s') :
    wp env p R s := by
  induction p generalizing s with
  | ret a => exact hQ _ _ h
  | fail x => exact hQ _ _ h
  | op e k ih => exact fun r s' hr => ih r (h r s' hr)

theorem wp_bind (p : Prog E Res ε α) (f : α → Prog E Res ε β) (Q : Post σ ε β) :
    wp env (p >>= f) Q s ↔ wp env p (fun r s' => match r with
      | .ok a => wp env (f a) Q s'
      | .error x => Q (.error x) s') s := by
  change wp env (p.bind f) Q s ↔ _
  induction p generalizing s with
  | ret a => rfl
  | fail x => rfl
  | op e k ih => exact forall_congr' fun r => forall_congr' fun s' => imp_congr_right fun _ => ih r

theorem wp_attempt (p : Prog E Res ε α) (Q : Post σ ε (Except ε α)) :
    wp env p.attempt Q s ↔ wp env p (fun r s' => Q (.ok r) s') s := by
  induction p generalizing s with
  | ret a => rfl
  | fail x => rfl
  | op e k ih => exact forall_congr' fun r => forall_congr' fun s' => imp_congr_right fun _ => ih r

/-- Sequencing: a specification of the first part and, from each of its normal
outcomes, one of the rest. -/
theorem wp_seq {p : Prog E Res ε α} {f : α → Prog E Res ε β} {Q : Post σ ε β} {P : Post σ ε α}
    (hp : wp env p P s) (hok : ∀ a s', P (.ok a) s' → wp env (f a) Q s')
    (herr : ∀ x s', P (.error x) s' → Q (.error x) s') : wp env (p >>= f) Q s := by
  rw [wp_bind]
  apply wp_mono hp
  intro r s' h
  cases r with
  | ok a => exact hok a s' h
  | error x => exact herr x s' h

theorem wp_seq_attempt {p : Prog E Res ε α} {f : Except ε α → Prog E Res ε β} {Q : Post σ ε β}
    {P : Post σ ε α} (hp : wp env p P s) (h : ∀ r s', P r s' → wp env (f r) Q s') :
    wp env (p.attempt >>= f) Q s := by
  rw [wp_bind, wp_attempt]
  exact wp_mono hp h

/-- A predicate on the normal outcomes only. -/
def onOk (P : α → σ → Prop) : Post σ ε α := fun r s => ∀ a, r = .ok a → P a s

/-- A predicate on the errors only. -/
def onError (R : ε → σ → Prop) : Post σ ε α := fun r s => ∀ x, r = .error x → R x s

theorem wp_onOk_ret {a : α} {P : α → σ → Prop} (h : P a s) : wp env (ret a) (onOk P : Post σ ε α) s := by
  rintro _ ⟨⟩
  exact h

theorem wp_onOk_true (p : Prog E Res ε α) : wp env p (onOk fun _ _ => True) s := by
  induction p generalizing s with
  | ret a => exact wp_onOk_ret trivial
  | fail x =>
    rintro _ ⟨⟩
  | op e k ih => exact fun r s' _ => ih r

theorem wp_onOk_bind {p : Prog E Res ε α} {f : α → Prog E Res ε β} {P : α → σ → Prop}
    {R : β → σ → Prop} (hp : wp env p (onOk P) s) (hf : ∀ a s', P a s' → wp env (f a) (onOk R) s') :
    wp env (p >>= f) (onOk R) s := by
  apply wp_seq hp
  · exact fun a s' h => hf a s' (h a rfl)
  · rintro x s' - _ ⟨⟩

/-- A specification in one environment holds in every environment that only does
what the first one allows, seen through a view of its states. -/
theorem wp_refine {env' : Env τ E Res} (view : τ → σ)
    (h : ∀ t e r t', env' t e r t' → env (view t) e r (view t')) {p : Prog E Res ε α} {t : τ}
    (hp : wp env p Q (view t)) : wp env' p (fun r t' => Q r (view t')) t := by
  induction p generalizing t with
  | ret a => exact hp
  | fail x => exact hp
  | op e k ih => exact fun r t' hr => ih r (hp r (view t') (h t e r t' hr))

/-- What every operation used by a program preserves, the program preserves. -/
theorem wp_uses {P : E → Prop} {I : σ → Prop}
    (h : ∀ s e r s', P e → env s e r s' → I s → I s') {p : Prog E Res ε α} (hp : p.Uses P)
    (hs : I s) : wp env p (fun _ s' => I s') s := by
  induction p generalizing s with
  | ret a => exact hs
  | fail x => exact hs
  | op e k ih => exact fun r s' hr => ih r (hp.2 r) (h s e r s' hp.1 hr hs)

theorem wp_and {p : Prog E Res ε α} (hq : wp env p Q s) (hr : wp env p R s) :
    wp env p (fun r s' => Q r s' ∧ R r s') s := by
  induction p generalizing s with
  | ret a => exact ⟨hq, hr⟩
  | fail x => exact ⟨hq, hr⟩
  | op e k ih => exact fun r s' h => ih r (hq r s' h) (hr r s' h)

/-- One complete execution: the operations with their answers, the outcome and
the final state. -/
inductive Exec (env : Env σ E Res) : Prog E Res ε α → σ → List (Sigma Res) → Except ε α → σ → Prop
  | ret (a : α) (s : σ) : Exec env (.ret a) s [] (.ok a) s
  | fail (x : ε) (s : σ) : Exec env (.fail x) s [] (.error x) s
  | op {e : E} {k : Res e → Prog E Res ε α} {s s' s'' : σ} {r : Res e} {l : List (Sigma Res)}
      {out : Except ε α} (h : env s e r s') (rest : Exec env (k r) s' l out s'') :
      Exec env (.op e k) s (⟨e, r⟩ :: l) out s''

/-- `wp` speaks about exactly the complete executions. -/
theorem wp_iff_exec (p : Prog E Res ε α) :
    wp env p Q s ↔ ∀ l out s', Exec env p s l out s' → Q out s' := by
  induction p generalizing s with
  | ret a =>
    constructor
    · rintro h _ _ _ ⟨⟩
      exact h
    · exact fun h => h _ _ _ (.ret a s)
  | fail x =>
    constructor
    · rintro h _ _ _ ⟨⟩
      exact h
    · exact fun h => h _ _ _ (.fail x s)
  | op e k ih =>
    constructor
    · rintro h _ _ _ (_ | _ | ⟨hstep, rest⟩)
      exact (ih _).mp (h _ _ hstep) _ _ _ rest
    · intro h r s' hstep
      exact (ih r).mpr fun l out s'' rest => h _ _ _ (.op hstep rest)

/-- `p`, started in `s`, can end with `out` in `s'`. -/
def Runs (env : Env σ E Res) (p : Prog E Res ε α) (s : σ) (out : Except ε α) (s' : σ) : Prop :=
  ∃ l, Exec env p s l out s'

theorem runs_ret {a : α} {out : Except ε α} {s s' : σ} :
    Runs env (ret a) s out s' ↔ out = .ok a ∧ s' = s := by
  constructor
  · rintro ⟨_, ⟨⟩⟩
    exact ⟨rfl, rfl⟩
  · rintro ⟨rfl, rfl⟩
    exact ⟨[], .ret a s'⟩

theorem runs_fail {x : ε} {out : Except ε α} {s s' : σ} :
    Runs env (fail x : Prog E Res ε α) s out s' ↔ out = .error x ∧ s' = s := by
  constructor
  · rintro ⟨_, ⟨⟩⟩
    exact ⟨rfl, rfl⟩
  · rintro ⟨rfl, rfl⟩
    exact ⟨[], .fail x s'⟩

theorem runs_op {e : E} {k : Res e → Prog E Res ε α} {out : Except ε α} {s s' : σ} :
    Runs env (op e k) s out s' ↔ ∃ r s₁, env s e r s₁ ∧ Runs env (k r) s₁ out s' := by
  constructor
  · rintro ⟨_, _ | _ | ⟨h, rest⟩⟩
    exact ⟨_, _, h, _, rest⟩
  · rintro ⟨r, s₁, h, l, rest⟩
    exact ⟨_, .op h rest⟩

theorem runs_lift {r out : Except ε α} {s s' : σ} :
    Runs env (lift r) s out s' ↔ out = r ∧ s' = s := by
  cases r with
  | ok a => exact runs_ret
  | error x => exact runs_fail

theorem runs_bind {p : Prog E Res ε α} {f : α → Prog E Res ε β} {out : Except ε β} {s s' : σ} :
    Runs env (p >>= f) s out s' ↔
      (∃ x, out = .error x ∧ Runs env p s (.error x) s') ∨
        ∃ a s₁, Runs env p s (.ok a) s₁ ∧ Runs env (f a) s₁ out s' := by
  change Runs env (p.bind f) s out s' ↔ _
  induction p generalizing s with
  | ret a => simp [Prog.bind, runs_ret]
  | fail x => simp [Prog.bind, runs_fail]
  | op e k ih =>
    simp only [Prog.bind, runs_op, ih]
    constructor
    · rintro ⟨r, s₁, h, ⟨x, hx, hp⟩ | ⟨a, s₂, hp, hf⟩⟩
      · exact .inl ⟨x, hx, r, s₁, h, hp⟩
      · exact .inr ⟨a, s₂, ⟨r, s₁, h, hp⟩, hf⟩
    · rintro (⟨x, hx, r, s₁, h, hp⟩ | ⟨a, s₂, ⟨r, s₁, h, hp⟩, hf⟩)
      · exact ⟨r, s₁, h, .inl ⟨x, hx, hp⟩⟩
      · exact ⟨r, s₁, h, .inr ⟨a, s₂, hp, hf⟩⟩

theorem runs_attempt {p : Prog E Res ε α} {out : Except ε (Except ε α)} {s s' : σ} :
    Runs env p.attempt s out s' ↔ ∃ r, out = .ok r ∧ Runs env p s r s' := by
  induction p generalizing s with
  | ret a => simp [Prog.attempt, runs_ret]
  | fail x => simp [Prog.attempt, runs_ret, runs_fail]
  | op e k ih =>
    simp only [Prog.attempt, runs_op, ih]
    constructor
    · rintro ⟨r, s₁, h, out, ho, hp⟩
      exact ⟨out, ho, r, s₁, h, hp⟩
    · rintro ⟨out, ho, r, s₁, h, hp⟩
      exact ⟨r, s₁, h, out, ho, hp⟩

/-- What a specification says of an execution. -/
theorem Runs.post {p : Prog E Res ε α} {out : Except ε α} {s s' : σ} (h : Runs env p s out s')
    (hp : wp env p Q s) : Q out s' := by
  obtain ⟨l, hexec⟩ := h
  exact (wp_iff_exec p).mp hp l out s' hexec

/-- One way for an environment to answer, as a function. -/
abbrev Handler (σ E : Type) (Res : E → Type) := σ → (e : E) → Res e × σ

def Prog.runWith (handler : Handler σ E Res) : Prog E Res ε α → σ → Except ε α × σ
  | ret a, s => (.ok a, s)
  | fail x, s => (.error x, s)
  | op e k, s => (k (handler s e).1).runWith handler (handler s e).2

/-- What is left of a program, and the state, behind its first `n` operations, if all of the
handler's answers to them are allowed. -/
def Prog.play (handler : Handler σ E Res) (allowed : (e : E) → Res e → Bool) :
    Nat → Prog E Res ε α → σ → Option (Prog E Res ε α × σ)
  | n + 1, op e k, s =>
    if allowed e (handler s e).1 then
      (k (handler s e).1).play handler allowed n (handler s e).2
    else none
  | _, p, s => some (p, s)

section Play
variable {handler : Handler σ E Res} {allowed : (e : E) → Res e → Bool}

@[simp] theorem Prog.play_zero (p : Prog E Res ε α) : p.play handler allowed 0 s = some (p, s) := by
  cases p <;> rfl

@[simp] theorem Prog.play_ret (n : Nat) (a : α) :
    (ret a : Prog E Res ε α).play handler allowed n s = some (ret a, s) := by
  cases n <;> rfl

@[simp] theorem Prog.play_fail (n : Nat) (x : ε) :
    (fail x : Prog E Res ε α).play handler allowed n s = some (fail x, s) := by
  cases n <;> rfl

theorem Prog.play_add (n m : Nat) (p : Prog E Res ε α) :
    p.play handler allowed (n + m) s =
      (p.play handler allowed n s).bind fun x => x.1.play handler allowed m x.2 := by
  induction n generalizing p s with
  | zero => rw [Nat.zero_add, play_zero, Option.bind_some]
  | succ n ih =>
    cases p with
    | ret a => simp
    | fail x => simp
    | op e k =>
      rw [Nat.succ_add, play, play, ih]
      split
      · rfl
      · rfl

end Play

/-- A run by a handler that does what the environment allows is one of its executions. -/
theorem wp_runWith {handler : Handler σ E Res}
    (hhandler : ∀ s e, env s e (handler s e).1 (handler s e).2) {p : Prog E Res ε α}
    (h : wp env p Q s) : Q (p.runWith handler s).1 (p.runWith handler s).2 := by
  induction p generalizing s with
  | ret a => exact h
  | fail x => exact h
  | op e k ih => exact ih _ (h _ _ (hhandler s e))

/-- The environment with the operations performed so far recorded beside its state. -/
def logged (env : Env σ E Res) : Env (σ × List (Sigma Res)) E Res :=
  fun s e r s' => env s.1 e r s'.1 ∧ s'.2 = s.2 ++ [⟨e, r⟩]

/-- The record kept by `logged` is the execution's own list of operations. -/
theorem exec_logged {p : Prog E Res ε α} {s s' : σ} {l : List (Sigma Res)} {out : Except ε α}
    (h : Exec env p s l out s') (l₀ : List (Sigma Res)) :
    Exec (logged env) p (s, l₀) l out (s', l₀ ++ l) := by
  induction h generalizing l₀ with
  | ret a s => simpa using Exec.ret a (s, l₀)
  | fail x s => simpa using Exec.fail x (s, l₀)
  | @op e k s s' s'' r l out hstep _ ih =>
    have hrest := ih (l₀ ++ [⟨e, r⟩])
    rw [List.append_assoc] at hrest
    exact .op ⟨hstep, rfl⟩ hrest

theorem exec_of_logged {p : Prog E Res ε α} {st st' : σ × List (Sigma Res)} {l : List (Sigma Res)}
    {out : Except ε α} (h : Exec (logged env) p st l out st') :
    Exec env p st.1 l out st'.1 ∧ st'.2 = st.2 ++ l := by
  induction h with
  | ret a s => exact ⟨.ret a s.1, by simp⟩
  | fail x s => exact ⟨.fail x s.1, by simp⟩
  | @op e k s s' s'' r l out hstep _ ih =>
    refine ⟨.op hstep.1 ih.1, ?_⟩
    rw [ih.2, hstep.2, List.append_assoc]
    rfl

/-- A specification that does not look at the record holds without it. -/
theorem wp_of_logged {p : Prog E Res ε α} {l : List (Sigma Res)}
    (h : wp (logged env) p (fun r st => Q r st.1) (s, l)) : wp env p Q s := by
  rw [wp_iff_exec] at h ⊢
  exact fun ops out s' hexec => h ops out (s', l ++ ops) (exec_logged hexec l)

end Effects
