import VpnControl.Lib.CriticalSection

/-! What holds not only at the end of a program but at every instant of its runs, and programs
whose results tell something of the operations behind them. -/

namespace Effects
open Prog

variable {σ τ E ε α β : Type} {Res : E → Type}

namespace Prog

/-- Every operation that the program can come to perform satisfies `P`, and every value that it
can return satisfies `R`. -/
def UsesTo (P : E → Prop) (R : α → Prop) : Prog E Res ε α → Prop
  | ret a => R a
  | fail _ => True
  | op e k => P e ∧ ∀ r, (k r).UsesTo P R

variable {P : E → Prop} {R : α → Prop}

theorem UsesTo.uses {p : Prog E Res ε α} (h : p.UsesTo P R) : p.Uses P := by
  induction p with
  | ret a => trivial
  | fail x => trivial
  | op e k ih => exact ⟨h.1, fun r => ih r (h.2 r)⟩

theorem Uses.usesTo {p : Prog E Res ε α} (h : p.Uses P) : p.UsesTo P fun _ => True := by
  induction p with
  | ret a => trivial
  | fail x => trivial
  | op e k ih => exact ⟨h.1, fun r => ih r (h.2 r)⟩

theorem usesTo_bind {S : β → Prop} {p : Prog E Res ε α} {f : α → Prog E Res ε β}
    (hp : p.UsesTo P R) (hf : ∀ a, R a → (f a).UsesTo P S) : (p >>= f).UsesTo P S := by
  change (p.bind f).UsesTo P S
  induction p with
  | ret a => exact hf a hp
  | fail x => trivial
  | op e k ih => exact ⟨hp.1, fun r => ih r (hp.2 r)⟩

end Prog

section Refine
variable {env : Env σ E Res} {env' : Env τ E Res} {P : E → Prop} {view : τ → σ}

end Refine

/-- A run by a handler that does what the environment allows. -/
theorem runs_runWith {env : Env σ E Res} {handler : Handler σ E Res}
    (hhandler : ∀ s e, env s e (handler s e).1 (handler s e).2) (p : Prog E Res ε α) (s : σ) :
    Runs env p s (p.runWith handler s).1 (p.runWith handler s).2 := by
  induction p generalizing s with
  | ret a => exact runs_ret.mpr ⟨rfl, rfl⟩
  | fail x => exact runs_fail.mpr ⟨rfl, rfl⟩
  | op e k ih => exact runs_op.mpr ⟨_, _, hhandler s e, ih _ _⟩

/-- `I` holds at the start of a program and behind each of its operations, however the
environment answers. -/
def always (env : Env σ E Res) (I : σ → Prop) : Prog E Res ε α → σ → Prop
  | ret _, s => I s
  | fail _, s => I s
  | op e k, s => I s ∧ ∀ r s', env s e r s' → always env I (k r) s'

section Always
variable {env : Env σ E Res} {I J : σ → Prop} {s : σ}

theorem always_start {p : Prog E Res ε α} (h : always env I p s) : I s := by
  cases p with
  | ret a => exact h
  | fail x => exact h
  | op e k => exact h.1

theorem always_mono {p : Prog E Res ε α} (h : always env I p s) (hIJ : ∀ s, I s → J s) :
    always env J p s := by
  induction p generalizing s with
  | ret a => exact hIJ s h
  | fail x => exact hIJ s h
  | op e k ih => exact ⟨hIJ s h.1, fun r s' hr => ih r (h.2 r s' hr)⟩

theorem always_end {p : Prog E Res ε α} (h : always env I p s) :
    wp env p (fun _ s' => I s') s := by
  induction p generalizing s with
  | ret a => exact h
  | fail x => exact h
  | op e k ih => exact fun r s' hr => ih r (h.2 r s' hr)

/-- The rest of a program holds on from the states that its first part ends in. -/
theorem always_bind {P : Post σ ε α} {p : Prog E Res ε α} {f : α → Prog E Res ε β}
    (hp : always env I p s) (hw : wp env p P s)
    (hf : ∀ a s', P (.ok a) s' → always env I (f a) s') : always env I (p >>= f) s := by
  change always env I (p.bind f) s
  induction p generalizing s with
  | ret a => exact hf a s hw
  | fail x => exact hp
  | op e k ih => exact ⟨hp.1, fun r s' hr => ih r (hp.2 r s' hr) (hw r s' hr)⟩

/-- What every operation of a program preserves holds all the time. -/
theorem always_uses {P : E → Prop} (h : ∀ s e r s', P e → env s e r s' → I s → I s')
    {p : Prog E Res ε α} (hp : p.Uses P) (hs : I s) : always env I p s := by
  induction p generalizing s with
  | ret a => exact hs
  | fail x => exact hs
  | op e k ih => exact ⟨hs, fun r s' hr => ih r (hp.2 r) (h s e r s' hp.1 hr hs)⟩

theorem always_map (f : α → β) {p : Prog E Res ε α} (h : always env I p s) :
    always env I (p.map f) s := by
  induction p generalizing s with
  | ret a => exact h
  | fail x => exact h
  | op e k ih => exact ⟨h.1, fun r s' hr => ih r (h.2 r s' hr)⟩

end Always
end Effects
