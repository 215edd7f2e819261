import VpnControl.Lib.EveryInstant

/-! Two systems of callers with the same programs, one over a view of the states of the other. -/

namespace Effects
open Prog Function

variable {σ σ' τ E ε α β Call : Type} {Res : E → Type} {P : E → Prop}

/-- Taking and giving back the lock, and the operations that satisfy `P`. -/
def LockOp.Only (P : E → Prop) : LockOp E → Prop
  | acquire => True
  | release => True
  | act e => P e

theorem uses_unlock {p : Prog E Res ε α} (h : p.Uses P) :
    (unlock (τ := τ) p).Uses (LockOp.Only P) := by
  induction p with
  | ret a => exact ⟨trivial, fun _ => trivial⟩
  | fail x => exact ⟨trivial, fun _ => trivial⟩
  | op e k ih => exact ⟨h.1, fun r => ih r (h.2 r)⟩

theorem uses_withLock {refused : τ → ε} {p : Prog E Res ε α} (h : p.Uses P) :
    (withLock refused p).Uses (LockOp.Only P) := by
  refine ⟨trivial, fun r => ?_⟩
  cases r with
  | error x => trivial
  | ok _ => exact uses_unlock h

theorem uses_map (f : α → β) {p : Prog E Res ε α} (h : p.Uses P) : (p.map f).Uses P := by
  induction p with
  | ret a => trivial
  | fail x => trivial
  | op e k ih => exact ⟨h.1, fun r => ih r (h.2 r)⟩

namespace System

/-- A system with its shared state seen through a view. -/
def view (f : σ' → σ) (y : System σ' Res τ ε α Call) : System σ Res τ ε α Call where
  shared := f y.shared
  holder := y.holder
  running := y.running
  history := y.history

/-- What is left of every call uses only operations that satisfy `P`. -/
def Using (P : E → Prop) (y : System σ Res τ ε α Call) : Prop :=
  ∀ i c p, y.running i = some (c, p) → p.Uses (LockOp.Only P)

theorem using_update {y : System σ Res τ ε α Call} (hy : y.Using P) {i : Nat}
    {next : Option (Call × LockProg τ Res ε α)}
    (hnext : ∀ c p, next = some (c, p) → p.Uses (LockOp.Only P)) :
    ∀ j c p, update y.running i next j = some (c, p) → p.Uses (LockOp.Only P) := by
  intro j c p h
  by_cases hji : j = i
  · subst hji
    rw [update_self] at h
    exact hnext c p h
  · rw [update_of_ne hji] at h
    exact hy j c p h

variable {env : Env σ E Res} {env' : Env σ' E Res} {tick : σ → σ → Prop} {tick' : σ' → σ' → Prop}
  {program : Call → LockProg τ Res ε α} {f : σ' → σ}

theorem using_step (hprogram : ∀ c, (program c).Uses (LockOp.Only P))
    {y y' : System σ Res τ ε α Call} (hstep : Step env tick program y y') (hy : y.Using P) :
    y'.Using P := by
  cases hstep with
  | start i c h =>
    refine using_update hy ?_
    rintro d p ⟨⟩
    exact hprogram c
  | acquire h hfree =>
    refine using_update hy ?_
    rintro d p ⟨⟩
    exact (hy _ _ _ h).2 _
  | refuse h x =>
    refine using_update hy ?_
    rintro d p ⟨⟩
    exact (hy _ _ _ h).2 _
  | act h hact =>
    refine using_update hy ?_
    rintro d p ⟨⟩
    exact (hy _ _ _ h).2 _
  | release h =>
    refine using_update hy ?_
    rintro d p ⟨⟩
    exact (hy _ _ _ h).2 _
  | finish h hp =>
    refine using_update hy ?_
    rintro d p ⟨⟩
  | tick h => exact hy

theorem view_step (henv : ∀ t e r t', P e → env' t e r t' → env (f t) e r (f t'))
    (htick : ∀ t t', tick' t t' → tick (f t) (f t')) {y y' : System σ' Res τ ε α Call}
    (hy : y.Using P) (hstep : Step env' tick' program y y') :
    Step env tick program (y.view f) (y'.view f) := by
  cases hstep with
  | start i c h => exact .start i c h
  | acquire h hfree => exact .acquire h hfree
  | refuse h x => exact Step.refuse (y := y.view f) h x
  | act h hact => exact .act h (henv _ _ _ _ (hy _ _ _ h).1 hact)
  | release h => exact .release h
  | finish h hp => exact .finish h hp
  | tick h => exact .tick (htick _ _ h)

/-- A run over the states is a run over their views. -/
theorem view_runs (henv : ∀ t e r t', P e → env' t e r t' → env (f t) e r (f t'))
    (htick : ∀ t t', tick' t t' → tick (f t) (f t'))
    (hprogram : ∀ c, (program c).Uses (LockOp.Only P)) {y y' : System σ' Res τ ε α Call}
    (hy : y.Using P) (hruns : Relation.ReflTransGen (Step env' tick' program) y y') :
    Relation.ReflTransGen (Step env tick program) (y.view f) (y'.view f) := by
  have hboth : Relation.ReflTransGen (Step env tick program) (y.view f) (y'.view f) ∧
      y'.Using P := by
    induction hruns with
    | refl => exact ⟨.refl, hy⟩
    | tail _ hstep ih =>
      exact ⟨ih.1.tail (view_step henv htick ih.2 hstep), using_step hprogram hstep ih.2⟩
  exact hboth.1

end System
end Effects
