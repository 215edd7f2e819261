import VpnControl.Lib.EventLoop

namespace Effects
open Prog

variable {σ E C ε : Type} {Res : E → Type} {Ret : C → Type}

/-- A call that was made: the state it was made in, and how it ended. -/
structure Called (σ ε : Type) {C : Type} (Ret : C → Type) where
  before : σ
  call : C
  out : Except ε (Ret call)

/-- Calls made one after the other, the last one first; between two of them the state can
change by itself. -/
inductive Calls (env : Env σ E Res) (tick : σ → σ → Prop)
    (program : (c : C) → Prog E Res ε (Ret c)) (s₀ : σ) : List (Called σ ε Ret) → σ → Prop
  | start : Calls env tick program s₀ [] s₀
  | tick {l : List (Called σ ε Ret)} {s s' : σ} (h : Calls env tick program s₀ l s)
      (hs : tick s s') : Calls env tick program s₀ l s'
  | call {l : List (Called σ ε Ret)} {s s' : σ} {c : C} {out : Except ε (Ret c)}
      (h : Calls env tick program s₀ l s) (hc : Runs env (program c) s out s') :
      Calls env tick program s₀ (⟨s, c, out⟩ :: l) s'

variable {env : Env σ E Res} {tick : σ → σ → Prop} {program : (c : C) → Prog E Res ε (Ret c)}
  {s₀ s : σ} {l : List (Called σ ε Ret)}

/-- What every call preserves that meets a condition, together with the record of the calls so
far, holds as long as all calls meet it. -/
theorem Calls.invariant_of {G : σ → C → Prop} {I : List (Called σ ε Ret) → σ → Prop}
    (htick : ∀ l s s', I l s → tick s s' → I l s')
    (hcall : ∀ l s c, I l s → G s c → wp env (program c) (fun out s' => I (⟨s, c, out⟩ :: l) s') s)
    (hstart : I [] s₀) (h : Calls env tick program s₀ l s) (hl : ∀ c ∈ l, G c.before c.call) :
    I l s := by
  induction h with
  | start => exact hstart
  | tick _ hs ih => exact htick _ _ _ (ih hl) hs
  | call _ hc ih =>
    have hbefore := ih fun c hc => hl c (List.mem_cons_of_mem _ hc)
    exact hc.post (hcall _ _ _ hbefore (hl _ List.mem_cons_self))

/-- What every call preserves, together with the record of the calls so far, holds after all of
them. -/
theorem Calls.invariant {I : List (Called σ ε Ret) → σ → Prop}
    (htick : ∀ l s s', I l s → tick s s' → I l s')
    (hcall : ∀ l s c, I l s → wp env (program c) (fun out s' => I (⟨s, c, out⟩ :: l) s') s)
    (hstart : I [] s₀) (h : Calls env tick program s₀ l s) : I l s :=
  h.invariant_of (G := fun _ _ => True) htick (fun l s c hs _ => hcall l s c hs) hstart
    fun _ _ => trivial

/-- What every call preserves that meets a condition holds as long as all calls meet it. -/
theorem Calls.keeps {G : σ → C → Prop} {I : σ → Prop} (htick : ∀ s s', I s → tick s s' → I s')
    (hcall : ∀ s c, I s → G s c → wp env (program c) (fun _ s' => I s') s) (hstart : I s₀)
    (h : Calls env tick program s₀ l s) (hl : ∀ c ∈ l, G c.before c.call) : I s :=
  h.invariant_of (I := fun _ => I) (fun _ => htick) (fun _ s c => hcall s c) hstart hl

/-- The calls of a list, made one after the other when operations are answered by `handler`; a
call that would have to wait is left out. -/
def playCalls (handler : Responder σ E Res) (program : (c : C) → Prog E Res ε (Ret c)) :
    List C → List (Called σ ε Ret) × σ → List (Called σ ε Ret) × σ
  | [], y => y
  | c :: calls, y =>
    match (program c).respond handler y.2 with
    | some (out, s') => playCalls handler program calls (⟨y.2, c, out⟩ :: y.1, s')
    | none => playCalls handler program calls y

theorem calls_playCalls {handler : Responder σ E Res}
    (hhandler : ∀ s e r s', handler s e = some (r, s') → env s e r s') (calls : List C)
    {y : List (Called σ ε Ret) × σ} (h : Calls env tick program s₀ y.1 y.2) :
    Calls env tick program s₀ (playCalls handler program calls y).1
      (playCalls handler program calls y).2 := by
  induction calls generalizing y with
  | nil => exact h
  | cons c calls ih =>
    rw [playCalls]
    split
    · rename_i out s' hc
      exact ih (.call h (runs_respond hhandler hc))
    · exact ih h

end Effects
