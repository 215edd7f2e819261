import VpnControl.Lib.TwoRuns

/-! Two programs that need not end alike: what whoever sees only a part of their operations can tell. -/

namespace Effects
open Prog

variable {E ε ε' α α' β β' : Type} {Res : E → Type}

/-- Two programs do the same as far as `A` can tell, and end in ways that `R` relates. -/
def Prog.Related (A : OpRel E Res) (R : Except ε α → Except ε' α' → Prop) :
    Prog E Res ε α → Prog E Res ε' α' → Prop
  | ret a, ret b => R (.ok a) (.ok b)
  | fail x, fail y => R (.error x) (.error y)
  | op e k, op e' k' => ∃ ρ, A e e' ρ ∧ ∀ r r', ρ r r' → (k r).Related A R (k' r')
  | _, _ => False

section Related
variable {A : OpRel E Res} {R : Except ε α → Except ε' α' → Prop}
  {S : Except ε β → Except ε' β' → Prop}

theorem related_bind {p : Prog E Res ε α} {p' : Prog E Res ε' α'} {f : α → Prog E Res ε β}
    {f' : α' → Prog E Res ε' β'} (hp : p.Related A R p')
    (hok : ∀ a b, R (.ok a) (.ok b) → (f a).Related A S (f' b))
    (herr : ∀ x y, R (.error x) (.error y) → S (.error x) (.error y)) :
    (p >>= f).Related A S (p' >>= f') := by
  change (p.bind f).Related A S (p'.bind f')
  induction p generalizing p' with
  | ret a =>
    cases p' with
    | ret b => exact hok a b hp
    | fail y => exact hp.elim
    | op e' k' => exact hp.elim
  | fail x =>
    cases p' with
    | ret b => exact hp.elim
    | fail y => exact herr x y hp
    | op e' k' => exact hp.elim
  | op e k ih =>
    cases p' with
    | ret b => exact hp.elim
    | fail y => exact hp.elim
    | op e' k' =>
      obtain ⟨ρ, hop, hk⟩ := hp
      exact ⟨ρ, hop, fun r r' hr => ih r (hk r r' hr)⟩

/-- Both programs are caught in the same place. -/
theorem related_attempt {p : Prog E Res ε α} {p' : Prog E Res ε' α'} (hp : p.Related A R p')
    {f : Except ε α → Prog E Res ε β} {f' : Except ε' α' → Prog E Res ε' β'}
    (h : ∀ r r', R r r' → (f r).Related A S (f' r')) :
    (p.attempt >>= f).Related A S (p'.attempt >>= f') := by
  induction p generalizing p' with
  | ret a =>
    cases p' with
    | ret b => exact h _ _ hp
    | fail y => exact hp.elim
    | op e' k' => exact hp.elim
  | fail x =>
    cases p' with
    | ret b => exact hp.elim
    | fail y => exact h _ _ hp
    | op e' k' => exact hp.elim
  | op e k ih =>
    cases p' with
    | ret b => exact hp.elim
    | fail y => exact hp.elim
    | op e' k' =>
      obtain ⟨ρ, hop, hk⟩ := hp
      exact ⟨ρ, hop, fun r r' hr => ih r (hk r r' hr)⟩

end Related

section Asked
variable {Ans V : Type}

/-- The operations of a program that is given these answers, up to the first that is given none. -/
def Prog.asked : Prog E (fun _ => Ans) ε α → List Ans → List E
  | op e k, r :: rs => e :: (k r).asked rs
  | op e _, [] => [e]
  | _, _ => []

/-- Operations that look alike and are answered alike. -/
def sameView (view : E → V) : OpRel E (fun _ => Ans) := fun e e' ρ => view e = view e' ∧ ρ = Eq

/-- Whoever sees the operations through `view` does not tell related programs apart. -/
theorem Prog.Related.asked {view : E → V} {R : Except ε α → Except ε' α' → Prop}
    {p : Prog E (fun _ => Ans) ε α} {p' : Prog E (fun _ => Ans) ε' α'}
    (h : p.Related (sameView view) R p') (answers : List Ans) :
    (p.asked answers).map view = (p'.asked answers).map view := by
  induction p generalizing p' answers with
  | ret a =>
    cases p' with
    | ret b => rfl
    | fail y => exact h.elim
    | op e' k' => exact h.elim
  | fail x =>
    cases p' with
    | ret b => exact h.elim
    | fail y => rfl
    | op e' k' => exact h.elim
  | op e k ih =>
    cases p' with
    | ret b => exact h.elim
    | fail y => exact h.elim
    | op e' k' =>
      obtain ⟨ρ, ⟨hview, rfl⟩, hk⟩ := h
      cases answers with
      | nil => simp [Prog.asked, hview]
      | cons r rs => simp [Prog.asked, hview, ih r (hk r r rfl) rs]

end Asked
end Effects
