import VpnControl.Lib.EventLoop
import VpnControl.Lib.CriticalSection

namespace Effects
open Prog Function

variable {σ E ε α β Call Λ : Type} {Res : E → Type}

/-- Which operations of two programs go together, and which answers to them do. -/
abbrev OpRel (E : Type) (Res : E → Type) := (e e' : E) → (Res e → Res e' → Prop) → Prop

/-- Two programs do the same as far as `A` can tell, and end in the same way. -/
def Prog.Alike (A : OpRel E Res) : Prog E Res ε α → Prog E Res ε α → Prop
  | ret a, ret b => a = b
  | fail x, fail y => x = y
  | op e k, op e' k' => ∃ ρ, A e e' ρ ∧ ∀ r r', ρ r r' → (k r).Alike A (k' r')
  | _, _ => False

section Alike
variable {A : OpRel E Res}

theorem alike_ret (a : α) : (ret a : Prog E Res ε α).Alike A (ret a) := rfl

theorem alike_fail (x : ε) : (fail x : Prog E Res ε α).Alike A (fail x) := rfl

theorem alike_lift (r : Except ε α) : (lift r : Prog E Res ε α).Alike A (lift r) := by
  cases r
  · exact alike_fail _
  · exact alike_ret _

theorem alike_bind {p p' : Prog E Res ε α} {f f' : α → Prog E Res ε β} (hp : p.Alike A p')
    (hf : ∀ a, (f a).Alike A (f' a)) : (p >>= f).Alike A (p' >>= f') := by
  change (p.bind f).Alike A (p'.bind f')
  induction p generalizing p' with
  | ret a =>
    cases p' with
    | ret b =>
      obtain rfl : a = b := hp
      exact hf a
    | fail y => exact hp.elim
    | op e' k' => exact hp.elim
  | fail x =>
    cases p' with
    | ret b => exact hp.elim
    | fail y => exact hp
    | op e' k' => exact hp.elim
  | op e k ih =>
    cases p' with
    | ret b => exact hp.elim
    | fail y => exact hp.elim
    | op e' k' =>
      obtain ⟨ρ, hop, hk⟩ := hp
      exact ⟨ρ, hop, fun r r' hr => ih r (hk r r' hr)⟩

theorem alike_attempt {p p' : Prog E Res ε α} (hp : p.Alike A p') :
    p.attempt.Alike A p'.attempt := by
  induction p generalizing p' with
  | ret a =>
    cases p' with
    | ret b => exact congrArg Except.ok hp
    | fail y => exact hp.elim
    | op e' k' => exact hp.elim
  | fail x =>
    cases p' with
    | ret b => exact hp.elim
    | fail y => exact congrArg Except.error hp
    | op e' k' => exact hp.elim
  | op e k ih =>
    cases p' with
    | ret b => exact hp.elim
    | fail y => exact hp.elim
    | op e' k' =>
      obtain ⟨ρ, hop, hk⟩ := hp
      exact ⟨ρ, hop, fun r r' hr => ih r (hk r r' hr)⟩

/-- An operation that goes with itself. -/
theorem alike_perform {e : E} (he : A e e Eq) :
    (perform e : Prog E Res ε (Res e)).Alike A (perform e) :=
  ⟨Eq, he, fun _ _ hr => hr⟩

theorem Prog.Alike.outcome {p p' : Prog E Res ε α} (h : p.Alike A p') : p.outcome = p'.outcome := by
  cases p with
  | ret a =>
    cases p' with
    | ret b => exact congrArg (some ∘ Except.ok) h
    | fail y => exact h.elim
    | op e' k' => exact h.elim
  | fail x =>
    cases p' with
    | ret b => exact h.elim
    | fail y => exact congrArg (some ∘ Except.error) h
    | op e' k' => exact h.elim
  | op e k =>
    cases p' with
    | ret b => exact h.elim
    | fail y => exact h.elim
    | op e' k' => rfl

theorem Prog.Alike.atRest {suspends : E → Bool} (hA : ∀ e e' ρ, A e e' ρ → suspends e = suspends e')
    {p p' : Prog E Res ε α} (h : p.Alike A p') : p.atRest suspends = p'.atRest suspends := by
  cases p with
  | ret a =>
    cases p' with
    | ret b => rfl
    | fail y => exact h.elim
    | op e' k' => exact h.elim
  | fail x =>
    cases p' with
    | ret b => exact h.elim
    | fail y => rfl
    | op e' k' => exact h.elim
  | op e k =>
    cases p' with
    | ret b => exact h.elim
    | fail y => exact h.elim
    | op e' k' =>
      obtain ⟨ρ, hop, -⟩ := h
      exact hA e e' ρ hop

end Alike

/-- What happens in a run: a call begins, a task performs an operation, the world goes on;
of the latter two, what can be seen of the outside. -/
inductive Event (Call Λ : Type) where
  | start (i : Nat) (call : Call)
  | act (i : Nat) (seen : Λ)
  | tick (seen : Λ)

/-- The same happens, apart from how the calls that `R` relates differ. -/
inductive Event.Alike (R : Call → Call → Prop) : Event Call Λ → Event Call Λ → Prop
  | start (i : Nat) {call call' : Call} (h : R call call') :
    Alike R (.start i call) (.start i call')
  | act (i : Nat) (seen : Λ) : Alike R (.act i seen) (.act i seen)
  | tick (seen : Λ) : Alike R (.tick seen) (.tick seen)

namespace Loop
variable {K : Kernel σ E Res} {tick : σ → σ → Prop} {program : Call → Prog E Res ε α}
  {seen : Option (Sigma Res) → σ → Λ}

/-- A run with what happens in it; `seen` shows what the outside has to do with an answer and
with the state after it. -/
def Trace (K : Kernel σ E Res) (tick : σ → σ → Prop) (program : Call → Prog E Res ε α)
    (seen : Option (Sigma Res) → σ → Λ) :
    List (Event Call Λ) → Loop σ Res ε α Call → Loop σ Res ε α Call → Prop
  | [], y, y' => y' = y
  | .start i call :: events, y, y' => y.running i = none ∧ y.active = none ∧
    Trace K tick program seen events (y.put K y.shared i call (program call)) y'
  | .act i l :: events, y, y' => ∃ call e k, ∃ r : Res e, ∃ s, y.running i = some (call, .op e k) ∧
    (y.active = none ∨ y.active = some i) ∧ K.env i y.shared e r s ∧ seen (some ⟨e, r⟩) s = l ∧
    Trace K tick program seen events (y.put K s i call (k r)) y'
  | .tick l :: events, y, y' => ∃ s, y.active = none ∧ tick y.shared s ∧ seen none s = l ∧
    Trace K tick program seen events { y with shared := s } y'

theorem Trace.reachable {events : List (Event Call Λ)} {y y' : Loop σ Res ε α Call}
    (h : Trace K tick program seen events y y') :
    Relation.ReflTransGen (Step K tick program) y y' := by
  induction events generalizing y with
  | nil =>
    obtain rfl : y' = y := h
    exact .refl
  | cons event events ih =>
    cases event with
    | start i call =>
      obtain ⟨hi, hturn, hrest⟩ := h
      exact .head (.start i call hi hturn) (ih hrest)
    | act i l =>
      obtain ⟨call, e, k, r, s, hi, hturn, hact, -, hrest⟩ := h
      exact .head (.act hi hturn hact) (ih hrest)
    | tick l =>
      obtain ⟨s, hturn, htick, -, hrest⟩ := h
      exact .head (.tick hturn htick) (ih hrest)

/-- What happens in the run of a schedule. -/
def events {Choice : Type} (K : Kernel σ E Res) (handler : Nat → Choice → Responder σ E Res)
    (program : Call → Prog E Res ε α) (seen : Option (Sigma Res) → σ → Λ) :
    List (Move Call Choice) → Loop σ Res ε α Call → List (Event Call Λ)
  | [], _ => []
  | .start i call :: moves, y =>
    match y.running i, y.active with
    | none, none => .start i call ::
      events K handler program seen moves (y.put K y.shared i call (program call))
    | _, _ => events K handler program seen moves y
  | .act i choice :: moves, y =>
    match y.running i with
    | some (call, .op e k) =>
      match handler i choice y.shared e with
      | some (r, s') =>
        if y.active = none ∨ y.active = some i then
          .act i (seen (some ⟨e, r⟩) s') :: events K handler program seen moves (y.put K s' i call (k r))
        else events K handler program seen moves y
      | none => events K handler program seen moves y
    | _ => events K handler program seen moves y

theorem trace_play {Choice : Type} {handler : Nat → Choice → Responder σ E Res}
    (hhandler : ∀ i choice s e r s', handler i choice s e = some (r, s') → K.env i s e r s')
    (tick : σ → σ → Prop) (program : Call → Prog E Res ε α) (seen : Option (Sigma Res) → σ → Λ)
    (moves : List (Move Call Choice)) (y : Loop σ Res ε α Call) :
    Trace K tick program seen (events K handler program seen moves y) y
      (play K handler program moves y) := by
  induction moves generalizing y with
  | nil => rfl
  | cons m moves ih =>
    cases m with
    | start i call =>
      cases hi : y.running i with
      | some task =>
        simp only [play, events, hi]
        exact ih y
      | none =>
        cases hturn : y.active with
        | some j =>
          simp only [play, events, hi, hturn]
          exact ih y
        | none =>
          simp only [play, events, hi, hturn]
          exact ⟨hi, hturn, ih _⟩
    | act i choice =>
      rcases hi : y.running i with _ | ⟨call, a | x | ⟨e, k⟩⟩
      · simp only [play, events, hi]
        exact ih y
      · simp only [play, events, hi]
        exact ih y
      · simp only [play, events, hi]
        exact ih y
      · cases hr : handler i choice y.shared e with
        | none =>
          simp only [play, events, hi, hr]
          exact ih y
        | some answer =>
          simp only [play, events, hi, hr]
          by_cases hturn : y.active = none ∨ y.active = some i
          · rw [if_pos hturn, if_pos hturn]
            exact ⟨call, e, k, answer.1, answer.2, hi, hturn, hhandler i choice y.shared e _ _ hr, rfl,
              ih _⟩
          · rw [if_neg hturn, if_neg hturn]
            exact ih y

/-- Two loops in states that `S` relates, the tasks of which do the same. -/
structure Twin (A : OpRel E Res) (S : σ → σ → Prop) (y y' : Loop σ Res ε α Call) : Prop where
  shared : S y.shared y'.shared
  active : y.active = y'.active
  running : ∀ i, (y.running i = none ∧ y'.running i = none) ∨
    ∃ call call' p p', y.running i = some (call, p) ∧ y'.running i = some (call', p') ∧
      p.Alike A p'

/-- Operations that go together lead from related states to related ones, with answers that go
together, if the outside does the same. -/
structure Unwinding (K : Kernel σ E Res) (tick : σ → σ → Prop)
    (seen : Option (Sigma Res) → σ → Λ) (A : OpRel E Res) (S : σ → σ → Prop) : Prop where
  suspends : ∀ e e' ρ, A e e' ρ → K.suspends e = K.suspends e'
  op : ∀ {i e e' ρ s s' r r' t t'}, A e e' ρ → S s s' → K.env i s e r t → K.env i s' e' r' t' →
    seen (some ⟨e, r⟩) t = seen (some ⟨e', r'⟩) t' → ρ r r' ∧ S t t'
  tick : ∀ {s s' t t'}, S s s' → tick s t → tick s' t' → seen none t = seen none t' → S t t'

section Twin
variable {A : OpRel E Res} {S : σ → σ → Prop} {y y' z z' : Loop σ Res ε α Call}

theorem Twin.put (hy : Twin A S y y') (hA : ∀ e e' ρ, A e e' ρ → K.suspends e = K.suspends e')
    {s s' : σ} (hs : S s s') (i : Nat) {call call' : Call} {p p' : Prog E Res ε α}
    (hp : p.Alike A p') : Twin A S (y.put K s i call p) (y'.put K s' i call' p') where
  shared := hs
  active := by
    change turnOf K.suspends i p = turnOf K.suspends i p'
    rw [turnOf, turnOf, hp.atRest hA]
  running := by
    intro j
    change (update y.running i _ j = none ∧ update y'.running i _ j = none) ∨
      ∃ c c' q q', update y.running i _ j = some (c, q) ∧ update y'.running i _ j = some (c', q') ∧ _
    by_cases hj : j = i
    · subst hj
      rw [update_self, update_self]
      exact .inr ⟨call, call', p, p', rfl, rfl, hp⟩
    · rw [update_of_ne hj, update_of_ne hj]
      exact hy.running j

/-- Two runs in which the outside does the same stay alike. -/
theorem Twin.trace (hU : Unwinding K tick seen A S) {R : Call → Call → Prop}
    (hprogram : ∀ call call', R call call' → (program call).Alike A (program call'))
    {events events' : List (Event Call Λ)} (hevents : List.Forall₂ (Event.Alike R) events events')
    (h : Trace K tick program seen events y z) (h' : Trace K tick program seen events' y' z')
    (hy : Twin A S y y') : Twin A S z z' := by
  -- over the events that were seen, the same in both runs
  induction hevents generalizing y y' with
  | nil =>
    obtain rfl : z = y := h
    obtain rfl : z' = y' := h'
    exact hy
  | cons hevent _ ih =>
    cases hevent with
    | start i hcall =>
      obtain ⟨-, -, hrest⟩ := h
      obtain ⟨-, -, hrest'⟩ := h'
      exact ih hrest hrest' (hy.put hU.suspends hy.shared i (hprogram _ _ hcall))
    | act i l =>
      obtain ⟨call, e, k, r, s, hi, -, hact, hseen, hrest⟩ := h
      obtain ⟨call', e', k', r', s', hi', -, hact', hseen', hrest'⟩ := h'
      rcases hy.running i with ⟨hnone, -⟩ | ⟨c, c', p, p', hp, hp', halike⟩
      · rw [hi] at hnone
        cases hnone
      · rw [hi, Option.some.injEq, Prod.mk.injEq] at hp
        rw [hi', Option.some.injEq, Prod.mk.injEq] at hp'
        obtain ⟨-, rfl⟩ := hp
        obtain ⟨-, rfl⟩ := hp'
        -- alike operations with alike answers lead to alike programs
        obtain ⟨ρ, hop, hk⟩ := halike
        obtain ⟨hr, hs⟩ := hU.op hop hy.shared hact hact' (hseen.trans hseen'.symm)
        exact ih hrest hrest' (hy.put hU.suspends hs i (hk r r' hr))
    | tick l =>
      obtain ⟨s, -, htick, hseen, hrest⟩ := h
      obtain ⟨s', -, htick', hseen', hrest'⟩ := h'
      have hs := hU.tick hy.shared htick htick' (hseen.trans hseen'.symm)
      exact ih hrest hrest' ⟨hs, hy.active, hy.running⟩

theorem Twin.outcome (hy : Twin A S y y') (i : Nat) :
    (y.running i).bind (·.2.outcome) = (y'.running i).bind (·.2.outcome) := by
  rcases hy.running i with ⟨hnone, hnone'⟩ | ⟨call, call', p, p', hp, hp', halike⟩
  · rw [hnone, hnone']
  · rw [hp, hp']
    exact halike.outcome

end Twin
end Loop
end Effects
