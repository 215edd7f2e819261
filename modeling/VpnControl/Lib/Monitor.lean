import VpnControl.Lib.EventLoop

namespace Effects
open Prog Function

variable {σ G E ε α β Call : Type} {Res : E → Type}

/-- A monitor watches the operations of one task: its state says which operation may come
next, and moves with the answers; answers with which it cannot move are left out of account. -/
structure Monitor (G E : Type) (Res : E → Type) where
  may : G → E → Prop
  next : Env G E Res

/-- Whatever it is answered, the program performs only what the monitor allows, and ends, if it
ends, in `Q`. -/
def Prog.Obeys (M : Monitor G E Res) (Q : Post G ε α) : Prog E Res ε α → G → Prop
  | ret a, g => Q (.ok a) g
  | fail x, g => Q (.error x) g
  | op e k, g => M.may g e ∧ ∀ r g', M.next g e r g' → (k r).Obeys M Q g'

section Obeys
variable {M : Monitor G E Res} {Q R : Post G ε α} {g : G}

theorem obeys_mono {p : Prog E Res ε α} (h : p.Obeys M Q g) (hQ : ∀ r g', Q r g' → R r g') :
    p.Obeys M R g := by
  induction p generalizing g with
  | ret a => exact hQ _ _ h
  | fail x => exact hQ _ _ h
  | op e k ih => exact ⟨h.1, fun r g' hr => ih r (h.2 r g' hr)⟩

theorem obeys_lift {r : Except ε α} (h : Q r g) : (lift r : Prog E Res ε α).Obeys M Q g := by
  cases r with
  | ok a => exact h
  | error x => exact h

/-- Sequencing: a specification of the first part and, from each of its outcomes, one of
the rest. -/
theorem obeys_seq {p : Prog E Res ε α} {f : α → Prog E Res ε β} {Q : Post G ε β}
    (hp : p.Obeys M R g) (hok : ∀ a g', R (.ok a) g' → (f a).Obeys M Q g')
    (herr : ∀ x g', R (.error x) g' → Q (.error x) g') : (p >>= f).Obeys M Q g := by
  change (p.bind f).Obeys M Q g
  induction p generalizing g with
  | ret a => exact hok a g hp
  | fail x => exact herr x g hp
  | op e k ih => exact ⟨hp.1, fun r g' hr => ih r (hp.2 r g' hr)⟩

theorem obeys_attempt {p : Prog E Res ε α} {Q : Post G ε (Except ε α)}
    (hp : p.Obeys M (fun r g' => Q (.ok r) g') g) : p.attempt.Obeys M Q g := by
  induction p generalizing g with
  | ret a => exact hp
  | fail x => exact hp
  | op e k ih => exact ⟨hp.1, fun r g' hr => ih r (hp.2 r g' hr)⟩

theorem obeys_seq_attempt {p : Prog E Res ε α} {f : Except ε α → Prog E Res ε β} {Q : Post G ε β}
    (hp : p.Obeys M R g) (h : ∀ r g', R r g' → (f r).Obeys M Q g') :
    (p.attempt >>= f).Obeys M Q g := by
  change (p.attempt.bind f).Obeys M Q g
  induction p generalizing g with
  | ret a => exact h _ g hp
  | fail x => exact h _ g hp
  | op e k ih => exact ⟨hp.1, fun r g' hr => ih r (hp.2 r g' hr)⟩

/-- What the monitor does at every operation of a program, it does at all of them. -/
theorem obeys_uses {P : E → Prop} {I : G → Prop} (hmay : ∀ g e, P e → I g → M.may g e)
    (hnext : ∀ g e r g', P e → I g → M.next g e r g' → I g') {p : Prog E Res ε α} (hp : p.Uses P)
    (hg : I g) : p.Obeys M (fun _ g' => I g') g := by
  induction p generalizing g with
  | ret a => exact hg
  | fail x => exact hg
  | op e k ih =>
    exact ⟨hmay g e hp.1 hg, fun r g' hr => ih r (hp.2 r) (hnext g e r g' hp.1 hg hr)⟩

end Obeys

/-- The operations as far as they are answered the way `A` says. -/
def Kernel.answering (K : Kernel σ E Res) (A : Nat → σ → (e : E) → Res e → Prop) :
    Kernel σ E Res where
  suspends := K.suspends
  env := fun i s e r s' => K.env i s e r s' ∧ A i s e r

/-- The answers that `A` admits. -/
def Responder.answering (h : Responder σ E Res) (A : σ → (e : E) → Res e → Prop)
    [∀ s e r, Decidable (A s e r)] : Responder σ E Res :=
  fun s e => (h s e).filter fun x => A s e x.1

theorem env_answering (env : Env σ E Res) {h : Responder σ E Res} {A : σ → (e : E) → Res e → Prop}
    [∀ s e r, Decidable (A s e r)] (henv : ∀ s e r s', h s e = some (r, s') → env s e r s')
    {s s' : σ} {e : E} {r : Res e} (hr : h.answering A s e = some (r, s')) :
    env s e r s' ∧ A s e r := by
  rw [Responder.answering, Option.filter_eq_some_iff] at hr
  exact ⟨henv s e r s' hr.1, by simpa using hr.2⟩

namespace Loop
variable {K : Kernel σ E Res} {tick : σ → σ → Prop} {program : Call → Prog E Res ε α}
  {y y' : Loop σ Res ε α Call}

/-- A task keeps its call. -/
theorem Step.running (h : Step K tick program y y') {j : Nat} {call : Call} {p : Prog E Res ε α}
    (hj : y.running j = some (call, p)) : ∃ p', y'.running j = some (call, p') := by
  cases h with
  | start i call' hi hturn =>
    have hij : j ≠ i := by
      rintro rfl
      rw [hi] at hj
      cases hj
    refine ⟨p, ?_⟩
    rw [put_running_of_ne _ _ _ _ _ hij, hj]
  | @act i call' e k r s' hi hturn hact =>
    by_cases hij : j = i
    · subst hij
      rw [hi, Option.some.injEq, Prod.mk.injEq] at hj
      obtain ⟨rfl, -⟩ := hj
      exact ⟨k r, y.put_running_self K s' j call' (k r)⟩
    · refine ⟨p, ?_⟩
      rw [put_running_of_ne _ _ _ _ _ hij, hj]
  | tick hturn h => exact ⟨p, hj⟩

theorem running_reachable (h : Relation.ReflTransGen (Step K tick program) y y') {j : Nat}
    {call : Call} {p : Prog E Res ε α} (hj : y.running j = some (call, p)) :
    ∃ p', y'.running j = some (call, p') := by
  induction h with
  | refl => exact ⟨p, hj⟩
  | tail _ hstep ih =>
    obtain ⟨p', hp'⟩ := ih
    exact hstep.running hp'

/-- The calls of the tasks that were started beside task `i`. -/
theorem others_of_started {i : Nat} (started : List Nat) {f : Call → Bool}
    (hnone : ∀ j, j ∉ i :: started → y.running j = none)
    (hsome : ∀ j ∈ started, (y.running j).all (f ·.1) = true) {j : Nat} {call : Call}
    {p : Prog E Res ε α} (hj : j ≠ i) (hp : y.running j = some (call, p)) : f call = true := by
  by_cases hmem : j ∈ started
  · have hf := hsome j hmem
    rw [hp] at hf
    exact hf
  · have hno := hnone j (by simp [hj, hmem])
    rw [hp] at hno
    cases hno

/-- The state of a monitor of task `i` tells of the shared state, as far as `R` says, and the
others, which perform only operations in `P`, do not change what it tells. -/
structure Tells (K : Kernel σ E Res) (tick : σ → σ → Prop) (M : Monitor G E Res)
    (R : σ → G → Prop) (P : E → Prop) (i : Nat) : Prop where
  own : ∀ {s g e r s'}, R s g → M.may g e → K.env i s e r s' → ∃ g', M.next g e r g' ∧ R s' g'
  others : ∀ {j s g e r s'}, j ≠ i → P e → R s g → K.env j s e r s' → R s' g
  tick : ∀ {s g s'}, R s g → tick s s' → R s' g

/-- The monitor of task `i`, begun in `g₀`, is in the state `g`. -/
structure Watched (M : Monitor G E Res) (R : σ → G → Prop) (P : E → Prop) (i : Nat)
    (Q : Call → Post G ε α) (g₀ g : G) (y : Loop σ Res ε α Call) : Prop where
  tells : R y.shared g
  idle : y.running i = none → g = g₀
  own : ∀ call p, y.running i = some (call, p) → p.Obeys M (Q call) g
  others : ∀ j call p, j ≠ i → y.running j = some (call, p) → p.Uses P

section Watched
variable {M : Monitor G E Res} {R : σ → G → Prop} {P : E → Prop} {i : Nat}
  {Q : Call → Post G ε α} {g₀ g : G}

theorem watched_begin {s : σ} (h : R s g₀) :
    Watched M R P i Q g₀ g₀ ({ shared := s } : Loop σ Res ε α Call) where
  tells := h
  idle := fun _ => rfl
  own := by rintro call p ⟨⟩
  others := by rintro j call p hj ⟨⟩

theorem Watched.put_own (hy : Watched M R P i Q g₀ g y) {s : σ} {call : Call}
    {p : Prog E Res ε α} {g' : G} (hs : R s g') (hp : p.Obeys M (Q call) g') :
    Watched M R P i Q g₀ g' (y.put K s i call p) where
  tells := hs
  idle := by
    intro hnone
    rw [put_running_self] at hnone
    cases hnone
  own := by
    intro d q hq
    rw [put_running_self, Option.some.injEq, Prod.mk.injEq] at hq
    obtain ⟨rfl, rfl⟩ := hq
    exact hp
  others := by
    intro j d q hj hq
    rw [put_running_of_ne _ _ _ _ _ hj] at hq
    exact hy.others j d q hj hq

theorem Watched.put_other (hy : Watched M R P i Q g₀ g y) {s : σ} {j : Nat} {call : Call}
    {p : Prog E Res ε α} (hj : j ≠ i) (hs : R s g) (hp : p.Uses P) :
    Watched M R P i Q g₀ g (y.put K s j call p) where
  tells := hs
  idle := by
    intro hnone
    rw [put_running_of_ne _ _ _ _ _ hj.symm] at hnone
    exact hy.idle hnone
  own := by
    intro d q hq
    rw [put_running_of_ne _ _ _ _ _ hj.symm] at hq
    exact hy.own d q hq
  others := by
    intro l d q hl hq
    by_cases hlj : l = j
    · subst hlj
      rw [put_running_self, Option.some.injEq, Prod.mk.injEq] at hq
      obtain ⟨rfl, rfl⟩ := hq
      exact hp
    · rw [put_running_of_ne _ _ _ _ _ hlj] at hq
      exact hy.others l d q hl hq

/-- What one step does to the monitor. -/
theorem watched_step (hR : Tells K tick M R P i) (h : Step K tick program y y')
    (hown : ∀ call p, y'.running i = some (call, p) → (program call).Obeys M (Q call) g₀)
    (hothers : ∀ j call p, j ≠ i → y'.running j = some (call, p) → (program call).Uses P)
    (hy : Watched M R P i Q g₀ g y) :
    ∃ g', Watched M R P i Q g₀ g' y' ∧
      (g' = g ∨ ∃ s e r s', K.env i s e r s' ∧ M.next g e r g') := by
  cases h with
  | start j call hj hturn =>
    have hself : (y.put K y.shared j call (program call)).running j = some (call, program call) :=
      update_self j _ y.running
    refine ⟨g, ?_, .inl rfl⟩
    by_cases hij : j = i
    · subst hij
      have hg := hy.idle hj
      exact hy.put_own hy.tells (hg ▸ hown call _ hself)
    · exact hy.put_other hij hy.tells (hothers j call _ hij hself)
  | @act j call e k r s' hj hturn hact =>
    by_cases hij : j = i
    · subst hij
      obtain ⟨hmay, hk⟩ := hy.own call _ hj
      obtain ⟨g', hnext, htells⟩ := hR.own hy.tells hmay hact
      exact ⟨g', hy.put_own htells (hk r g' hnext), .inr ⟨_, e, r, s', hact, hnext⟩⟩
    · obtain ⟨hop, hk⟩ := hy.others j call _ hij hj
      exact ⟨g, hy.put_other hij (hR.others hij hop hy.tells hact) (hk r), .inl rfl⟩
  | tick hturn h => exact ⟨g, ⟨hR.tick hy.tells h, hy.idle, hy.own, hy.others⟩, .inl rfl⟩

/-- In every run the monitor is in some state, and in one that `S` holds of if it began there and
`S` lasts. -/
theorem watched_reachable {S : G → Prop} (hR : Tells K tick M R P i)
    (hS : ∀ g s e r s' g', S g → K.env i s e r s' → M.next g e r g' → S g')
    (h : Relation.ReflTransGen (Step K tick program) y y')
    (hown : ∀ call p, y'.running i = some (call, p) → (program call).Obeys M (Q call) g₀)
    (hothers : ∀ j call p, j ≠ i → y'.running j = some (call, p) → (program call).Uses P)
    (hy : Watched M R P i Q g₀ g y) (hg : S g) : ∃ g', Watched M R P i Q g₀ g' y' ∧ S g' := by
  induction h with
  | refl => exact ⟨g, hy, hg⟩
  | @tail z z' hrun hstep ih =>
    have hownz : ∀ call p, z.running i = some (call, p) → (program call).Obeys M (Q call) g₀ := by
      intro call p hp
      obtain ⟨p', hp'⟩ := hstep.running hp
      exact hown call p' hp'
    have hothersz : ∀ j call p, j ≠ i → z.running j = some (call, p) → (program call).Uses P := by
      intro j call p hj hp
      obtain ⟨p', hp'⟩ := hstep.running hp
      exact hothers j call p' hj hp'
    obtain ⟨g', hz, hg'⟩ := ih hownz hothersz
    obtain ⟨g'', hz', rfl | ⟨s, e, r, s', hact, hnext⟩⟩ := watched_step hR hstep hown hothers hz
    · exact ⟨g'', hz', hg'⟩
    · exact ⟨g'', hz', hS g' s e r s' g'' hg' hact hnext⟩

end Watched
end Loop
end Effects
