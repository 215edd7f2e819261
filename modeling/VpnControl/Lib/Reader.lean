import Mathlib.Data.List.Basic

/-- A reader of the front of a text; it may refuse. -/
abbrev Reader (τ α : Type) : Type := StateT (List τ) Option α

namespace Reader
variable {τ α β : Type}

/-- The first token, if it means something. -/
def token (f : τ → Option α) : Reader τ α
  | [] => none
  | t :: s => (f t).map fun a => (a, s)

/-- The longest front whose tokens mean something. -/
def many (f : τ → Option α) : Reader τ (List α)
  | [] => some ([], [])
  | t :: s =>
    match f t with
    | some a => (many f s).map fun r => (a :: r.1, r.2)
    | none => some ([], t :: s)

def require (p : Prop) [Decidable p] : Reader τ Unit := fun s => if p then some ((), s) else none

/-- `p`, or `q` from where `p` began. -/
def orElse (p q : Reader τ α) : Reader τ α := fun s => (p s).or (q s)

/-- Whatever `p` reads consists of tokens of `P`. -/
def Takes (P : τ → Prop) (p : Reader τ α) : Prop :=
  ∀ s a rest, p.run s = some (a, rest) → ∃ d, s = d ++ rest ∧ ∀ t ∈ d, P t

/-- `p` reads `d` as `a`, whatever follows. -/
def Reads (p : Reader τ α) (d : List τ) (a : α) : Prop :=
  ∀ rest, p.run (d ++ rest) = some (a, rest)

section Takes
variable {P : τ → Prop}

theorem takes_pure (a : α) : Takes P (pure a : Reader τ α) := by
  rintro s _ _ ⟨⟩
  exact ⟨[], rfl, by simp⟩

theorem takes_bind {p : Reader τ α} {f : α → Reader τ β} (hp : Takes P p)
    (hf : ∀ a, Takes P (f a)) : Takes P (p >>= f) := by
  intro s b rest h
  obtain ⟨⟨a, mid⟩, ha, hb⟩ := Option.bind_eq_some_iff.mp h
  obtain ⟨d, rfl, hd⟩ := hp s a mid ha
  obtain ⟨e, rfl, he⟩ := hf a mid b rest hb
  refine ⟨d ++ e, (List.append_assoc ..).symm, fun t ht => ?_⟩
  exact (List.mem_append.mp ht).elim (hd t) (he t)

theorem takes_token {f : τ → Option α} (hf : ∀ t, (f t).isSome → P t) : Takes P (token f) := by
  intro s a rest h
  cases s with
  | nil => cases h
  | cons t s =>
    obtain ⟨b, hb, ⟨⟩⟩ := Option.map_eq_some_iff.mp h
    refine ⟨[t], rfl, fun u hu => ?_⟩
    rw [List.mem_singleton.mp hu]
    exact hf t (by rw [hb]; rfl)

theorem takes_many {f : τ → Option α} (hf : ∀ t, (f t).isSome → P t) : Takes P (many f) := by
  intro s
  induction s with
  | nil =>
    rintro _ _ ⟨⟩
    exact ⟨[], rfl, by simp⟩
  | cons t s ih =>
    intro as rest h
    change many f (t :: s) = _ at h
    rw [many] at h
    cases ht : f t with
    | none =>
      rw [ht] at h
      obtain ⟨⟩ := h
      exact ⟨[], rfl, by simp⟩
    | some a =>
      rw [ht] at h
      obtain ⟨⟨bs, mid⟩, hrun, ⟨⟩⟩ := Option.map_eq_some_iff.mp h
      obtain ⟨d, rfl, hd⟩ := ih bs _ hrun
      refine ⟨t :: d, rfl, fun u hu => ?_⟩
      rcases List.mem_cons.mp hu with rfl | hu
      · exact hf u (by rw [ht]; rfl)
      · exact hd u hu

theorem takes_require {p : Prop} [Decidable p] : Takes P (require p) := by
  intro s a rest h
  change (if p then some ((), s) else none) = _ at h
  split_ifs at h
  cases h
  exact ⟨[], rfl, by simp⟩

theorem takes_orElse {p q : Reader τ α} (hp : Takes P p) (hq : Takes P q) :
    Takes P (orElse p q) := by
  intro s a rest h
  rcases Option.or_eq_some_iff.mp h with h | ⟨-, h⟩
  · exact hp s a rest h
  · exact hq s a rest h

end Takes

section Reads
variable {p q : Reader τ α} {d e s : List τ} {a : α}

theorem reads_token {f : τ → Option α} {t : τ} (h : f t = some a) : Reads (token f) [t] a := by
  intro rest
  change (f t).map _ = _
  rw [h]
  rfl

theorem Reads.bind {f : α → Reader τ β} {b : β} (hp : Reads p d a) (hf : Reads (f a) e b) :
    Reads (p >>= f) (d ++ e) b := by
  intro rest
  rw [StateT.run_bind, List.append_assoc, hp]
  exact hf rest

theorem reads_pure : Reads (pure a : Reader τ α) [] a := fun _ => rfl

theorem run_require {p : Prop} [Decidable p] (h : p) (s : List τ) :
    (require p : Reader τ Unit).run s = some ((), s) := if_pos h

theorem reads_require {p : Prop} [Decidable p] {f : Unit → Reader τ β} {b : β} (h : p)
    (hf : Reads (f ()) d b) : Reads (require p >>= f) d b := by
  intro rest
  rw [StateT.run_bind, run_require h]
  exact hf rest

theorem Reads.orElse_left (hp : Reads p d a) : Reads (orElse p q) d a := by
  intro rest
  change (p (d ++ rest)).or _ = _
  rw [show p (d ++ rest) = _ from hp rest, Option.some_or]

/-- What is read in front of the rest of a reader. -/
theorem Reads.run_bind {f : α → Reader τ β} (hp : Reads p d a) :
    (p >>= f).run (d ++ s) = (f a).run s := by
  rw [StateT.run_bind, hp]
  rfl

end Reads
end Reader
