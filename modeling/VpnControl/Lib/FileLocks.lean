import Mathlib.Logic.Function.Basic

/-! Advisory locks of the operating system on one file (`flock`): a lock belongs to an open file
description, is exclusive, and goes when its description is closed, by its process or with it. -/

namespace FileLocks
open Function

/-- The descriptions of the file that are open, by the process that opened them, and the one
that has the lock. Descriptions from `next` on were never opened. -/
structure Locks where
  next : Nat := 0
  owner : Nat → Option Nat := fun _ => none
  locked : Option Nat := none

namespace Locks

def opened (k : Locks) (process : Nat) : Locks :=
  { k with next := k.next + 1, owner := update k.owner k.next (some process) }

def lock (k : Locks) (fd : Nat) : Locks := { k with locked := some fd }

def unlock (k : Locks) (fd : Nat) : Locks :=
  { k with locked := if k.locked = some fd then none else k.locked }

def close (k : Locks) (fd : Nat) : Locks := { k.unlock fd with owner := update k.owner fd none }

/-- The process that has the lock. -/
def holder (k : Locks) : Option Nat := k.locked.bind k.owner

/-- What the kernel does with the descriptions of a process that is gone. -/
def exit (k : Locks) (process : Nat) : Locks :=
  { k with
    owner := fun fd => if k.owner fd = some process then none else k.owner fd
    locked := if k.holder = some process then none else k.locked }

/-- Nothing is open that was not opened, and the lock belongs to an open description. -/
structure WellFormed (k : Locks) : Prop where
  fresh : ∀ fd, k.next ≤ fd → k.owner fd = none
  locked : ∀ fd, k.locked = some fd → k.owner fd ≠ none

variable {k : Locks} {fd other process : Nat}

@[simp] theorem opened_locked : (k.opened process).locked = k.locked := rfl

@[simp] theorem lock_owner : (k.lock fd).owner = k.owner := rfl

@[simp] theorem lock_locked : (k.lock fd).locked = some fd := rfl

@[simp] theorem unlock_owner : (k.unlock fd).owner = k.owner := rfl

@[simp] theorem close_locked : (k.close fd).locked = (k.unlock fd).locked := rfl

theorem opened_self : (k.opened process).owner k.next = some process := update_self ..

theorem opened_of_ne (h : fd ≠ k.next) : (k.opened process).owner fd = k.owner fd := update_of_ne h ..

theorem close_self : (k.close fd).owner fd = none := update_self ..

theorem close_of_ne (h : other ≠ fd) : (k.close fd).owner other = k.owner other := update_of_ne h ..

theorem unlock_self (h : k.locked = some fd) : (k.unlock fd).locked = none := by
  simp [unlock, h]

theorem unlock_of_ne (h : k.locked ≠ some fd) : (k.unlock fd).locked = k.locked := by
  simp [unlock, h]

/-- A description that does not have the lock is closed without anyone's noticing. -/
theorem holder_close (h : k.locked ≠ some fd) : (k.close fd).holder = k.holder := by
  unfold holder
  rw [close_locked, unlock_of_ne h]
  cases hlocked : k.locked with
  | none => rfl
  | some l =>
    rw [hlocked] at h
    exact close_of_ne fun heq => h (congrArg some heq)

theorem holder_opened (hk : k.WellFormed) : (k.opened process).holder = k.holder := by
  unfold holder
  rw [opened_locked]
  cases hlocked : k.locked with
  | none => rfl
  | some l =>
    refine opened_of_ne ?_
    rintro rfl
    exact hk.locked _ hlocked (hk.fresh _ (Nat.le_refl _))

theorem WellFormed.opened (hk : k.WellFormed) : (k.opened process).WellFormed where
  fresh fd hfd := by
    have hlt : k.next < fd := hfd
    rw [opened_of_ne (by omega)]
    exact hk.fresh fd (by omega)
  locked fd hfd := by
    by_cases hne : fd = k.next
    · subst hne
      rw [opened_self]
      simp
    · rw [opened_of_ne hne]
      exact hk.locked fd hfd

theorem WellFormed.lock (hk : k.WellFormed) (h : k.owner fd ≠ none) : (k.lock fd).WellFormed where
  fresh := hk.fresh
  locked other hother := by
    obtain rfl := Option.some.inj hother
    exact h

theorem locked_of_unlock (h : (k.unlock fd).locked = some other) :
    k.locked = some other ∧ other ≠ fd := by
  unfold unlock at h
  split at h
  · cases h
  · rename_i hne
    exact ⟨h, fun heq => hne (heq ▸ h)⟩

theorem WellFormed.unlock (hk : k.WellFormed) : (k.unlock fd).WellFormed where
  fresh := hk.fresh
  locked other hother := hk.locked other (locked_of_unlock hother).1

theorem WellFormed.close (hk : k.WellFormed) : (k.close fd).WellFormed where
  fresh other hother := by
    by_cases hne : other = fd
    · subst hne
      exact close_self
    · rw [close_of_ne hne]
      exact hk.fresh other hother
  locked other hother := by
    obtain ⟨hlocked, hne⟩ := locked_of_unlock hother
    rw [close_of_ne hne]
    exact hk.locked other hlocked

theorem locked_of_exit (h : (k.exit process).locked = some fd) :
    k.locked = some fd ∧ k.owner fd ≠ some process := by
  unfold exit at h
  simp only at h
  split at h
  · cases h
  · rename_i hne
    refine ⟨h, fun howner => hne ?_⟩
    rw [holder, h]
    exact howner

theorem owner_exit (h : k.owner fd ≠ some process) : (k.exit process).owner fd = k.owner fd :=
  if_neg h

theorem WellFormed.exit (hk : k.WellFormed) : (k.exit process).WellFormed where
  fresh fd hfd := by
    have hnone := hk.fresh fd hfd
    rw [owner_exit (by simp [hnone])]
    exact hnone
  locked fd hfd := by
    obtain ⟨hlocked, hne⟩ := locked_of_exit hfd
    rw [owner_exit hne]
    exact hk.locked fd hlocked

end Locks
end FileLocks
