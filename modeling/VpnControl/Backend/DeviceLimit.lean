import VpnControl.Backend.Frames
import VpnControl.Backend.Playback

namespace VpnControl.Backend
open Strings Json Effects Prog

variable {ω : Type} {P : Platform ω} {b : Services}

/-- Every user with a bound has at most so many provisioning and active devices. -/
def WithinLimits (bound : Text → Option Int) (s : Store) : Prop :=
  ∀ userId limit, bound userId = some limit → (s.countDevicesTowardLimit userId : Int) ≤ limit

/-- The user's bound, if any, is at least the limit that `create` checks. -/
def User.Bounded (bound : Text → Option Int) (user : User) : Prop :=
  ∀ limit, bound user.id = some limit →
    user.deviceLimitUnlimited = false ∧ ∃ l, user.deviceLimit = some l ∧ l ≤ limit

section Store
variable {bound : Text → Option Int} {s : Store} {d old : Device}

/-- A device that is not yet counted, for a user with room for it. -/
theorem withinLimits_add (h : WithinLimits bound s) (hnew : s.getDevice d.id = none)
    (hroom : ∀ limit, bound d.userId = some limit →
      (s.countDevicesTowardLimit d.userId : Int) < limit) : WithinLimits bound (s.saveDevice d) := by
  intro userId limit hlimit
  have hcount := Table.count_put_new (t := s.devices) (v := d) hnew
    fun d => d.userId = userId && d.counted
  have hs := h userId limit hlimit
  have hbefore : s.countDevicesTowardLimit userId =
      s.devices.count fun d => d.userId = userId && d.counted := rfl
  change ((s.devices.put d).count _ : Int) ≤ limit
  by_cases huser : d.userId = userId
  · subst huser
    have := hroom limit hlimit
    split at hcount <;> omega
  · rw [if_neg (by simp [huser])] at hcount
    omega

/-- A device that stays with its user and is counted only if it was before. -/
theorem withinLimits_change (h : WithinLimits bound s) (hold : s.getDevice d.id = some old)
    (huser : d.userId = old.userId) (hcounted : d.counted = true → old.counted = true) :
    WithinLimits bound (s.saveDevice d) := by
  intro userId limit hlimit
  have hcount := Table.count_put_old (t := s.devices) (v := d) hold
    fun d => d.userId = userId && d.counted
  have hs := h userId limit hlimit
  have hbefore : s.countDevicesTowardLimit userId =
      s.devices.count fun d => d.userId = userId && d.counted := rfl
  change ((s.devices.put d).count _ : Int) ≤ limit
  by_cases hd : (d.userId = userId && d.counted) = true
  · rw [Bool.and_eq_true, decide_eq_true_eq] at hd
    have hold : (old.userId = userId && old.counted) = true := by
      rw [Bool.and_eq_true, decide_eq_true_eq]
      exact ⟨huser ▸ hd.1, hcounted hd.2⟩
    rw [if_pos hold] at hcount
    split at hcount <;> omega
  · rw [if_neg hd] at hcount
    split at hcount <;> omega

end Store

/-- The devices of users with a bound stay within it, and who holds the storage lock can
rely on the devices. -/
def limitContract (ω : Type) (bound : Text → Option Int) : Contract (World ω) where
  inv w := WithinLimits bound w.store
  rely i w w' := w.lock = some i → w'.lock = some i ∧ w'.store.devices = w.store.devices
  refl _ _ h := ⟨h, rfl⟩
  trans _ _ _ _ h h' hi := by
    obtain ⟨hlock, hdevices⟩ := h hi
    obtain ⟨hlock', hdevices'⟩ := h' hlock
    exact ⟨hlock', hdevices'.trans hdevices⟩

namespace Limits
variable {bound : Text → Option Int} {i : Nat} {w₀ w : World ω} {t : Table Device.id} {α β : Type}

/-- Task `i` is in a section under the lock, the devices being those of `t`; it left the worlds
on its way there as the contract demands. -/
structure InSection (bound : Text → Option Int) (i : Nat) (t : Table Device.id) (w₀ w : World ω) :
    Prop where
  leaves : (limitContract ω bound).Leaves i w₀ w
  lock : w.lock = some i
  devices : w.store.devices = t

/-- What a section under the lock ends in. -/
def sectionEnd (bound : Text → Option Int) (i : Nat) : TurnPost (World ω) Exc α :=
  fun _ w₀ w => ∃ t, InSection bound i t w₀ w

theorem leaves_limit_refl (hinv : WithinLimits bound w.store) :
    (limitContract ω bound).Leaves i w w := ⟨hinv, fun _ _ h => ⟨h, rfl⟩⟩

/-- Whoever holds the lock may do anything that keeps the limits. -/
theorem leaves_of_lock {w' : World ω} (hlock : w.lock = none ∨ w.lock = some i)
    (hinv : WithinLimits bound w'.store) : (limitContract ω bound).Leaves i w w' where
  inv := hinv
  rely := by
    intro j hj hheld
    rcases hlock with hfree | hmine
    · simp [hfree] at hheld
    · rw [hmine, Option.some.injEq] at hheld
      exact absurd hheld.symm hj

/-- While the task waits, the others leave the lock and the devices as they are. -/
theorem InSection.rely (h : InSection bound i t w₀ w) {w₁ : World ω}
    (hinv : WithinLimits bound w₁.store) (hrely : (limitContract ω bound).rely i w w₁) :
    InSection bound i t w₁ w₁ := by
  obtain ⟨hlock, hdevices⟩ := hrely h.lock
  exact ⟨leaves_limit_refl hinv, hlock, hdevices.trans h.devices⟩

theorem withinLimits_frame {w' : World ω} {S : List Part} (h : Frame S w w') (hS : .devices ∉ S)
    (hinv : WithinLimits bound w.store) : WithinLimits bound w'.store := by
  have hdevices : w'.store.devices = w.store.devices := h.same .devices hS
  intro userId limit hlimit
  rw [Store.countDevicesTowardLimit, hdevices]
  exact hinv userId limit hlimit

/-- A task that writes neither the devices nor the lock. -/
theorem turn_quiet {p : Task α} {S : List Part} (hp : Within S p) (hdevices : .devices ∉ S)
    (hlock : .lock ∉ S) (h : InSection bound i t w₀ w) :
    turn P.kernel.preemptive (limitContract ω bound) i p
      (fun _ w₁ w' => InSection bound i t w₁ w') w₀ w := by
  apply turn_mono (turn_preemptive (I := fun v => v.lock = some i ∧ v.store.devices = t)
    ?_ ?_ hp h.leaves ⟨h.lock, h.devices⟩)
  · exact fun _ w₁ w' ⟨hleaves, hlock, hdevices⟩ => ⟨hleaves, hlock, hdevices⟩
  · rintro v v' ⟨hlock, hdevices⟩ hrely
    obtain ⟨hlock', hdevices'⟩ := hrely hlock
    exact ⟨hlock', hdevices'.trans hdevices⟩
  · rintro v e r v' he hinv ⟨hmine, ht⟩ hr
    have hframe : Frame S v v' := env_frame hr he
    exact ⟨leaves_of_lock (.inr hmine) (withinLimits_frame hframe hdevices hinv),
      Eq.trans (hframe.same .lock hlock) hmine, Eq.trans (hframe.same .devices hdevices) ht⟩

theorem turn_quiet_seq {p : Task α} {S : List Part} (hp : Within S p) (hdevices : .devices ∉ S)
    (hlock : .lock ∉ S) (h : InSection bound i t w₀ w) {f : α → Task β}
    (hf : ∀ a w₁ w', InSection bound i t w₁ w' →
      turn P.kernel.preemptive (limitContract ω bound) i (f a) (sectionEnd bound i) w₁ w') :
    turn P.kernel.preemptive (limitContract ω bound) i (p >>= f) (sectionEnd bound i) w₀ w :=
  turn_seq (turn_quiet hp hdevices hlock h) hf fun _ _ _ h => ⟨t, h⟩

/-- An operation that only reads. -/
theorem turn_read {e : Op} (he : e.writes = none) (h : InSection bound i t w₀ w) {f : e.Ans → Task β}
    (hf : ∀ a w₁ w', InSection bound i t w₁ w' →
      turn P.kernel.preemptive (limitContract ω bound) i (f a) (sectionEnd bound i) w₁ w') :
    turn P.kernel.preemptive (limitContract ω bound) i (ask e >>= f) (sectionEnd bound i) w₀ w :=
  turn_quiet_seq (S := []) (within_ask (by simp [he])) (by simp) (by simp) h hf

/-- A device is saved that leaves the limits kept. -/
theorem turn_saveDevice {d : Device} {f : Unit → Task β} (h : InSection bound i t w₀ w)
    (hd : ∀ s : Store, s.devices = t → WithinLimits bound s → WithinLimits bound (s.saveDevice d))
    (hf : ∀ a w₁ w', InSection bound i (t.put d) w₁ w' →
      turn P.kernel.preemptive (limitContract ω bound) i (f a) (sectionEnd bound i) w₁ w') :
    turn P.kernel.preemptive (limitContract ω bound) i (ask (.saveDevice d) >>= f)
      (sectionEnd bound i) w₀ w := by
  rw [turn_bind, turn_ask_preemptive]
  refine ⟨h.leaves, fun w₁ hinv hrely => ?_⟩
  have h₁ := h.rely hinv hrely
  constructor
  · rintro a _ rfl
    exact hf a w₁ _ ⟨leaves_of_lock (.inr h₁.lock) (hd w₁.store h₁.devices hinv), h₁.lock,
      congrArg (Table.put · d) h₁.devices⟩
  · rintro x _ ⟨-, -, rfl⟩
    exact ⟨t, h₁⟩

/-- The device stays with its user and is counted only if it was before. -/
theorem turn_saveDevice_old {d old : Device} {f : Unit → Task β} (h : InSection bound i t w₀ w)
    (hold : t.get d.id = some old) (huser : d.userId = old.userId)
    (hcounted : d.counted = true → old.counted = true)
    (hf : ∀ a w₁ w', InSection bound i (t.put d) w₁ w' →
      turn P.kernel.preemptive (limitContract ω bound) i (f a) (sectionEnd bound i) w₁ w') :
    turn P.kernel.preemptive (limitContract ω bound) i (ask (.saveDevice d) >>= f)
      (sectionEnd bound i) w₀ w := by
  refine turn_saveDevice h (fun s hs hinv => ?_) hf
  subst hs
  exact withinLimits_change hinv hold huser hcounted

theorem turn_uuid {f : Text → Task β} (h : InSection bound i t w₀ w)
    (hf : ∀ id w₁, InSection bound i t w₁ w₁ → t.get id = none →
      turn P.kernel.preemptive (limitContract ω bound) i (f id) (sectionEnd bound i) w₁ w₁) :
    turn P.kernel.preemptive (limitContract ω bound) i (ask .uuid >>= f) (sectionEnd bound i)
      w₀ w := by
  rw [turn_bind, turn_ask_preemptive]
  refine ⟨h.leaves, fun w₁ hinv hrely => ⟨?_, ?_⟩⟩
  · rintro id w' ⟨hfresh, hw⟩
    subst hw
    have h₁ := h.rely hinv hrely
    refine hf id w' h₁ ?_
    rw [← h₁.devices]
    exact hfresh.device
  · rintro x _ ⟨⟨⟩, -⟩

/-- A section under the lock. -/
theorem turn_section {body : Task α} (hleaves : (limitContract ω bound).Leaves i w₀ w)
    (hbody : ∀ w₀ w, InSection bound i w.store.devices w₀ w →
      turn P.kernel.preemptive (limitContract ω bound) i body (sectionEnd bound i) w₀ w) :
    turn P.kernel.preemptive (limitContract ω bound) i (withStorageLock body)
      (fun _ w₁ w' => (limitContract ω bound).Leaves i w₁ w') w₀ w := by
  rw [withStorageLock, turn_bind, turn_ask_preemptive]
  refine ⟨hleaves, fun w₁ hinv hrely => ⟨?_, ?_⟩⟩
  · rintro - _ ⟨hfree, rfl⟩
    apply turn_seq_attempt
      (hbody w₁ { w₁ with lock := some i } ⟨leaves_of_lock (.inl hfree) hinv, rfl, rfl⟩)
    rintro r w₂ w' ⟨t, h⟩
    rw [turn_bind, turn_ask_preemptive]
    refine ⟨h.leaves, fun w₃ hinv₃ hrely₃ => ⟨?_, ?_⟩⟩
    · rintro - _ rfl
      rw [turn_lift]
      exact leaves_of_lock (.inr (h.rely hinv₃ hrely₃).lock) hinv₃
    · rintro x _ ⟨⟨⟩, -⟩
  · rintro x _ ⟨-, -, rfl⟩
    exact leaves_limit_refl hinv

section Create
variable {user : User} {device : Device} {node : ServerNode} {client : ClientMeta}

/-- Past the check the user has room for one more device. -/
theorem turn_enforceLimit {f : Unit → Task β} (h : InSection bound i t w₀ w)
    (huser : user.Bounded bound)
    (hf : ∀ a w₁ w', InSection bound i t w₁ w' → (∀ limit, bound user.id = some limit →
        ((t.count fun d => d.userId = user.id && d.counted : Nat) : Int) < limit) →
      turn P.kernel.preemptive (limitContract ω bound) i (f a) (sectionEnd bound i) w₁ w') :
    turn P.kernel.preemptive (limitContract ω bound) i (Services.enforceLimit user >>= f)
      (sectionEnd bound i) w₀ w := by
  unfold Services.enforceLimit
  split
  · rename_i hunlimited
    refine hf () w₀ w h fun limit hlimit => ?_
    have := (huser limit hlimit).1
    simp [hunlimited] at this
  · split
    · rename_i hnone
      refine hf () w₀ w h fun limit hlimit => ?_
      obtain ⟨-, l, hl, -⟩ := huser limit hlimit
      simp [hnone] at hl
    · rename_i l hl
      rw [bind_assoc, turn_bind, turn_ask_preemptive]
      refine ⟨h.leaves, fun w₁ hinv hrely => ⟨?_, ?_⟩⟩
      · rintro used w' ⟨rfl, hw⟩
        subst hw
        have h₁ := h.rely hinv hrely
        change turn _ _ _ ((if _ then _ else _) >>= f) _ _ _
        split
        · exact ⟨t, h₁⟩
        · rename_i hroom
          refine hf () w' w' h₁ fun limit hlimit => ?_
          obtain ⟨-, l', hl', hle⟩ := huser limit hlimit
          rw [hl, Option.some.injEq] at hl'
          rw [Store.countDevicesTowardLimit, h₁.devices] at hroom
          omega
      · rintro x _ ⟨-, -, rfl⟩
        exact ⟨t, h.rely hinv hrely⟩

theorem turn_provision {name : Text} {serverNodeId : Option Text} {f : Device × ServerNode → Task β}
    (h : InSection bound i t w₀ w) (huser : user.Bounded bound)
    (hf : ∀ device node t w₁ w', InSection bound i t w₁ w' → t.get device.id = some device →
      device.counted = true →
      turn P.kernel.preemptive (limitContract ω bound) i (f (device, node)) (sectionEnd bound i)
        w₁ w') :
    turn P.kernel.preemptive (limitContract ω bound) i
      (Services.provision user name serverNodeId >>= f) (sectionEnd bound i) w₀ w := by
  unfold Services.provision
  rw [bind_assoc]
  refine turn_enforceLimit h huser fun _ w₁ w₂ h hroom => ?_
  rw [bind_assoc]
  refine turn_quiet_seq (S := []) ((Services.writes_chooseNode serverNodeId).within fun _ h => h)
    (by simp) (by simp) h fun node w₁ w₂ h => ?_
  rw [bind_assoc]
  refine turn_read rfl h fun now w₁ w₂ h => ?_
  rw [bind_assoc]
  refine turn_uuid h fun id w₁ h hfresh => ?_
  simp only [bind_assoc]
  refine turn_saveDevice h (fun s hs hinv => ?_) fun _ w₁ w₂ h =>
    hf _ node _ w₁ w₂ h (Table.get_put_self _ _) rfl
  subst hs
  exact withinLimits_add hinv hfresh hroom

theorem turn_issueFailed {e : AppError} {f : Unit → Task β} (h : InSection bound i t w₀ w)
    (hdevice : t.get device.id = some device)
    (hf : ∀ a t w₁ w', InSection bound i t w₁ w' →
      turn P.kernel.preemptive (limitContract ω bound) i (f a) (sectionEnd bound i) w₁ w') :
    turn P.kernel.preemptive (limitContract ω bound) i
      (Services.issueFailed user device node client e >>= f) (sectionEnd bound i) w₀ w := by
  unfold Services.issueFailed
  rw [bind_assoc]
  refine turn_read rfl h fun now w₁ w₂ h => ?_
  rw [bind_assoc]
  refine turn_saveDevice_old h hdevice rfl (by simp [Device.counted]) fun _ w₁ w₂ h => ?_
  exact turn_quiet_seq (S := [.audit]) ((writes_auditLog (by simp)).within fun _ h => h) (by simp)
    (by simp) h fun a w₁ w₂ h => hf a _ w₁ w₂ h

theorem turn_issued {result : AgentIssueResult} (h : InSection bound i t w₀ w)
    (hdevice : t.get device.id = some device) (hcounted : device.counted = true) :
    turn P.kernel.preemptive (limitContract ω bound) i (b.issued user device node client result)
      (sectionEnd bound i) w₀ w := by
  unfold Services.issued
  refine turn_read rfl h fun now w₁ w₂ h => ?_
  refine turn_read rfl h fun _ w₁ w₂ h => ?_
  refine turn_read rfl h fun _ w₁ w₂ h => ?_
  refine turn_saveDevice_old h hdevice rfl (fun _ => hcounted) fun _ w₁ w₂ h => ?_
  apply turn_mono (turn_quiet (S := [.issues, .audit]) ?_ (by simp) (by simp) h)
  · exact fun _ w₁ w₂ h => ⟨_, h⟩
  · refine Writes.within ?_ fun _ h => h
    exact writes_bind (writes_read rfl rfl) fun id =>
      writes_bind (Services.writes_encryptValue _) fun configEncrypted =>
      writes_bind (Services.writes_encryptValue _) fun vpnUrlEncrypted =>
      writes_bind (writes_one rfl rfl (by simp)) fun _ =>
      writes_bind (writes_auditLog (by simp)) fun _ => writes_ret _

theorem turn_settleIssue {r : Except Exc AgentIssueResult} (h : InSection bound i t w₀ w)
    (hdevice : t.get device.id = some device) (hcounted : device.counted = true) :
    turn P.kernel.preemptive (limitContract ω bound) i (b.settleIssue user device node client r)
      (sectionEnd bound i) w₀ w := by
  cases r with
  | ok result => exact turn_issued h hdevice hcounted
  | error x =>
    cases x with
    | app e => exact turn_issueFailed h hdevice fun _ t w₁ w₂ h => ⟨t, h⟩
    | _ => exact ⟨t, h⟩

/-- While `create` waits for the agent, the provisional device occupies its place. -/
theorem turn_create {name : Text} {serverNodeId : Option Text} (huser : user.Bounded bound)
    (hleaves : (limitContract ω bound).Leaves i w₀ w) :
    turn P.kernel.preemptive (limitContract ω bound) i (b.create user name serverNodeId client)
      (fun _ w₁ w' => (limitContract ω bound).Leaves i w₁ w') w₀ w := by
  refine turn_section hleaves fun w₁ w₂ h => ?_
  refine turn_provision h huser fun device node t w₁ w₂ h hdevice hcounted => ?_
  refine turn_quiet_seq (S := [.agents]) (within_attempt Services.within_issuePeer) (by simp)
    (by simp) h fun r w₁ w₂ h => ?_
  exact turn_settleIssue h hdevice hcounted

end Create

section Revoke
variable {actor : User} {device : Device} {client : ClientMeta}

theorem turn_getForActor {deviceId : Text} {f : Device → Task β} (h : InSection bound i t w₀ w)
    (hf : ∀ device w₁ w', InSection bound i t w₁ w' → t.get device.id = some device →
      turn P.kernel.preemptive (limitContract ω bound) i (f device) (sectionEnd bound i) w₁ w') :
    turn P.kernel.preemptive (limitContract ω bound) i
      (Services.getForActor actor deviceId >>= f) (sectionEnd bound i) w₀ w := by
  unfold Services.getForActor
  rw [bind_assoc, turn_bind, turn_ask_preemptive]
  refine ⟨h.leaves, fun w₁ hinv hrely => ⟨?_, ?_⟩⟩
  · rintro found w' ⟨rfl, hw⟩
    subst hw
    have h₁ := h.rely hinv hrely
    cases hfound : w'.store.getDevice deviceId with
    | none => exact ⟨t, h₁⟩
    | some device =>
      change turn _ _ _ ((if _ then _ else _) >>= f) _ _ _
      split
      · exact ⟨t, h₁⟩
      · refine hf device w' w' h₁ ?_
        rw [Table.key_of_get hfound, ← h₁.devices]
        exact hfound
  · rintro x _ ⟨-, -, rfl⟩
    exact ⟨t, h.rely hinv hrely⟩

theorem turn_markRevoked (h : InSection bound i t w₀ w) (hdevice : t.get device.id = some device) :
    turn P.kernel.preemptive (limitContract ω bound) i
      (Services.markRevoked actor device client) (sectionEnd bound i) w₀ w := by
  unfold Services.markRevoked
  refine turn_read rfl h fun now w₁ w₂ h => ?_
  refine turn_saveDevice_old h hdevice rfl (by simp [Device.counted]) fun _ w₁ w₂ h => ?_
  apply turn_mono (turn_quiet (S := [.issues, .audit]) ?_ (by simp) (by simp) h)
  · exact fun _ w₁ w₂ h => ⟨_, h⟩
  · refine Writes.within ?_ fun _ h => h
    exact writes_bind (writes_one rfl rfl (by simp)) fun _ =>
      writes_bind (writes_auditLog (by simp)) fun _ => writes_ret _

theorem turn_revoke {deviceId : Text} (hleaves : (limitContract ω bound).Leaves i w₀ w) :
    turn P.kernel.preemptive (limitContract ω bound) i (b.revoke actor deviceId client)
      (fun _ w₁ w' => (limitContract ω bound).Leaves i w₁ w') w₀ w := by
  refine turn_section hleaves fun w₁ w₂ h => ?_
  refine turn_getForActor h fun device w₁ w₂ h hdevice => ?_
  change turn _ _ _ (if _ then _ else _) _ _ _
  split
  · exact ⟨_, h⟩
  refine turn_read rfl h fun node w₁ w₂ h => ?_
  exact turn_quiet_seq (S := [.agents]) Services.within_revokeOnNode (by simp) (by simp) h
    fun _ w₁ w₂ h => turn_markRevoked h hdevice

end Revoke

theorem turn_issueResult {actor : User} {deviceId : Text}
    (hleaves : (limitContract ω bound).Leaves i w₀ w) :
    turn P.kernel.preemptive (limitContract ω bound) i (Services.issueResultOf actor deviceId)
      (fun _ w₁ w' => (limitContract ω bound).Leaves i w₁ w') w₀ w := by
  apply turn_mono (turn_preemptive (I := fun _ => True) (fun _ _ _ _ => trivial) ?_
    Services.writes_issueResultOf hleaves trivial)
  · exact fun _ _ _ h => h.1
  · rintro v e r v' ⟨-, he⟩ hinv - hr
    have hframe : Frame [.issues] v v' := env_frame hr he
    refine ⟨⟨withinLimits_frame hframe (by simp) hinv, fun j _ hj => ⟨?_, ?_⟩⟩, trivial⟩
    · exact Eq.trans (hframe.same .lock (by simp)) hj
    · exact hframe.same .devices (by simp)

end Limits

/-- A call of the device service; a `create` is for a user whose limit is that of `bound`. -/
def DeviceCall.Bounded (bound : Text → Option Int) : DeviceCall → Prop
  | .create user .. => user.Bounded bound
  | _ => True

open Limits in
theorem turn_limitedCall {bound : Text → Option Int} {i : Nat} {w : World ω} {call : DeviceCall}
    (hcall : call.Bounded bound) (hinv : WithinLimits bound w.store) :
    turn P.kernel.preemptive (limitContract ω bound) i (b.deviceCall call)
      (fun _ w₁ w' => (limitContract ω bound).Leaves i w₁ w') w w := by
  cases call with
  | create user name serverNodeId client =>
    exact turn_seq (turn_create hcall (leaves_limit_refl hinv)) (fun _ _ _ h => h) fun _ _ _ h => h
  | revoke actor deviceId client =>
    exact turn_seq (turn_revoke (leaves_limit_refl hinv)) (fun _ _ _ h => h) fun _ _ _ h => h
  | issueResult actor deviceId =>
    exact turn_seq (turn_issueResult (leaves_limit_refl hinv)) (fun _ _ _ h => h) fun _ _ _ h => h

/-- In this call the user `userId`, if it is the one whose device is created, has the fixed limit. -/
def DeviceCall.HasLimit (userId : Text) (limit : Int) : DeviceCall → Prop
  | .create user .. =>
    user.id = userId → user.deviceLimit = some limit ∧ user.deviceLimitUnlimited = false
  | _ => True

/-- The rest of the backend: it has no part in the devices and in the storage lock. -/
def LeavesDevices (w w' : World ω) : Prop :=
  w'.store.devices = w.store.devices ∧ w'.lock = w.lock

/-- However calls of the device service are interleaved and whatever the agents answer, a user
with a fixed limit never gets beyond it, or beyond what the user had before. -/
theorem countDevicesTowardLimit_le {userId : Text} {limit : Int} {w : World ω}
    {y : Loop (World ω) Op.Res Exc DeviceReply {call : DeviceCall // call.HasLimit userId limit}}
    (hrun : Relation.ReflTransGen
      (Loop.Step P.kernel LeavesDevices fun call => b.deviceCall call.val) { shared := w } y) :
    (y.shared.store.countDevicesTowardLimit userId : Int) ≤
      max limit (w.store.countDevicesTowardLimit userId) := by
  let most : Int := max limit (w.store.countDevicesTowardLimit userId)
  let bound : Text → Option Int := fun u => if u = userId then some most else none
  have hbound : ∀ u l, bound u = some l ↔ u = userId ∧ l = most := by
    intro u l
    by_cases hu : u = userId
    · simp [bound, hu, eq_comm]
    · simp [bound, hu]
  have hstart : WithinLimits bound w.store := by
    intro u l hl
    obtain ⟨rfl, rfl⟩ := (hbound u l).mp hl
    exact le_max_right _ _
  have hend : WithinLimits bound y.shared.store := by
    refine Loop.inv_reachable_preemptive (c := limitContract ω bound)
      (Q := fun i _ _ w₁ w' => (limitContract ω bound).Leaves i w₁ w') (fun _ _ _ _ _ h => h)
      ?_ ?_ hstart hrun
    · rintro w w' ⟨hdevices, hlock⟩ hinv
      refine ⟨fun u l hl => ?_, fun i hi => ⟨hlock.trans hi, hdevices⟩⟩
      rw [Store.countDevicesTowardLimit, hdevices]
      exact hinv u l hl
    · rintro i ⟨call, hcall⟩ w hinv
      refine turn_limitedCall ?_ hinv
      cases call with
      | create user _ _ _ =>
        intro l hl
        obtain ⟨hu, rfl⟩ := (hbound _ l).mp hl
        obtain ⟨hlimit, hunlimited⟩ := hcall hu
        exact ⟨hunlimited, limit, hlimit, le_max_left _ _⟩
      | _ => trivial
  exact hend userId most ((hbound userId most).mpr ⟨rfl, rfl⟩)

/-- Two tasks create a device for a user with room for one: the second waits for the first. -/
def twoCreates : Loop (World Unit) Op.Res Exc DeviceReply
    {call : DeviceCall // call.HasLimit (lit "u") 1} :=
  let call : {call : DeviceCall // call.HasLimit (lit "u") 1} :=
    ⟨.create Sample.user (lit "phone") (some (lit "n")) {}, fun _ => ⟨rfl, rfl⟩⟩
  Loop.play (Sample.scenario .memory).platform.kernel (Sample.scenario .memory).answer
    (fun call => Sample.services.deviceCall call.val)
    ([.start 0 call, .start 1 call] ++ List.replicate 30 (.act 0 none) ++
      List.replicate 30 (.act 1 none))
    { shared := { store := Sample.store, agents := () } }

theorem countDevicesTowardLimit_le_twoCreates :
    twoCreates.shared.store.countDevicesTowardLimit (lit "u") = 1 ∧
      (twoCreates.shared.store.countDevicesTowardLimit (lit "u") : Int) ≤
        max 1 (Sample.store.countDevicesTowardLimit (lit "u")) :=
  ⟨by decide +kernel, countDevicesTowardLimit_le (Scenario.play_reachable _ LeavesDevices _ _ _)⟩

end VpnControl.Backend
