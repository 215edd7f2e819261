import VpnControl.Backend.Frames

namespace VpnControl.Backend
open Strings Json Effects Prog

variable {ω : Type} {P : Platform ω} {b : Services} {i : Nat} {w₀ w : World ω} {α : Type}

/-- Who holds the storage lock can rely on the devices, and on it that no issue appears for a
device that has none. -/
def lockContract (ω : Type) : Contract (World ω) where
  inv _ := True
  rely i w w' := w.lock = some i → w'.lock = some i ∧ w'.store.devices = w.store.devices ∧
    ∀ id, w.store.getIssue id = none → w'.store.getIssue id = none
  refl _ _ h := ⟨h, rfl, fun _ h => h⟩
  trans _ _ _ _ h h' hi := by
    obtain ⟨hlock, hdevices, hissues⟩ := h hi
    obtain ⟨hlock', hdevices', hissues'⟩ := h' hlock
    exact ⟨hlock', hdevices'.trans hdevices, fun id hid => hissues' id (hissues id hid)⟩

/-- What task `i` sees of the operations while the others respect the storage lock. -/
def Platform.seen (P : Platform ω) (i : Nat) : Env (World ω) Op Op.Res :=
  P.kernel.seen (lockContract ω) i

/-- The others may do nothing. -/
theorem seen_of_env {w' : World ω} {e : Op} {r : e.Res} (h : P.env i w e r w') :
    P.seen i w e r w' := by
  rw [Platform.seen, Kernel.seen]
  split
  · exact ⟨w, trivial, (lockContract ω).refl i w, h⟩
  · exact h

/-- A turn that began without another task holding the lock. -/
theorem leaves_lock (hlock : w₀.lock = none ∨ w₀.lock = some i) : (lockContract ω).Leaves i w₀ w where
  inv := trivial
  rely := by
    intro j hj hheld
    rcases hlock with hfree | hmine
    · simp [hfree] at hheld
    · rw [hmine, Option.some.injEq] at hheld
      exact absurd hheld.symm hj

theorem runs_acquire {w' : World ω} {a : Unit} (h : Runs (P.seen i) (ask .acquire) w (.ok a) w') :
    w'.lock = some i := by
  have hacquire : turn P.kernel (lockContract ω) i (ask .acquire)
      (fun r _ w' => ∀ a, r = .ok a → w'.lock = some i) w w := by
    rw [turn_ask_wait rfl]
    refine ⟨⟨trivial, fun j _ => (lockContract ω).refl j w⟩, fun v _ _ => ⟨?_, ?_⟩⟩
    · rintro _ _ ⟨-, rfl⟩ _ -
      rfl
    · rintro x _ - _ ⟨⟩
  obtain ⟨_, hpost⟩ := h.ends hacquire
  exact hpost a rfl

/-- Giving the lock back cannot fail. -/
theorem runs_release {w' : World ω} {out : Except Exc Unit}
    (h : Runs (P.seen i) (ask .release) w out w') : out = .ok () ∧ w' = { w with lock := none } := by
  have hrelease : turn P.kernel (lockContract ω) i (ask .release)
      (fun r _ w' => r = .ok () ∧ w' = { w with lock := none }) w w := by
    rw [turn_ask_now rfl]
    refine ⟨?_, ?_⟩
    · rintro _ _ rfl
      exact ⟨rfl, rfl⟩
    · rintro x _ ⟨⟨⟩, -⟩
  obtain ⟨_, hpost⟩ := h.ends hrelease
  exact hpost

/-- Whatever a task does under the lock, it respects the others. -/
theorem turn_locked {p : Task α} (hp : p.Uses fun e => e.writes ≠ some .lock)
    (hlock : w₀.lock = none ∨ w₀.lock = some i) (hmine : w.lock = some i) :
    turn P.kernel (lockContract ω) i p (fun _ w₁ _ => w₁.lock = none ∨ w₁.lock = some i) w₀ w := by
  induction p generalizing w₀ w with
  | ret a => exact hlock
  | fail x => exact hlock
  | op e k ih =>
    have hkeep : ∀ {v v' : World ω} {r}, P.env i v e r v' → v.lock = some i → v'.lock = some i := by
      intro v v' r hr hv
      cases r with
      | ok a => exact Eq.trans ((effect_frame hr).2 .lock hp.1) hv
      | error x => exact Eq.trans ((failure_frame hr).2 .lock hp.1) hv
    cases he : P.kernel.suspends e with
    | true =>
      rw [turn_op_wait he]
      refine ⟨leaves_lock hlock, fun w₁ _ hrely r w₂ hr => ?_⟩
      exact ih r (hp.2 r) (.inr (hrely hmine).1) (hkeep hr (hrely hmine).1)
    | false =>
      rw [turn_op_now he]
      exact fun r w₂ hr => ih r (hp.2 r) hlock (hkeep hr hmine)

theorem turn_lockedSection {body : Task α} (hbody : body.Uses fun e => e.writes ≠ some .lock) :
    turn P.kernel (lockContract ω) i (withStorageLock body)
      (fun _ w₁ w' => (lockContract ω).Leaves i w₁ w') w w := by
  have hrefl : ∀ w : World ω, (lockContract ω).Leaves i w w := fun w =>
    ⟨trivial, fun j _ => (lockContract ω).refl j w⟩
  refine turn_withStorageLock (R := fun _ w₁ _ => w₁.lock = none ∨ w₁.lock = some i) (hrefl w) ?_ ?_ ?_
  · exact fun w₁ _ _ _ _ => hrefl w₁
  · exact fun w₁ _ _ hfree => turn_locked hbody (.inl hfree) rfl
  · exact fun _ w₁ w' h => leaves_lock h

namespace Locked
variable {user : User} {client : ClientMeta}

theorem writes_provision {S : List Part} (h : .devices ∈ S) {name : Text}
    {serverNodeId : Option Text} : Writes S (Services.provision user name serverNodeId) :=
  writes_bind (Services.writes_enforceLimit user) fun _ =>
    writes_bind (Services.writes_chooseNode serverNodeId) fun _ =>
    writes_bind (writes_read rfl rfl) fun _ => writes_bind (writes_read rfl rfl) fun _ =>
    writes_bind (writes_one rfl rfl h) fun _ => writes_ret _

theorem writes_settleIssue {device : Device} {node : ServerNode} (r : Except Exc AgentIssueResult) :
    Writes [.devices, .issues, .audit] (b.settleIssue user device node client r) := by
  cases r with
  | ok result =>
    exact writes_bind (writes_read rfl rfl) fun _ => writes_bind (writes_read rfl rfl) fun _ =>
      writes_bind (writes_read rfl rfl) fun _ => writes_bind (writes_one rfl rfl (by simp)) fun _ =>
      writes_bind (writes_read rfl rfl) fun _ => writes_bind (Services.writes_encryptValue _) fun _ =>
      writes_bind (Services.writes_encryptValue _) fun _ =>
      writes_bind (writes_one rfl rfl (by simp)) fun _ =>
      writes_bind (writes_auditLog (by simp)) fun _ => writes_ret _
  | error x =>
    cases x with
    | app e =>
      exact writes_bind (writes_bind (writes_read rfl rfl) fun _ =>
        writes_bind (writes_one rfl rfl (by simp)) fun _ => writes_auditLog (by simp)) fun _ =>
        writes_fail _
    | _ => trivial

theorem writes_markRevoked {device : Device} :
    Writes [.devices, .issues, .audit] (Services.markRevoked user device client) :=
  writes_bind (writes_read rfl rfl) fun _ => writes_bind (writes_one rfl rfl (by simp)) fun _ =>
    writes_bind (writes_one rfl rfl (by simp)) fun _ =>
    writes_bind (writes_auditLog (by simp)) fun _ => writes_ret _

/-- What `create` does under the lock. -/
theorem create_locked (user : User) (client : ClientMeta) (name : Text) (serverNodeId : Option Text) : ∃ body,
    b.create user name serverNodeId client = withStorageLock body ∧
      Within [.devices, .issues, .audit, .agents] body := by
  refine ⟨_, rfl, ?_⟩
  refine within_bind ((writes_provision (S := [.devices]) (by simp)).within (by simp)) ?_
  rintro ⟨device, node⟩
  exact within_bind ((within_attempt Services.within_issuePeer).mono (by simp)) fun r =>
    (writes_settleIssue r).within (by simp)

/-- What `revoke` does under the lock. -/
theorem revoke_locked (user : User) (client : ClientMeta) (deviceId : Text) : ∃ body,
    b.revoke user deviceId client = withStorageLock body ∧
      Within [.devices, .issues, .audit, .agents] body := by
  refine ⟨_, rfl, ?_⟩
  refine within_bind ((Services.writes_getForActor (S := []) user deviceId).within (by simp))
    fun device => ?_
  change Within _ (if _ then _ else _)
  split
  · trivial
  · refine within_bind ((writes_read (S := []) rfl rfl).within (by simp)) fun node => ?_
    exact within_bind (Services.within_revokeOnNode.mono (by simp)) fun _ =>
      writes_markRevoked.within (by simp)

theorem turn_create {name : Text} {serverNodeId : Option Text} :
    turn P.kernel (lockContract ω) i (b.create user name serverNodeId client)
      (fun _ w₁ w' => (lockContract ω).Leaves i w₁ w') w w := by
  obtain ⟨body, hbody, hwithin⟩ := create_locked (b := b) user client name serverNodeId
  rw [hbody]
  exact turn_lockedSection (uses_of_within hwithin (by simp))

theorem turn_revoke {deviceId : Text} :
    turn P.kernel (lockContract ω) i (b.revoke user deviceId client)
      (fun _ w₁ w' => (lockContract ω).Leaves i w₁ w') w w := by
  obtain ⟨body, hbody, hwithin⟩ := revoke_locked (b := b) user client deviceId
  rw [hbody]
  exact turn_lockedSection (uses_of_within hwithin (by simp))

/-- The device service writes nothing but devices, issues and the audit. -/
theorem within_deviceCall (call : DeviceCall) :
    Within [.devices, .issues, .audit, .agents, .lock] (b.deviceCall call) := by
  cases call with
  | create user name serverNodeId client =>
    obtain ⟨body, hbody, hwithin⟩ := create_locked (b := b) user client name serverNodeId
    have hcreate : Within [.devices, .issues, .audit, .agents, .lock]
        (b.create user name serverNodeId client) := by
      rw [hbody]
      exact within_withStorageLock (hwithin.mono (by simp)) (by simp)
    exact within_bind hcreate fun _ => trivial
  | revoke actor deviceId client =>
    obtain ⟨body, hbody, hwithin⟩ := revoke_locked (b := b) actor client deviceId
    have hrevoke : Within [.devices, .issues, .audit, .agents, .lock]
        (b.revoke actor deviceId client) := by
      rw [hbody]
      exact within_withStorageLock (hwithin.mono (by simp)) (by simp)
    exact within_bind hrevoke fun _ => trivial
  | issueResult actor deviceId =>
    exact within_bind (Services.writes_issueResultOf.within (by simp)) fun _ => trivial

/-- Reading an issue may drop or mark it, but no issue appears. -/
theorem turn_issueResult {deviceId : Text} :
    turn P.kernel (lockContract ω) i (Services.issueResultOf user deviceId)
      (fun _ w₁ w' => (lockContract ω).Leaves i w₁ w') w w := by
  have hissues : ∀ {w w' : World ω}, w'.lock = w.lock → w'.store.devices = w.store.devices →
      (∀ id, w.store.getIssue id = none → w'.store.getIssue id = none) →
      (lockContract ω).Leaves i w w' := fun hlock hdevices hissue =>
    ⟨trivial, fun _ _ hheld => ⟨hlock.trans hheld, hdevices, hissue⟩⟩
  have hrefl : (lockContract ω).Leaves i w w := hissues rfl rfl fun _ h => h
  unfold Services.issueResultOf
  -- the issue is looked up, opened and marked as consumed, and never made
  refine turn_getForActor (fun _ => hrefl) fun device _ hid => ?_
  apply turn_ask_seq rfl
  swap
  · rintro x _ ⟨-, -, rfl⟩
    exact hrefl
  rintro found w' ⟨rfl, hw⟩
  subst hw
  cases hissue : w'.store.getIssue device.id with
  | none => exact hrefl
  | some issue =>
    change turn _ _ _ (if _ then _ else _) _ _ _
    split
    · exact hrefl
    apply turn_writes_seq (S := []) (writes_read rfl rfl)
    swap
    · exact fun x w' h => h.eq ▸ hrefl
    rintro now w' h
    obtain rfl := h.eq
    change turn _ _ _ (if _ then _ else _) _ _ _
    split
    -- expired: the issue is dropped
    · apply turn_ask_seq rfl
      · rintro _ _ rfl
        refine hissues rfl rfl fun id hnone => ?_
        change (w'.store.issues.erase _).get id = none
        rw [Table.get_erase]
        split
        · rfl
        · exact hnone
      · rintro x _ ⟨-, -, rfl⟩
        exact hrefl
    · have hrest : ∀ (issue : DeviceConfigIssue) {v : World ω}, (lockContract ω).Leaves i w' v →
          turn P.kernel (lockContract ω) i (do
              let config : Text ← ask (.decrypt (issue.configEncrypted.getD []))
              let vpnUrl ← Services.decryptOptional issue.vpnUrlEncrypted
              return (⟨device.id, config, vpnUrl, issue.expiresAt⟩ : Services.IssueResultOut))
            (fun _ w₁ w' => (lockContract ω).Leaves i w₁ w') w' v := by
        intro issue v hleaves
        apply turn_mono (turn_writes (S := []) (writes_bind (writes_read rfl rfl) fun config =>
          writes_bind (Services.writes_decryptOptional _) fun vpnUrl => writes_ret _))
        rintro _ _ v' ⟨rfl, hframe⟩
        obtain rfl := hframe.eq
        exact hleaves
      unfold Services.consume
      split
      -- the first look: the issue is saved as consumed, under the id it had
      · rw [bind_assoc]
        apply turn_ask_seq rfl
        · rintro _ _ rfl
          rw [pure_bind]
          refine hrest _ (hissues rfl rfl fun id hnone => ?_)
          change (w'.store.issues.put _).get id = none
          rw [Table.get_put, if_neg ?_]
          · exact hnone
          · rintro rfl
            have hkey := Table.key_of_get hissue
            change w'.store.issues.get issue.deviceId = none at hnone
            rw [hkey] at hnone
            rw [Store.getIssue, hnone] at hissue
            cases hissue
        · rintro x _ ⟨-, -, rfl⟩
          exact hrefl
      · exact hrest issue hrefl

theorem turn_lockedCall (call : DeviceCall) :
    turn P.kernel (lockContract ω) i (b.deviceCall call)
      (fun _ w₁ w' => (lockContract ω).Leaves i w₁ w') w w := by
  cases call with
  | create _ _ _ _ => exact turn_seq turn_create (fun _ _ _ h => h) fun _ _ _ h => h
  | revoke _ _ _ => exact turn_seq turn_revoke (fun _ _ _ h => h) fun _ _ _ h => h
  | issueResult _ _ => exact turn_seq turn_issueResult (fun _ _ _ h => h) fun _ _ _ h => h

end Locked
end VpnControl.Backend
