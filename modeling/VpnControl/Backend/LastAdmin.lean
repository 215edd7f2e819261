import VpnControl.Backend.UserCalls

namespace VpnControl.Backend
open Strings Json Effects Prog

def User.isActiveAdmin (user : User) : Bool := user.isActive && user.role = .admin

/-- A stored user is an active admin, and has another id than the one given. -/
def Store.AdminBeside (s : Store) (userId : Text) : Prop :=
  ∃ admin, s.getUser admin.id = some admin ∧ admin.isActiveAdmin = true ∧ admin.id ≠ userId

def Store.HasActiveAdmin (s : Store) : Prop :=
  ∃ admin, s.getUser admin.id = some admin ∧ admin.isActiveAdmin = true

/-- The admin in whose name a call is made. -/
def UserCall.actor : UserCall → Option User
  | create actor _ | update actor .. | resetPassword actor .. | setActive actor .. => some actor
  | _ => none

/-- A call that has found the user to be an active admin. -/
def admits {ω : Type} (actor : User) : MadeCall ω → Bool
  | ⟨_, .currentAdmin _, .ok user⟩ => user = actor
  | _ => false

/-- Every call in the name of an admin comes after one that admits this admin. -/
def authorised {ω : Type} : List (MadeCall ω) → Bool
  | [] => true
  | c :: l => (c.call.actor.all fun actor => l.any (admits actor)) && authorised l

/-- A call that takes the role or the access of an admin away finds another active admin. -/
def UserCall.SparesAdmins (s : Store) : UserCall → Prop
  | update _ userId patch => .role .user ∈ patch → s.AdminBeside userId
  | setActive actor userId false => userId ≠ actor.id → s.AdminBeside userId
  | _ => True

section Store
variable {s s' : Store} {user : User}

theorem adminBeside_iff {userId : Text} : s.AdminBeside userId ↔
    ∃ admin ∈ s.users.values, admin.isActiveAdmin = true ∧ admin.id ≠ userId := by
  simp only [Store.AdminBeside, Store.getUser, Table.mem_values_iff]

theorem hasActiveAdmin_iff :
    s.HasActiveAdmin ↔ ∃ admin ∈ s.users.values, admin.isActiveAdmin = true := by
  simp only [Store.HasActiveAdmin, Store.getUser, Table.mem_values_iff]

instance (s : Store) (userId : Text) : Decidable (s.AdminBeside userId) :=
  decidable_of_iff _ adminBeside_iff.symm

instance (s : Store) : Decidable s.HasActiveAdmin := decidable_of_iff _ hasActiveAdmin_iff.symm

instance (s : Store) (call : UserCall) : Decidable (call.SparesAdmins s) :=
  match call with
  | .update _ userId patch =>
    inferInstanceAs (Decidable (UserPatch.role .user ∈ patch → s.AdminBeside userId))
  | .setActive actor userId false =>
    inferInstanceAs (Decidable (userId ≠ actor.id → s.AdminBeside userId))
  | .setActive _ _ true | .login .. | .resolveSession _ | .logout .. | .currentAdmin _
  | .create .. | .resetPassword .. => inferInstanceAs (Decidable True)

theorem hasActiveAdmin_congr (h : s'.users = s.users) : s'.HasActiveAdmin ↔ s.HasActiveAdmin := by
  simp only [Store.HasActiveAdmin, Store.getUser, h]

theorem hasActiveAdmin_beside (h : s.AdminBeside user.id) : (s.saveUser user).HasActiveAdmin := by
  obtain ⟨admin, hadmin, hactive, hne⟩ := h
  exact ⟨admin, (Table.get_put_of_ne _ hne).trans hadmin, hactive⟩

/-- A user is saved that stays an admin, if it was one. -/
theorem hasActiveAdmin_saveUser (h : s.HasActiveAdmin)
    (huser : ∀ old, s.getUser user.id = some old → old.isActiveAdmin = true →
      user.isActiveAdmin = true) : (s.saveUser user).HasActiveAdmin := by
  obtain ⟨admin, hadmin, hactive⟩ := h
  by_cases hid : admin.id = user.id
  · rw [hid] at hadmin
    exact ⟨user, Table.get_put_self _ _, huser admin hadmin hactive⟩
  · exact ⟨admin, (Table.get_put_of_ne _ hid).trans hadmin, hactive⟩

end Store

section Patch

theorem assign_role {user : User} {field : UserPatch} (hfield : field ≠ .role .user)
    (hrole : user.role = .admin) : (user.assign field).2.role = .admin := by
  cases field with
  | role value =>
    cases value with
    | admin => rfl
    | user => exact absurd rfl hfield
  | _ => exact hrole

theorem patchUser_role {user : User} {patch : List UserPatch} (hpatch : .role .user ∉ patch)
    (hrole : user.role = .admin) (changed : List Text) :
    (patchUser user changed patch).1.role = .admin := by
  induction patch generalizing user changed with
  | nil => exact hrole
  | cons field patch ih =>
    rw [List.mem_cons, not_or] at hpatch
    rw [patchUser]
    split
    · exact ih hpatch.2 hrole changed
    · exact ih hpatch.2 (assign_role (Ne.symm hpatch.1) hrole) _

end Patch

section Calls
variable {ω : Type} {P : Platform ω} {b : Services} {i : Nat} {w : World ω} {α : Type}

theorem keeps_of_writes {S : List Part} {p : Task α} (hp : Writes S p) (hS : .users ∉ S)
    (h : w.store.HasActiveAdmin) :
    wp (P.env i) p (fun _ w' => w'.store.HasActiveAdmin) w :=
  wp_mono (wp_writes hp) fun _ _ hframe => (hasActiveAdmin_congr (hframe.same .users hS)).mpr h

theorem keeps_getUser {userId : Text} {f : User → Task α} (h : w.store.HasActiveAdmin)
    (hf : ∀ user, w.store.getUser userId = some user →
      wp (P.env i) (f user) (fun _ w' => w'.store.HasActiveAdmin) w) :
    wp (P.env i) (Services.getUser userId >>= f) (fun _ w' => w'.store.HasActiveAdmin) w := by
  rw [Services.getUser, bind_assoc]
  apply wp_keeps_seq rfl h
  rintro _ w' ⟨rfl, hw⟩
  subst hw
  cases huser : w'.store.getUser userId with
  | none => exact h
  | some user => exact hf user huser

/-- The clock is read, a user is saved, and the rest writes no user. -/
theorem keeps_saveUser {S : List Part} {user : Time → User} {f : Time → Unit → Task α}
    (h : w.store.HasActiveAdmin) (huser : ∀ now, (w.store.saveUser (user now)).HasActiveAdmin)
    (hf : ∀ now, Writes S (f now ())) (hS : .users ∉ S) :
    wp (P.env i) (ask .now >>= fun now => ask (.saveUser (user now)) >>= f now)
      (fun _ w' => w'.store.HasActiveAdmin) w := by
  apply wp_keeps_seq rfl h
  rintro now w' ⟨-, rfl⟩
  apply wp_keeps_seq rfl h
  rintro _ _ rfl
  exact keeps_of_writes (hf now) hS (huser now)

theorem keeps_createUser {actor : User} {new : NewUser} (h : w.store.HasActiveAdmin) :
    wp (P.env i) (b.createUser actor new) (fun _ w' => w'.store.HasActiveAdmin) w := by
  apply wp_keeps_seq rfl h
  rintro taken w₁ ⟨-, rfl⟩
  change wp _ (if _ then _ else _) _ _
  split
  · exact h
  · apply wp_keeps_seq rfl h
    rintro now w₁ ⟨-, rfl⟩
    apply wp_keeps_seq rfl h
    rintro id w₁ ⟨hfresh, rfl⟩
    apply wp_keeps_seq rfl h
    rintro passwordHash w₁ rfl
    apply wp_keeps_seq rfl h
    rintro _ _ rfl
    refine keeps_of_writes (S := [.audit]) ?_ (by simp) (hasActiveAdmin_saveUser h ?_)
    · exact writes_bind (writes_auditLog (by simp)) fun _ => writes_ret _
    · intro old hold
      exact absurd (hfresh.user.symm.trans hold) (by simp)

theorem keeps_updateUser {actor : User} {userId : Text} {patch : List UserPatch}
    (h : w.store.HasActiveAdmin)
    (hspares : (UserCall.update actor userId patch).SparesAdmins w.store) :
    wp (P.env i) (Services.updateUser actor userId patch)
      (fun _ w' => w'.store.HasActiveAdmin) w := by
  apply keeps_getUser h
  intro user huser
  have hid : user.id = userId := Table.key_of_get huser
  change wp _ (if _ then _ else _) _ _
  split
  · exact h
  · refine keeps_saveUser (S := [.audit]) h ?_ (fun now => ?_) (by simp)
    · intro now
      by_cases hpatch : .role .user ∈ patch
      · apply hasActiveAdmin_beside
        rw [patchUser_id, hid]
        exact hspares hpatch
      · refine hasActiveAdmin_saveUser h fun old hold hactive => ?_
        rw [patchUser_id, hid, huser, Option.some.injEq] at hold
        subst hold
        simp only [User.isActiveAdmin, Bool.and_eq_true, decide_eq_true_eq] at hactive ⊢
        exact ⟨(patchUser_isActive _ _ _).trans hactive.1, patchUser_role hpatch hactive.2 _⟩
    · exact writes_bind (writes_auditLog (by simp)) fun _ => writes_ret _

theorem keeps_resetPassword {actor : User} {userId newPassword : Text}
    (h : w.store.HasActiveAdmin) :
    wp (P.env i) (Services.resetPassword actor userId newPassword)
      (fun _ w' => w'.store.HasActiveAdmin) w := by
  apply keeps_getUser h
  intro user huser
  apply wp_keeps_seq rfl h
  rintro passwordHash w₁ rfl
  refine keeps_saveUser (S := [.sessions, .audit]) h ?_ (fun now => ?_) (by simp)
  · refine fun now => hasActiveAdmin_saveUser h fun old hold hactive => ?_
    rw [show old = user from Option.some.inj (hold.symm.trans (Table.key_of_get huser ▸ huser))] at hactive
    exact hactive
  · apply writes_bind (writes_read rfl rfl)
    intro now
    exact writes_bind (writes_one rfl rfl (by simp)) fun _ =>
      writes_auditLog (by simp)

theorem keeps_setActive {actor : User} {userId : Text} {isActive : Bool}
    (h : w.store.HasActiveAdmin)
    (hspares : (UserCall.setActive actor userId isActive).SparesAdmins w.store) :
    wp (P.env i) (Services.setActive actor userId isActive)
      (fun _ w' => w'.store.HasActiveAdmin) w := by
  apply keeps_getUser h
  intro user huser
  have hid : user.id = userId := Table.key_of_get huser
  change wp _ (if _ then _ else if _ then _ else _) _ _
  split
  · exact h
  · rename_i hself
    split
    · exact h
    · refine keeps_saveUser (S := [.sessions, .audit]) h (fun now => ?_) (fun now => ?_) (by simp)
      · cases isActive with
        | false =>
          apply hasActiveAdmin_beside
          change w.store.AdminBeside user.id
          rw [hid] at hself ⊢
          exact hspares fun hactor => hself ⟨hactor, rfl⟩
        | true =>
          refine hasActiveAdmin_saveUser h fun old hold hactive => ?_
          rw [show old = user from Option.some.inj (hold.symm.trans (hid ▸ huser))] at hactive
          simp only [User.isActiveAdmin, Bool.and_eq_true, decide_eq_true_eq] at hactive ⊢
          exact ⟨trivial, hactive.2⟩
      · apply writes_bind
        · rw [Services.dropSessions]
          split
          · exact writes_ret _
          · apply writes_bind (writes_read rfl rfl)
            exact fun now => writes_one rfl rfl (by simp)
        · exact fun _ => writes_bind (writes_auditLog (by simp)) fun _ => writes_ret _

theorem keeps_userCall (call : UserCall) (h : w.store.HasActiveAdmin)
    (hspares : call.SparesAdmins w.store) :
    wp (P.env i) (b.userCall call) (fun _ w' => w'.store.HasActiveAdmin) w := by
  cases call with
  | login => exact keeps_of_writes writes_login (by simp) h
  | resolveSession => exact keeps_of_writes writes_resolveSession (by simp) h
  | logout => exact keeps_of_writes writes_logout (by simp) h
  | currentAdmin => exact keeps_of_writes writes_getCurrentAdmin (by simp) h
  | create => exact keeps_createUser h
  | update => exact keeps_updateUser h hspares
  | resetPassword => exact keeps_resetPassword h
  | setActive => exact keeps_setActive h hspares

/-- In every run of calls, made one after the other and authorised at any time before: as long
as a call that takes the role or the access of an admin away finds another active admin, there
is an active admin. -/
theorem activeAdmin_of_run {w₀ : World ω} {l : List (MadeCall ω)}
    (hrun : Calls (P.env i) World.Later b.userCall w₀ l w) (hstart : w₀.store.HasActiveAdmin)
    (hspares : ∀ c ∈ l, c.call.SparesAdmins c.before.store) : w.store.HasActiveAdmin := by
  refine Calls.keeps (G := fun w call => call.SparesAdmins w.store)
    (I := fun w => w.store.HasActiveAdmin) ?_ ?_ hstart hrun hspares
  · rintro w _ h ⟨now, -, rfl⟩
    exact h
  · exact fun w call h hcall => keeps_userCall call h hcall

end Calls

namespace Sample

def admin : User := { user with id := lit "a", login := lit "admin", role := .admin }

def session : Session where
  id := lit "s"
  userId := lit "a"
  tokenHash := lit "t"
  createdAt := 0
  expiresAt := 1
  lastSeenAt := 0

/-- An installation with one admin, who is logged in. -/
def adminWorld : World Unit where
  store := (store.saveUser admin).saveSession session
  agents := ()

/-- The calls of a list, made one after the other. -/
def calls (w : World Unit) (calls : List UserCall) :
    List (MadeCall Unit) × World Unit :=
  playCalls ((scenario .database).answer 0 none) services.userCall calls ([], w)

theorem calls_run (w : World Unit) (calls : List UserCall) :
    Calls ((scenario .database).platform.env 0) World.Later services.userCall w
      (Sample.calls w calls).1 (Sample.calls w calls).2 := by
  have hanswer : ∀ w e r w', (scenario .database).answer 0 none w e = some (r, w') →
      (scenario .database).platform.env 0 w e r w' := fun _ _ _ _ => (scenario .database).answer_env 0 none
  exact calls_playCalls hanswer calls .start

/-- The admin makes the other user an admin, and is then an admin no more. -/
def succession : List UserCall :=
  [.currentAdmin (some (lit "t")), .update admin (lit "u") [.role .admin],
    .update admin (lit "a") [.role .user]]

/-- A sole admin takes its own role away: no check of `update` prevents it. -/
def demotion : List UserCall :=
  [.currentAdmin (some (lit "t")), .update admin (lit "a") [.role .user]]

end Sample

theorem activeAdmin_of_succession : (Sample.calls Sample.adminWorld Sample.succession).2.store.HasActiveAdmin :=
  activeAdmin_of_run (Sample.calls_run _ Sample.succession) (by decide +kernel) (by decide +kernel)

/-- So an admin, authorised by its session, can leave the installation without any. -/
theorem no_admin_after_demotion :
    Calls ((Sample.scenario .database).platform.env 0) World.Later Sample.services.userCall
      Sample.adminWorld (Sample.calls Sample.adminWorld Sample.demotion).1 (Sample.calls Sample.adminWorld Sample.demotion).2 ∧
    authorised (Sample.calls Sample.adminWorld Sample.demotion).1 = true ∧ Sample.adminWorld.store.HasActiveAdmin ∧
    ¬ (Sample.calls Sample.adminWorld Sample.demotion).2.store.HasActiveAdmin :=
  ⟨Sample.calls_run _ _, by decide +kernel, by decide +kernel, by decide +kernel⟩

end VpnControl.Backend
