import VpnControl.Backend.LastAdmin

namespace VpnControl.Backend
open Strings Json Effects Prog

namespace MadeCall
variable {ω : Type}

/-- The user and the token that a login returned. -/
def issued : MadeCall ω → Option (Text × Text)
  | ⟨_, .login .., .ok (user, token)⟩ => some (user.id, token)
  | _ => none

/-- After the call the token of the user is to be worth nothing: it was logged out, or its
owner's password was reset, or the call disabled its owner. -/
def Withdraws (userId token : Text) : MadeCall ω → Prop
  | ⟨_, .logout rawToken _, .ok _⟩ => rawToken = token
  | ⟨_, .resetPassword _ target _, .ok _⟩ => target = userId
  | ⟨before, .setActive _ target false, .ok _⟩ =>
    target = userId ∧ (before.store.getUser target).any (·.isActive) = true
  | _ => False

instance (userId token : Text) (c : MadeCall ω) : Decidable (c.Withdraws userId token) :=
  match c with
  | ⟨_, .logout rawToken _, .ok _⟩ => inferInstanceAs (Decidable (rawToken = token))
  | ⟨_, .resetPassword _ target _, .ok _⟩ => inferInstanceAs (Decidable (target = userId))
  | ⟨before, .setActive _ target false, .ok _⟩ =>
    inferInstanceAs (Decidable (target = userId ∧ (before.store.getUser target).any (·.isActive) = true))
  | ⟨_, .setActive _ _ true, _⟩ | ⟨_, .login .., _⟩ | ⟨_, .resolveSession _, _⟩
  | ⟨_, .currentAdmin _, _⟩ | ⟨_, .create .., _⟩ | ⟨_, .update .., _⟩
  | ⟨_, .logout .., .error _⟩ | ⟨_, .resetPassword .., .error _⟩
  | ⟨_, .setActive _ _ false, .error _⟩ => inferInstanceAs (Decidable False)

end MadeCall

section
variable {ω : Type}

/-- The tokens that logins returned, with their users. -/
def issuedTokens (l : List (MadeCall ω)) : List (Text × Text) := l.filterMap MadeCall.issued

/-- The token was returned by a login and withdrawn by a later call. -/
def Withdrawn (userId token : Text) : List (MadeCall ω) → Prop
  | [] => False
  | c :: l => (userId, token) ∈ issuedTokens l ∧ c.Withdraws userId token ∨ Withdrawn userId token l

instance decidableWithdrawn (userId token : Text) :
    (l : List (MadeCall ω)) → Decidable (Withdrawn userId token l)
  | [] => inferInstanceAs (Decidable False)
  | c :: l =>
    have := decidableWithdrawn userId token l
    inferInstanceAs (Decidable ((userId, token) ∈ issuedTokens l ∧ c.Withdraws userId token ∨
      Withdrawn userId token l))

/-- What a call does to the stored sessions. -/
structure SessionStep (wire : Wire) (c : MadeCall ω) (w' : World ω) : Prop where
  kept : ∀ {hash session}, c.before.store.getSessionByTokenHash hash = some session →
    (∀ userId token, c.issued = some (userId, token) → hash ≠ wire.sha256 token) →
    ∃ session', w'.store.getSessionByTokenHash hash = some session' ∧
      session'.userId = session.userId ∧ (session.revokedAt ≠ none → session'.revokedAt ≠ none)
  stored : ∀ {hash session'}, w'.store.getSessionByTokenHash hash = some session' →
    (∃ session, c.before.store.getSessionByTokenHash hash = some session ∧
      session'.userId = session.userId) ∨
    ∃ token, c.issued = some (session'.userId, token) ∧ hash = wire.sha256 token
  issued : ∀ {userId token}, c.issued = some (userId, token) →
    ∃ session', w'.store.getSessionByTokenHash (wire.sha256 token) = some session' ∧
      session'.userId = userId
  withdrawn : ∀ {userId token session}, c.Withdraws userId token →
    c.before.store.getSessionByTokenHash (wire.sha256 token) = some session →
    session.userId = userId →
    ∃ session', w'.store.getSessionByTokenHash (wire.sha256 token) = some session' ∧
      session'.revokedAt ≠ none

/-- What holds of the stored sessions after the calls `l`. -/
structure SessionInv (wire : Wire) (l : List (MadeCall ω)) (w : World ω) : Prop where
  issued : ∀ {userId token}, (userId, token) ∈ issuedTokens l →
    ∃ session, w.store.getSessionByTokenHash (wire.sha256 token) = some session ∧
      session.userId = userId
  stored : ∀ {hash session}, w.store.getSessionByTokenHash hash = some session →
    ∃ token, (session.userId, token) ∈ issuedTokens l ∧ hash = wire.sha256 token
  withdrawn : ∀ {userId token}, Withdrawn userId token l →
    ∃ session, w.store.getSessionByTokenHash (wire.sha256 token) = some session ∧
      session.revokedAt ≠ none

end

section Inv
variable {ω : Type} {wire : Wire} {l : List (MadeCall ω)} {c : MadeCall ω} {w' : World ω}

theorem issuedTokens_cons (c : MadeCall ω) (l : List (MadeCall ω)) :
    issuedTokens (c :: l) = c.issued.toList ++ issuedTokens l := by
  rw [issuedTokens, List.filterMap_cons]
  cases c.issued <;> rfl

theorem issued_of_withdrawn {userId token : Text} (h : Withdrawn userId token l) :
    (userId, token) ∈ issuedTokens l := by
  induction l with
  | nil => exact h.elim
  | cons c l ih =>
    rw [issuedTokens_cons]
    exact List.mem_append_right _ (h.elim (·.1) ih)

/-- A session of an earlier login is not overwritten. -/
theorem hash_ne_of_nodup (hinj : Function.Injective wire.sha256)
    (hnodup : ((issuedTokens (c :: l)).map (·.2)).Nodup) {userId token : Text}
    (h : (userId, token) ∈ issuedTokens l) (userId' token' : Text)
    (hc : c.issued = some (userId', token')) : wire.sha256 token ≠ wire.sha256 token' := by
  intro heq
  rw [issuedTokens_cons, hc, Option.toList_some, List.singleton_append, List.map_cons,
    List.nodup_cons] at hnodup
  apply hnodup.1
  exact List.mem_map.mpr ⟨(userId, token), h, hinj heq⟩

theorem SessionInv.call (hinj : Function.Injective wire.sha256)
    (hnodup : ((issuedTokens (c :: l)).map (·.2)).Nodup) (hinv : SessionInv wire l c.before)
    (hstep : SessionStep wire c w') : SessionInv wire (c :: l) w' where
  issued := by
    intro userId token h
    rw [issuedTokens_cons, List.mem_append, Option.mem_toList] at h
    rcases h with hc | hl
    · exact hstep.issued hc
    · obtain ⟨session, hsession, huser⟩ := hinv.issued hl
      obtain ⟨session', hsession', huser', -⟩ :=
        hstep.kept hsession (hash_ne_of_nodup hinj hnodup hl)
      exact ⟨session', hsession', huser'.trans huser⟩
  stored := by
    intro hash session' h
    rw [issuedTokens_cons]
    rcases hstep.stored h with ⟨session, hsession, huser⟩ | ⟨token, hc, hhash⟩
    · obtain ⟨token, htoken, hhash⟩ := hinv.stored hsession
      rw [← huser] at htoken
      exact ⟨token, List.mem_append_right _ htoken, hhash⟩
    · exact ⟨token, List.mem_append_left _ (Option.mem_toList.mpr hc), hhash⟩
  withdrawn := by
    rintro userId token (⟨hl, hc⟩ | h)
    · obtain ⟨session, hsession, huser⟩ := hinv.issued hl
      exact hstep.withdrawn hc hsession huser
    · obtain ⟨session, hsession, hrevoked⟩ := hinv.withdrawn h
      obtain ⟨session', hsession', -, hrevoked'⟩ :=
        hstep.kept hsession (hash_ne_of_nodup hinj hnodup (issued_of_withdrawn h))
      exact ⟨session', hsession', hrevoked' hrevoked⟩

end Inv

section Steps
variable {ω : Type} {wire : Wire} {c : MadeCall ω} {w' : World ω}

/-- A call that issues nothing and leaves the sessions; what it withdraws is revoked already. -/
theorem SessionStep.same (h : w'.store.sessions = c.before.store.sessions)
    (hissued : c.issued = none)
    (hwithdraws : ∀ userId token session, c.Withdraws userId token →
      c.before.store.getSessionByTokenHash (wire.sha256 token) = some session →
      session.revokedAt ≠ none) : SessionStep wire c w' where
  kept {hash session} hsession _ := by
    refine ⟨session, ?_, rfl, id⟩
    rw [Store.getSessionByTokenHash, h]
    exact hsession
  stored {hash session'} hsession := by
    rw [Store.getSessionByTokenHash, h] at hsession
    exact .inl ⟨session', hsession, rfl⟩
  issued {userId token} hc := by
    rw [hissued] at hc
    cases hc
  withdrawn {userId token session} hc hsession _ := by
    refine ⟨session, ?_, hwithdraws userId token session hc hsession⟩
    rw [Store.getSessionByTokenHash, h]
    exact hsession

/-- A call that issues nothing and replaces one session by one that is revoked, if that was. -/
theorem SessionStep.put (session : Session) {new : Session} (hissued : c.issued = none)
    (hsession : c.before.store.getSessionByTokenHash new.tokenHash = some session)
    (hw' : w'.store.sessions = c.before.store.sessions.put new)
    (huser : new.userId = session.userId) (hrevoked : session.revokedAt ≠ none → new.revokedAt ≠ none)
    (hwithdraws : ∀ userId token, c.Withdraws userId token →
      wire.sha256 token = new.tokenHash ∧ new.revokedAt ≠ none) : SessionStep wire c w' where
  kept {hash old} hold _ := by
    rw [Store.getSessionByTokenHash, hw', Table.get_put]
    split
    · rename_i hhash
      rw [hhash, hsession, Option.some.injEq] at hold
      subst hold
      exact ⟨new, rfl, huser, hrevoked⟩
    · exact ⟨old, hold, rfl, id⟩
  stored {hash session'} h := by
    rw [Store.getSessionByTokenHash, hw', Table.get_put] at h
    split at h
    · rename_i hhash
      cases h
      rw [hhash]
      exact .inl ⟨session, hsession, huser⟩
    · exact .inl ⟨session', h, rfl⟩
  issued {userId token} hc := by
    rw [hissued] at hc
    cases hc
  withdrawn {userId token old} hc _ _ := by
    obtain ⟨hhash, hnew⟩ := hwithdraws userId token hc
    rw [Store.getSessionByTokenHash, hw', hhash, Table.get_put_self]
    exact ⟨new, rfl, hnew⟩

/-- A login that returns a token and stores the session for it. -/
theorem SessionStep.issue {new : Session} {token : Text}
    (hissued : c.issued = some (new.userId, token)) (hhash : new.tokenHash = wire.sha256 token)
    (hw' : w'.store.sessions = c.before.store.sessions.put new)
    (hwithdraws : ∀ userId token, ¬ c.Withdraws userId token) : SessionStep wire c w' where
  kept {hash old} hold hnew := by
    refine ⟨old, ?_, rfl, id⟩
    rw [Store.getSessionByTokenHash, hw', Table.get_put_of_ne]
    · exact hold
    · rw [hhash]
      exact hnew _ _ hissued
  stored {hash session'} h := by
    rw [Store.getSessionByTokenHash, hw', Table.get_put] at h
    split at h
    · rename_i hnew
      cases h
      exact .inr ⟨token, hissued, hnew.trans hhash⟩
    · exact .inl ⟨session', h, rfl⟩
  issued {userId token'} hc := by
    rw [hissued, Option.some.injEq, Prod.mk.injEq] at hc
    obtain ⟨rfl, rfl⟩ := hc
    refine ⟨new, ?_, rfl⟩
    rw [Store.getSessionByTokenHash, hw', ← hhash, Table.get_put_self]
  withdrawn {userId token' session} hc := absurd hc (hwithdraws userId token')

theorem get_revokeSessionsForUser (s : Store) (userId : Text) (at' : Time) (hash : Text) :
    (s.revokeSessionsForUser userId at').getSessionByTokenHash hash =
      (s.getSessionByTokenHash hash).map (Store.revokeSession userId at') := by
  rw [Store.revokeSessionsForUser, Store.getSessionByTokenHash, Table.get_map]
  rfl

theorem revokeSession_userId (userId : Text) (at' : Time) (session : Session) :
    (Store.revokeSession userId at' session).userId = session.userId := by
  rw [Store.revokeSession]
  split <;> rfl

theorem revokeSession_mono (userId : Text) (at' : Time) {session : Session}
    (h : session.revokedAt ≠ none) : (Store.revokeSession userId at' session).revokedAt ≠ none := by
  rw [Store.revokeSession, if_neg fun hs => h hs.2]
  exact h

theorem revokeSession_revoked (at' : Time) (session : Session) :
    (Store.revokeSession session.userId at' session).revokedAt ≠ none := by
  rw [Store.revokeSession]
  split
  · simp
  · rename_i h
    exact fun hnone => h ⟨rfl, hnone⟩

/-- A call that revokes the sessions of the user whose tokens it withdraws. -/
theorem SessionStep.revoke {s : Store} {target : Text} {at' : Time} (hissued : c.issued = none)
    (hs : s.sessions = c.before.store.sessions)
    (hw' : w'.store.sessions = (s.revokeSessionsForUser target at').sessions)
    (hwithdraws : ∀ userId token, c.Withdraws userId token → target = userId) :
    SessionStep wire c w' := by
  have hget : ∀ hash, w'.store.getSessionByTokenHash hash =
      (c.before.store.getSessionByTokenHash hash).map (Store.revokeSession target at') := by
    intro hash
    rw [Store.getSessionByTokenHash, hw']
    refine (get_revokeSessionsForUser s target at' hash).trans ?_
    rw [Store.getSessionByTokenHash, hs]
    rfl
  constructor
  · intro hash session hsession _
    rw [hget, hsession]
    exact ⟨_, rfl, revokeSession_userId _ _ _, revokeSession_mono _ _⟩
  · intro hash session' h
    rw [hget, Option.map_eq_some_iff] at h
    obtain ⟨session, hsession, rfl⟩ := h
    exact .inl ⟨session, hsession, revokeSession_userId _ _ _⟩
  · intro userId token hc
    rw [hissued] at hc
    cases hc
  · intro userId token session hc hsession huser
    rw [hget, hsession]
    refine ⟨_, rfl, ?_⟩
    rw [hwithdraws userId token hc, ← huser]
    exact revokeSession_revoked _ _

end Steps

section Writes
variable {b : Services}

theorem writes_createUser {actor : User} {new : NewUser} :
    Writes [.users, .audit] (b.createUser actor new) := by
  apply writes_bind (writes_read rfl rfl)
  intro taken
  change Writes _ (if _ then _ else _)
  split
  · exact writes_fail _
  · apply writes_bind (writes_read rfl rfl)
    intro now
    apply writes_bind (writes_read rfl rfl)
    intro id
    apply writes_bind (writes_read rfl rfl)
    intro passwordHash
    apply writes_bind (writes_one rfl rfl (by simp))
    intro _
    exact writes_bind (writes_auditLog (by simp)) fun _ => writes_ret _

theorem writes_resetPassword {actor : User} {userId newPassword : Text} :
    Writes [.users, .sessions, .audit] (Services.resetPassword actor userId newPassword) := by
  apply writes_bind (writes_getUser userId)
  intro user
  apply writes_bind (writes_read rfl rfl)
  intro passwordHash
  apply writes_bind (writes_read rfl rfl)
  intro now
  apply writes_bind (writes_one rfl rfl (by simp))
  intro _
  apply writes_bind (writes_read rfl rfl)
  intro now'
  exact writes_bind (writes_one rfl rfl (by simp)) fun _ =>
    writes_auditLog (by simp)

end Writes

section Calls
variable {ω : Type} {P : Platform ω} {b : Services} {i : Nat} {w w₀ : World ω} {α : Type}

theorem wp_auditLog (hworks : P.StorageWorks) {r : AuditRecord} {Q : Post (World ω) Exc Unit}
    (h : ∀ audit, Q (.ok ()) { w with store := { w.store with audit } }) :
    wp (P.env i) (auditLog r) Q w := by
  apply wp_works_seq hworks rfl
  rintro id _ ⟨-, rfl⟩
  apply wp_works_seq hworks rfl
  rintro now _ ⟨-, rfl⟩
  rw [wp_ask]
  constructor
  · rintro _ _ rfl
    exact h _
  · rintro x _ hx
    exact absurd (failure_immediate (e := .addAuditEntry _) rfl hx).2.1 (hworks _ x rfl)

/-- What resolving a token does: it is only noted when the session was last seen. -/
inductive Seen (w w' : World ω) : Prop
  | nothing (h : w' = w)
  | session {session : Session} (hsession : w.store.getSessionByTokenHash session.tokenHash = some session)
      (h : w' = { w with store := w.store.saveSession { session with lastSeenAt := w.now } })

theorem Seen.step {c : MadeCall ω} {w' : World ω} (h : Seen c.before w') (hissued : c.issued = none)
    (hwithdraws : ∀ userId token, ¬ c.Withdraws userId token) : SessionStep b.wire c w' := by
  cases h with
  | nothing h => exact .same (by rw [h]) hissued fun userId token _ hc => absurd hc (hwithdraws userId token)
  | @session session hsession h =>
    have hnew : w'.store.sessions =
        c.before.store.sessions.put { session with lastSeenAt := c.before.now } := by
      rw [h]
      rfl
    refine .put session hissued ?_ hnew rfl id fun userId token hc => absurd hc (hwithdraws userId token)
    exact hsession

/-- A session for the token is stored: neither revoked nor expired, and of an active user. -/
def Resolves (wire : Wire) (w : World ω) (rawToken : Text) (user : User) : Prop :=
  ∃ session, w.store.getSessionByTokenHash (wire.sha256 rawToken) = some session ∧
    session.revokedAt = none ∧ w.now < session.expiresAt ∧
    w.store.getUser session.userId = some user ∧ user.isActive = true

theorem wp_resolveSession (hworks : P.StorageWorks) (rawToken : Text) :
    wp (P.env i) (b.resolveSession rawToken)
      (fun out w' => Seen w w' ∧ ∀ user, out = .ok (some user) → Resolves b.wire w rawToken user)
      w := by
  rw [Services.resolveSession, hashSessionToken]
  split
  · apply wp_works_seq hworks rfl
    rintro _ w₁ ⟨rfl, rfl⟩
    apply wp_works_seq hworks rfl
    rintro _ w₂ ⟨rfl, rfl⟩
    cases hsession : w₂.store.getSessionByTokenHash (b.wire.sha256 rawToken) with
    | none => exact ⟨.nothing rfl, by rintro _ ⟨⟩⟩
    | some session =>
      change wp _ (if _ then _ else _) _ _
      split
      · exact ⟨.nothing rfl, by rintro _ ⟨⟩⟩
      · rename_i hlive
        simp only [Bool.or_eq_true, decide_eq_true_eq, not_or, Option.not_isSome_iff_eq_none,
          Nat.not_le] at hlive
        apply wp_works_seq hworks rfl
        rintro _ w₃ ⟨rfl, rfl⟩
        split
        · exact ⟨.nothing rfl, by rintro _ ⟨⟩⟩
        · rename_i user huser
          obtain ⟨huser, hactive⟩ := Option.filter_eq_some_iff.mp huser
          apply wp_works_seq hworks rfl
          rintro _ _ rfl
          have hkey : session.tokenHash = b.wire.sha256 rawToken := Table.key_of_get hsession
          refine ⟨.session (hkey ▸ hsession) rfl, ?_⟩
          rintro _ ⟨⟩
          exact ⟨session, hsession, hlive.1, hlive.2, huser, hactive⟩
  · exact ⟨.nothing rfl, by rintro _ ⟨⟩⟩

theorem step_login (hworks : P.StorageWorks) (login password : Text) (client : ClientMeta) :
    wp (P.env i) (b.login login password client)
      (fun out w' => SessionStep b.wire ⟨w, .login login password client, out⟩ w') w := by
  have hfailed : ∀ x w', w'.store.sessions = w.store.sessions →
      SessionStep b.wire ⟨w, .login login password client, .error x⟩ w' :=
    fun x w' h => .same h rfl fun _ _ _ hc => hc.elim
  apply wp_works_seq hworks rfl
  rintro _ w₁ ⟨rfl, rfl⟩
  refine wp_writes_seq (writes_enforceRateLimit (S := [.failures]) (by simp)) (fun _ w₂ h₂ => ?_)
    fun x w₂ h₂ => hfailed x w₂ (h₂.same .sessions (by simp))
  have hw₂ : w₂.store.sessions = w₁.store.sessions := h₂.same .sessions (by simp)
  apply wp_works_seq hworks rfl
  rintro _ w₃ ⟨rfl, rfl⟩
  split
  · refine wp_writes_seq (writes_recordFailures (S := [.failures]) _ (by simp)) (fun _ w₄ h₄ => ?_)
      fun x w₄ h₄ => hfailed x w₄ (Eq.trans (h₄.same .sessions (by simp)) hw₂)
    have hw₄ : w₄.store.sessions = w₁.store.sessions := Eq.trans (h₄.same .sessions (by simp)) hw₂
    rw [wp_bind]
    exact wp_auditLog hworks fun audit => hfailed _ _ hw₄
  · apply wp_works_seq hworks rfl
    rintro _ _ rfl
    apply wp_works_seq hworks rfl
    rintro token _ ⟨hascii, rfl⟩
    apply wp_works_seq hworks rfl
    rintro id _ ⟨-, rfl⟩
    rw [hashSessionToken, if_pos hascii]
    apply wp_works_seq hworks rfl
    rintro _ _ rfl
    rw [wp_bind]
    refine wp_auditLog hworks fun audit => ?_
    exact .issue rfl rfl (congrArg (Table.put · _) hw₂) fun _ _ hc => hc.elim

theorem step_logout (hworks : P.StorageWorks) (rawToken : Text) (client : ClientMeta) :
    wp (P.env i) (b.logout rawToken client)
      (fun out w' => SessionStep b.wire ⟨w, .logout rawToken client, out⟩ w') w := by
  rw [Services.logout, hashSessionToken]
  split
  · apply wp_works_seq hworks rfl
    rintro _ w₁ ⟨rfl, rfl⟩
    cases hsession : w₁.store.getSessionByTokenHash (b.wire.sha256 rawToken) with
    | none =>
      refine .same rfl rfl fun _ token session hc h => ?_
      obtain rfl : rawToken = token := hc
      cases hsession.symm.trans h
    | some session =>
      change wp _ (if _ then _ else _) _ _
      split
      · rename_i hrevoked
        refine .same rfl rfl fun _ token old hc h => ?_
        obtain rfl : rawToken = token := hc
        obtain rfl : session = old := Option.some.inj (hsession.symm.trans h)
        exact Option.ne_none_iff_isSome.mpr hrevoked
      · apply wp_works_seq hworks rfl
        rintro now _ ⟨-, rfl⟩
        apply wp_works_seq hworks rfl
        rintro _ _ rfl
        have hkey : session.tokenHash = b.wire.sha256 rawToken := Table.key_of_get hsession
        refine wp_auditLog hworks fun audit => .put session rfl ?_ rfl rfl ?_ ?_
        · rw [← hkey] at hsession
          exact hsession
        · simp
        · intro userId token hc
          obtain rfl : rawToken = token := hc
          exact ⟨hkey.symm, by simp⟩
  · exact .same rfl rfl fun _ _ _ hc => hc.elim

theorem wp_getUser (hworks : P.StorageWorks) {userId : Text} {f : User → Task α}
    {Q : Post (World ω) Exc α} (hnone : ∀ x, Q (.error x) w)
    (hsome : ∀ user, w.store.getUser userId = some user → user.id = userId →
      wp (P.env i) (f user) Q w) : wp (P.env i) (Services.getUser userId >>= f) Q w := by
  rw [Services.getUser, bind_assoc]
  apply wp_works_seq hworks rfl
  rintro _ w' ⟨rfl, hw⟩
  subst hw
  cases huser : w'.store.getUser userId with
  | none => exact hnone _
  | some user => exact hsome user huser (Table.key_of_get huser)

theorem step_resetPassword (hworks : P.StorageWorks) (actor : User) (userId newPassword : Text) :
    wp (P.env i) (Services.resetPassword actor userId newPassword)
      (fun out w' => SessionStep b.wire ⟨w, .resetPassword actor userId newPassword, out⟩ w') w := by
  refine wp_getUser hworks (fun x => .same rfl rfl fun _ _ _ hc => hc.elim) fun user huser hid => ?_
  apply wp_works_seq hworks rfl
  rintro passwordHash _ rfl
  apply wp_works_seq hworks rfl
  rintro now w₁ ⟨-, rfl⟩
  apply wp_works_seq hworks rfl
  rintro _ _ rfl
  apply wp_works_seq hworks rfl
  rintro now' _ ⟨-, rfl⟩
  apply wp_works_seq hworks rfl
  rintro _ _ rfl
  refine wp_auditLog hworks fun audit => ?_
  exact .revoke (s := w₁.store.saveUser { user with passwordHash, updatedAt := now }) rfl rfl rfl
    fun target token hc => hid.trans hc

theorem step_setActive (hworks : P.StorageWorks) (actor : User) (userId : Text) (isActive : Bool) :
    wp (P.env i) (Services.setActive actor userId isActive)
      (fun out w' => SessionStep b.wire ⟨w, .setActive actor userId isActive, out⟩ w') w := by
  have hfailed : ∀ x, SessionStep b.wire ⟨w, .setActive actor userId isActive, .error x⟩ w :=
    fun x => .same rfl rfl fun _ _ _ hc => by cases isActive <;> exact hc.elim
  refine wp_getUser hworks hfailed fun user huser hid => ?_
  change wp _ (if _ then _ else if _ then _ else _) _ _
  split
  · exact hfailed _
  · split
    -- nothing to change: the user has this status already
    · rename_i hsame
      refine .same rfl rfl fun target token session hc _ => ?_
      cases isActive with
      | true => exact hc.elim
      | false =>
        have hactive : (w.store.getUser userId).any (·.isActive) = true := hc.2
        rw [huser, Option.any_some, hsame] at hactive
        cases hactive
    · apply wp_works_seq hworks rfl
      rintro now w₁ ⟨-, rfl⟩
      apply wp_works_seq hworks rfl
      rintro _ _ rfl
      -- only disabling revokes the sessions of the user
      cases isActive with
      | true =>
        rw [Services.dropSessions, if_pos rfl, wp_bind]
        change wp _ (_ >>= _) _ _
        rw [wp_bind]
        exact wp_auditLog hworks fun audit => .same rfl rfl fun _ _ _ hc => hc.elim
      | false =>
        rw [Services.dropSessions, if_neg (by simp), bind_assoc]
        apply wp_works_seq hworks rfl
        rintro now' _ ⟨-, rfl⟩
        apply wp_works_seq hworks rfl
        rintro _ _ rfl
        rw [wp_bind]
        refine wp_auditLog hworks fun audit => ?_
        exact .revoke (s := w₁.store.saveUser { user with isActive := false, updatedAt := now }) rfl
          rfl rfl fun target token hc => hid.trans hc.1

theorem wp_getCurrentAdmin (hworks : P.StorageWorks) (token : Option Text) :
    wp (P.env i) (b.getCurrentAdmin token) (fun _ w' => Seen w w') w := by
  rw [Services.getCurrentAdmin]
  refine wp_seq (P := fun _ w' => Seen w w') ?_ ?_ fun _ _ h => h
  · rw [Services.getCurrentUser]
    split
    · exact .nothing rfl
    · refine wp_seq (wp_resolveSession hworks _) (fun user w' h => ?_) fun _ _ h => h.1
      cases user <;> exact h.1
  · intro user w' h
    change wp _ (if _ then _ else _) _ _
    split <;> exact h

theorem sessionStep_of_call (hworks : P.StorageWorks) (call : UserCall) :
    wp (P.env i) (b.userCall call) (fun out w' => SessionStep b.wire ⟨w, call, out⟩ w') w := by
  cases call with
  | login login password client => exact step_login hworks login password client
  | logout rawToken client => exact step_logout hworks rawToken client
  | resetPassword actor userId newPassword => exact step_resetPassword hworks actor userId newPassword
  | setActive actor userId isActive => exact step_setActive hworks actor userId isActive
  | resolveSession rawToken =>
    exact wp_mono (wp_resolveSession hworks rawToken) fun _ _ h => h.1.step rfl fun _ _ hc => hc.elim
  | currentAdmin token =>
    exact wp_mono (wp_getCurrentAdmin hworks token) fun _ _ h => h.step rfl fun _ _ hc => hc.elim
  | create actor new =>
    exact wp_mono (wp_writes writes_createUser) fun _ _ h =>
      .same (h.same .sessions (by simp)) rfl fun _ _ _ hc => hc.elim
  | update actor userId patch =>
    exact wp_mono (wp_writes writes_updateUser) fun _ _ h =>
      .same (h.same .sessions (by simp)) rfl fun _ _ _ hc => hc.elim

variable {l : List (MadeCall ω)}

theorem sessionInv_of_run (hworks : P.StorageWorks) (hinj : Function.Injective b.wire.sha256)
    (hrun : Calls (P.env i) World.Later b.userCall w₀ l w) (hstart : w₀.store.sessions.values = [])
    (hnodup : ((issuedTokens l).map (·.2)).Nodup) : SessionInv b.wire l w := by
  refine hrun.invariant
    (I := fun l w => ((issuedTokens l).map (·.2)).Nodup → SessionInv b.wire l w) ?_ ?_ ?_ hnodup
  · rintro l w _ h ⟨now, -, rfl⟩ hl
    exact ⟨(h hl).issued, (h hl).stored, (h hl).withdrawn⟩
  · intro l w call h
    refine wp_mono (sessionStep_of_call hworks call) fun out w' hstep hl => ?_
    refine SessionInv.call hinj hl (h ?_) hstep
    rw [issuedTokens_cons, List.map_append] at hl
    exact hl.of_append_right
  · refine fun _ => ⟨fun h => ?_, fun h => ?_, fun h => h.elim⟩
    · cases h
    · rw [Store.getSessionByTokenHash, Table.get, hstart] at h
      cases h

/-- After any calls, made one after the other: a token that was logged out, or issued before its
owner's password was reset or its owner disabled, resolves to no user; and a token that resolves
was returned to its user by a login, and its session is neither revoked nor expired, its user
active. -/
theorem sessions_of_run (hworks : P.StorageWorks) (hinj : Function.Injective b.wire.sha256)
    (hrun : Calls (P.env i) World.Later b.userCall w₀ l w) (hstart : w₀.store.sessions.values = [])
    (hnodup : ((issuedTokens l).map (·.2)).Nodup) :
    (∀ userId token, Withdrawn userId token l →
      ∀ user w', ¬ Runs (P.env i) (b.resolveSession token) w (.ok (some user)) w') ∧
    ∀ token user w', Runs (P.env i) (b.resolveSession token) w (.ok (some user)) w' →
      (user.id, token) ∈ issuedTokens l ∧ Resolves b.wire w token user := by
  have hinv := sessionInv_of_run hworks hinj hrun hstart hnodup
  have hresolves : ∀ token user w', Runs (P.env i) (b.resolveSession token) w (.ok (some user)) w' →
      Resolves b.wire w token user := fun token user w' h =>
    (h.post (wp_resolveSession hworks token)).2 user rfl
  constructor
  · intro userId token hwithdrawn user w' h
    obtain ⟨session, hsession, hunrevoked, -⟩ := hresolves token user w' h
    obtain ⟨session', hsession', hrevoked⟩ := hinv.withdrawn hwithdrawn
    obtain rfl : session = session' := Option.some.inj (hsession.symm.trans hsession')
    exact hrevoked hunrevoked
  · intro token user w' h
    have hres := hresolves token user w' h
    refine ⟨?_, hres⟩
    obtain ⟨session, hsession, -, -, huser, -⟩ := hres
    obtain ⟨token', hissued, hhash⟩ := hinv.stored hsession
    rw [← Table.key_of_get huser, ← hinj hhash] at hissued
    exact hissued

end Calls

namespace Sample

/-- A user with a password, and an admin; nobody is logged in. -/
def loggedOut : World Unit where
  store := ({} : Store).saveUser
    { user with passwordHash := lit "pbkdf2_sha256$1$salt$pw" } |>.saveUser admin
  agents := ()

/-- The user logs in and is disabled and enabled again; then it logs in once more. -/
def relogin : List UserCall :=
  [.login (lit "user") (lit "pw") {}, .setActive admin (lit "u") false,
    .setActive admin (lit "u") true, .login (lit "user") (lit "pw") {}]

end Sample

theorem sessions_of_relogin :
    (∀ user w', ¬ Runs ((Sample.scenario .database).platform.env 0)
      (Sample.services.resolveSession (lit "0")) (Sample.calls Sample.loggedOut Sample.relogin).2
      (.ok (some user)) w') ∧
    (lit "u", lit "1") ∈ issuedTokens (Sample.calls Sample.loggedOut Sample.relogin).1 := by
  have hrun := sessions_of_run (P := (Sample.scenario .database).platform) (b := Sample.services)
    (fun _ _ _ h => by cases h) (fun _ _ h => h) (Sample.calls_run Sample.loggedOut Sample.relogin)
    (by decide +kernel) (by decide +kernel)
  exact ⟨hrun.1 (lit "u") (lit "0") (by decide +kernel), by decide +kernel⟩

end VpnControl.Backend
