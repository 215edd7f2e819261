import VpnControl.Backend.AuthService
import VpnControl.Backend.Playback
import VpnControl.Backend.Frames
import VpnControl.Lib.Calls

namespace VpnControl.Backend
open Strings Json Effects Prog

/-- Time goes on. -/
def World.Later {ω : Type} (w w' : World ω) : Prop := ∃ now, w.now ≤ now ∧ w' = { w with now }

/-- A call as it was made, in the world before it. -/
abbrev MadeCall (ω : Type) : Type := Called (World ω) Exc UserCall.Ret

section Rules
variable {ω : Type} {P : Platform ω} {i : Nat} {w w' : World ω} {α β : Type}
  {Q : Post (World ω) Exc β} {S : List Part}

/-- The operations of the storage and of the process: what they do does not depend on others. -/
def Op.immediate (e : Op) : Bool := e.ofStorage || e.safe

theorem failure_immediate {e : Op} (he : e.immediate = true) {x : Exc} (h : P.failure w e x w') :
    e.safe = false ∧ P.raises e x ∧ w' = w := by
  cases e with
  | request _ | join _ | result _ | begin _ | decrypt _ | bindColumn _ _ => cases he
  | _ => exact h

theorem wp_ask {e : Op} {Q : Post (World ω) Exc e.Ans} :
    wp (P.env i) (ask e) Q w ↔ (∀ r w', P.effect i w e r w' → Q (.ok r) w') ∧
      ∀ x w', P.failure w e x w' → Q (.error x) w' := by
  rw [ask, wp_bind, wp_perform]
  simp only [wp_lift]
  constructor
  · exact fun h => ⟨fun r w' hr => h (.ok r) w' hr, fun x w' hx => h (.error x) w' hx⟩
  · intro h r w' hr
    cases r with
    | ok a => exact h.1 a w' hr
    | error x => exact h.2 x w' hr

theorem wp_ask_seq {e : Op} {f : e.Ans → Task β}
    (hok : ∀ r w', P.effect i w e r w' → wp (P.env i) (f r) Q w')
    (herr : ∀ x w', P.failure w e x w' → Q (.error x) w') :
    wp (P.env i) (ask e >>= f) Q w := by
  rw [wp_bind, wp_ask]
  exact ⟨hok, herr⟩

/-- An operation that cannot raise, since the storage works. -/
theorem wp_works_seq (hworks : P.StorageWorks) {e : Op} (he : e.immediate = true) {f : e.Ans → Task β}
    (hok : ∀ r w', P.effect i w e r w' → wp (P.env i) (f r) Q w') :
    wp (P.env i) (ask e >>= f) Q w := by
  refine wp_ask_seq hok fun x w' hx => ?_
  obtain ⟨hsafe, hraises, -⟩ := failure_immediate he hx
  rw [Op.immediate, hsafe, Bool.or_false] at he
  exact absurd hraises (hworks e x he)

/-- An operation that, if it raises, leaves an invariant that holds. -/
theorem wp_keeps_seq {I : World ω → Prop} {e : Op} (he : e.immediate = true) {f : e.Ans → Task β}
    (hw : I w) (hok : ∀ r w', P.effect i w e r w' → wp (P.env i) (f r) (fun _ w' => I w') w') :
    wp (P.env i) (ask e >>= f) (fun _ w' => I w') w := by
  refine wp_ask_seq hok fun x w' hx => ?_
  obtain ⟨-, -, rfl⟩ := failure_immediate he hx
  exact hw

theorem wp_writes {p : Task α} (hp : Writes S p) :
    wp (P.env i) p (fun _ w' => Frame S w w') w := by
  refine wp_uses (P := fun e : Op => e.suspends = false ∧ ∀ part, e.writes = some part → part ∈ S)
    ?_ hp (.refl S w)
  exact fun s e r s' he hr hs => hs.trans (env_frame hr he.2)

/-- A task that writes the parts of `S` only, in front of the rest of a call. -/
theorem wp_writes_seq {p : Task α} (hp : Writes S p) {f : α → Task β}
    (hok : ∀ a w', Frame S w w' → wp (P.env i) (f a) Q w')
    (herr : ∀ x w', Frame S w w' → Q (.error x) w') : wp (P.env i) (p >>= f) Q w :=
  wp_seq (wp_writes hp) hok herr

end Rules

section Writes
variable {b : Services} {S : List Part}
open Services

theorem writes_attempts {login : Text} {ip : Option Text} {since : Time} (h : .failures ∈ S) :
    Writes S (attempts login ip since) := by
  apply writes_bind (writes_one rfl rfl h)
  intro n
  change Writes S (if _ then _ else _)
  split
  · exact writes_bind (writes_one rfl rfl h) fun _ => writes_ret _
  · exact writes_ret _

theorem writes_enforceRateLimit {login : Text} {ip : Option Text} {now : Time} (h : .failures ∈ S) :
    Writes S (b.enforceRateLimit login ip now) := by
  apply writes_bind (writes_attempts h)
  intro n
  change Writes S (if _ then _ else _)
  split
  · exact writes_fail _
  · exact writes_ret _

theorem writes_recordFailures {now : Time} (keys : List Text) (h : .failures ∈ S) :
    Writes S (recordFailures now keys) := by
  induction keys with
  | nil => exact writes_ret _
  | cons key keys ih => exact writes_bind (writes_one rfl rfl h) fun _ => ih

theorem writes_loginFailed {login : Text} {client : ClientMeta} {now : Time} (h : .failures ∈ S)
    (haudit : .audit ∈ S) : Writes S (loginFailed login client now) := by
  apply writes_bind (writes_recordFailures _ h)
  intro _
  exact writes_bind (writes_auditLog haudit) fun _ => writes_fail _

theorem writes_getUser (userId : Text) : Writes S (getUser userId) := by
  apply writes_bind (writes_read rfl rfl)
  intro user
  cases user
  · exact writes_fail _
  · exact writes_ret _

theorem writes_dropSessions {userId : Text} {isActive : Bool} (h : .sessions ∈ S) :
    Writes S (dropSessions userId isActive) := by
  rw [dropSessions]
  split
  · exact writes_ret _
  · exact writes_bind (writes_read rfl rfl) fun _ => writes_one rfl rfl h

theorem writes_updateUser {actor : User} {userId : Text} {patch : List UserPatch} :
    Writes [.users, .audit] (updateUser actor userId patch) := by
  apply writes_bind (writes_getUser userId)
  intro user
  change Writes _ (if _ then _ else _)
  split
  · exact writes_ret _
  · apply writes_bind (writes_read rfl rfl)
    intro now
    apply writes_bind (writes_one rfl rfl (by simp))
    intro _
    exact writes_bind (writes_auditLog (by simp)) fun _ => writes_ret _

theorem writes_setActive {actor : User} {userId : Text} {isActive : Bool} :
    Writes [.users, .sessions, .audit] (setActive actor userId isActive) := by
  apply writes_bind (writes_getUser userId)
  intro user
  change Writes _ (if _ then _ else if _ then _ else _)
  split
  · exact writes_fail _
  · split
    · exact writes_ret _
    · apply writes_bind (writes_read rfl rfl)
      intro now
      apply writes_bind (writes_one rfl rfl (by simp))
      intro _
      apply writes_bind (writes_dropSessions (by simp))
      intro _
      exact writes_bind (writes_auditLog (by simp)) fun _ => writes_ret _

theorem writes_loggedIn {login : Text} {user : User} {client : ClientMeta} {now : Time} :
    Writes [.sessions, .failures, .audit] (b.loggedIn login user client now) := by
  apply writes_bind (writes_one rfl rfl (by simp))
  intro _
  apply writes_bind (writes_read rfl rfl)
  intro token
  apply writes_bind (writes_read rfl rfl)
  intro id
  apply writes_bind (writes_lift _)
  intro tokenHash
  apply writes_bind (writes_one rfl rfl (by simp))
  intro _
  exact writes_bind (writes_auditLog (by simp)) fun _ => writes_ret _

theorem writes_login {login password : Text} {client : ClientMeta} :
    Writes [.sessions, .failures, .audit] (b.login login password client) := by
  apply writes_bind (writes_read rfl rfl)
  intro now
  apply writes_bind (writes_enforceRateLimit (by simp))
  intro _
  apply writes_bind (writes_read rfl rfl)
  intro user
  split
  · exact writes_loginFailed (by simp) (by simp)
  · exact writes_loggedIn

theorem writes_resolveSession {rawToken : Text} : Writes [.sessions] (b.resolveSession rawToken) := by
  apply writes_bind (writes_lift _)
  intro tokenHash
  apply writes_bind (writes_read rfl rfl)
  intro session
  apply writes_bind (writes_read rfl rfl)
  intro now
  cases session with
  | none => exact writes_ret _
  | some session =>
    change Writes _ (if _ then _ else _)
    split
    · exact writes_ret _
    · apply writes_bind (writes_read rfl rfl)
      intro user
      split
      · exact writes_ret _
      · exact writes_bind (writes_one rfl rfl (by simp)) fun _ => writes_ret _

theorem writes_logout {rawToken : Text} {client : ClientMeta} :
    Writes [.sessions, .audit] (b.logout rawToken client) := by
  apply writes_bind (writes_lift _)
  intro tokenHash
  apply writes_bind (writes_read rfl rfl)
  intro session
  cases session with
  | none => exact writes_ret _
  | some session =>
    change Writes _ (if _ then _ else _)
    split
    · exact writes_ret _
    · apply writes_bind (writes_read rfl rfl)
      intro now
      exact writes_bind (writes_one rfl rfl (by simp)) fun _ => writes_auditLog (by simp)

theorem writes_getCurrentAdmin {token : Option Text} :
    Writes [.sessions] (b.getCurrentAdmin token) := by
  apply writes_bind
  · rw [getCurrentUser]
    split
    · exact writes_fail _
    · apply writes_bind writes_resolveSession
      intro user
      cases user
      · exact writes_fail _
      · exact writes_ret _
  · intro user
    change Writes _ (if _ then _ else _)
    split
    · exact writes_fail _
    · exact writes_ret _

end Writes
end VpnControl.Backend
