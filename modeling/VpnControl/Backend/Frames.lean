import VpnControl.Backend.DeviceService

namespace VpnControl.Backend
open Strings Json Effects Prog

/-- The parts of a world that an operation can write. -/
inductive Part where
  | users
  | sessions
  | nodes
  | devices
  | issues
  | jobs
  | events
  | audit
  | failures
  | secrets
  | lock
  | tasks
  | agents
  deriving DecidableEq

/-- Two worlds agree on a part. -/
def Part.Same {ω : Type} (w w' : World ω) : Part → Prop
  | users => w'.store.users = w.store.users
  | sessions => w'.store.sessions = w.store.sessions
  | nodes => w'.store.serverNodes = w.store.serverNodes
  | devices => w'.store.devices = w.store.devices
  | issues => w'.store.issues = w.store.issues
  | jobs => w'.store.setupJobs = w.store.setupJobs
  | events => w'.store.setupEvents = w.store.setupEvents
  | audit => w'.store.audit = w.store.audit
  | failures => w'.store.loginFailures = w.store.loginFailures
  | secrets => w'.ephemeralSshSecrets = w.ephemeralSshSecrets
  | lock => w'.lock = w.lock
  | tasks => w'.tasks = w.tasks
  | agents => w'.agents = w.agents

/-- The part that an operation writes, if any. -/
def Op.writes : Op → Option Part
  | saveUser _ => some .users
  | revokeSessionsForUser .. | saveSession _ => some .sessions
  | recordLoginFailure .. | countLoginFailures .. | clearLoginFailures _ => some .failures
  | saveServerNode _ | assignNode _ => some .nodes
  | saveDevice _ => some .devices
  | saveIssue _ | dropIssue _ => some .issues
  | saveSetupJob _ | claimNextSetupJob .. | transitionSetupJob .. => some .jobs
  | addSetupEvent _ => some .events
  | addAuditEntry _ => some .audit
  | putSecret .. | popSecret _ => some .secrets
  | acquire | release => some .lock
  | request _ => some .agents
  | ensureFuture _ | begin _ | settle .. | cancelTask _ => some .tasks
  | _ => none

section Frame
variable {ω : Type} {P : Platform ω} {i : Nat} {w w' : World ω}

theorem Part.Same.refl (w : World ω) (p : Part) : p.Same w w := by
  cases p <;> rfl

theorem Part.Same.trans {w'' : World ω} {p : Part} (h : p.Same w w') (h' : p.Same w' w'') :
    p.Same w w'' := by
  cases p <;> exact Eq.trans h' h

theorem transitionSetupJob_frame (s : Store) (jobId : Text) (expected : List SetupJobStatus)
    (values : List JobValue) : ∃ jobs,
    (s.transitionSetupJob jobId expected values).2 = { s with setupJobs := jobs } := by
  rw [Store.transitionSetupJob]
  split
  · exact ⟨_, rfl⟩
  · split
    · exact ⟨_, rfl⟩
    · exact ⟨_, rfl⟩

theorem assignNode_frame (s : Store) (node : ServerNode) : ∃ nodes,
    P.assignNode s node = { s with serverNodes := nodes } := by
  rw [Platform.assignNode]
  split
  · exact ⟨_, rfl⟩
  · exact ⟨_, rfl⟩

/-- An operation changes nothing but the part it writes; the clock only ticks by itself. -/
theorem effect_frame {e : Op} {r : e.Ans} (h : P.effect i w e r w') :
    w'.now = w.now ∧ ∀ p, e.writes ≠ some p → p.Same w w' := by
  cases e with
  | saveUser _ | saveServerNode _ | saveDevice _ | saveIssue _ | dropIssue _ | saveSetupJob _
  | addSetupEvent _ | addAuditEntry _ | putSecret | popSecret _ | release | settle
  | cancelTask _ | revokeSessionsForUser | saveSession _ | recordLoginFailure
  | clearLoginFailures _ =>
    subst h
    exact ⟨rfl, fun p hp => by (cases p <;> first | rfl | exact absurd rfl hp)⟩
  | getUser _ | getUserByLogin _ | getSessionByTokenHash _ | getServerNode _ | listServerNodes
  | bindColumn | getDevice _ | countDevicesTowardLimit _ | countActiveDevicesForServer _
  | getIssue _ | getSetupJob _ | listSetupJobs | listSetupEvents _
  | now | uuid | encrypt _ | generateSessionToken
  | decrypt _ | nodeObject _ | getSecret _ | wait _ | join _ | result _ =>
    obtain ⟨-, rfl⟩ := h
    exact ⟨rfl, fun p _ => .refl w' p⟩
  | utcNow | generateAgentKeyId | generateAgentSecret | hashPassword _ | runnerStep | sleep =>
    subst h
    exact ⟨rfl, fun p _ => .refl w' p⟩
  | claimNextSetupJob at' currentStep =>
    obtain ⟨next, -, hnext⟩ := h
    cases next with
    | none =>
      obtain ⟨-, rfl⟩ := hnext
      exact ⟨rfl, fun p _ => .refl w' p⟩
    | some job =>
      obtain ⟨-, rfl⟩ := hnext
      exact ⟨rfl, fun p hp => by (cases p <;> first | rfl | exact absurd rfl hp)⟩
  | transitionSetupJob jobId expected values =>
    obtain ⟨-, rfl⟩ := h
    obtain ⟨jobs, hjobs⟩ := transitionSetupJob_frame w.store jobId expected values
    refine ⟨rfl, fun p hp => ?_⟩
    (cases p <;> first | exact absurd rfl hp | simp only [Part.Same, hjobs])
  | assignNode node =>
    subst h
    obtain ⟨nodes, hnodes⟩ := assignNode_frame (P := P) w.store node
    refine ⟨rfl, fun p hp => ?_⟩
    (cases p <;> first | exact absurd rfl hp | simp only [Part.Same, hnodes])
  | acquire | ensureFuture _ | countLoginFailures =>
    obtain ⟨-, rfl⟩ := h
    exact ⟨rfl, fun p hp => by (cases p <;> first | rfl | exact absurd rfl hp)⟩
  | request _ =>
    obtain ⟨-, -, rfl⟩ := h
    exact ⟨rfl, fun p hp => by (cases p <;> first | rfl | exact absurd rfl hp)⟩
  | begin t =>
    obtain ⟨-, -, -, -, rfl⟩ := h
    exact ⟨rfl, fun p hp => by (cases p <;> first | rfl | exact absurd rfl hp)⟩
  | pending => exact h.elim

theorem failure_frame {e : Op} {x : Exc} (h : P.failure w e x w') :
    w'.now = w.now ∧ ∀ p, e.writes ≠ some p → p.Same w w' := by
  cases e with
  | request =>
    obtain ⟨-, -, rfl⟩ := h
    exact ⟨rfl, fun p hp => by (cases p <;> first | rfl | exact absurd rfl hp)⟩
  | join | result =>
    obtain ⟨rfl, -⟩ := h
    exact ⟨rfl, fun p _ => .refl w' p⟩
  | begin t =>
    obtain ⟨-, -, -, -, -, rfl⟩ := h
    exact ⟨rfl, fun p hp => by (cases p <;> first | rfl | exact absurd rfl hp)⟩
  | decrypt | bindColumn =>
    obtain ⟨-, -, rfl⟩ := h
    exact ⟨rfl, fun p _ => .refl w' p⟩
  | _ =>
    obtain ⟨-, -, rfl⟩ := h
    exact ⟨rfl, fun p _ => .refl w' p⟩

/-- The worlds differ in the parts of `S` only. -/
structure Frame (S : List Part) (w w' : World ω) : Prop where
  now : w'.now = w.now
  same : ∀ p, p ∉ S → p.Same w w'

theorem Frame.refl (S : List Part) (w : World ω) : Frame S w w := ⟨rfl, fun p _ => .refl w p⟩

theorem Frame.trans {S : List Part} {w'' : World ω} (h : Frame S w w') (h' : Frame S w' w'') :
    Frame S w w'' :=
  ⟨h'.now.trans h.now, fun p hp => (h.same p hp).trans (h'.same p hp)⟩

theorem Frame.eq (h : Frame [] w w') : w' = w := by
  obtain ⟨hnow, hsame⟩ := h
  have hstore : w'.store = w.store := by
    have h : ∀ s s' : Store, s'.users = s.users → s'.sessions = s.sessions →
        s'.serverNodes = s.serverNodes → s'.devices = s.devices → s'.issues = s.issues →
        s'.setupJobs = s.setupJobs → s'.setupEvents = s.setupEvents → s'.audit = s.audit →
        s'.loginFailures = s.loginFailures → s' = s := by
      rintro ⟨⟩ ⟨⟩ ⟨⟩ ⟨⟩ ⟨⟩ ⟨⟩ ⟨⟩ ⟨⟩ ⟨⟩ ⟨⟩ ⟨⟩
      rfl
    exact h _ _ (hsame .users (by simp)) (hsame .sessions (by simp)) (hsame .nodes (by simp))
      (hsame .devices (by simp)) (hsame .issues (by simp)) (hsame .jobs (by simp))
      (hsame .events (by simp)) (hsame .audit (by simp)) (hsame .failures (by simp))
  have hsecrets : w'.ephemeralSshSecrets = w.ephemeralSshSecrets := hsame .secrets (by simp)
  have hlock : w'.lock = w.lock := hsame .lock (by simp)
  have htasks : w'.tasks = w.tasks := hsame .tasks (by simp)
  have hagents : w'.agents = w.agents := hsame .agents (by simp)
  cases w
  cases w'
  simp_all

theorem env_frame {e : Op} {r : e.Res} (h : P.env i w e r w') {S : List Part}
    (he : ∀ p, e.writes = some p → p ∈ S) : Frame S w w' := by
  cases r with
  | ok a =>
    obtain ⟨hnow, hsame⟩ := effect_frame h
    exact ⟨hnow, fun p hp => hsame p fun hw => hp (he p hw)⟩
  | error x =>
    obtain ⟨hnow, hsame⟩ := failure_frame h
    exact ⟨hnow, fun p hp => hsame p fun hw => hp (he p hw)⟩

end Frame

/-- A task that runs to its end without an await and writes the parts of `S` only. -/
def Writes {α : Type} (S : List Part) (p : Task α) : Prop :=
  p.Uses fun e => e.suspends = false ∧ ∀ part, e.writes = some part → part ∈ S

section Writes
variable {ω : Type} {P : Platform ω} {c : Contract (World ω)} {i : Nat} {w₀ w : World ω}
  {α β : Type} {S : List Part}

theorem turn_writes {p : Task α} (hp : Writes S p) :
    turn P.kernel c i p (fun _ w₁ w' => w₁ = w₀ ∧ Frame S w w') w₀ w := by
  apply turn_uses (P := fun e : Op => e.suspends = false ∧ ∀ part, e.writes = some part → part ∈ S)
    (I := Frame S w)
  · exact fun e he => he.1
  · exact fun s e r s' he hr hs => hs.trans (env_frame hr he.2)
  · exact hp
  · exact .refl S w

/-- A task without awaits in front of the rest of a turn. -/
theorem turn_writes_seq {p : Task α} (hp : Writes S p) {f : α → Task β}
    {Q : TurnPost (World ω) Exc β} (hok : ∀ a w', Frame S w w' → turn P.kernel c i (f a) Q w₀ w')
    (herr : ∀ x w', Frame S w w' → Q (.error x) w₀ w') : turn P.kernel c i (p >>= f) Q w₀ w := by
  apply turn_seq (turn_writes hp)
  · rintro a _ w' ⟨rfl, h⟩
    exact hok a w' h
  · rintro x _ w' ⟨rfl, h⟩
    exact herr x w' h

theorem writes_bind {p : Task α} {f : α → Task β} (hp : Writes S p) (hf : ∀ a, Writes S (f a)) :
    Writes S (p >>= f) := uses_bind hp hf

theorem writes_ret (a : α) : Writes S (ret a : Task α) := trivial

theorem writes_fail (x : Exc) : Writes S (fail x : Task α) := trivial

theorem writes_lift (r : Except Exc α) : Writes S (lift r : Task α) := uses_lift r

theorem writes_ask {e : Op} (he : e.suspends = false)
    (hw : ∀ part, e.writes = some part → part ∈ S) : Writes S (ask e) :=
  uses_bind (uses_perform ⟨he, hw⟩) fun r => writes_lift r

/-- An operation that only reads. -/
theorem writes_read {e : Op} (he : e.suspends = false) (hw : e.writes = none) :
    Writes S (ask e) :=
  writes_ask he fun part h => by simp [hw] at h

theorem writes_one {e : Op} {part : Part} (he : e.suspends = false) (hw : e.writes = some part)
    (hpart : part ∈ S) : Writes S (ask e) :=
  writes_ask he fun q h => by
    rw [hw, Option.some.injEq] at h
    exact h ▸ hpart

theorem uses_of_writes {p : Task α} {part : Part} (hp : Writes S p) (hS : part ∉ S) :
    p.Uses fun e => e.writes ≠ some part :=
  Uses.mono hp fun _ he hw => hS (he.2 part hw)

theorem writes_auditLog {r : AuditRecord} (h : .audit ∈ S) : Writes S (auditLog r) :=
  writes_bind (writes_read rfl rfl) fun _ => writes_bind (writes_read rfl rfl) fun _ =>
    writes_one rfl rfl h

namespace Services

theorem writes_getServer (nodeId : Text) : Writes S (getServer nodeId) := by
  apply writes_bind (writes_read rfl rfl)
  rintro (_ | node)
  · exact writes_fail _
  · exact writes_ret _

theorem writes_leastLoaded (best : Option (Nat × ServerNode)) (nodes : List ServerNode) :
    Writes S (leastLoaded best nodes) := by
  induction nodes generalizing best with
  | nil => exact writes_ret _
  | cons node nodes ih =>
    apply writes_bind (writes_read rfl rfl)
    intro count
    cases best with
    | none => exact ih _
    | some chosen => exact ih _

theorem writes_pickForNewDevice : Writes S pickForNewDevice :=
  writes_bind (writes_bind (writes_read rfl rfl) fun _ => writes_ret _) fun _ =>
    writes_leastLoaded _ _

theorem writes_ensureSelectable (node : ServerNode) : Writes S (ensureSelectable node) := by
  unfold ensureSelectable
  split
  · exact writes_fail _
  · exact writes_ret _

theorem writes_chooseNode (serverNodeId : Option Text) : Writes S (chooseNode serverNodeId) := by
  cases serverNodeId with
  | some nodeId =>
    exact writes_bind (writes_getServer nodeId) fun node =>
      writes_bind (writes_ensureSelectable node) fun _ => writes_ret _
  | none =>
    apply writes_bind writes_pickForNewDevice
    rintro (_ | node)
    · exact writes_fail _
    · exact writes_ret _

theorem writes_enforceLimit (user : User) : Writes S (enforceLimit user) := by
  unfold enforceLimit
  split
  · exact writes_ret _
  · split
    · exact writes_ret _
    · apply writes_bind (writes_read rfl rfl)
      intro used
      split
      · exact writes_fail _
      · exact writes_ret _

theorem writes_getForActor (actor : User) (deviceId : Text) :
    Writes S (getForActor actor deviceId) := by
  apply writes_bind (writes_read rfl rfl)
  rintro (_ | device)
  · exact writes_fail _
  · change Writes S (if _ then _ else _)
    split
    · exact writes_fail _
    · exact writes_ret _

theorem writes_encryptValue (value : WireValue) : Writes S (encryptValue value) := by
  unfold encryptValue
  split
  · exact writes_read rfl rfl
  · exact writes_fail _
  · exact writes_fail _

theorem writes_consume (issue : DeviceConfigIssue) (now : Time) (h : .issues ∈ S) :
    Writes S (consume issue now) := by
  unfold consume
  split
  · exact writes_bind (writes_one rfl rfl h) fun _ => writes_ret _
  · exact writes_ret _

theorem writes_decryptOptional (value : Option Text) : Writes S (decryptOptional value) := by
  unfold decryptOptional
  split
  · exact writes_bind (writes_read rfl rfl) fun _ => writes_ret _
  · exact writes_ret _

theorem writes_issueResultOf {actor : User} {deviceId : Text} :
    Writes [.issues] (issueResultOf actor deviceId) := by
  apply writes_bind (writes_getForActor actor deviceId)
  intro device
  apply writes_bind (writes_read rfl rfl)
  rintro (_ | issue)
  · exact writes_fail _
  change Writes _ (if _ then _ else _)
  split
  · exact writes_fail _
  apply writes_bind (writes_read rfl rfl)
  intro now
  change Writes _ (if _ then _ else _)
  split
  · exact writes_bind (writes_one rfl rfl (by simp)) fun _ => writes_fail _
  · exact writes_bind (writes_consume issue now (by simp)) fun issue =>
      writes_bind (writes_read rfl rfl) fun config =>
      writes_bind (writes_decryptOptional issue.vpnUrlEncrypted) fun vpnUrl => writes_ret _

theorem writes_signedHeaders (b : Services) (node : ServerNode) (method path body : Text) :
    Writes S (b.signedHeaders node method path body) := by
  unfold signedHeaders
  split
  · exact writes_fail _
  · exact writes_bind (writes_read rfl rfl) fun _ => writes_bind (writes_read rfl rfl) fun _ =>
      writes_ret _

theorem writes_headers (b : Services) (node : ServerNode) (method path body : Text)
    (hasBody signed : Bool) : Writes S (b.headers node method path body hasBody signed) := by
  cases signed with
  | true => exact writes_bind (writes_signedHeaders b node method path body) fun _ => writes_ret _
  | false => exact writes_ret _

end Services

/-- A task that writes the parts of `S` only, between its awaits. -/
def Within {α : Type} (S : List Part) (p : Task α) : Prop :=
  p.Uses fun e => ∀ part, e.writes = some part → part ∈ S

theorem Writes.within {S' : List Part} {p : Task α} (hp : Writes S p) (h : ∀ q ∈ S, q ∈ S') :
    Within S' p := Uses.mono hp fun _ he q hq => h q (he.2 q hq)

theorem uses_of_within {p : Task α} {part : Part} (hp : Within S p) (hS : part ∉ S) :
    p.Uses fun e => e.writes ≠ some part :=
  Uses.mono hp fun _ he hw => hS (he part hw)

theorem Within.mono {S' : List Part} {p : Task α} (hp : Within S p) (h : ∀ q ∈ S, q ∈ S') :
    Within S' p := Uses.mono hp fun _ he q hq => h q (he q hq)

theorem within_bind {p : Task α} {f : α → Task β} (hp : Within S p) (hf : ∀ a, Within S (f a)) :
    Within S (p >>= f) := uses_bind hp hf

theorem within_lift (r : Except Exc α) : Within S (lift r : Task α) := uses_lift r

theorem within_attempt {p : Task α} (hp : Within S p) : Within S p.attempt := uses_attempt hp

theorem within_ask {e : Op} (he : ∀ part, e.writes = some part → part ∈ S) : Within S (ask e) :=
  uses_bind (uses_perform he) fun r => within_lift r

theorem within_withStorageLock {p : Task α} (hp : Within S p) (h : .lock ∈ S) :
    Within S (withStorageLock p) :=
  within_bind (within_ask fun q hq => by cases hq; exact h) fun _ =>
    within_bind (within_attempt hp) fun _ =>
    within_bind (within_ask fun q hq => by cases hq; exact h) fun _ => within_lift _

namespace Services
variable {b : Services} {node : ServerNode}

theorem within_request {method path : Text} {bodyObj : Option Doc} {signed : Bool} :
    Within [.agents] (b.request node method path bodyObj signed) := by
  apply within_bind ((writes_headers (S := []) ..).within (by simp))
  intro headers
  apply within_bind (within_attempt (within_ask (by simp [Op.writes])))
  rintro (x | response)
  · cases x <;> trivial
  · trivial

theorem within_issuePeer {name : Text} {dns : List Text} {endpointHost : Option Text}
    {metadata : List (Text × Doc)} :
    Within [.agents] (b.issuePeer node name dns endpointHost metadata) :=
  within_bind within_request fun _ => within_bind (within_lift _) fun _ => within_lift _

theorem within_revokePeer {publicKey : Text} : Within [.agents] (b.revokePeer node publicKey) :=
  within_bind within_request fun _ => within_lift _

theorem writes_settleRevoke (r : Except Exc Doc) : Writes S (settleRevoke r) := by
  rcases r with (e | _ | _ | _ | _) | _
  · change Writes S (if _ then _ else _)
    split
    · exact writes_fail _
    · exact writes_ret _
  all_goals trivial

theorem within_revokeOnNode {node : Option ServerNode} {publicKey : Option Text} :
    Within [.agents] (b.revokeOnNode node publicKey) := by
  cases node with
  | none => trivial
  | some node =>
    change Within _ (if _ then _ else _)
    split
    · trivial
    · exact within_bind (within_attempt within_revokePeer) fun r =>
        (writes_settleRevoke r).within fun _ h => h

end Services
end Writes

section Lock
variable {ω : Type} {P : Platform ω} {c : Contract (World ω)} {i : Nat} {w₀ w : World ω} {α : Type}
  {Q : TurnPost (World ω) Exc α}

/-- A section under the storage lock. It begins in a state in which the lock was free; `R` is
what its body ends in, before the lock is given back. -/
theorem turn_withStorageLock {body : Task α} {R : TurnPost (World ω) Exc α}
    (hleaves : c.Leaves i w₀ w)
    (hrefused : ∀ w₁ x, c.inv w₁ → c.rely i w w₁ → P.raises .acquire x → Q (.error x) w₁ w₁)
    (hbody : ∀ w₁, c.inv w₁ → c.rely i w w₁ → w₁.lock = none →
      turn P.kernel c i body R w₁ { w₁ with lock := some i })
    (hrelease : ∀ r w₁ w', R r w₁ w' → Q r w₁ { w' with lock := none }) :
    turn P.kernel c i (withStorageLock body) Q w₀ w := by
  rw [withStorageLock, turn_bind, turn_ask_wait rfl]
  refine ⟨hleaves, fun w₁ hinv hrely => ⟨?_, ?_⟩⟩
  · rintro r _ ⟨hfree, rfl⟩
    apply turn_seq_attempt (hbody w₁ hinv hrely hfree)
    intro r w₂ w' hr
    rw [turn_bind, turn_ask_now rfl]
    refine ⟨?_, ?_⟩
    · rintro _ _ rfl
      rw [turn_lift]
      exact hrelease r w₂ w' hr
    · rintro x _ ⟨⟨⟩, -⟩
  · rintro x w' ⟨-, hx, rfl⟩
    exact hrefused w' x hinv hrely hx

end Lock
section Calls
variable {ω : Type} {P : Platform ω} {c : Contract (World ω)} {i : Nat} {w₀ w : World ω}
  {b : Services} {node : ServerNode}

/-- The clock is read. -/
theorem turn_now_seq {β : Type} {f : Time → Task β} {Q : TurnPost (World ω) Exc β}
    (hf : turn P.kernel c i (f w.now) Q w₀ w) : turn P.kernel c i (ask .now >>= f) Q w₀ w := by
  apply turn_ask_seq rfl
  · rintro _ _ ⟨rfl, rfl⟩
    exact hf
  · rintro x _ ⟨⟨⟩, -⟩

theorem turn_getForActor {actor : User} {deviceId : Text} {β : Type} {f : Device → Task β}
    {Q : TurnPost (World ω) Exc β} (herr : ∀ x, Q (.error x) w₀ w)
    (hok : ∀ device, w.store.getDevice deviceId = some device → device.id = deviceId →
      turn P.kernel c i (f device) Q w₀ w) :
    turn P.kernel c i (Services.getForActor actor deviceId >>= f) Q w₀ w := by
  unfold Services.getForActor
  rw [bind_assoc]
  apply turn_ask_seq rfl
  · rintro _ w' ⟨rfl, hw⟩
    subst hw
    cases hdevice : w'.store.getDevice deviceId with
    | none => exact herr _
    | some device =>
      change turn _ _ _ ((if _ then _ else _) >>= f) _ _ _
      split
      · exact herr _
      · exact hok device hdevice (Table.key_of_get hdevice)
  · rintro x _ ⟨-, -, rfl⟩
    exact herr x

/-- Why a signed request is not even sent. -/
inductive Unsigned (P : Platform ω) (node : ServerNode) : Exc → Prop
  | secretRequired (h : optional node.agentKeyId = false ∨ optional node.agentSecretEncrypted = false) :
    Unsigned P node (.app (Services.secretRequired node))
  | decrypt (h : P.box.decrypt (node.agentSecretEncrypted.getD []) = none) :
    Unsigned P node (.other (lit "ValueError"))

/-- What the client makes of the end of a request. -/
def delivered (node : ServerNode) : Except Exc AgentResponse → Except Exc AgentResponse
  | .error (.transport reason) => .error (.app (Services.unavailable node reason))
  | r => r

/-- What `issue_peer` makes of the end of its request. -/
def Services.issueOutcome (b : Services) (node : ServerNode) (r : Except Exc AgentResponse) :
    Except Exc AgentIssueResult :=
  match delivered node r with
  | .error x => .error x
  | .ok response =>
    match b.expect response 201 node with
    | .error x => .error x
    | .ok payload => Services.issueResult payload response.surrogates

/-- What `revoke_peer` makes of the end of its request. -/
def Services.revokeOutcome (b : Services) (node : ServerNode) (r : Except Exc AgentResponse) :
    Except Exc Doc :=
  match delivered node r with
  | .error x => .error x
  | .ok response => b.expect response 200 node

theorem turn_signedHeaders {method path body : Text}
    {Q : TurnPost (World ω) Exc (List (Text × Text))}
    (hunsigned : ∀ x, Unsigned P node x → Q (.error x) w₀ w) (hsigned : ∀ headers, Q (.ok headers) w₀ w) :
    turn P.kernel c i (b.signedHeaders node method path body) Q w₀ w := by
  unfold Services.signedHeaders
  split
  · rename_i h
    simp only [Bool.or_eq_true, Bool.not_eq_true'] at h
    exact hunsigned _ (.secretRequired h)
  · apply turn_ask_seq rfl
    · rintro secret _ ⟨-, rfl⟩
      apply turn_ask_seq rfl
      · rintro timestamp _ rfl
        exact hsigned _
      · rintro x _ ⟨⟨⟩, -⟩
    · rintro x _ ⟨h, rfl, rfl⟩
      exact hunsigned _ (.decrypt h)

/-- A signed call of the agent: it is not sent, or the agents answer it after one await. -/
theorem turn_request {method path : Text} {bodyObj : Option Doc}
    {Q : TurnPost (World ω) Exc AgentResponse} (hleaves : c.Leaves i w₀ w)
    (hunsigned : ∀ x, Unsigned P node x → Q (.error x) w₀ w)
    (hanswer : ∀ w₁ headers r agents, c.inv w₁ → c.rely i w w₁ →
      P.exchange w₁.agents { baseUrl := node.agentBaseUrl, method, path, headers
                             body := (bodyObj.map b.wire.dumps).getD [] } r agents →
      Q (delivered node r) w₁ { w₁ with agents }) :
    turn P.kernel c i (b.request node method path bodyObj true) Q w₀ w := by
  unfold Services.request
  rw [turn_bind, Services.headers, if_pos rfl, turn_bind]
  apply turn_signedHeaders
  · exact hunsigned
  · intro headers
    change turn _ _ _ (_ >>= _) _ _ _
    rw [turn_bind, turn_attempt, turn_ask_wait rfl]
    refine ⟨hleaves, fun w₁ hinv hrely => ⟨?_, ?_⟩⟩
    · rintro response _ ⟨agents, h, rfl⟩
      exact hanswer w₁ _ _ agents hinv hrely h
    · rintro x _ ⟨agents, h, rfl⟩
      cases x <;> exact hanswer w₁ _ _ agents hinv hrely h

/-- The body of the request for a peer. -/
def issueBody (name : Text) (dns : List Text) (endpointHost : Option Text)
    (metadata : List (Text × Doc)) : Doc :=
  .obj ([(lit "name", .str name)] ++
    (if dns ≠ [] then [(lit "dns", .arr (dns.map .str))] else []) ++
    (if optional endpointHost then [(lit "endpoint_host", .str (endpointHost.getD []))] else []) ++
    (if metadata.isEmpty then [] else [(lit "metadata", .obj metadata)]))

theorem turn_issuePeer {name : Text} {dns : List Text} {endpointHost : Option Text}
    {metadata : List (Text × Doc)} {Q : TurnPost (World ω) Exc AgentIssueResult}
    (hleaves : c.Leaves i w₀ w) (hunsigned : ∀ x, Unsigned P node x → Q (.error x) w₀ w)
    (hanswer : ∀ w₁ headers r agents, c.inv w₁ → c.rely i w w₁ →
      P.exchange w₁.agents { baseUrl := node.agentBaseUrl, method := lit "POST", path := lit "/peers"
                             headers, body := b.wire.dumps (issueBody name dns endpointHost metadata) }
        r agents →
      Q (b.issueOutcome node r) w₁ { w₁ with agents }) :
    turn P.kernel c i (b.issuePeer node name dns endpointHost metadata) Q w₀ w := by
  unfold Services.issuePeer
  rw [turn_bind]
  apply turn_request hleaves
  · exact hunsigned
  · intro w₁ headers r agents hinv hrely h
    have hQ := hanswer w₁ headers r agents hinv hrely h
    unfold Services.issueOutcome at hQ
    cases hr : delivered node r with
    | error x => simpa only [hr] using hQ
    | ok response =>
      simp only [hr] at hQ
      simp only [turn_bind, turn_lift]
      cases hpayload : b.expect response 201 node with
      | error x => simpa only [hpayload] using hQ
      | ok payload => simpa only [hpayload] using hQ

theorem turn_revokePeer {publicKey : Text} {Q : TurnPost (World ω) Exc Doc}
    (hleaves : c.Leaves i w₀ w) (hunsigned : ∀ x, Unsigned P node x → Q (.error x) w₀ w)
    (hanswer : ∀ w₁ headers r agents, c.inv w₁ → c.rely i w w₁ →
      P.exchange w₁.agents { baseUrl := node.agentBaseUrl, method := lit "DELETE"
                             path := peerPath publicKey, headers, body := [] } r agents →
      Q (b.revokeOutcome node r) w₁ { w₁ with agents }) :
    turn P.kernel c i (b.revokePeer node publicKey) Q w₀ w := by
  unfold Services.revokePeer
  rw [turn_bind]
  apply turn_request hleaves
  · exact hunsigned
  · intro w₁ headers r agents hinv hrely h
    have hQ := hanswer w₁ headers r agents hinv hrely h
    unfold Services.revokeOutcome at hQ
    cases hr : delivered node r with
    | error x => simpa only [hr] using hQ
    | ok response =>
      simp only [hr] at hQ
      simp only [turn_lift]
      exact hQ

end Calls
end VpnControl.Backend
