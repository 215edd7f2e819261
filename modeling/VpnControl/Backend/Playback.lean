import VpnControl.Backend.DeviceService

namespace VpnControl.Backend
open Strings Json Effects Prog

/-- A platform that can be run: the agents answer by a function, a database takes texts and nulls,
encryption puts a letter in front of a text, and an operation raises if a schedule says so and
`raises` allows it. -/
structure Scenario (ω : Type) where
  kind : StorageKind
  agent : Option Exc → ω → Request → Except Exc AgentResponse × ω
  raises : Op → Exc → Bool

namespace Scenario
variable {ω : Type} (S : Scenario ω)

def sealText (text : Text) : Text := 'e' :: text

def openText : Text → Option Text
  | 'e' :: text => some text
  | _ => none

def box : SecretBox := ⟨fun text sealed => sealed = sealText text, openText⟩

def isText (value : WireValue) : Bool :=
  match value with
  | .text _ | ⟨.null, _⟩ => true
  | _ => false

def platform : Platform ω where
  kind := S.kind
  binds _ value := isText value = true
  box := box
  exchange agents request r agents' := ∃ fault, S.agent fault agents request = (r, agents')
  raises e x := S.raises e x = true

/-- All ids of a storage. -/
def ids (s : Store) : List Text :=
  s.users.values.map (·.id) ++ s.serverNodes.values.map (·.id) ++ s.devices.values.map (·.id) ++
    s.issues.values.map (·.id) ++ s.issues.values.map (·.deviceId) ++ s.setupJobs.values.map (·.id)

/-- An id longer than all others. -/
def freshId (s : Store) : Text := 'i' :: (ids s).flatten

theorem freshId_notMem (s : Store) : freshId s ∉ ids s := by
  intro h
  have hle := (List.sublist_flatten_of_mem h).length_le
  rw [freshId, List.length_cons] at hle
  omega

theorem fresh_of_notMem {s : Store} {id : Text} (h : id ∉ ids s) : s.Fresh id := by
  simp only [ids, List.mem_append, List.mem_map, not_or, not_exists, not_and] at h
  obtain ⟨⟨⟨⟨⟨husers, hnodes⟩, hdevices⟩, hissues⟩, hissueDevices⟩, hjobs⟩ := h
  constructor
  · exact List.find?_eq_none.mpr fun user hmem => by simpa using husers user hmem
  · exact List.find?_eq_none.mpr fun node hmem => by simpa using hnodes node hmem
  · exact List.find?_eq_none.mpr fun device hmem => by simpa using hdevices device hmem
  · exact fun issue hmem => hissues issue hmem
  · exact List.find?_eq_none.mpr fun issue hmem => by simpa using hissueDevices issue hmem
  · exact List.find?_eq_none.mpr fun job hmem => by simpa using hjobs job hmem

theorem fresh_freshId (s : Store) : s.Fresh (freshId s) := fresh_of_notMem (freshId_notMem s)

/-- The answer to an operation that does not raise. -/
def perform (i : Nat) (w : World ω) : (e : Op) → Option (e.Ans × World ω)
  | .getUser userId => some (w.store.getUser userId, w)
  | .saveUser user => some ((), { w with store := w.store.saveUser user })
  | .revokeSessionsForUser userId at' =>
    some ((), { w with store := w.store.revokeSessionsForUser userId at' })
  | .getUserByLogin login => some (w.store.getUserByLogin login, w)
  | .saveSession session => some ((), { w with store := w.store.saveSession session })
  | .getSessionByTokenHash tokenHash => some (w.store.getSessionByTokenHash tokenHash, w)
  | .recordLoginFailure key at' =>
    some ((), { w with store := w.store.recordLoginFailure key at' })
  | .countLoginFailures key since => some (w.store.countLoginFailures key since,
      { w with store := S.platform.pruneLoginFailures w.store key since })
  | .clearLoginFailures key => some ((), { w with store := w.store.clearLoginFailures key })
  | .getServerNode nodeId => some (w.store.getServerNode nodeId, w)
  | .listServerNodes => some (w.store.listServerNodes, w)
  | .saveServerNode node => some ((), { w with store := w.store.saveServerNode node })
  | .getDevice deviceId => some (w.store.getDevice deviceId, w)
  | .saveDevice device => some ((), { w with store := w.store.saveDevice device })
  | .bindColumn _ value => if S.kind = .memory ∨ isText value = true then some ((), w) else none
  | .countDevicesTowardLimit userId => some (w.store.countDevicesTowardLimit userId, w)
  | .countActiveDevicesForServer nodeId => some (w.store.countActiveDevicesForServer nodeId, w)
  | .getIssue deviceId => some (w.store.getIssue deviceId, w)
  | .saveIssue issue => some ((), { w with store := w.store.saveIssue issue })
  | .dropIssue deviceId => some ((), { w with store := w.store.dropIssue deviceId })
  | .getSetupJob jobId => some (w.store.getSetupJob jobId, w)
  | .listSetupJobs => some (w.store.listSetupJobs, w)
  | .listSetupEvents jobId => some (S.platform.listSetupEvents w.store jobId, w)
  | .saveSetupJob job => some ((), { w with store := w.store.saveSetupJob job })
  | .claimNextSetupJob at' currentStep =>
    match w.store.nextQueuedSetupJob with
    | none => some (none, w)
    | some job =>
      some (some (Store.claim job at' currentStep),
        { w with store := w.store.saveSetupJob (Store.claim job at' currentStep) })
  | .transitionSetupJob jobId expectedStatuses values =>
    some ((w.store.transitionSetupJob jobId expectedStatuses values).1,
      { w with store := (w.store.transitionSetupJob jobId expectedStatuses values).2 })
  | .addSetupEvent event => some ((), { w with store := w.store.addSetupEvent event })
  | .addAuditEntry entry => some ((), { w with store := w.store.addAuditEntry entry })
  | .now => some (w.now, w)
  | .utcNow => some (Nat.toDigits 10 w.now, w)
  | .uuid => some (freshId w.store, w)
  | .encrypt value => some (sealText value, w)
  | .decrypt value => (openText value).map (·, w)
  | .generateAgentKeyId => some (lit "key", w)
  | .generateAgentSecret => some (lit "agent secret", w)
  | .hashPassword password => some (sealText password, w)
  | .generateSessionToken => some (Nat.toDigits 10 w.store.sessions.values.length, w)
  | .nodeObject node => some (S.platform.nodeObject w.store node, w)
  | .assignNode node => some ((), { w with store := S.platform.assignNode w.store node })
  | .getSecret jobId => some ((w.ephemeralSshSecrets.get jobId).map (·.2), w)
  | .putSecret jobId secret =>
    some ((), { w with ephemeralSshSecrets := w.ephemeralSshSecrets.put (jobId, secret) })
  | .popSecret jobId =>
    some ((), { w with ephemeralSshSecrets := w.ephemeralSshSecrets.erase jobId })
  | .acquire => if w.lock = none then some ((), { w with lock := some i }) else none
  | .release => some ((), { w with lock := none })
  | .request _ => none
  | .runnerStep .. => some ((), w)
  | .sleep => some ((), w)
  | .ensureFuture operation =>
    some (w.tasks.length, { w with tasks := w.tasks ++ [{ operation }] })
  | .begin t =>
    match w.tasks[t]? with
    | some task =>
      if task.started then none
      else some (task.operation, { w with tasks := setTask w.tasks t ({ · with started := true }) })
    | none => none
  | .settle t outcome =>
    some ((), { w with tasks := setTask w.tasks t (AsyncTask.settle outcome) })
  | .wait t => (w.tasks[t]?).map fun task => (task.outcome.isSome, w)
  | .cancelTask t =>
    some ((), { w with tasks := setTask w.tasks t ({ · with cancelRequested := true }) })
  | .join t =>
    match (w.tasks[t]?).bind (·.outcome) with
    | some (.ok node) => some (node, w)
    | _ => none
  | .result t =>
    match (w.tasks[t]?).bind (·.outcome) with
    | some (.ok node) => some (node, w)
    | _ => none
  | .pending => none

/-- The answer to an operation, unless the schedule wants it to raise. -/
def ordinary (i : Nat) (fault : Option Exc) (w : World ω) (e : Op) :
    Option (e.Res × World ω) :=
  match fault with
  | some x => if e.safe = false ∧ S.raises e x = true then some (.error x, w) else none
  | none => (S.perform i w e).map fun (r, w') => (.ok r, w')

/-- The answer to an operation; a decryption and a value that the driver does not take raise, a
join and a result as their task did, and the begin of a task if it was cancelled. -/
def answer (i : Nat) (fault : Option Exc) : Responder (World ω) Op Op.Res
  | w, .request request =>
    some ((S.agent fault w.agents request).1,
      { w with agents := (S.agent fault w.agents request).2 })
  | w, .decrypt value =>
    match openText value with
    | none => some (.error (.other (lit "ValueError")), w)
    | some text => some (.ok text, w)
  | w, .bindColumn _ value =>
    some (if S.kind = .memory ∨ isText value = true then .ok ()
      else .error (.other (lit "ProgrammingError")), w)
  | w, .join t =>
    match (w.tasks[t]?).bind (·.outcome), fault with
    | some _, some x => if S.raises (.join t) x then some (.error x, w) else none
    | some outcome, none => some (outcome, w)
    | none, _ => none
  | w, .result t => ((w.tasks[t]?).bind (·.outcome)).map (·, w)
  | w, .begin t =>
    match w.tasks[t]? with
    | some task =>
      if task.started then none
      else
        some (if task.cancelRequested ∧ fault.isSome then .error .cancelled else .ok task.operation,
          { w with tasks := setTask w.tasks t ({ · with started := true }) })
    | none => none
  | w, e => S.ordinary i fault w e

theorem perform_effect {i : Nat} {w w' : World ω} {e : Op} {r : e.Ans}
    (h : S.perform i w e = some (r, w')) : S.platform.effect i w e r w' := by
  cases e with
  | claimNextSetupJob at' currentStep =>
    refine ⟨_, w.store.isNextQueued_nextQueuedSetupJob, ?_⟩
    cases hnext : w.store.nextQueuedSetupJob with
    | none =>
      simp only [perform, hnext] at h
      cases h
      exact ⟨rfl, rfl⟩
    | some job =>
      simp only [perform, hnext] at h
      cases h
      exact ⟨rfl, rfl⟩
  | decrypt value =>
    simp only [perform, Option.map_eq_some_iff, Prod.mk.injEq] at h
    obtain ⟨text, htext, rfl, rfl⟩ := h
    exact ⟨htext, rfl⟩
  | wait t =>
    simp only [perform, Option.map_eq_some_iff, Prod.mk.injEq] at h
    obtain ⟨task, htask, rfl, rfl⟩ := h
    exact ⟨⟨task, htask, rfl⟩, rfl⟩
  | acquire =>
    simp only [perform] at h
    split at h
    · rename_i hfree
      cases h
      exact ⟨hfree, rfl⟩
    · cases h
  | bindColumn column value =>
    simp only [perform] at h
    split at h
    · rename_i htakes
      cases h
      exact ⟨htakes, rfl⟩
    · cases h
  | begin t =>
    simp only [perform] at h
    split at h
    · rename_i task htask
      split at h
      · cases h
      · rename_i hstarted
        cases h
        exact ⟨task, htask, by simpa using hstarted, rfl, rfl⟩
    · cases h
  | join t =>
    simp only [perform] at h
    split at h
    · rename_i hdone
      cases h
      obtain ⟨task, htask, hdone⟩ := Option.bind_eq_some_iff.mp hdone
      exact ⟨⟨task, htask, hdone⟩, rfl⟩
    · cases h
  | result t =>
    simp only [perform] at h
    split at h
    · rename_i hdone
      cases h
      obtain ⟨task, htask, hdone⟩ := Option.bind_eq_some_iff.mp hdone
      exact ⟨⟨task, htask, hdone⟩, rfl⟩
    · cases h
  | uuid =>
    cases h
    exact ⟨fresh_freshId w.store, rfl⟩
  | generateSessionToken =>
    cases h
    refine ⟨List.all_eq_true.mpr fun c hc => ?_, rfl⟩
    have hdigit := Nat.isDigit_of_mem_toDigits (by decide) (by decide) hc
    have hle : c.toNat ≤ 57 := (Char.isDigit_iff_toNat.mp hdigit).2
    exact decide_eq_true (by omega)
  | request _ => cases h
  | pending => cases h
  | _ =>
    cases h
    first | exact ⟨rfl, rfl⟩ | exact rfl

theorem ordinary_env {i : Nat} {fault : Option Exc} {w w' : World ω} {e : Op} {r : e.Res}
    (hfailure : ∀ x, e.safe = false ∧ S.raises e x = true → S.platform.failure w e x w)
    (h : S.ordinary i fault w e = some (r, w')) : S.platform.env i w e r w' := by
  cases fault with
  | none =>
    obtain ⟨⟨a, v⟩, hperform, ha⟩ := Option.map_eq_some_iff.mp h
    cases ha
    exact perform_effect S hperform
  | some x =>
    simp only [ordinary] at h
    split at h
    · rename_i hx
      cases h
      exact hfailure x hx
    · cases h

theorem answer_env (i : Nat) (fault : Option Exc) {w w' : World ω} {e : Op} {r : e.Res}
    (h : S.answer i fault w e = some (r, w')) : S.platform.env i w e r w' := by
  cases e with
  | request request =>
    simp only [answer, Option.some.injEq, Prod.mk.injEq] at h
    obtain ⟨rfl, rfl⟩ := h
    have hexchange : S.platform.exchange w.agents request (S.agent fault w.agents request).1
        (S.agent fault w.agents request).2 := ⟨fault, rfl⟩
    cases hr : (S.agent fault w.agents request).1 with
    | ok response => exact ⟨_, hr ▸ hexchange, rfl⟩
    | error x => exact ⟨_, hr ▸ hexchange, rfl⟩
  -- decrypting is a function of the box, so no fault is chosen
  | decrypt value =>
    simp only [answer] at h
    split at h
    · rename_i hnone
      cases h
      exact ⟨hnone, rfl, rfl⟩
    · rename_i text hsome
      cases h
      exact ⟨hsome, rfl⟩
  | bindColumn column value =>
    simp only [answer, Option.some.injEq, Prod.mk.injEq] at h
    obtain ⟨rfl, rfl⟩ := h
    by_cases htakes : S.kind = .memory ∨ isText value = true
    · rw [if_pos htakes]
      exact ⟨htakes, rfl⟩
    · rw [if_neg htakes]
      exact ⟨htakes, ⟨_, rfl⟩, rfl⟩
  -- a join that is disturbed raises the chosen exception, else what the task left
  | join t =>
    simp only [answer] at h
    split at h
    · rename_i hdone
      obtain ⟨task, htask, hdone⟩ := Option.bind_eq_some_iff.mp hdone
      split at h
      · rename_i hx
        cases h
        exact ⟨rfl, task, htask, by simp [hdone], .inr hx⟩
      · cases h
    · rename_i hdone
      obtain ⟨task, htask, hdone⟩ := Option.bind_eq_some_iff.mp hdone
      cases h
      cases r with
      | ok node => exact ⟨⟨task, htask, hdone⟩, rfl⟩
      | error x => exact ⟨rfl, task, htask, by simp [hdone], .inl hdone⟩
    · cases h
  | result t =>
    obtain ⟨outcome, houtcome, hr⟩ := Option.map_eq_some_iff.mp h
    cases hr
    obtain ⟨task, htask, hdone⟩ := Option.bind_eq_some_iff.mp houtcome
    cases r with
    | ok node => exact ⟨⟨task, htask, hdone⟩, rfl⟩
    | error x => exact ⟨rfl, task, htask, hdone⟩
  -- a task that was cancelled before it began raises at once
  | begin t =>
    simp only [answer] at h
    split at h
    · rename_i task htask
      split at h
      · cases h
      · rename_i hstarted
        cases h
        split
        · rename_i hcancelled
          exact ⟨task, htask, by simpa using hstarted, hcancelled.1, rfl, rfl⟩
        · exact ⟨task, htask, by simpa using hstarted, rfl, rfl⟩
    · cases h
  | _ => exact ordinary_env S (fun x hx => ⟨hx.1, hx.2, rfl⟩) h

/-- Every schedule gives a run of the platform. -/
theorem play_reachable {α Call : Type} (tick : World ω → World ω → Prop) (program : Call → Task α)
    (moves : List (Move Call (Option Exc))) (y : Loop (World ω) Op.Res Exc α Call) :
    Relation.ReflTransGen (Loop.Step S.platform.kernel tick program) y
      (Loop.play S.platform.kernel S.answer program moves y) := by
  apply Loop.play_reachable
  exact fun i fault _ _ _ _ h => S.answer_env i fault h

end Scenario

/-! A small installation that schedules are played on: one user with room for one device, one
node, and an agent that issues the key `k`. -/
namespace Sample

def wire : Wire where
  sha256 text := text
  hmacSha256 secret text := secret ++ text
  dumps _ := lit "body"
  str _ := lit "value"
  lower := id
  pbkdf2Matches password _ _ digest := password = digest

def services : Services :=
  ⟨wire, { setupAgentBaseUrl := fun host => lit "http://" ++ host }⟩

def user : User where
  id := lit "u"
  login := lit "user"
  displayName := lit "User"
  role := .user
  passwordHash := []
  createdAt := 0
  updatedAt := 0
  deviceLimit := some 1

def node : ServerNode where
  id := lit "n"
  name := lit "node"
  publicHost := some (lit "node.example")
  agentBaseUrl := some (lit "http://node.example")
  createdAt := 0
  updatedAt := 0
  agentKeyId := some (lit "key")
  agentSecretEncrypted := some (Scenario.sealText (lit "agent secret"))
  status := .online

def store : Store := ({} : Store).saveUser user |>.saveServerNode node

def issuedPayload : Doc :=
  .obj [(lit "public_key", .str (lit "k")), (lit "client_ip", .str (lit "10.8.1.2")),
    (lit "config", .str (lit "[Interface]")), (lit "vpn_url", .str (lit "vpn://x"))]

theorem issueResult_issuedPayload : ∃ publicKey clientIp config vpnUrl,
    Services.issueResult issuedPayload [] =
      .ok ⟨.text publicKey, .text clientIp, .text config, .text vpnUrl⟩ := by
  refine ⟨lit "k", lit "10.8.1.2", lit "[Interface]", lit "vpn://x", ?_⟩
  simp only [Services.issueResult, issuedPayload, lit_eq]
  rfl

/-- The agent issues and revokes; a fault of the schedule is what the request ends in. -/
def agent (fault : Option Exc) (agents : Unit) (request : Request) :
    Except Exc AgentResponse × Unit :=
  match fault with
  | some x => (.error x, agents)
  | none =>
    if request.method = lit "POST" then (.ok ⟨201, issuedPayload, []⟩, agents)
    else (.ok ⟨200, .obj [], []⟩, agents)

def scenario (kind : StorageKind) : Scenario Unit := ⟨kind, agent, fun _ _ => false⟩

/-- Whether a task returned or raised. -/
def outcomeOf {α : Type} : Task α → Option Bool
  | .ret _ => some true
  | .fail _ => some false
  | .op _ _ => none

end Sample
end VpnControl.Backend
