import VpnControl.Backend.Frames
import VpnControl.Backend.Playback

namespace VpnControl.Backend
open Strings Json Effects Prog

variable {ω : Type} {P : Platform ω} {b : Services}

/-- The requests to the agents so far, with how they ended. -/
abbrev Requests : Type := List (Request × Except Exc AgentResponse)

/-- The same platform with the requests kept in mind. -/
def Platform.recorded (P : Platform ω) : Platform (ω × Requests) where
  kind := P.kind
  binds := P.binds
  box := P.box
  raises := P.raises
  exchange agents request r agents' :=
    P.exchange agents.1 request r agents'.1 ∧ agents'.2 = agents.2 ++ [(request, r)]

/-- An agent that answers with "created" names a key, an address, a config and a URL. -/
def Platform.AnswersTexts (P : Platform ω) : Prop :=
  ∀ agents request response agents', P.exchange agents request (.ok response) agents' →
    response.statusCode = 201 → ∃ publicKey clientIp config vpnUrl,
      Services.issueResult response.payload response.surrogates =
        .ok ⟨.text publicKey, .text clientIp, .text config, .text vpnUrl⟩

/-- Decryption undoes encryption, and no ciphertext is empty. -/
structure SecretBox.Sound (box : SecretBox) : Prop where
  decrypt : ∀ text sealed, box.encrypts text sealed → box.decrypt sealed = some text
  nonempty : ∀ text sealed, box.encrypts text sealed → sealed ≠ []

/-- The request that `create` makes for a device. -/
def IssueRequestFor (b : Services) (deviceId : Text) (request : Request) : Prop :=
  request.method = lit "POST" ∧ request.path = lit "/peers" ∧ ∃ name endpointHost,
    request.body = b.wire.dumps
      (issueBody name [] endpointHost [(lit "backend_device_id", .str deviceId)])

/-- The agent answered the request for the device with this config and URL. -/
def Answered (b : Services) (requests : Requests) (deviceId config vpnUrl : Text) : Prop :=
  ∃ request response result, (request, .ok response) ∈ requests ∧
    IssueRequestFor b deviceId request ∧ response.statusCode = 201 ∧
    Services.issueResult response.payload response.surrogates = .ok result ∧
    result.config = .text config ∧ result.vpnUrl = .text vpnUrl

theorem Answered.mono {requests requests' : Requests} {deviceId config vpnUrl : Text}
    (h : Answered b requests deviceId config vpnUrl) (hsub : requests ⊆ requests') :
    Answered b requests' deviceId config vpnUrl := by
  obtain ⟨request, response, result, hmem, hrest⟩ := h
  exact ⟨request, response, result, hsub hmem, hrest⟩

/-- A stored issue holds what the agent answered, encrypted. -/
def Holds (box : SecretBox) (b : Services) (requests : Requests) (issue : DeviceConfigIssue) : Prop :=
  ∃ config vpnUrl sealedConfig sealedUrl, Answered b requests issue.deviceId config vpnUrl ∧
    issue.configEncrypted = some sealedConfig ∧ box.encrypts config sealedConfig ∧
    issue.vpnUrlEncrypted = some sealedUrl ∧ box.encrypts vpnUrl sealedUrl

/-- What holds of the devices and of the issues together. -/
structure DeviceStates (box : SecretBox) (b : Services) (s : Store) (requests : Requests) : Prop where
  active : ∀ id d, s.getDevice id = some d → d.status = .active →
    d.publicKey ≠ none ∧ d.clientIp ≠ none
  failed : ∀ id d, s.getDevice id = some d → d.status = .failed →
    d.publicKey = none ∧ d.clientIp = none
  issue : ∀ id issue, s.getIssue id = some issue →
    (∃ d, s.getDevice id = some d ∧ d.status = .active) ∧ Holds box b requests issue

section States
variable {box : SecretBox} {s s' : Store} {requests requests' : Requests}

theorem DeviceStates.frame (h : DeviceStates box b s requests) (hdevices : s'.devices = s.devices)
    (hissues : s'.issues = s.issues) (hsub : requests ⊆ requests') :
    DeviceStates box b s' requests' := by
  have hget : ∀ id, s'.getDevice id = s.getDevice id := fun id => by
    rw [Store.getDevice, hdevices, Store.getDevice]
  have hissue : ∀ id, s'.getIssue id = s.getIssue id := fun id => by
    rw [Store.getIssue, hissues, Store.getIssue]
  constructor
  · exact fun id d hd => h.active id d (hget id ▸ hd)
  · exact fun id d hd => h.failed id d (hget id ▸ hd)
  · intro id issue hi
    obtain ⟨⟨d, hd, hactive⟩, config, vpnUrl, sealedConfig, sealedUrl, hanswered, hrest⟩ :=
      h.issue id issue (hissue id ▸ hi)
    exact ⟨⟨d, (hget id).trans hd, hactive⟩, config, vpnUrl, sealedConfig, sealedUrl,
      hanswered.mono hsub, hrest⟩

/-- A device is saved; if an issue is stored for it, it is active. -/
theorem DeviceStates.saveDevice (h : DeviceStates box b s requests) {d : Device}
    (hactive : d.status = .active → d.publicKey ≠ none ∧ d.clientIp ≠ none)
    (hfailed : d.status = .failed → d.publicKey = none ∧ d.clientIp = none)
    (hissue : s.getIssue d.id ≠ none → d.status = .active) :
    DeviceStates box b (s.saveDevice d) requests := by
  have hget : ∀ id, (s.saveDevice d).getDevice id = if id = d.id then some d else s.getDevice id :=
    Table.get_put s.devices d
  constructor
  · intro id e he
    rw [hget] at he
    split at he
    · cases he
      exact hactive
    · exact h.active id e he
  · intro id e he
    rw [hget] at he
    split at he
    · cases he
      exact hfailed
    · exact h.failed id e he
  · intro id issue hi
    have hi' : s.getIssue id = some issue := hi
    obtain ⟨⟨e, he, hactive⟩, hholds⟩ := h.issue id issue hi'
    refine ⟨?_, hholds⟩
    rw [hget]
    split
    · rename_i hid
      subst hid
      exact ⟨d, rfl, hissue (by simp [hi'])⟩
    · exact ⟨e, he, hactive⟩

theorem DeviceStates.saveIssue (h : DeviceStates box b s requests) {issue : DeviceConfigIssue}
    {d : Device} (hd : s.getDevice issue.deviceId = some d) (hactive : d.status = .active)
    (hholds : Holds box b requests issue) : DeviceStates box b (s.saveIssue issue) requests := by
  refine ⟨h.active, h.failed, fun id i hi => ?_⟩
  have hi : (if id = issue.deviceId then some issue else s.getIssue id) = some i :=
    Table.get_put s.issues issue id ▸ hi
  split at hi
  · rename_i hid
    cases hi
    subst hid
    exact ⟨⟨d, hd, hactive⟩, hholds⟩
  · exact h.issue id i hi

theorem DeviceStates.dropIssue (h : DeviceStates box b s requests) (deviceId : Text) :
    DeviceStates box b (s.dropIssue deviceId) requests := by
  refine ⟨h.active, h.failed, fun id i hi => ?_⟩
  have hi : (if id = deviceId then none else s.getIssue id) = some i :=
    Table.get_erase s.issues deviceId id ▸ hi
  split at hi
  · cases hi
  · exact h.issue id i hi

/-- A device is revoked and its issue dropped. -/
theorem DeviceStates.revoke (h : DeviceStates box b s requests) {d : Device}
    (hd : d.status = .revoked) :
    DeviceStates box b ((s.saveDevice d).dropIssue d.id) requests := by
  have h' := (h.dropIssue d.id).saveDevice (d := d) (by simp [hd]) (by simp [hd]) fun hissue => by
    refine absurd ?_ hissue
    change (s.issues.erase d.id).get d.id = none
    rw [Table.get_erase, if_pos rfl]
  exact h'.frame rfl rfl fun _ hr => hr

/-- Devices once revoked are revoked. -/
def RevokedStay (s s' : Store) : Prop :=
  ∀ id d, s.getDevice id = some d → d.status = .revoked →
    ∃ d', s'.getDevice id = some d' ∧ d'.status = .revoked

theorem RevokedStay.refl (s : Store) : RevokedStay s s := fun _ d hd hrevoked => ⟨d, hd, hrevoked⟩

theorem RevokedStay.trans {s'' : Store} (h : RevokedStay s s') (h' : RevokedStay s' s'') :
    RevokedStay s s'' := by
  intro id d hd hrevoked
  obtain ⟨d', hd', hrevoked'⟩ := h id d hd hrevoked
  exact h' id d' hd' hrevoked'

theorem revokedStay_of_devices (h : s'.devices = s.devices) : RevokedStay s s' := by
  intro id d hd hrevoked
  exact ⟨d, by rw [Store.getDevice, h]; exact hd, hrevoked⟩

theorem revokedStay_saveDevice {d : Device}
    (h : ∀ old, s.getDevice d.id = some old → old.status = .revoked → d.status = .revoked) :
    RevokedStay s (s.saveDevice d) := by
  intro id e he hrevoked
  have hget : (s.saveDevice d).getDevice id = if id = d.id then some d else s.getDevice id :=
    Table.get_put s.devices d id
  rw [hget]
  split
  · rename_i hid
    subst hid
    exact ⟨d, rfl, h e he hrevoked⟩
  · exact ⟨e, he, hrevoked⟩

end States

/-- The devices and issues fit together, revoked devices stay revoked, and who holds the
storage lock can rely on the devices. -/
def statesContract (ω : Type) (box : SecretBox) (b : Services) : Contract (World (ω × Requests)) where
  inv w := DeviceStates box b w.store w.agents.2
  rely i w w' := RevokedStay w.store w'.store ∧
    (w.lock = some i → w'.lock = some i ∧ w'.store.devices = w.store.devices)
  refl _ w := ⟨.refl w.store, fun h => ⟨h, rfl⟩⟩
  trans _ _ _ _ h h' := ⟨h.1.trans h'.1, fun hi => by
    obtain ⟨hlock, hdevices⟩ := h.2 hi
    obtain ⟨hlock', hdevices'⟩ := h'.2 hlock
    exact ⟨hlock', hdevices'.trans hdevices⟩⟩

/-- What `issue_result` may return: the config and URL that the agent answered for an active
device, while they have not expired. -/
structure ResultFits (b : Services) (w : World (ω × Requests)) (deviceId : Text)
    (result : Services.IssueResultOut) : Prop where
  device : result.deviceId = deviceId ∧
    ∃ d, w.store.getDevice deviceId = some d ∧ d.status = .active
  answered : ∃ vpnUrl, result.vpnUrl = some vpnUrl ∧
    Answered b w.agents.2 deviceId result.config vpnUrl
  expires : w.now < result.expiresAt ∧
    ∃ issue, w.store.getIssue deviceId = some issue ∧ issue.expiresAt = result.expiresAt

/-- The device as `create` adds it. -/
structure Device.Provisional (d : Device) : Prop where
  status : d.status = .provisioning
  publicKey : d.publicKey = none
  clientIp : d.clientIp = none

namespace States
variable {i : Nat} {w₀ w : World (ω × Requests)} {box : SecretBox} {α β : Type}

/-- Task `i` is in a turn in which it may write under the lock. -/
structure Underway (box : SecretBox) (b : Services) (i : Nat) (w₀ w : World (ω × Requests)) : Prop where
  states : DeviceStates box b w.store w.agents.2
  revoked : RevokedStay w₀.store w.store
  lock : w₀.lock = none ∨ w₀.lock = some i

theorem Underway.leaves (h : Underway box b i w₀ w) : (statesContract ω box b).Leaves i w₀ w where
  inv := h.states
  rely := by
    refine fun j hj => ⟨h.revoked, fun hheld => ?_⟩
    rcases h.lock with hfree | hmine
    · simp [hfree] at hheld
    · rw [hmine, Option.some.injEq] at hheld
      exact absurd hheld.symm hj

/-- What a section under the lock ends in. -/
def underwayEnd (box : SecretBox) (b : Services) (i : Nat) : TurnPost (World (ω × Requests)) Exc α :=
  fun _ w₀ w => Underway box b i w₀ w

theorem Underway.frame (h : Underway box b i w₀ w) {w' : World (ω × Requests)} {S : List Part}
    (hframe : Frame S w w') (hdevices : .devices ∉ S) (hissues : .issues ∉ S) (hagents : .agents ∉ S) :
    Underway box b i w₀ w' := by
  have hd : w'.store.devices = w.store.devices := hframe.same .devices hdevices
  have hi : w'.store.issues = w.store.issues := hframe.same .issues hissues
  have ha : w'.agents = w.agents := hframe.same .agents hagents
  exact ⟨ha ▸ h.states.frame hd hi fun _ h => h, h.revoked.trans (revokedStay_of_devices hd), h.lock⟩

/-- A section begins in a world with the lock free, and the lock is given back at its end. -/
theorem turn_section {body : Task α} (hinv : DeviceStates P.box b w.store w.agents.2)
    (hbody : ∀ w, DeviceStates P.box b w.store w.agents.2 → w.lock = none →
      turn P.recorded.kernel (statesContract ω P.box b) i body (underwayEnd P.box b i) w
        { w with lock := some i }) :
    turn P.recorded.kernel (statesContract ω P.box b) i (withStorageLock body)
      (fun _ w₁ w' => (statesContract ω P.box b).Leaves i w₁ w') w w := by
  have hleaves : ∀ w : World (ω × Requests), DeviceStates P.box b w.store w.agents.2 →
      (statesContract ω P.box b).Leaves i w w := fun w h =>
    ⟨h, fun j _ => (statesContract ω P.box b).refl j w⟩
  refine turn_withStorageLock (R := underwayEnd P.box b i) (hleaves w hinv) ?_ ?_ ?_
  · exact fun w₁ _ h _ _ => hleaves w₁ h
  · exact fun w₁ h _ hfree => hbody w₁ h hfree
  · exact fun _ w₁ w' h => Underway.leaves (w := { w' with lock := none }) ⟨h.states, h.revoked, h.lock⟩

/-- A task that only audits, or only reads. -/
theorem turn_audit_seq {p : Task α} (hp : Writes [.audit] p) (h : Underway P.box b i w₀ w)
    {f : α → Task β}
    (hf : ∀ a w', Underway P.box b i w₀ w' →
      turn P.recorded.kernel (statesContract ω P.box b) i (f a) (underwayEnd P.box b i) w₀ w') :
    turn P.recorded.kernel (statesContract ω P.box b) i (p >>= f) (underwayEnd P.box b i) w₀ w :=
  turn_writes_seq hp (fun a w' hframe => hf a w' (h.frame hframe (by simp) (by simp) (by simp)))
    fun _ _ hframe => h.frame hframe (by simp) (by simp) (by simp)

theorem turn_read_seq {p : Task α} (hp : Writes [] p) (h : Underway P.box b i w₀ w) {f : α → Task β}
    (hf : ∀ a, turn P.recorded.kernel (statesContract ω P.box b) i (f a) (underwayEnd P.box b i) w₀ w) :
    turn P.recorded.kernel (statesContract ω P.box b) i (p >>= f) (underwayEnd P.box b i) w₀ w := by
  apply turn_writes_seq hp
  · intro a w' hframe
    obtain rfl := hframe.eq
    exact hf a
  · intro x w' hframe
    obtain rfl := hframe.eq
    exact h

/-- A device is saved. -/
theorem turn_saveDevice_seq {d : Device} (h : Underway P.box b i w₀ w)
    (hstates : DeviceStates P.box b (w.store.saveDevice d) w.agents.2)
    (hrevoked : RevokedStay w.store (w.store.saveDevice d)) {f : Unit → Task β}
    (hf : ∀ w', w' = { w with store := w.store.saveDevice d } → Underway P.box b i w₀ w' →
      turn P.recorded.kernel (statesContract ω P.box b) i (f ()) (underwayEnd P.box b i) w₀ w') :
    turn P.recorded.kernel (statesContract ω P.box b) i (ask (.saveDevice d) >>= f)
      (underwayEnd P.box b i) w₀ w := by
  apply turn_ask_seq rfl
  · rintro _ w' rfl
    exact hf _ rfl ⟨hstates, h.revoked.trans hrevoked, h.lock⟩
  · rintro x _ ⟨-, -, rfl⟩
    exact h

section Create
variable {user : User} {device : Device} {node : ServerNode} {client : ClientMeta}

theorem turn_provision {name : Text} {serverNodeId : Option Text}
    {f : Device × ServerNode → Task β} (h : Underway P.box b i w₀ w)
    (hf : ∀ device node w', Underway P.box b i w₀ w' → w'.lock = w.lock →
      w'.store.getDevice device.id = some device → device.Provisional →
      turn P.recorded.kernel (statesContract ω P.box b) i (f (device, node))
        (underwayEnd P.box b i) w₀ w') :
    turn P.recorded.kernel (statesContract ω P.box b) i
      (Services.provision user name serverNodeId >>= f) (underwayEnd P.box b i) w₀ w := by
  unfold Services.provision
  simp only [bind_assoc]
  refine turn_read_seq (Services.writes_enforceLimit user) h fun _ => ?_
  refine turn_read_seq (Services.writes_chooseNode serverNodeId) h fun node => ?_
  refine turn_read_seq (writes_read rfl rfl) h fun now => ?_
  apply turn_ask_seq rfl
  · rintro id w' ⟨hfresh, hw⟩
    subst hw
    have hnone : w'.store.getIssue id = none := hfresh.issueDevice
    refine turn_saveDevice_seq h (h.states.saveDevice (by simp) (by simp) (absurd hnone)) ?_ ?_
    · refine revokedStay_saveDevice fun old hold => ?_
      rw [Store.getDevice, hfresh.device] at hold
      cases hold
    · rintro w'' rfl h'
      exact hf _ node _ h' rfl (Table.get_put_self _ _) ⟨rfl, rfl, rfl⟩
  · rintro x _ ⟨⟨⟩, -⟩

/-- Without a stored issue the provisional device may be saved in another state. -/
theorem getIssue_provisional (h : DeviceStates box b w.store w.agents.2)
    (hdevice : w.store.getDevice device.id = some device) (hd : device.Provisional) :
    w.store.getIssue device.id = none := by
  cases hissue : w.store.getIssue device.id with
  | none => rfl
  | some issue =>
    obtain ⟨⟨d, hd', hactive⟩, -⟩ := h.issue _ issue hissue
    rw [hdevice, Option.some.injEq] at hd'
    subst hd'
    rw [hd.status] at hactive
    cases hactive

theorem revokedStay_saveProvisional {s : Store} {d : Device}
    (hdevice : s.getDevice device.id = some device) (hd : device.Provisional)
    (hid : d.id = device.id) : RevokedStay s (s.saveDevice d) := by
  refine revokedStay_saveDevice fun old hold hrevoked => ?_
  rw [hid, hdevice, Option.some.injEq] at hold
  subst hold
  rw [hd.status] at hrevoked
  cases hrevoked

theorem turn_issueFailed {e : AppError} (h : Underway P.box b i w₀ w)
    (hdevice : w.store.getDevice device.id = some device) (hd : device.Provisional) :
    turn P.recorded.kernel (statesContract ω P.box b) i
      (Services.issueFailed user device node client e >>= fun _ => raise (α := α) e)
      (underwayEnd P.box b i) w₀ w := by
  have hnone := getIssue_provisional h.states hdevice hd
  unfold Services.issueFailed
  simp only [bind_assoc]
  refine turn_read_seq (writes_read rfl rfl) h fun now => ?_
  refine turn_saveDevice_seq h (h.states.saveDevice ?_ ?_ ?_) ?_ ?_
  · rintro ⟨⟩
  · exact fun _ => ⟨hd.publicKey, hd.clientIp⟩
  · exact absurd hnone
  · exact revokedStay_saveProvisional hdevice hd rfl
  · rintro w' rfl h'
    exact turn_audit_seq (writes_auditLog (by simp)) h' fun _ w'' h'' => h''

theorem turn_issued {publicKey clientIp config vpnUrl : Text} (h : Underway P.box b i w₀ w)
    (hdevice : w.store.getDevice device.id = some device) (hd : device.Provisional)
    (hanswered : Answered b w.agents.2 device.id config vpnUrl) :
    turn P.recorded.kernel (statesContract ω P.box b) i
      (b.issued user device node client
        ⟨.text publicKey, .text clientIp, .text config, .text vpnUrl⟩) (underwayEnd P.box b i) w₀ w := by
  unfold Services.issued
  refine turn_read_seq (writes_read rfl rfl) h fun now => ?_
  refine turn_read_seq (writes_read rfl rfl) h fun _ => ?_
  refine turn_read_seq (writes_read rfl rfl) h fun _ => ?_
  refine turn_saveDevice_seq h (h.states.saveDevice ?_ (by simp) fun _ => rfl) ?_ ?_
  · exact fun _ => ⟨by simp [column], by simp [column]⟩
  · exact revokedStay_saveProvisional hdevice hd rfl
  rintro w₁ hw₁ h
  have hstored : w₁.store.getDevice device.id = some { device with
      publicKey := some publicKey, clientIp := some clientIp, status := .active
      lastConfigIssuedAt := some now, updatedAt := now } := by
    rw [hw₁]
    exact Table.get_put_self _ _
  replace hanswered : Answered b w₁.agents.2 device.id config vpnUrl := by
    rw [hw₁]
    exact hanswered
  clear hw₁
  refine turn_read_seq (writes_read rfl rfl) h fun id => ?_
  simp only [Services.encryptValue]
  apply turn_ask_seq rfl
  · rintro sealedConfig _ ⟨hconfig, rfl⟩
    apply turn_ask_seq rfl
    · rintro sealedUrl _ ⟨hurl, rfl⟩
      apply turn_ask_seq rfl
      · rintro _ w₂ hw₂
        have h' : Underway P.box b i w₀ w₂ := by
          rw [hw₂]
          exact ⟨h.states.saveIssue hstored rfl ⟨config, vpnUrl, sealedConfig, sealedUrl,
            hanswered, rfl, hconfig, rfl, hurl⟩, h.revoked, h.lock⟩
        exact turn_audit_seq (writes_auditLog (by simp)) h' fun _ w₂ h => h
      · rintro x _ ⟨-, -, rfl⟩
        exact h
    · rintro x _ ⟨⟨⟩, -⟩
  · rintro x _ ⟨⟨⟩, -⟩

/-- The agent either refused, or named the texts of the issue for the device. -/
def Settles (b : Services) (requests : Requests) (deviceId : Text) :
    Except Exc AgentIssueResult → Prop
  | .ok result => ∃ publicKey clientIp config vpnUrl,
      result = ⟨.text publicKey, .text clientIp, .text config, .text vpnUrl⟩ ∧
        Answered b requests deviceId config vpnUrl
  | .error _ => True

theorem turn_settleIssue {r : Except Exc AgentIssueResult} (h : Underway P.box b i w₀ w)
    (hdevice : w.store.getDevice device.id = some device) (hd : device.Provisional)
    (hr : Settles b w.agents.2 device.id r) :
    turn P.recorded.kernel (statesContract ω P.box b) i
      (b.settleIssue user device node client r) (underwayEnd P.box b i) w₀ w := by
  cases r with
  | ok result =>
    obtain ⟨publicKey, clientIp, config, vpnUrl, rfl, hanswered⟩ := hr
    exact turn_issued h hdevice hd hanswered
  | error x =>
    cases x with
    | app e => exact turn_issueFailed h hdevice hd
    | _ => exact h

/-- What the agent answers to the request for a device settles its issue. -/
theorem settles_issueOutcome (htexts : P.AnswersTexts) {agents agents' : ω} {request : Request}
    {r : Except Exc AgentResponse} {deviceId : Text} {requests : Requests}
    (hexchange : P.exchange agents request r agents') (hrequest : IssueRequestFor b deviceId request) :
    Settles b (requests ++ [(request, r)]) deviceId (b.issueOutcome node r) := by
  unfold Services.issueOutcome
  cases r with
  | error x => cases x <;> trivial
  | ok response =>
    simp only [delivered, Services.expect]
    by_cases hstatus : response.statusCode = 201
    · obtain ⟨publicKey, clientIp, config, vpnUrl, hresult⟩ :=
        htexts _ _ _ _ hexchange hstatus
      simp only [hstatus, if_true, hresult]
      exact ⟨publicKey, clientIp, config, vpnUrl, rfl, request, response, _, by simp, hrequest,
        hstatus, hresult, rfl, rfl⟩
    · simp only [hstatus, if_false]
      trivial

theorem turn_create (htexts : P.AnswersTexts) {name : Text} {serverNodeId : Option Text}
    (hinv : DeviceStates P.box b w.store w.agents.2) :
    turn P.recorded.kernel (statesContract ω P.box b) i
      (b.create user name serverNodeId client)
      (fun _ w₁ w' => (statesContract ω P.box b).Leaves i w₁ w') w w := by
  refine turn_section hinv fun w hinv hfree => ?_
  have h : Underway P.box b i w { w with lock := some i } := ⟨hinv, .refl _, .inl hfree⟩
  refine turn_provision h fun device node w' h hlock hdevice hd => ?_
  rw [turn_bind, turn_attempt]
  refine turn_issuePeer h.leaves (fun x _ => ?_) fun w₁ headers r agents hinv hrely hexchange => ?_
  · exact turn_settleIssue h hdevice hd trivial
  · obtain ⟨hlock₁, hdevices⟩ := hrely.2 hlock
    obtain ⟨hexchange, hrecord⟩ := hexchange
    have h₁ : Underway P.box b i w₁ { w₁ with agents } := by
      refine ⟨hinv.frame rfl rfl ?_, .refl _, .inr hlock₁⟩
      exact hrecord ▸ List.subset_append_left ..
    refine turn_settleIssue h₁ ?_ hd ?_
    · change w₁.store.getDevice _ = _
      rw [Store.getDevice, hdevices]
      exact hdevice
    · change Settles b agents.2 _ _
      rw [hrecord]
      exact settles_issueOutcome htexts hexchange ⟨rfl, rfl, _, _, rfl⟩

end Create

section Revoke
variable {actor : User} {device : Device} {client : ClientMeta}

theorem turn_markRevoked (hstorage : P.StorageWorks) (h : Underway P.box b i w₀ w) :
    turn P.recorded.kernel (statesContract ω P.box b) i
      (Services.markRevoked actor device client) (underwayEnd P.box b i) w₀ w := by
  unfold Services.markRevoked
  refine turn_read_seq (writes_read rfl rfl) h fun now => ?_
  apply turn_ask_seq rfl
  · rintro _ w₁ hw₁
    -- the issue of the revoked device is dropped in the same turn
    apply turn_ask_seq rfl
    · rintro _ w₂ hw₂
      have h' : Underway P.box b i w₀ w₂ := by
        rw [hw₂, hw₁]
        exact ⟨h.states.revoke rfl, h.revoked.trans (revokedStay_saveDevice fun _ _ _ => rfl), h.lock⟩
      exact turn_audit_seq (writes_auditLog (by simp)) h' fun _ w₃ h => h
    · rintro x _ ⟨-, hx, -⟩
      exact absurd hx (hstorage _ x rfl)
  · rintro x _ ⟨-, -, rfl⟩
    exact h

theorem turn_revoke (hstorage : P.StorageWorks) {deviceId : Text}
    (hinv : DeviceStates P.box b w.store w.agents.2) :
    turn P.recorded.kernel (statesContract ω P.box b) i (b.revoke actor deviceId client)
      (fun _ w₁ w' => (statesContract ω P.box b).Leaves i w₁ w') w w := by
  refine turn_section hinv fun w hinv hfree => ?_
  have h : Underway P.box b i w { w with lock := some i } := ⟨hinv, .refl _, .inl hfree⟩
  refine turn_getForActor (fun _ => h) fun device hdevice _ => ?_
  change turn _ _ _ (if _ then _ else _) _ _ _
  split
  · exact h
  refine turn_read_seq (writes_read rfl rfl) h fun node => ?_
  have hrest : ∀ {w₀ w} (r : Except Exc Doc), Underway P.box b i w₀ w →
      turn P.recorded.kernel (statesContract ω P.box b) i
        (Services.settleRevoke r >>= fun _ => Services.markRevoked actor device client)
        (underwayEnd P.box b i) w₀ w := fun r h =>
    turn_read_seq (Services.writes_settleRevoke r) h fun _ => turn_markRevoked hstorage h
  cases node with
  | none => exact turn_markRevoked hstorage h
  | some node =>
    by_cases hkey : optional device.publicKey = true
    · rw [Services.revokeOnNode, if_neg (by simp [hkey]), bind_assoc, turn_bind, turn_attempt]
      refine turn_revokePeer h.leaves (fun x _ => hrest _ h) fun w₁ headers r agents hinv hrely hr => ?_
      refine hrest (w := { w₁ with agents }) _ ⟨hinv.frame rfl rfl ?_, .refl _, .inr (hrely.2 rfl).1⟩
      exact hr.2 ▸ List.subset_append_left ..
    · rw [Services.revokeOnNode, if_pos (by simp [hkey])]
      exact turn_markRevoked hstorage h

end Revoke

/-- What a call of `issue_result` ends in. -/
def resultEnd (box : SecretBox) (b : Services) (i : Nat) (deviceId : Text) :
    TurnPost (World (ω × Requests)) Exc Services.IssueResultOut :=
  fun r w₀ w => (statesContract ω box b).Leaves i w₀ w ∧
    ∀ result, r = .ok result → ResultFits b w deviceId result

theorem resultEnd_error {deviceId : Text} {x : Exc}
    (h : (statesContract ω box b).Leaves i w₀ w) : resultEnd box b i deviceId (.error x) w₀ w :=
  ⟨h, by simp⟩

/-- The issues may change in a turn of any task, in step with the devices. -/
theorem leaves_issues {w' : World (ω × Requests)} (hdevices : w'.store.devices = w.store.devices)
    (hlock : w'.lock = w.lock) (hinv : DeviceStates box b w'.store w'.agents.2) :
    (statesContract ω box b).Leaves i w w' :=
  ⟨hinv, fun _ _ => ⟨revokedStay_of_devices hdevices, fun h => ⟨hlock.trans h, hdevices⟩⟩⟩

/-- The texts of a stored issue, as they are handed out. -/
theorem turn_openIssue (hbox : P.box.Sound) {issue : DeviceConfigIssue} {device : Device}
    {config vpnUrl sealedConfig sealedUrl : Text} (hleaves : (statesContract ω P.box b).Leaves i w₀ w)
    (hconfig : issue.configEncrypted = some sealedConfig) (hsealedConfig : P.box.encrypts config sealedConfig)
    (hurl : issue.vpnUrlEncrypted = some sealedUrl) (hsealedUrl : P.box.encrypts vpnUrl sealedUrl)
    (hfits : ResultFits b w device.id ⟨device.id, config, some vpnUrl, issue.expiresAt⟩) :
    turn P.recorded.kernel (statesContract ω P.box b) i (do
        let config : Text ← ask (.decrypt (issue.configEncrypted.getD []))
        let vpnUrl ← Services.decryptOptional issue.vpnUrlEncrypted
        return ⟨device.id, config, vpnUrl, issue.expiresAt⟩)
      (resultEnd P.box b i device.id) w₀ w := by
  rw [hconfig, hurl, Option.getD_some]
  apply turn_ask_seq rfl
  · rintro opened _ ⟨hopened, rfl⟩
    obtain rfl : config = opened :=
      Option.some.inj ((hbox.decrypt _ _ hsealedConfig).symm.trans hopened)
    have hoptional : optional (some sealedUrl) = true := by
      simpa [optional] using hbox.nonempty _ _ hsealedUrl
    rw [Services.decryptOptional, if_pos hoptional, Option.getD_some, bind_assoc]
    apply turn_ask_seq rfl
    · rintro opened _ ⟨hopened, rfl⟩
      obtain rfl : vpnUrl = opened :=
        Option.some.inj ((hbox.decrypt _ _ hsealedUrl).symm.trans hopened)
      refine ⟨hleaves, fun result hresult => ?_⟩
      obtain rfl : _ = result := Except.ok.inj hresult
      exact hfits
    · rintro x _ ⟨-, -, rfl⟩
      exact resultEnd_error hleaves
  · rintro x _ ⟨-, -, rfl⟩
    exact resultEnd_error hleaves

theorem turn_issueResult (hbox : P.box.Sound) {actor : User} {deviceId : Text}
    (hinv : DeviceStates P.box b w.store w.agents.2) :
    turn P.recorded.kernel (statesContract ω P.box b) i (Services.issueResultOf actor deviceId)
      (resultEnd P.box b i deviceId) w w := by
  have hleaves : (statesContract ω P.box b).Leaves i w w := leaves_issues rfl rfl hinv
  unfold Services.issueResultOf
  refine turn_getForActor (fun _ => resultEnd_error hleaves) fun device hdevice hid => ?_
  apply turn_ask_seq rfl
  swap
  · rintro x _ ⟨-, -, rfl⟩
    exact resultEnd_error hleaves
  rintro found w' ⟨rfl, hw⟩
  subst hw
  cases hissue : w'.store.getIssue device.id with
  | none => exact resultEnd_error hleaves
  | some issue =>
    -- a stored issue belongs to an active device and holds what the agent answered
    obtain ⟨⟨d, hd, hactive⟩, config, vpnUrl, sealedConfig, sealedUrl, hanswered, hconfig,
      hsealedConfig, hurl, hsealedUrl⟩ := hinv.issue _ issue hissue
    have hkey : issue.deviceId = deviceId := (Table.key_of_get hissue).trans hid
    rw [hkey] at hanswered
    rw [hid] at hd hissue
    change turn _ _ _ (if _ then _ else _) _ _ _
    split
    · exact resultEnd_error hleaves
    apply turn_ask_seq rfl
    swap
    · rintro x _ ⟨⟨⟩, -⟩
    rintro _ w₂ ⟨rfl, hw⟩
    subst hw
    change turn _ _ _ (if _ then _ else _) _ _ _
    split
    -- expired: dropped, which leaves the device active
    · apply turn_ask_seq rfl
      · rintro _ _ rfl
        exact resultEnd_error (leaves_issues rfl rfl (hinv.dropIssue device.id))
      · rintro x _ ⟨-, -, rfl⟩
        exact resultEnd_error hleaves
    · rename_i hunexpired
      rw [Nat.not_le] at hunexpired
      subst hid
      unfold Services.consume
      split
      -- the first look saves the same issue with the time of consumption
      · rw [bind_assoc]
        apply turn_ask_seq rfl
        · rintro _ w₁ rfl
          have hstates : DeviceStates P.box b
              (w₂.store.saveIssue { issue with consumedAt := some w₂.now }) w₂.agents.2 :=
            hinv.saveIssue (hkey.symm ▸ hd) hactive ⟨config, vpnUrl, sealedConfig, sealedUrl,
              hkey.symm ▸ hanswered, hconfig, hsealedConfig, hurl, hsealedUrl⟩
          have hconsumed : (statesContract ω P.box b).Leaves i w₂
              { w₂ with store := w₂.store.saveIssue { issue with consumedAt := some w₂.now } } :=
            leaves_issues rfl rfl hstates
          rw [pure_bind]
          apply turn_openIssue hbox hconsumed
          · exact hconfig
          · exact hsealedConfig
          · exact hurl
          · exact hsealedUrl
          · refine ⟨⟨rfl, d, hd, hactive⟩, ⟨vpnUrl, rfl, hanswered⟩, hunexpired,
              { issue with consumedAt := some w₂.now }, ?_, rfl⟩
            rw [← hkey]
            exact Table.get_put_self w₂.store.issues { issue with consumedAt := some w₂.now }
        · rintro x _ ⟨-, -, rfl⟩
          exact resultEnd_error hleaves
      · exact turn_openIssue hbox hleaves hconfig hsealedConfig hurl hsealedUrl
          ⟨⟨rfl, d, hd, hactive⟩, ⟨vpnUrl, rfl, hanswered⟩, hunexpired, issue, hissue, rfl⟩

end States

/-- The rest of the backend: time goes by and other requests are made, but the devices, the
issues and the storage lock are left alone. -/
structure DeviceTick (w w' : World (ω × Requests)) : Prop where
  devices : w'.store.devices = w.store.devices
  issues : w'.store.issues = w.store.issues
  lock : w'.lock = w.lock
  now : w.now ≤ w'.now
  requests : w.agents.2 ⊆ w'.agents.2

/-- What a call of the device service ends in. -/
def callEnd (box : SecretBox) (b : Services) (i : Nat) (call : DeviceCall) :
    TurnPost (World (ω × Requests)) Exc DeviceReply :=
  fun r w₀ w => (statesContract ω box b).Leaves i w₀ w ∧
    ∀ actor deviceId result, call = .issueResult actor deviceId → r = .ok (.result result) →
      ResultFits b w deviceId result

theorem turn_deviceCall (hstorage : P.StorageWorks) (htexts : P.AnswersTexts) (hbox : P.box.Sound)
    {i : Nat} {w : World (ω × Requests)} {call : DeviceCall}
    (hinv : DeviceStates P.box b w.store w.agents.2) :
    turn P.recorded.kernel (statesContract ω P.box b) i (b.deviceCall call)
      (callEnd P.box b i call) w w := by
  cases call with
  | create user name serverNodeId client =>
    refine turn_seq (States.turn_create htexts hinv) (fun _ _ _ h => ⟨h, ?_⟩) fun _ _ _ h => ⟨h, ?_⟩
    · rintro _ _ _ ⟨⟩
    · rintro _ _ _ ⟨⟩
  | revoke actor deviceId client =>
    refine turn_seq (States.turn_revoke hstorage hinv) (fun _ _ _ h => ⟨h, ?_⟩) fun _ _ _ h => ⟨h, ?_⟩
    · rintro _ _ _ ⟨⟩
    · rintro _ _ _ ⟨⟩
  | issueResult actor deviceId =>
    refine turn_seq (States.turn_issueResult hbox hinv) ?_ ?_
    · rintro result w₁ w' ⟨hleaves, hfits⟩
      refine ⟨hleaves, fun actor deviceId result' hcall hresult => ?_⟩
      cases hcall
      cases hresult
      exact hfits result rfl
    · rintro x w₁ w' ⟨hleaves, -⟩
      refine ⟨hleaves, fun _ _ _ _ hresult => ?_⟩
      cases hresult

/-- However calls of the device service are interleaved: between their turns the devices and
issues fit together and revoked devices stay revoked, and a call of `issue_result` returns, in
the state it ends in, what the agent answered for an active device and has not expired. -/
theorem deviceStates_of_run (hstorage : P.StorageWorks) (htexts : P.AnswersTexts)
    (hbox : P.box.Sound) {w : World (ω × Requests)}
    (hstart : DeviceStates P.box b w.store w.agents.2)
    {y : Loop (World (ω × Requests)) Op.Res Exc DeviceReply DeviceCall}
    (hrun : Relation.ReflTransGen (Loop.Step P.recorded.kernel DeviceTick b.deviceCall)
      { shared := w } y) :
    (y.active = none → DeviceStates P.box b y.shared.store y.shared.agents.2 ∧
      ∀ y', Relation.ReflTransGen (Loop.Step P.recorded.kernel DeviceTick b.deviceCall) y y' →
        y'.active = none → RevokedStay y.shared.store y'.shared.store) ∧
    ∀ y' i actor deviceId result, Loop.Step P.recorded.kernel DeviceTick b.deviceCall y y' →
      y.running i ≠ some (.issueResult actor deviceId, .ret (.result result)) →
      y'.running i = some (.issueResult actor deviceId, .ret (.result result)) →
      ResultFits b y'.shared deviceId result := by
  have hQ : ∀ i call r w₀ w, callEnd P.box b i call r w₀ w →
      (statesContract ω P.box b).Leaves i w₀ w := fun _ _ _ _ _ h => h.1
  have htick : ∀ w w', DeviceTick w w' → (statesContract ω P.box b).inv w →
      (statesContract ω P.box b).inv w' ∧ ∀ i, (statesContract ω P.box b).rely i w w' := by
    intro w w' h hinv
    refine ⟨hinv.frame h.devices h.issues h.requests, fun i => ?_⟩
    exact ⟨revokedStay_of_devices h.devices, fun hi => ⟨h.lock.trans hi, h.devices⟩⟩
  have hprogram : ∀ i call w, (statesContract ω P.box b).inv w →
      turn P.recorded.kernel (statesContract ω P.box b) i (b.deviceCall call)
        (callEnd P.box b i call) w w := fun _ _ _ h => turn_deviceCall hstorage htexts hbox h
  have hy := Loop.invariant_reachable hQ htick hprogram hstart hrun
  refine ⟨fun hturn => ⟨(hy.inv hturn).1, fun y' h hturn' => ?_⟩, ?_⟩
  · have htrans : ∀ w w' w'' : World (ω × Requests), RevokedStay w.store w'.store →
        RevokedStay w'.store w''.store → RevokedStay w.store w''.store := fun _ _ _ h h' => h.trans h'
    exact Loop.related_reachable (R := fun w w' => RevokedStay w.store w'.store)
      (c := statesContract ω P.box b) (fun w => .refl w.store) htrans (fun _ _ _ h => h.1) hQ htick
      hprogram hy hturn h hturn'
  · intro y' i actor deviceId result hstep hbefore hend
    have hends : ∃ w₀, callEnd P.box b i (.issueResult actor deviceId) (.ok (.result result)) w₀ y'.shared :=
      hy.ends hprogram hstep hend hbefore
    obtain ⟨w₀, hends⟩ := hends
    exact hends.2 actor deviceId result rfl rfl

section Recorded
variable (S : Scenario ω)

/-- The scenario with the requests kept in mind. -/
def Scenario.recorded : Scenario (ω × Requests) where
  kind := S.kind
  agent fault agents request :=
    ((S.agent fault agents.1 request).1, (S.agent fault agents.1 request).2,
      agents.2 ++ [(request, (S.agent fault agents.1 request).1)])
  raises := S.raises

theorem Scenario.exchange_recorded {agents agents' : ω × Requests} {request : Request}
    {r : Except Exc AgentResponse} (h : S.recorded.platform.exchange agents request r agents') :
    S.platform.recorded.exchange agents request r agents' := by
  obtain ⟨fault, hagent⟩ := h
  cases hagent
  exact ⟨⟨fault, rfl⟩, rfl⟩

theorem Scenario.env_recorded {i : Nat} {w w' : World (ω × Requests)} {e : Op} {r : e.Res}
    (h : S.recorded.platform.env i w e r w') : S.platform.recorded.env i w e r w' := by
  cases e with
  | request request =>
    cases r with
    | ok response =>
      obtain ⟨agents, hexchange, hw⟩ := h
      exact ⟨agents, S.exchange_recorded hexchange, hw⟩
    | error x =>
      obtain ⟨agents, hexchange, hw⟩ := h
      exact ⟨agents, S.exchange_recorded hexchange, hw⟩
  | _ => cases r <;> exact h

theorem Scenario.box_sound : Scenario.box.Sound where
  decrypt := by
    rintro text _ rfl
    rfl
  nonempty := by
    rintro text _ rfl
    simp [Scenario.sealText]

theorem Sample.answersTexts (kind : StorageKind) : (Sample.scenario kind).platform.AnswersTexts := by
  rintro agents request response agents' ⟨fault, h⟩ hstatus
  simp only [Sample.scenario, Sample.agent] at h
  cases fault with
  | some x => cases h
  | none =>
    dsimp only at h
    split at h
    · cases h
      exact Sample.issueResult_issuedPayload
    · cases h
      cases hstatus

/-- A device is created and its config read. -/
def issuedRun : Loop (World (Unit × Requests)) Op.Res Exc DeviceReply DeviceCall :=
  Loop.play (Sample.scenario .database).platform.recorded.kernel
    (Sample.scenario .database).recorded.answer Sample.services.deviceCall
    ([.start 0 (.create Sample.user (lit "phone") (some (lit "n")) {})] ++
      List.replicate 30 (.act 0 none) ++ [.start 1 (.issueResult Sample.user (lit "iun"))] ++
      List.replicate 10 (.act 1 none))
    { shared := { store := Sample.store, agents := ((), []) } }

theorem deviceStates_of_issuedRun :
    issuedRun.active = none ∧ issuedRun.shared.store.devices.values.map (·.status) = [.active] ∧
      DeviceStates Scenario.box Sample.services issuedRun.shared.store issuedRun.shared.agents.2 := by
  have hrest : issuedRun.active = none := by decide +kernel
  refine ⟨hrest, by decide +kernel, ?_⟩
  have hstart : DeviceStates Scenario.box Sample.services Sample.store [] := by
    constructor <;> rintro _ _ ⟨⟩
  have hrun := Loop.play_reachable (K := (Sample.scenario .database).platform.recorded.kernel)
    (fun i fault _ _ _ _ h => Scenario.env_recorded _ (Scenario.answer_env _ i fault h))
    DeviceTick Sample.services.deviceCall
    ([.start 0 (.create Sample.user (lit "phone") (some (lit "n")) {})] ++
      List.replicate 30 (.act 0 none) ++ [.start 1 (.issueResult Sample.user (lit "iun"))] ++
      List.replicate 10 (.act 1 none))
    { shared := { store := Sample.store, agents := ((), []) } }
  have hstorage : (Sample.scenario .database).platform.StorageWorks := fun _ _ _ h => by cases h
  exact ((deviceStates_of_run hstorage (Sample.answersTexts .database) Scenario.box_sound
    (w := { store := Sample.store, agents := ((), []) }) hstart hrun).1 hrest).1

end Recorded
end VpnControl.Backend
