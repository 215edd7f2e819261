import VpnControl.Lib.Monitor
import VpnControl.Backend.UnderLock
import VpnControl.Backend.DeviceStates

namespace VpnControl.Backend
open Strings Json Effects Prog

variable {ω : Type} {P : Platform ω} {b : Services} {i : Nat}

/-- The device is failed, or active with a key, an address and a stored issue. -/
def Settled (s : Store) (deviceId : Text) : Prop :=
  ∃ d, s.getDevice deviceId = some d ∧ (d.status = .failed ∨
    d.status = .active ∧ d.publicKey ≠ none ∧ d.clientIp ≠ none ∧ s.getIssue deviceId ≠ none)

/-- The ends of the agent's call that `create` is prepared for: an `AppError`, or a result with
a key and an address that the storage takes and two texts that can be encrypted. -/
def Handled (P : Platform ω) : Except Exc AgentIssueResult → Prop
  | .ok result => (result.publicKey.value ≠ .null ∧ P.Takes .publicKey result.publicKey) ∧
      (result.clientIp.value ≠ .null ∧ P.Takes .clientIp result.clientIp) ∧
      (∃ config, result.config = .text config) ∧ ∃ vpnUrl, result.vpnUrl = .text vpnUrl
  | .error (.app _) => True
  | .error _ => False

/-- An execution of `create` that adds `device`, in which the agent's call ends in `r`. -/
inductive CreateRun (P : Platform ω) (b : Services) (i : Nat) (user : User) (name : Text)
    (serverNodeId : Option Text) (client : ClientMeta) (w : World ω) (device : Device)
    (r : Except Exc AgentIssueResult) (out : Except Exc (Device × IssueOut)) (w' : World ω) : Prop
  | mk {w₁ w₂ w₃ w₄ : World ω} {node : ServerNode}
      (acquired : Runs (P.seen i) (ask .acquire) w (.ok ()) w₁)
      (provisioned : Runs (P.seen i) (Services.provision user name serverNodeId) w₁
        (.ok (device, node)) w₂)
      (called : Runs (P.seen i) (b.issuePeer node (user.displayName ++ lit " — " ++ device.name) []
        node.publicHost [(lit "backend_device_id", .str device.id)]) w₂ r w₃)
      (settled : Runs (P.seen i) (b.settleIssue user device node client r) w₃ out w₄)
      (released : Runs (P.seen i) (ask .release) w₄ (.ok ()) w')

section Parts
variable {c : Contract (World ω)} {w₀ w : World ω} {user : User} {device : Device}
  {node : ServerNode} {client : ClientMeta}

theorem column_eq_none {wire : Wire} {value : WireValue} :
    column wire value = none ↔ value.value = .null := by
  obtain ⟨value, surrogate⟩ := value
  cases value <;> simp [column]

/-- What `create` has done before it calls the agent. -/
structure Provisioned (device : Device) (w w' : World ω) : Prop where
  stored : w'.store.getDevice device.id = some device
  provisional : device.Provisional
  issue : w'.store.getIssue device.id = none
  lock : w'.lock = w.lock

theorem turn_provisioned {name : Text} {serverNodeId : Option Text} :
    turn P.kernel c i (Services.provision user name serverNodeId)
      (fun r _ w' => ∀ device node, r = .ok (device, node) → Provisioned device w w') w₀ w := by
  unfold Services.provision
  apply turn_writes_seq (S := []) (Services.writes_enforceLimit user)
  · intro _ w' h
    obtain rfl := h.eq
    apply turn_writes_seq (S := []) (Services.writes_chooseNode serverNodeId)
    · intro node w' h
      obtain rfl := h.eq
      apply turn_writes_seq (S := []) (writes_read rfl rfl)
      · intro now w' h
        obtain rfl := h.eq
        apply turn_ask_seq rfl
        · rintro id v ⟨hfresh, hv⟩
          subst hv
          apply turn_ask_seq rfl
          · rintro _ _ rfl device node h
            cases h
            exact ⟨Table.get_put_self _ _, ⟨rfl, rfl, rfl⟩, hfresh.issueDevice, rfl⟩
          · rintro x _ - _ _ ⟨⟩
        · rintro x _ - _ _ ⟨⟩
      · rintro x _ - _ _ ⟨⟩
    · rintro x _ - _ _ ⟨⟩
  · rintro x _ - _ _ ⟨⟩

/-- Until the agent's call ends, the provisional device stays as it is. -/
theorem turn_calledAgent {name : Text} {metadata : List (Text × Doc)} (hmine : w.lock = some i)
    (hdevice : w.store.getDevice device.id = some device)
    (hissue : w.store.getIssue device.id = none) :
    turn P.kernel (lockContract ω) i (b.issuePeer node name [] node.publicHost metadata)
      (fun _ _ w' => w'.store.getDevice device.id = some device ∧
        w'.store.getIssue device.id = none) w w := by
  refine turn_issuePeer (leaves_lock (.inr hmine)) (fun _ _ => ⟨hdevice, hissue⟩) ?_
  intro w₁ headers r agents _ hrely _
  obtain ⟨-, hdevices, hissues⟩ := hrely hmine
  refine ⟨?_, hissues _ hissue⟩
  change w₁.store.devices.get _ = _
  rw [hdevices]
  exact hdevice

theorem turn_settledFailed {e : AppError} (hstorage : P.StorageWorks) :
    turn P.kernel c i (Services.issueFailed user device node client e >>= fun _ =>
        raise (α := Device × IssueOut) e)
      (fun _ _ w' => Settled w'.store device.id) w₀ w := by
  unfold Services.issueFailed
  simp only [bind_assoc]
  refine turn_now_seq ?_
  apply turn_ask_seq rfl
  · rintro _ w₁ hw₁
    have hsettled : ∀ w₂, Frame [.audit] w₁ w₂ → Settled w₂.store device.id := by
      intro w₂ h₂
      refine ⟨{ device with status := .failed, failureMessage := some e.message, updatedAt := w.now },
        ?_, .inl rfl⟩
      have hdevices : w₂.store.devices = w₁.store.devices := h₂.same .devices (by simp)
      rw [Store.getDevice, hdevices, hw₁]
      exact Table.get_put_self _ _
    exact turn_writes_seq (S := [.audit]) (writes_auditLog (by simp)) (fun _ w₂ h₂ => hsettled w₂ h₂)
      fun _ w₂ h₂ => hsettled w₂ h₂
  · rintro x _ ⟨-, hx, -⟩
    exact absurd hx (hstorage _ x rfl)

/-- The device stands as an active one, with or without a stored issue. -/
theorem settled_iff_of_active {s : Store} {d : Device} {id : Text} (hd : s.getDevice id = some d)
    (hactive : d.status = .active) :
    Settled s id ↔ d.publicKey ≠ none ∧ d.clientIp ≠ none ∧ s.getIssue id ≠ none := by
  constructor
  · rintro ⟨d', hd', hstatus⟩
    rw [hd, Option.some.injEq] at hd'
    subst hd'
    rcases hstatus with hfailed | ⟨-, h⟩
    · rw [hactive] at hfailed
      cases hfailed
    · exact h
  · exact fun h => ⟨d, hd, .inr ⟨hactive, h⟩⟩

theorem turn_encryptValue {value : WireValue} {β : Type} {f : Text → Task β}
    {Q : TurnPost (World ω) Exc β}
    (htext : ∀ text sealed, value = .text text → turn P.kernel c i (f sealed) Q w₀ w)
    (hother : ∀ x, (∀ text, value ≠ .text text) → Q (.error x) w₀ w) :
    turn P.kernel c i (Services.encryptValue value >>= f) Q w₀ w := by
  obtain ⟨value, surrogate⟩ := value
  cases value with
  | str text =>
    cases surrogate with
    | false =>
      apply turn_ask_seq rfl
      · rintro sealed _ ⟨-, rfl⟩
        exact htext text sealed rfl
      · rintro x _ ⟨⟨⟩, -⟩
    | true => exact hother _ fun text h => by cases h
  | _ => exact hother _ fun text h => by cases h

/-- A value on its way into a column: one that the storage does not take ends the call. -/
theorem turn_bindColumn {column : DeviceColumn} {value : WireValue} {β : Type} {f : Unit → Task β}
    {Q : TurnPost (World ω) Exc β}
    (htakes : P.Takes column value → turn P.kernel c i (f ()) Q w₀ w)
    (hrefused : ∀ x, ¬ P.Takes column value → Q (.error x) w₀ w) :
    turn P.kernel c i (ask (.bindColumn column value) >>= f) Q w₀ w := by
  apply turn_ask_seq rfl
  · rintro ⟨⟩ _ ⟨h, rfl⟩
    exact htakes h
  · rintro x _ ⟨h, -, rfl⟩
    exact hrefused x h

theorem Device.Provisional.unsettled {s : Store} (hdevice : s.getDevice device.id = some device)
    (hd : device.Provisional) : ¬ Settled s device.id := by
  rintro ⟨d, hd', hstatus⟩
  rw [hdevice, Option.some.injEq] at hd'
  subst hd'
  simp [hd.status] at hstatus

theorem turn_settledIssued {result : AgentIssueResult} (hstorage : P.StorageWorks)
    (hdevice : w.store.getDevice device.id = some device) (hd : device.Provisional)
    (hissue : w.store.getIssue device.id = none) :
    turn P.kernel c i (b.issued user device node client result)
      (fun _ _ w' => Settled w'.store device.id ↔ Handled P (.ok result)) w₀ w := by
  unfold Services.issued
  refine turn_now_seq ?_
  refine turn_bindColumn (fun hkeyTaken => ?_) fun x hrefused => ?_
  swap
  · exact iff_of_false (hd.unsettled hdevice) fun h => hrefused h.1.2
  refine turn_bindColumn (fun hipTaken => ?_) fun x hrefused => ?_
  swap
  · exact iff_of_false (hd.unsettled hdevice) fun h => hrefused h.2.1.2
  apply turn_ask_seq rfl
  swap
  · rintro x _ ⟨-, hx, -⟩
    exact absurd hx (hstorage _ x rfl)
  rintro _ w₁ hw₁
  obtain ⟨d, hstored, hactive, hkey, hip⟩ : ∃ d, w₁.store.getDevice device.id = some d ∧
      d.status = .active ∧ d.publicKey = column b.wire result.publicKey ∧
      d.clientIp = column b.wire result.clientIp := by
    rw [hw₁]
    exact ⟨_, Table.get_put_self _ _, rfl, rfl, rfl⟩
  have hnone : w₁.store.getIssue device.id = none := by
    rw [hw₁]
    exact hissue
  clear hw₁
  -- without an issue in the end the device is not settled
  have hwithout : ¬ Settled w₁.store device.id := fun h =>
    ((settled_iff_of_active hstored hactive).mp h).2.2 hnone
  apply turn_ask_seq rfl
  swap
  · rintro x _ ⟨⟨⟩, -⟩
  rintro id _ ⟨-, rfl⟩
  refine turn_encryptValue (fun config sealedConfig hconfig => ?_) fun x hconfig => ?_
  swap
  · exact iff_of_false hwithout fun h => h.2.2.1.elim hconfig
  refine turn_encryptValue (fun vpnUrl sealedUrl hurl => ?_) fun x hurl => ?_
  swap
  · exact iff_of_false hwithout fun h => h.2.2.2.elim hurl
  apply turn_ask_seq rfl
  swap
  · rintro x _ ⟨-, hx, -⟩
    exact absurd hx (hstorage _ x rfl)
  rintro _ w₂ hw₂
  have hsettled : ∀ w₃, Frame [.audit] w₂ w₃ →
      (Settled w₃.store device.id ↔ Handled P (.ok result)) := by
    intro w₃ h₃
    have hdevices : w₃.store.devices = w₂.store.devices := h₃.same .devices (by simp)
    have hissues : w₃.store.issues = w₂.store.issues := h₃.same .issues (by simp)
    have hstored₃ : w₃.store.getDevice device.id = some d := by
      rw [Store.getDevice, hdevices, hw₂]
      exact hstored
    have hissue₃ : w₃.store.getIssue device.id ≠ none := by
      rw [Store.getIssue, hissues, hw₂]
      simp only [Store.saveIssue]
      rw [Table.get_put, if_pos rfl]
      simp
    rw [settled_iff_of_active hstored₃ hactive, hkey, hip]
    simp [Handled, hconfig, hurl, hissue₃, column_eq_none, hkeyTaken, hipTaken]
  exact turn_writes_seq (S := [.audit]) (writes_auditLog (by simp)) (fun _ w₃ h₃ => hsettled w₃ h₃)
    fun _ w₃ h₃ => hsettled w₃ h₃

theorem turn_settled {r : Except Exc AgentIssueResult} (hstorage : P.StorageWorks)
    (hdevice : w.store.getDevice device.id = some device) (hd : device.Provisional)
    (hissue : w.store.getIssue device.id = none) :
    turn P.kernel c i (b.settleIssue user device node client r)
      (fun _ _ w' => Settled w'.store device.id ↔ Handled P r) w₀ w := by
  cases r with
  | ok result => exact turn_settledIssued hstorage hdevice hd hissue
  | error x =>
    have hunsettled := hd.unsettled hdevice
    cases x with
    | app e =>
      exact turn_mono (turn_settledFailed hstorage) fun _ _ _ h => iff_of_true h trivial
    | _ => exact iff_of_false hunsettled not_false

end Parts

/-- Once an execution of `create` has ended, the device it added is settled exactly if the end
of the agent's call was one that `create` is prepared for. -/
theorem CreateRun.settled_iff (hstorage : P.StorageWorks) {user : User} {name : Text}
    {serverNodeId : Option Text} {client : ClientMeta} {w w' : World ω} {device : Device}
    {r : Except Exc AgentIssueResult} {out : Except Exc (Device × IssueOut)}
    (h : CreateRun P b i user name serverNodeId client w device r out w') :
    Settled w'.store device.id ↔ Handled P r := by
  obtain ⟨acquired, provisioned, called, settled, released⟩ := h
  rename_i w₁ w₂ w₃ w₄ node
  have hmine := runs_acquire acquired
  obtain ⟨_, hprovisioned⟩ := provisioned.ends turn_provisioned
  obtain ⟨hstored, hd, hissue, hlock⟩ := hprovisioned device node rfl
  obtain ⟨_, hstored₃, hissue₃⟩ :=
    called.ends (turn_calledAgent (hlock.trans hmine) hstored hissue)
  obtain ⟨_, hsettled⟩ := settled.ends (turn_settled hstorage hstored₃ hd hissue₃)
  rw [(runs_release released).2]
  exact hsettled

/-- Every execution of `create` adds a device and calls the agent, or ends in an error before. -/
theorem runs_create {user : User} {name : Text} {serverNodeId : Option Text} {client : ClientMeta}
    {w w' : World ω} {out : Except Exc (Device × IssueOut)}
    (h : Runs (P.seen i) (b.create user name serverNodeId client) w out w') :
    (∃ device r, CreateRun P b i user name serverNodeId client w device r out w') ∨
      ∃ x w₁, out = .error x ∧ Runs (P.seen i) (do
        ask .acquire
        Services.provision user name serverNodeId) w (.error x) w₁ := by
  rcases runs_bind.mp h with ⟨x, hout, hacquire⟩ | ⟨_, w₁, acquired, h⟩
  · exact .inr ⟨x, w', hout, runs_bind.mpr (.inl ⟨x, rfl, hacquire⟩)⟩
  rcases runs_bind.mp h with ⟨x, -, hattempt⟩ | ⟨r, w₂, hattempt, h⟩
  · obtain ⟨_, ⟨⟩, -⟩ := runs_attempt.mp hattempt
  obtain ⟨_, hr, hbody⟩ := runs_attempt.mp hattempt
  cases hr
  rcases runs_bind.mp h with ⟨x, -, hrelease⟩ | ⟨_, w₃, released, h⟩
  · cases (runs_release hrelease).1
  obtain ⟨rfl, rfl⟩ := runs_lift.mp h
  rcases runs_bind.mp hbody with ⟨x, rfl, hprovision⟩ | ⟨⟨device, node⟩, w₄, provisioned, h⟩
  · exact .inr ⟨x, w₂, rfl, runs_bind.mpr (.inr ⟨_, w₁, acquired, hprovision⟩)⟩
  rcases runs_bind.mp h with ⟨x, -, hattempt⟩ | ⟨r', w₅, hattempt, settled⟩
  · obtain ⟨_, ⟨⟩, -⟩ := runs_attempt.mp hattempt
  obtain ⟨_, hr, called⟩ := runs_attempt.mp hattempt
  cases hr
  exact .inl ⟨device, r', acquired, provisioned, called, settled, released⟩

/-- The rest of the backend: it has no part in the devices, their issues and the storage lock. -/
structure LeavesIssues (w w' : World ω) : Prop where
  devices : w'.store.devices = w.store.devices
  issues : w'.store.issues = w.store.issues
  lock : w'.lock = w.lock

/-- However calls of the device service are interleaved and whatever the agents answer: in the
very state in which a call of `create` ends, the device it added is settled exactly if the agent's
call ended as `create` is prepared for, or it ended before it added one. -/
theorem create_settled_iff (hstorage : P.StorageWorks) {w : World ω}
    {y y' : Loop (World ω) Op.Res Exc DeviceReply DeviceCall}
    (hrun : Relation.ReflTransGen (Loop.Step P.kernel LeavesIssues b.deviceCall) { shared := w } y)
    (hstep : Loop.Step P.kernel LeavesIssues b.deviceCall y y') {user : User} {name : Text}
    {serverNodeId : Option Text} {client : ClientMeta} {out : Except Exc DeviceReply}
    (hend : y'.running i = some (.create user name serverNodeId client, lift out))
    (hbefore : y.running i ≠ some (.create user name serverNodeId client, lift out)) :
    ∃ w₀ created, out = created.map (fun (device, issue) => DeviceReply.created device issue) ∧
      ((∃ device r, CreateRun P b i user name serverNodeId client w₀ device r created y'.shared ∧
          (Settled y'.shared.store device.id ↔ Handled P r)) ∨
        ∃ x w₁, created = .error x ∧ Runs (P.seen i) (do
          ask .acquire
          Services.provision user name serverNodeId) w₀ (.error x) w₁) := by
  have htick : ∀ w w' : World ω, LeavesIssues w w' → (lockContract ω).inv w →
      (lockContract ω).inv w' ∧ ∀ i, (lockContract ω).rely i w w' := by
    refine fun w w' h _ => ⟨trivial, fun i hi => ⟨h.lock.trans hi, h.devices, fun id hid => ?_⟩⟩
    rw [Store.getIssue, h.issues]
    exact hid
  obtain ⟨w₀, -, hruns⟩ := Loop.runs_ends
    (Q := fun i _ _ w₁ w' => (lockContract ω).Leaves i w₁ w') (fun _ _ _ _ _ h => h) htick
    (fun i call w _ => Locked.turn_lockedCall call) trivial hrun hstep hend hbefore
  obtain ⟨created, hout, hcreate⟩ : ∃ created,
      out = created.map (fun (device, issue) => DeviceReply.created device issue) ∧
        Runs (P.seen i) (b.create user name serverNodeId client) w₀ created y'.shared := by
    rcases runs_bind.mp hruns with ⟨x, hout, hcreate⟩ | ⟨reply, w₁, hcreate, hreply⟩
    · exact ⟨.error x, hout, hcreate⟩
    · obtain ⟨hout, hw⟩ := runs_ret.mp hreply
      exact ⟨.ok reply, hout, hw ▸ hcreate⟩
  refine ⟨w₀, created, hout, ?_⟩
  rcases runs_create hcreate with ⟨device, r, h⟩ | hnone
  · exact .inl ⟨device, r, h, h.settled_iff hstorage⟩
  · exact .inr hnone

namespace Sample

def phoneCall : DeviceCall := .create user (lit "phone") (some (lit "n")) {}

/-- A user creates a device, and the call has done some steps. -/
def phoneRun : Nat → Loop (World Unit) Op.Res Exc DeviceReply DeviceCall
  | 0 => ({ shared := { store, agents := () } } : Loop _ _ _ _ _).put
      (scenario .memory).platform.kernel { store, agents := () } 0 phoneCall
      (services.deviceCall phoneCall)
  | n + 1 => Loop.play (scenario .memory).platform.kernel (scenario .memory).answer
      services.deviceCall [.act 0 none] (phoneRun n)

theorem reachable_phoneRun (n : Nat) :
    Relation.ReflTransGen
      (Loop.Step (scenario .memory).platform.kernel LeavesIssues services.deviceCall)
      { shared := { store, agents := () } } (phoneRun n) := by
  induction n with
  | zero => exact .single (.start 0 phoneCall rfl rfl)
  | succ n ih => exact ih.trans ((scenario .memory).play_reachable _ _ _ _)

theorem phoneRun_running (n : Nat) : ∃ p, (phoneRun n).running 0 = some (phoneCall, p) := by
  induction n with
  | zero => exact ⟨_, Loop.put_running_self _ _ _ _ _ _⟩
  | succ n ih =>
    obtain ⟨p, hp⟩ := ih
    exact Loop.running_reachable
      ((scenario .memory).play_reachable LeavesIssues services.deviceCall [.act 0 none] _) hp

end Sample

theorem create_settled_iff_phone : ∃ w₀ created,
    (Sample.phoneRun 21).running 0 = some (Sample.phoneCall,
      lift (Except.map (fun (device, issue) => DeviceReply.created device issue) created)) ∧
    created.isOk = true ∧
    ∃ device r, CreateRun (Sample.scenario .memory).platform Sample.services 0 Sample.user
        (lit "phone") (some (lit "n")) {} w₀ device r created (Sample.phoneRun 21).shared ∧
      (Settled (Sample.phoneRun 21).shared.store device.id ↔
        Handled (Sample.scenario .memory).platform r) := by
  obtain ⟨p, hp⟩ := Sample.phoneRun_running 21
  have hends : ((Sample.phoneRun 21).running 0).bind (Sample.outcomeOf ·.2) = some true := by
    decide +kernel
  have hgoes : ((Sample.phoneRun 20).running 0).bind (Sample.outcomeOf ·.2) = none := by
    decide +kernel
  have hstep : Loop.Step (Sample.scenario .memory).platform.kernel LeavesIssues
      Sample.services.deviceCall (Sample.phoneRun 20) (Sample.phoneRun 21) := by
    refine (Loop.play_move (K := (Sample.scenario .memory).platform.kernel)
      (fun i fault _ _ _ _ h => (Sample.scenario .memory).answer_env i fault h)
      LeavesIssues Sample.services.deviceCall (.act 0 none) (Sample.phoneRun 20)).resolve_left fun h => ?_
    change Sample.phoneRun 21 = Sample.phoneRun 20 at h
    rw [h, hgoes] at hends
    cases hends
  rw [hp] at hends
  cases p with
  | fail | op => cases hends
  | ret reply =>
    have hbefore : (Sample.phoneRun 20).running 0 ≠ some (Sample.phoneCall, lift (.ok reply)) := by
      intro h
      rw [h] at hgoes
      cases hgoes
    obtain ⟨w₀, created, hout, h⟩ := create_settled_iff (fun _ _ _ h => by cases h)
      (Sample.reachable_phoneRun 20) hstep hp hbefore
    cases created with
    | error x => cases hout
    | ok created =>
      rcases h with h | ⟨x, _, ⟨⟩, -⟩
      exact ⟨w₀, .ok created, hout ▸ hp, rfl, h⟩

/-- The agent's answer "created" without a payload. -/
def emptyAnswer : Scenario Unit where
  kind := .memory
  agent _ agents _ := (.ok ⟨201, .obj [], []⟩, agents)
  raises _ _ := false

def emptyAnswerRun : Loop (World Unit) Op.Res Exc DeviceReply DeviceCall :=
  Loop.play emptyAnswer.platform.kernel emptyAnswer.answer Sample.services.deviceCall
    ([.start 0 (.create Sample.user (lit "phone") (some (lit "n")) {})] ++
      List.replicate 30 (.act 0 none))
    { shared := { store := Sample.store, agents := () } }

/-- The call is over and the device is still provisional. -/
theorem create_leaves_provisional :
    Relation.ReflTransGen
      (Loop.Step emptyAnswer.platform.kernel (fun _ _ => False) Sample.services.deviceCall)
      { shared := { store := Sample.store, agents := () } } emptyAnswerRun ∧
    (match emptyAnswerRun.running 0 with
      | some (_, .fail (.other kind)) => kind
      | _ => []) = lit "KeyError" ∧
    emptyAnswerRun.shared.store.devices.values.map (·.status) = [.provisioning] :=
  ⟨emptyAnswer.play_reachable _ _ _ _, by decide +kernel, by decide +kernel⟩

end VpnControl.Backend
